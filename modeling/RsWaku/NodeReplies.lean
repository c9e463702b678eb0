import RsWaku.NodeLimits
import RsWaku.RestSubscribe

/-! What the handles of the node get back: every call that the loop takes up is answered at most
once and with its own answer, and a call that the loop does not answer before it ends fails. -/
namespace RsWaku
open Reactive
variable {crates : Crates} {crate : EnrCrate} {config : NodeConfig}

def Command.sender : Command → Option ReplySender
  | .subscribe _ reply | .publish _ _ reply | .dial _ reply => some reply
  | .request command => some command.reply
  | .shutdown => none

def NodeEffect.sent : NodeEffect → Option (ReplySender × CommandReply)
  | .reply sender answer => some (sender, answer)
  | _ => none

def repliesOn (sender : ReplySender) (out : List NodeEffect) : List CommandReply :=
  Correlation.handedTo sender (out.filterMap NodeEffect.sent)

/-- What a call of the handle returns for the channel that it waits on: the first reply, or an
error once the channel is dropped without one because the loop has ended. -/
def NodeHandle.await (t : Turn Node NodeEffect) (sender : ReplySender) :
    Option (Except NodeError CommandValue) :=
  match (repliesOn sender t.out).head? with
  | some reply => some (reply.mapError .command)
  | none => if t.goesOn then none else some (.error .nodeStopped)

def LoopInput.answerTo (service : Service) (id : OutboundRequestId) :
    LoopInput → Option CommandReply
  | .event (.response i r) =>
    if r.service = service ∧ i = id then some (.ok (.response r)) else none
  | .event (.outboundFailure s i error) =>
    if s = service ∧ i = id then some (.error error) else none
  | _ => none

/-- The answer to a command, given what the loop takes up after it. A request waits for the first
Response or OutboundFailure with its id; the rest is answered from what the swarm says at once. -/
def Command.answer (crates : Crates) (w : World crate) (later : List (World crate × LoopInput)) :
    Command → Option CommandReply
  | .subscribe shard _ => some ((w.subscribe shard.pubsubTopic).map fun _ => .done)
  | .publish shard message _ => some ((publishReply crates w.gossip shard message).map .published)
  | .dial addr _ => some ((w.dial addr).map fun _ => .done)
  | .request c => later.findSome? fun i => i.2.answerTo c.service w.nextId
  | .shutdown => none

def FreshCommands (inputs : List (World crate × LoopInput)) : Prop :=
  inputs.Pairwise fun i j => ∀ c c', i.2 = .command c → j.2 = .command c' →
    (∀ sender, c.sender = some sender → c'.sender ≠ some sender) ∧
    ∀ r r', c = .request r → c' = .request r' → r.service = r'.service → i.1.nextId ≠ j.1.nextId

/-- Requests wait under their behaviour and id, the other commands for a moment under their own
channel. -/
abbrev ReplyKey := (Service × OutboundRequestId) ⊕ ReplySender

def Pending.replyTable (pending : Pending) : ReplyKey → Option ReplySender
  | .inl k => pending.table k
  | .inr _ => none

abbrev ReplyInput := Correlation.Input ReplyKey ReplySender CommandReply

def atOnce (sender : ReplySender) (reply : CommandReply) : List ReplyInput :=
  [.await (.inr sender) sender, .answer (.inr sender) reply]

def replyInputs (crates : Crates) (i : World crate × LoopInput) : List ReplyInput :=
  match i.2 with
  | .command (.subscribe shard reply) =>
    atOnce reply ((i.1.subscribe shard.pubsubTopic).map fun _ => .done)
  | .command (.publish shard message reply) =>
    atOnce reply ((publishReply crates i.1.gossip shard message).map .published)
  | .command (.dial addr reply) => atOnce reply ((i.1.dial addr).map fun _ => .done)
  | .command (.request c) => [.await (.inl (c.service, i.1.nextId)) c.reply]
  | .event (.response id r) => [.answer (.inl (r.service, id)) (.ok (.response r))]
  | .event (.outboundFailure service id error) => [.answer (.inl (service, id)) (.error error)]
  | _ => []

theorem run_atOnce (pending : Pending) (sender : ReplySender) (reply : CommandReply) :
    Correlation.run pending.replyTable (atOnce sender reply) =
      (pending.replyTable, [(sender, reply)]) := by
  have htable : Function.update (Function.update pending.replyTable (.inr sender) (some sender))
      (.inr sender) none = pending.replyTable := by
    rw [Function.update_idem]
    exact Function.update_eq_self (.inr sender) pending.replyTable
  simp [atOnce, Correlation.run, Correlation.step, htable]

theorem replyTable_update {p p' : Pending} {k : Service × OutboundRequestId}
    {value : Option ReplySender} (h : p'.table = Function.update p.table k value) :
    p'.replyTable = Function.update p.replyTable (.inl k) value := by
  funext x
  cases x with
  | inl k' =>
    rw [Pending.replyTable, h]
    by_cases hk : k' = k
    · rw [hk, Function.update_self, Function.update_self]
    · rw [Function.update_of_ne hk, Function.update_of_ne fun heq => hk (Sum.inl.inj heq)]
      rfl
  | inr sender => rw [Function.update_of_ne (by simp)]; rfl

theorem sent_onChannel (es : List Effect) (channel : ResponseChannel) :
    (es.map (Effect.onChannel channel)).filterMap NodeEffect.sent = [] := by
  rw [List.filterMap_map, List.filterMap_eq_nil_iff]
  intro e _
  cases e <;> rfl

theorem sent_sentReplies (sent : List (ReplySender × Reply)) :
    (sentReplies sent).filterMap NodeEffect.sent = sent.map fun x => (x.1, x.2.map .response) := by
  rw [sentReplies, List.filterMap_map]
  exact congrFun List.filterMap_eq_map' sent

theorem sent_lightpushOut (channel : ResponseChannel) (published : Option (String × List UInt8))
    (response : LightpushResponse) :
    (lightpushOut channel published response).filterMap NodeEffect.sent = [] := by
  cases published <;> rfl

theorem resolve_replies (p : Pending) (service : Service) (id : OutboundRequestId)
    (reply : Reply) :
    Correlation.run p.replyTable [.answer (.inl (service, id)) (reply.map .response)] =
      ((p.set service ((p.of service).resolve id reply).1).replyTable,
        (sentReplies ((p.of service).resolve id reply).2).filterMap NodeEffect.sent) := by
  obtain ⟨htable, hsent⟩ := p.resolve_refines service id reply
  rw [sent_sentReplies, hsent, replyTable_update htable]
  simp [Correlation.run, Correlation.step, Pending.replyTable]

theorem turn_replies (n : Node) (i : World crate × LoopInput) :
    Correlation.run n.pending.replyTable (replyInputs crates i) =
      ((n.turn crates config i).state.pending.replyTable,
        (n.turn crates config i).out.filterMap NodeEffect.sent) := by
  obtain ⟨w, input⟩ := i
  cases input with
  | closed => rfl
  | command c =>
    cases c with
    | subscribe shard reply => exact run_atOnce n.pending reply _
    | publish shard message reply => exact run_atOnce n.pending reply _
    | dial addr reply => exact run_atOnce n.pending reply _
    | request c =>
      have htable := (n.pending.handle_refines (.command w.nextId c)).1
      exact Prod.ext (replyTable_update htable).symm rfl
    | shutdown => rfl
  | event e =>
    cases e with
    | swarm event channel =>
      exact Prod.ext rfl (sent_onChannel _ channel).symm
    | storeQuery peer request channel =>
      have hpending : (n.handleStoreQuery config w peer request).1.pending = n.pending := by
        unfold Node.handleStoreQuery
        dsimp only
        split <;> rfl
      exact Prod.ext (congrArg Pending.replyTable hpending.symm) rfl
    | lightpush peer request channel =>
      have hpending : (n.handleLightpush crates w peer request).1.pending = n.pending := by
        unfold Node.handleLightpush
        dsimp only
        split <;> rfl
      exact Prod.ext (congrArg Pending.replyTable hpending.symm)
        (sent_lightpushOut channel _ _).symm
    | peerExchange request channel => rfl
    | response id r =>
      have hturn : n.turn crates config (w, .event (.response id r)) =
        ⟨{ n with pending := (handleResponse n.pending id r).1 },
          sentReplies (handleResponse n.pending id r).2, true⟩ := rfl
      rw [hturn, handleResponse_eq]
      exact resolve_replies n.pending r.service id (.ok r)
    | outboundFailure service id error =>
      have hturn : n.turn crates config (w, .event (.outboundFailure service id error)) =
        ⟨{ n with pending := (handleOutboundFailure n.pending id error service).1 },
          sentReplies (handleOutboundFailure n.pending id error service).2, true⟩ := rfl
      rw [hturn, handleOutboundFailure_eq]
      exact resolve_replies n.pending service id (.error error)
    | other => rfl

def takenUp (crates : Crates) (config : NodeConfig) (inputs : List (World crate × LoopInput)) :
    List (World crate × LoopInput) :=
  (driverTurns crates config inputs).map Prod.snd

theorem driver_replies (inputs : List (World crate × LoopInput)) :
    (driver crates config inputs).out.filterMap NodeEffect.sent =
      (Correlation.run (fun _ => none)
        ((takenUp crates config inputs).flatMap (replyInputs crates))).2 := by
  have hempty : ({} : Node).pending.replyTable = fun _ => none := by
    funext k
    cases k with
    | inl k => exact congrFun Pending.table_empty k
    | inr sender => rfl
  have hsim := @run_simulates Node _ _ (Node.turn crates config) _ _ _ Correlation.run
    (fun n => n.pending.replyTable) (replyInputs crates) NodeEffect.sent (fun _ => rfl)
    Correlation.run_append turn_replies {} inputs
  rw [hempty] at hsim
  exact (congrArg Prod.snd hsim).symm

theorem await_mem {i : World crate × LoopInput} {k : ReplyKey} {sender : ReplySender}
    (h : .await k sender ∈ replyInputs crates i) :
    ∃ c, i.2 = .command c ∧ c.sender = some sender ∧
      (k = .inr sender ∨ ∃ r, c = .request r ∧ k = .inl (r.service, i.1.nextId)) := by
  have hatOnce {reply : CommandReply} {s : ReplySender} (h : .await k sender ∈ atOnce s reply) :
      s = sender ∧ k = .inr sender := by
    simp only [atOnce, List.mem_cons, Correlation.Input.await.injEq, reduceCtorEq,
      List.not_mem_nil, or_false] at h
    obtain ⟨hk, hs⟩ := h
    exact ⟨hs.symm, by rw [hk, hs]⟩
  obtain ⟨w, input⟩ := i
  cases input with
  | closed => cases h
  | command c =>
    refine ⟨c, rfl, ?_⟩
    cases c with
    | subscribe shard reply =>
      obtain ⟨hs, hk⟩ := hatOnce h
      exact ⟨congrArg some hs, Or.inl hk⟩
    | publish shard message reply =>
      obtain ⟨hs, hk⟩ := hatOnce h
      exact ⟨congrArg some hs, Or.inl hk⟩
    | dial addr reply =>
      obtain ⟨hs, hk⟩ := hatOnce h
      exact ⟨congrArg some hs, Or.inl hk⟩
    | request r =>
      obtain ⟨hk, hs⟩ := Correlation.Input.await.inj (List.mem_singleton.mp h)
      exact ⟨congrArg some hs.symm, Or.inr ⟨r, rfl, hk⟩⟩
    | shutdown => cases h
  | event e =>
    cases e with
    | response id r => cases List.mem_singleton.mp h
    | outboundFailure service id error => cases List.mem_singleton.mp h
    | swarm event channel => cases h
    | storeQuery peer request channel => cases h
    | lightpush peer request channel => cases h
    | peerExchange request channel => cases h
    | other => cases h

theorem FreshCommands.takenUp (crates : Crates) (config : NodeConfig)
    {inputs : List (World crate × LoopInput)} (h : FreshCommands inputs) :
    FreshCommands (takenUp crates config inputs) :=
  List.Pairwise.sublist (taken_isPrefixOf (Node.turn crates config) {} inputs).sublist h

theorem FreshCommands.replies {inputs : List (World crate × LoopInput)} (h : FreshCommands inputs) :
    Correlation.Fresh (inputs.flatMap (replyInputs crates)) := by
  refine List.pairwise_flatMap.mpr ⟨fun i _ => ?_, h.imp ?_⟩
  · -- an input makes one channel wait at most, and first
    obtain ⟨w, input⟩ := i
    have hatOnce (s : ReplySender) (reply : CommandReply) : (atOnce s reply).Pairwise
        fun i j => ∀ k t, i = .await k t → j.Avoids k t := by
      simp [atOnce, Correlation.Input.Avoids]
    unfold replyInputs
    split
    · exact hatOnce _ _
    · exact hatOnce _ _
    · exact hatOnce _ _
    · exact List.pairwise_singleton ..
    · exact List.pairwise_singleton ..
    · exact List.pairwise_singleton ..
    · exact List.Pairwise.nil
  · rintro i j hij x hx y hy k t rfl
    cases y with
    | answer k' reply => trivial
    | await k' t' =>
      obtain ⟨c, hi, hsender, hkey⟩ := await_mem hx
      obtain ⟨c', hj, hsender', hkey'⟩ := await_mem hy
      obtain ⟨hsenders, hids⟩ := hij c c' hi hj
      have ht : t' ≠ t := fun heq => hsenders t hsender (heq ▸ hsender')
      refine ⟨fun hk => ?_, ht⟩
      obtain rfl | ⟨r, hr, rfl⟩ := hkey
      · obtain rfl | ⟨r', hr', rfl⟩ := hkey'
        · exact ht (Sum.inr.inj hk)
        · cases hk
      · obtain rfl | ⟨r', hr', rfl⟩ := hkey'
        · cases hk
        · obtain ⟨hservice, hid⟩ := Prod.mk.inj (Sum.inl.inj hk)
          exact hids r r' hr hr' hservice.symm hid.symm

theorem answerTo_replyInputs (service : Service) (id : OutboundRequestId)
    (i : World crate × LoopInput) :
    (replyInputs crates i).findSome? (Correlation.Input.answerTo (.inl (service, id))) =
      i.2.answerTo service id := by
  obtain ⟨w, input⟩ := i
  cases input with
  | closed => rfl
  | command c => cases c <;> rfl
  | event e =>
    cases e with
    | response i r => simp [replyInputs, Correlation.Input.answerTo, LoopInput.answerTo]
    | outboundFailure s i error =>
      simp [replyInputs, Correlation.Input.answerTo, LoopInput.answerTo]
    | swarm event channel => rfl
    | storeQuery peer request channel => rfl
    | lightpush peer request channel => rfl
    | peerExchange request channel => rfl
    | other => rfl

theorem findSome?_flatMap {α β γ : Type*} (f : α → List β) (g : β → Option γ) (l : List α) :
    (l.flatMap f).findSome? g = l.findSome? fun a => (f a).findSome? g := by
  induction l with
  | nil => rfl
  | cons a l ih =>
    rw [List.flatMap_cons, List.findSome?_append, ih, List.findSome?_cons]
    cases (f a).findSome? g <;> rfl

theorem command_replyInputs (w : World crate) {c : Command} {sender : ReplySender}
    (h : c.sender = some sender) :
    ∃ k rest, replyInputs crates (w, .command c) = .await k sender :: rest ∧
      ∀ later, (rest ++ later.flatMap (replyInputs crates)).findSome?
        (Correlation.Input.answerTo k) = c.answer crates w later := by
  have hatOnce {s : ReplySender} (reply : CommandReply) (h : some s = some sender) :
      ∃ k rest, atOnce s reply = .await k sender :: rest ∧
        ∀ later : List (World crate × LoopInput),
          (rest ++ later.flatMap (replyInputs crates)).findSome?
            (Correlation.Input.answerTo k) = some reply := by
    cases h
    exact ⟨_, _, rfl, fun later => by simp [Correlation.Input.answerTo]⟩
  cases c with
  | subscribe shard reply => exact hatOnce _ h
  | publish shard message reply => exact hatOnce _ h
  | dial addr reply => exact hatOnce _ h
  | request r =>
    cases h
    refine ⟨_, _, rfl, fun later => ?_⟩
    rw [List.nil_append, findSome?_flatMap]
    exact congrArg (List.findSome? · later) (funext (answerTo_replyInputs r.service w.nextId))
  | shutdown => cases h

theorem sender_of_reply {inputs : List (World crate × LoopInput)} {x : ReplySender × CommandReply}
    (hx : x ∈ (driver crates config inputs).out.filterMap NodeEffect.sent) :
    ∃ i ∈ takenUp crates config inputs, ∃ c, i.2 = .command c ∧ c.sender = some x.1 := by
  rw [driver_replies] at hx
  obtain ⟨k, hk⟩ | ⟨k, hk⟩ := Correlation.origin_of_mem_run hx
  · cases hk
  · obtain ⟨i, hi, hawait⟩ := List.mem_flatMap.mp hk
    obtain ⟨c, hc, hsender, -⟩ := await_mem hawait
    exact ⟨i, hi, c, hc, hsender⟩

theorem takenUp_split {pre : List (World crate × LoopInput)}
    (h : (driver crates config pre).goesOn = true) (i : World crate × LoopInput)
    (post : List (World crate × LoopInput)) :
    ∃ later, later <+: post ∧
      takenUp crates config (pre ++ i :: post) = pre ++ i :: later := by
  obtain ⟨later, htaken⟩ : ∃ later, ((taken (Node.turn crates config)
      (driver crates config pre).state (i :: post)).map Prod.snd) = i :: later := by
    rw [taken, List.map_cons]
    exact ⟨_, rfl⟩
  have hlater := taken_isPrefixOf (Node.turn crates config) (driver crates config pre).state
    (i :: post)
  rw [htaken, List.cons_prefix_cons] at hlater
  refine ⟨later, hlater.2, ?_⟩
  rw [takenUp, driverTurns, taken_append h, List.map_append, taken_eq h]
  exact congrArg (pre ++ ·) htaken

/-- Whatever the commands and events that the loop finds, each call of a handle gets at most one
reply, its own: the answer of the swarm, or for a request the first later Response or
OutboundFailure with its id. A call that the loop does not answer before it ends gets that the
node has stopped, and one that it has not answered yet waits. Nobody else gets a reply. -/
theorem commands_answered (crates : Crates) (crate : EnrCrate) (config : NodeConfig)
    (inputs : List (World crate × LoopInput)) (hfresh : FreshCommands inputs) :
    (∀ pre w c sender post, inputs = pre ++ (w, .command c) :: post → c.sender = some sender →
      ((driver crates config pre).goesOn = true → ∃ later, later <+: post ∧
        takenUp crates config inputs = pre ++ (w, .command c) :: later ∧
        repliesOn sender (driver crates config inputs).out = (c.answer crates w later).toList ∧
        NodeHandle.await (driver crates config inputs) sender =
          match c.answer crates w later with
          | some reply => some (reply.mapError .command)
          | none => if (driver crates config inputs).goesOn then none
            else some (.error .nodeStopped)) ∧
      ((driver crates config pre).goesOn = false →
        repliesOn sender (driver crates config inputs).out = [] ∧
        NodeHandle.await (driver crates config inputs) sender = some (.error .nodeStopped))) ∧
    ∀ sender, repliesOn sender (driver crates config inputs).out ≠ [] →
      ∃ i ∈ takenUp crates config inputs, ∃ c, i.2 = .command c ∧ c.sender = some sender := by
  refine ⟨fun pre w c sender post hinputs hsender => ⟨fun hon => ?_, fun hstopped => ?_⟩,
    fun sender hreplies => ?_⟩
  · obtain ⟨later, hlater, htaken⟩ := takenUp_split hon (w, .command c) post
    rw [← hinputs] at htaken
    have hreplies : repliesOn sender (driver crates config inputs).out =
        (c.answer crates w later).toList := by
      have hfresh' := @FreshCommands.replies crates _ _ (hfresh.takenUp crates config)
      obtain ⟨k, rest, hcommand, hanswer⟩ := command_replyInputs w hsender
      rw [htaken, List.flatMap_append, List.flatMap_cons, hcommand, List.cons_append] at hfresh'
      rw [repliesOn, driver_replies, htaken, List.flatMap_append, List.flatMap_cons, hcommand,
        List.cons_append, hfresh'.first_answer.1, hanswer]
    refine ⟨later, hlater, htaken, hreplies, ?_⟩
    rw [NodeHandle.await, hreplies]
    cases c.answer crates w later <;> rfl
  · have hrun : driver crates config inputs = driver crates config pre := by
      rw [hinputs]
      exact run_append_of_stops hstopped _
    have hreplies : repliesOn sender (driver crates config pre).out = [] := by
      rw [repliesOn, Correlation.handedTo, List.map_eq_nil_iff, List.filter_eq_nil_iff]
      intro x hx hsame
      obtain ⟨i, hi, c', hc', hsender'⟩ := sender_of_reply hx
      have hpre := (taken_isPrefixOf (Node.turn crates config) {} pre).mem hi
      rw [hinputs] at hfresh
      have hapart := (List.pairwise_append.mp hfresh).2.2 i hpre (w, .command c)
        List.mem_cons_self c' c hc' rfl
      rw [of_decide_eq_true hsame] at hsender'
      exact hapart.1 sender hsender' hsender
    rw [hrun, NodeHandle.await, hreplies, hstopped]
    exact ⟨rfl, rfl⟩
  · rw [repliesOn, Correlation.handedTo, ne_eq, List.map_eq_nil_iff] at hreplies
    obtain ⟨x, hx⟩ := List.exists_mem_of_ne_nil _ hreplies
    obtain ⟨hmem, hsame⟩ := List.mem_filter.mp hx
    rw [← of_decide_eq_true hsame]
    exact sender_of_reply hmem

/- A subscription and two requests with one id on different behaviours; one is answered before
the shutdown, and a dial comes after it. -/
def sampleSession : List (World sampleEnrCrate × LoopInput) :=
  [(sampleWorld 0, .command (.subscribe ⟨1, 0⟩ ⟨10⟩)),
    (sampleWorld 0, .command (.request (.lightPush ⟨[1]⟩ {} ⟨11⟩))),
    (sampleWorld 0, .command (.request (.peerExchange ⟨[1]⟩ 5 ⟨12⟩))),
    (sampleWorld 1, .event (.response 0 sampleResponse)),
    (sampleWorld 2, .command .shutdown),
    (sampleWorld 3, .command (.dial [] ⟨13⟩))]

theorem freshCommands_sampleSession : FreshCommands sampleSession := by
  simp only [FreshCommands, sampleSession, List.pairwise_cons, List.mem_cons, List.not_mem_nil,
    forall_eq_or_imp, IsEmpty.forall_iff, implies_true, List.Pairwise.nil, and_true,
    LoopInput.command.injEq, reduceCtorEq, Command.sender]
  simp [RequestCommand.reply, RequestCommand.service]

theorem commands_answered_session :
    NodeHandle.await (driver Crates.standard sampleStoreConfig sampleSession) ⟨11⟩ =
        some (.ok (.response sampleResponse)) ∧
      NodeHandle.await (driver Crates.standard sampleStoreConfig sampleSession) ⟨12⟩ =
        some (.error .nodeStopped) ∧
      NodeHandle.await (driver Crates.standard sampleStoreConfig sampleSession) ⟨13⟩ =
        some (.error .nodeStopped) := by
  obtain ⟨hcalls, -⟩ := commands_answered Crates.standard sampleEnrCrate sampleStoreConfig
    sampleSession freshCommands_sampleSession
  have htaken : takenUp Crates.standard sampleStoreConfig sampleSession =
      sampleSession.take 5 := rfl
  refine ⟨?_, ?_, ?_⟩
  · obtain ⟨later, -, hlater, -, hawait⟩ := (hcalls [_] _ _ _ _ rfl rfl).1 rfl
    obtain rfl : (sampleSession.take 5).drop 2 = later :=
      congrArg (List.drop 2) (htaken.symm.trans hlater)
    exact hawait
  · obtain ⟨later, -, hlater, -, hawait⟩ := (hcalls [_, _] _ _ _ _ rfl rfl).1 rfl
    obtain rfl : (sampleSession.take 5).drop 3 = later :=
      congrArg (List.drop 3) (htaken.symm.trans hlater)
    exact hawait
  · exact ((hcalls [_, _, _, _, _] _ _ _ _ rfl rfl).2 rfl).2

end RsWaku
