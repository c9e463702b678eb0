import RsWaku.NodeDriver

/-! What other peers get from the node over a whole run of its task: every request one answer, and
every relay message one verdict. -/
namespace RsWaku
open Reactive
variable {crates : Crates} {crate : EnrCrate} {config : NodeConfig}

inductive InboundRequest where
  | metadata (request : WakuMetadata)
  | storeQuery (request : StoreQueryRequest)
  | lightpush (request : LightpushRequest)
  | peerExchange (request : PeerExchangeRpc)
  | filterSubscribe (request : FilterSubscribeRequest)
  | filterPush (request : MessagePush)

def SwarmEvent.inbound : SwarmEvent → Option InboundRequest
  | .metadataRequest _ request => some (.metadata request)
  | .filterSubscribeRequest _ request => some (.filterSubscribe request)
  | .filterPushRequest _ request => some (.filterPush request)
  | _ => none

def LoopInput.inbound : LoopInput → Option (ResponseChannel × InboundRequest)
  | .event (.swarm e channel) => e.inbound.map fun request => (channel, request)
  | .event (.storeQuery _ request channel) => some (channel, .storeQuery request)
  | .event (.lightpush _ request channel) => some (channel, .lightpush request)
  | .event (.peerExchange request channel) => some (channel, .peerExchange request)
  | _ => none

def NodeEffect.response : NodeEffect → Option (ResponseChannel × InboundResponse)
  | .respond channel response => some (channel, response)
  | _ => none

def InboundRequest.Answers : InboundRequest → InboundResponse → Prop
  | .metadata _, .metadata _ => True
  | .storeQuery request, .storeQuery response => response.requestId = request.requestId
  | .lightpush request, .lightpush response => response.requestId = request.requestId
  | .peerExchange _, .peerExchange response => response.query = none
  | .filterSubscribe request, .filterSubscribe response => response.requestId = request.requestId
  | .filterPush _, .filterPush statusCode => statusCode = 200
  | _, _ => False

def Answered (asked : ResponseChannel × InboundRequest) (sent : ResponseChannel × InboundResponse) :
    Prop :=
  sent.1 = asked.1 ∧ asked.2.Answers sent.2

theorem serve_requestId (store : SqliteStore) (request : StoreQueryRequest) :
    (serve store request).requestId = request.requestId := by
  unfold serve
  split <;> rfl

theorem serveLightpush_requestId (gossip : Gossipsub) (request : LightpushRequest) :
    (serveLightpush crates gossip request).2.requestId = request.requestId := by
  unfold serveLightpush
  split
  · rfl
  · dsimp only
    split <;> rfl

theorem applyFilterRequest_requestId (filters : FilterRegistry) (peer : PeerId)
    (request : FilterSubscribeRequest) :
    (applyFilterRequest filters peer request).2.requestId = request.requestId := by
  unfold applyFilterRequest
  split
  · rfl
  · split
    · rfl
    · split
      · rfl
      · split <;> rfl

theorem handleStoreQuery_cases (config : NodeConfig) (w : World crate) (n : Node) (peer : PeerId)
    (request : StoreQueryRequest) :
    ((n.limits.store.allow peer w.instant).2 = false ∧
      n.handleStoreQuery config w peer request =
        ({ n with
            limits := { n.limits with store := (n.limits.store.allow peer w.instant).1 }
            services := { n.services with rateLimited := n.services.rateLimited + 1 } },
          storeRefusal request 429 "rate limited")) ∨
    ((n.limits.store.allow peer w.instant).2 = true ∧
      n.handleStoreQuery config w peer request =
        ({ n with
            limits := { n.limits with store := (n.limits.store.allow peer w.instant).1 }
            services := { n.services with storeQueries := n.services.storeQueries + 1 } },
          if config.storeEnabled then serve w.store request
          else storeRefusal request 503 "store not enabled")) := by
  cases h : (n.limits.store.allow peer w.instant).2 with
  | false =>
    refine Or.inl ⟨rfl, ?_⟩
    simp [Node.handleStoreQuery, h]
  | true =>
    refine Or.inr ⟨rfl, ?_⟩
    simp [Node.handleStoreQuery, h]

theorem handleLightpush_cases (crates : Crates) (w : World crate) (n : Node) (peer : PeerId)
    (request : LightpushRequest) :
    ((n.limits.lightpush.allow peer w.instant).2 = false ∧
      n.handleLightpush crates w peer request =
        ({ n with
            limits := { n.limits with lightpush := (n.limits.lightpush.allow peer w.instant).1 }
            services := { n.services with rateLimited := n.services.rateLimited + 1 } },
          none, .error request.requestId 429 "rate limited")) ∨
    ((n.limits.lightpush.allow peer w.instant).2 = true ∧
      n.handleLightpush crates w peer request =
        ({ n with
            limits := { n.limits with lightpush := (n.limits.lightpush.allow peer w.instant).1 }
            services :=
              { n.services with lightpushRequests := n.services.lightpushRequests + 1 } },
          serveLightpush crates w.gossip request)) := by
  cases h : (n.limits.lightpush.allow peer w.instant).2 with
  | false =>
    refine Or.inl ⟨rfl, ?_⟩
    simp [Node.handleLightpush, h]
  | true =>
    refine Or.inr ⟨rfl, ?_⟩
    simp [Node.handleLightpush, h]

theorem handleStoreQuery_requestId (config : NodeConfig) (w : World crate) (n : Node)
    (peer : PeerId) (request : StoreQueryRequest) :
    (n.handleStoreQuery config w peer request).2.requestId = request.requestId := by
  obtain ⟨-, hcase⟩ | ⟨-, hcase⟩ := handleStoreQuery_cases config w n peer request
  · exact congrArg (fun x => x.2.requestId) hcase
  · rw [hcase]
    dsimp only
    split
    · exact serve_requestId w.store request
    · rfl

theorem handleLightpush_requestId (crates : Crates) (w : World crate) (n : Node) (peer : PeerId)
    (request : LightpushRequest) :
    (n.handleLightpush crates w peer request).2.2.requestId = request.requestId := by
  obtain ⟨-, hcase⟩ | ⟨-, hcase⟩ := handleLightpush_cases crates w n peer request
  · exact congrArg (fun x => x.2.2.requestId) hcase
  · rw [hcase]
    exact serveLightpush_requestId w.gossip request

def relayVerdict (crates : Crates) (env : Env) (topic : String) (data : List UInt8) : Validation :=
  match ShardId.parse topic, crates.decode data with
  | .ok _, some decoded => validate (messageFacts env decoded) {}
  | _, _ => .reject

abbrev Verdict := List UInt8 × PeerId × Validation

def SwarmEvent.verdict (crates : Crates) (env : Env) : SwarmEvent → Option Verdict
  | .relayMessage source messageId topic data =>
    some (messageId, source, relayVerdict crates env topic data)
  | _ => none

def LoopInput.verdict (crates : Crates) (i : World crate × LoopInput) : Option Verdict :=
  match i.2 with
  | .event (.swarm e _) => e.verdict crates i.1.env
  | _ => none

def Effect.report : Effect → Option Verdict
  | .reportMessageValidationResult messageId source acceptance =>
    some (messageId, source, acceptance)
  | _ => none

def NodeEffect.report : NodeEffect → Option Verdict
  | .call effect => effect.report
  | _ => none

/-- What an event may lead to: calls, then what the application is told, if anything, and then
answers and verdicts, which are left out when the application is gone. -/
def Outcome.telling (env : Env) (state : NodeState) (before : List Effect) (told : Option Event)
    (after : List Effect) : Outcome :=
  match told with
  | some event => .emit env state before event after
  | none => ⟨state, before ++ after, .ok ()⟩

def Effect.Plain (e : Effect) : Prop := ∀ channel, e.onChannel channel = .call e ∧ e.report = none

theorem plain_acceptEffects (env : Env) (filters : FilterRegistry) (topic : String)
    (decoded : WakuMessage) : ∀ e ∈ acceptEffects config env filters topic decoded, e.Plain := by
  intro e he
  obtain hput | hpush := List.mem_append.mp he
  · split at hput
    · cases List.mem_singleton.mp hput
      exact fun _ => ⟨rfl, rfl⟩
    · cases hput
  · obtain ⟨push, -, rfl⟩ := List.mem_map.mp hpush
    exact fun _ => ⟨rfl, rfl⟩

theorem handleEvent_telling (env : Env) (s : NodeState) (event : SwarmEvent)
    (channel : ResponseChannel) :
    ∃ state before told after,
      RsWaku.handleEvent crates config env s event = .telling env state before told after ∧
      (∀ e ∈ before, e.Plain) ∧
      List.Forall₂ Answered (event.inbound.map fun request => (channel, request)).toList
        ((after.map (Effect.onChannel channel)).filterMap NodeEffect.response) ∧
      after.filterMap Effect.report = (event.verdict crates env).toList ∧
      (told.isSome → ∀ request ∈ event.inbound, ∃ push, request = .filterPush push) := by
  cases event with
  | newListenAddr address =>
    exact ⟨_, [], some (.listening address), [], rfl, by simp, .nil, rfl,
      by simp [SwarmEvent.inbound]⟩
  | connectionEstablished id peer endpoint =>
    unfold RsWaku.handleEvent connectionEstablished
    dsimp only
    split
    case isTrue =>
      refine ⟨_, [.metadataRequest peer config.localMeta], some (.peerConnected peer), [], rfl,
        ?_, .nil, rfl, by simp [SwarmEvent.inbound]⟩
      intro e he
      cases List.mem_singleton.mp he
      exact fun _ => ⟨rfl, rfl⟩
    case isFalse =>
      refine ⟨_, [.disconnectPeerId peer], none, [], rfl, ?_, .nil, rfl, by simp⟩
      intro e he
      cases List.mem_singleton.mp he
      exact fun _ => ⟨rfl, rfl⟩
  | connectionClosed id peer endpoint =>
    exact ⟨_, [], some (.peerDisconnected peer), [], rfl, by simp, .nil, rfl,
      by simp [SwarmEvent.inbound]⟩
  | relayMessage source messageId topic data =>
    rw [RsWaku.handleEvent, relayMessage, SwarmEvent.verdict, relayVerdict]
    cases ShardId.parse topic with
    | error e => exact ⟨_, [], none, [_], rfl, by simp, .nil, rfl, by simp⟩
    | ok shard =>
      cases crates.decode data with
      | none => exact ⟨_, [], none, [_], rfl, by simp, .nil, rfl, by simp⟩
      | some decoded =>
        dsimp only
        split
        case isTrue haccept =>
          rw [haccept]
          exact ⟨_, _, some _, [_], rfl, plain_acceptEffects env s.filters topic decoded, .nil,
            rfl, by simp [SwarmEvent.inbound]⟩
        case isFalse => exact ⟨_, [], none, [_], rfl, by simp, .nil, rfl, by simp⟩
  | metadataRequest peer request =>
    exact ⟨_, [], none, [_], rfl, by simp, .cons ⟨rfl, trivial⟩ .nil, rfl, by simp⟩
  | metadataResponse peer response =>
    unfold RsWaku.handleEvent handleMetadataResponse
    dsimp only
    split
    case h_1 theirs _ =>
      split
      case isTrue =>
        refine ⟨_, [.disconnectPeerId peer], some (.metadataMismatch peer (some theirs)), [], rfl,
          ?_, .nil, rfl, by simp [SwarmEvent.inbound]⟩
        intro e he
        cases List.mem_singleton.mp he
        exact fun _ => ⟨rfl, rfl⟩
      case isFalse => exact ⟨_, [], none, [], rfl, by simp, .nil, rfl, by simp⟩
    case h_2 => exact ⟨_, [], none, [], rfl, by simp, .nil, rfl, by simp⟩
  | filterSubscribeRequest peer request =>
    exact ⟨_, [], none, [_], rfl, by simp,
      .cons ⟨rfl, applyFilterRequest_requestId s.filters peer request⟩ .nil, rfl, by simp⟩
  | filterPushRequest peer request =>
    unfold RsWaku.handleEvent filterPushRequest
    dsimp only
    split
    case h_1 m _ =>
      refine ⟨_, [], some (.filterMessage request.pubsubTopic m), [_], rfl, by simp,
        .cons ⟨rfl, rfl⟩ .nil, rfl, ?_⟩
      intro _ r hr
      exact ⟨request, (Option.some.inj hr).symm⟩
    case h_2 => exact ⟨_, [], none, [_], rfl, by simp, .cons ⟨rfl, rfl⟩ .nil, rfl, by simp⟩

theorem plain_responses {es : List Effect} (h : ∀ e ∈ es, e.Plain) (channel : ResponseChannel) :
    (es.map (Effect.onChannel channel)).filterMap NodeEffect.response = [] ∧
      (es.map (Effect.onChannel channel)).filterMap NodeEffect.report = [] := by
  constructor
  · rw [List.filterMap_eq_nil_iff]
    intro e he
    obtain ⟨call, hcall, rfl⟩ := List.mem_map.mp he
    rw [(h call hcall channel).1]
    rfl
  · rw [List.filterMap_eq_nil_iff]
    intro e he
    obtain ⟨call, hcall, rfl⟩ := List.mem_map.mp he
    rw [(h call hcall channel).1]
    exact (h call hcall channel).2

theorem report_onChannel (es : List Effect) (channel : ResponseChannel) :
    (es.map (Effect.onChannel channel)).filterMap NodeEffect.report =
      es.filterMap Effect.report := by
  rw [List.filterMap_map]
  refine List.filterMap_congr fun e _ => ?_
  cases e <;> rfl

/-- The inputs on which the loop may end: shutdown, no handle left, or an event that the
application was to be told of and is not received any more. Of the requests only a filter push is
such an event. -/
def StopsLoop (i : World crate × LoopInput) : Prop :=
  match i.2 with
  | .command .shutdown | .closed => True
  | .event (.swarm e _) => i.1.env.channelOpen = false ∧
      ∀ request ∈ e.inbound, ∃ push, request = .filterPush push
  | _ => False

theorem sentReplies_plain (sent : List (ReplySender × Reply)) :
    (sentReplies sent).filterMap NodeEffect.response = [] ∧
      (sentReplies sent).filterMap NodeEffect.report = [] := by
  simp [sentReplies, List.filterMap_map, NodeEffect.response, NodeEffect.report,
    Function.comp_def]

theorem handleCommand_plain (w : World crate) (n : Node) (c : Command) :
    (n.handleCommand crates w c).2.filterMap NodeEffect.response = [] ∧
      (n.handleCommand crates w c).2.filterMap NodeEffect.report = [] := by
  cases c with
  | subscribe shard reply => exact ⟨rfl, rfl⟩
  | publish shard message reply => exact ⟨rfl, rfl⟩
  | dial addr reply => exact ⟨rfl, rfl⟩
  | request command => exact ⟨rfl, rfl⟩
  | shutdown => exact ⟨rfl, rfl⟩

theorem swarmTurn_spec (w : World crate) (n : Node) (event : SwarmEvent)
    (channel : ResponseChannel) :
    ((n.handleEvent crates config w (.swarm event channel)).goesOn = true ∧
      List.Forall₂ Answered (event.inbound.map fun request => (channel, request)).toList
        ((n.handleEvent crates config w (.swarm event channel)).out.filterMap
          NodeEffect.response) ∧
      (n.handleEvent crates config w (.swarm event channel)).out.filterMap NodeEffect.report =
        (event.verdict crates w.env).toList) ∨
    ((n.handleEvent crates config w (.swarm event channel)).goesOn = false ∧
      (n.handleEvent crates config w (.swarm event channel)).out.filterMap
        NodeEffect.response = [] ∧
      (n.handleEvent crates config w (.swarm event channel)).out.filterMap
        NodeEffect.report = [] ∧
      w.env.channelOpen = false ∧
      ∀ request ∈ event.inbound, ∃ push, request = .filterPush push) := by
  obtain ⟨state, before, told, after, houtcome, hbefore, hanswered, hverdict, htold⟩ :=
    @handleEvent_telling crates config w.env n.core event channel
  obtain ⟨hresponses, hreports⟩ := plain_responses hbefore channel
  -- what is put out besides the calls before: the application's event is neither of the two
  have hout (rest : List Effect)
      (hrest : rest = after ∨ ∃ event, rest = .sendEvent event :: after) :
      List.Forall₂ Answered (event.inbound.map fun request => (channel, request)).toList
        (((before ++ rest).map (Effect.onChannel channel)).filterMap NodeEffect.response) ∧
      ((before ++ rest).map (Effect.onChannel channel)).filterMap NodeEffect.report =
        (event.verdict crates w.env).toList := by
    rw [List.map_append, List.filterMap_append, List.filterMap_append, hresponses, hreports,
      List.nil_append, List.nil_append, ← hverdict, ← report_onChannel after channel]
    obtain rfl | ⟨event, rfl⟩ := hrest
    · exact ⟨hanswered, rfl⟩
    · exact ⟨hanswered, rfl⟩
  rw [Node.handleEvent, houtcome]
  cases told with
  | none => exact Or.inl ⟨rfl, hout after (.inl rfl)⟩
  | some told =>
    rw [Outcome.telling, Outcome.emit]
    cases hopen : w.env.channelOpen with
    | true => exact Or.inl ⟨rfl, hout _ (.inr ⟨told, rfl⟩)⟩
    | false => exact Or.inr ⟨rfl, hresponses, hreports, rfl, htold rfl⟩

def lightpushOut (channel : ResponseChannel) (published : Option (String × List UInt8))
    (response : LightpushResponse) : List NodeEffect :=
  (published.map fun p => .publish p.1 p.2).toList ++ [.respond channel (.lightpush response)]

theorem lightpush_out (channel : ResponseChannel) (published : Option (String × List UInt8))
    (response : LightpushResponse) :
    (lightpushOut channel published response).filterMap NodeEffect.response =
        [(channel, .lightpush response)] ∧
      (lightpushOut channel published response).filterMap NodeEffect.report = [] := by
  cases published <;> exact ⟨rfl, rfl⟩

theorem turn_answers (n : Node) (i : World crate × LoopInput)
    (h : (n.turn crates config i).goesOn = true) :
    List.Forall₂ Answered i.2.inbound.toList
        ((n.turn crates config i).out.filterMap NodeEffect.response) ∧
      (n.turn crates config i).out.filterMap NodeEffect.report =
        (LoopInput.verdict crates i).toList := by
  obtain ⟨w, input⟩ := i
  cases input with
  | closed => cases h
  | command c =>
    obtain ⟨hresponses, hreports⟩ := @handleCommand_plain crates crate w n c
    cases c with
    | shutdown => cases h
    | subscribe shard reply => exact ⟨hresponses ▸ .nil, hreports⟩
    | publish shard message reply => exact ⟨hresponses ▸ .nil, hreports⟩
    | dial addr reply => exact ⟨hresponses ▸ .nil, hreports⟩
    | request command => exact ⟨hresponses ▸ .nil, hreports⟩
  | event e =>
    cases e with
    | swarm event channel =>
      obtain ⟨-, hanswered, hverdict⟩ | ⟨hstops, -⟩ :=
        @swarmTurn_spec crates crate config w n event channel
      · exact ⟨hanswered, hverdict⟩
      · exact absurd (hstops.symm.trans h) Bool.false_ne_true
    | storeQuery peer request channel =>
      exact ⟨.cons ⟨rfl, handleStoreQuery_requestId config w n peer request⟩ .nil, rfl⟩
    | lightpush peer request channel =>
      obtain ⟨hresponse, hreport⟩ := lightpush_out channel
        (n.handleLightpush crates w peer request).2.1 (n.handleLightpush crates w peer request).2.2
      exact ⟨hresponse ▸ .cons ⟨rfl, handleLightpush_requestId crates w n peer request⟩ .nil,
        hreport⟩
    | peerExchange request channel => exact ⟨.cons ⟨rfl, rfl⟩ .nil, rfl⟩
    | response id response =>
      obtain ⟨hresponses, hreports⟩ := sentReplies_plain (handleResponse n.pending id response).2
      exact ⟨hresponses ▸ .nil, hreports⟩
    | outboundFailure service id error =>
      obtain ⟨hresponses, hreports⟩ :=
        sentReplies_plain (handleOutboundFailure n.pending id error service).2
      exact ⟨hresponses ▸ .nil, hreports⟩
    | other => exact ⟨.nil, rfl⟩

theorem turn_stops (n : Node) (i : World crate × LoopInput)
    (h : (n.turn crates config i).goesOn = false) :
    (n.turn crates config i).out.filterMap NodeEffect.response = [] ∧
      (n.turn crates config i).out.filterMap NodeEffect.report = [] ∧ StopsLoop i := by
  obtain ⟨w, input⟩ := i
  cases input with
  | closed => exact ⟨rfl, rfl, trivial⟩
  | command c =>
    cases c with
    | shutdown => exact ⟨rfl, rfl, trivial⟩
    | subscribe shard reply => cases h
    | publish shard message reply => cases h
    | dial addr reply => cases h
    | request command => cases h
  | event e =>
    cases e with
    | swarm event channel =>
      obtain ⟨hgoes, -⟩ | ⟨-, hresponses, hreports, hclosed, hpush⟩ :=
        @swarmTurn_spec crates crate config w n event channel
      · exact absurd (hgoes.symm.trans h) Bool.noConfusion
      · exact ⟨hresponses, hreports, hclosed, hpush⟩
    | storeQuery peer request channel => cases h
    | lightpush peer request channel => cases h
    | peerExchange request channel => cases h
    | response id response => cases h
    | outboundFailure service id error => cases h
    | other => cases h

/-- Whatever commands and events are interleaved, the requests that are taken up are answered one
by one, each on its own channel, by its own protocol and with its own id; what is not answered
comes with or after the input on which the loop ends. -/
theorem requests_answered_once (crates : Crates) (crate : EnrCrate) (config : NodeConfig)
    (inputs : List (World crate × LoopInput)) :
    ∃ handled rest, inputs = handled ++ rest ∧
      List.Forall₂ Answered (handled.filterMap fun i => i.2.inbound)
        ((driver crates config inputs).out.filterMap NodeEffect.response) ∧
      ((driver crates config inputs).goesOn = true → rest = []) ∧
      ((driver crates config inputs).goesOn = false →
        ∃ i later, rest = i :: later ∧ StopsLoop i) := by
  obtain ⟨handled, rest, hinputs, hanswered, hon, hstop⟩ := answered_until_stop
    (fun n i h => (turn_answers n i h).1) (fun n i h => (turn_stops n i h).1) {} inputs
  refine ⟨handled, rest, hinputs, hanswered, hon, fun h => ?_⟩
  obtain ⟨i, later, hrest, n, hi⟩ := hstop h
  exact ⟨i, later, hrest, (turn_stops n i hi).2.2⟩

/-- Every relay message that is taken up gets one verdict, under its own id and for the peer it
came from, and it is the one of the validation policy; except for a message that is accepted when
the application is gone. -/
theorem relay_verdicts_once (crates : Crates) (crate : EnrCrate) (config : NodeConfig)
    (inputs : List (World crate × LoopInput)) :
    ∃ handled rest, inputs = handled ++ rest ∧
      (driver crates config inputs).out.filterMap NodeEffect.report =
        handled.filterMap (LoopInput.verdict crates) ∧
      ((driver crates config inputs).goesOn = true → rest = []) ∧
      ((driver crates config inputs).goesOn = false →
        ∃ i later, rest = i :: later ∧ StopsLoop i) := by
  have hturn (n : Node) (i : World crate × LoopInput)
      (h : (n.turn crates config i).goesOn = true) :
      List.Forall₂ Eq (LoopInput.verdict crates i).toList
        ((n.turn crates config i).out.filterMap NodeEffect.report) := by
    rw [(turn_answers n i h).2]
    exact List.forall₂_refl _
  obtain ⟨handled, rest, hinputs, hverdicts, hon, hstop⟩ :=
    answered_until_stop hturn (fun n i h => (turn_stops n i h).2.1) {} inputs
  refine ⟨handled, rest, hinputs, (List.forall₂_eq_eq_eq ▸ hverdicts).symm, hon, fun h => ?_⟩
  obtain ⟨i, later, hrest, n, hi⟩ := hstop h
  exact ⟨i, later, hrest, (turn_stops n i hi).2.2⟩

end RsWaku
