import RsWaku.NodeLimits
import RsWaku.RestMessages

/-! Polling messages over REST: the application loop moves the messages that the node accepts from
its event channel to a cache, from where they are polled. Between the relay and the polls nothing
is doubled or reordered, and nothing is lost while the cache has room. -/
namespace RsWaku
open BoundedQueue Reactive

def Effect.told : Effect → Option Event
  | .sendEvent event => some event
  | _ => none

def NodeEffect.told : NodeEffect → Option Event
  | .call effect => effect.told
  | _ => none

def Event.relayed : Event → Option WakuMessage
  | .message _ m _ _ => some m
  | _ => none

/-- The node task, the events it has sent and the application has not received, and the cache of
the REST API. -/
structure RestNode where
  node : Node := {}
  running : Bool := true
  events : List Event := []
  cache : MessageCache := {}

variable {crate : EnrCrate}

/-- A turn of the node task, the application receiving an event, and requests to the REST API. -/
inductive RestStep (crate : EnrCrate) where
  | turn (w : World crate) (input : LoopInput)
  | receive
  | register (contentTopic : String)
  | poll (contentTopic : String)

def MessageCache.onEvent (cache : MessageCache) : Event → MessageCache
  | .message _ message _ _ => cache.record message
  | _ => cache

variable (crates : Crates) (config : NodeConfig)

def toJson (messages : List WakuMessage) : List RestWakuMessage :=
  messages.map RestWakuMessage.fromMessage

def RestNode.step (s : RestNode) :
    RestStep crate → Turn RestNode (String × List RestWakuMessage)
  | .turn w input =>
    if s.running then
      let t := s.node.turn crates config (w, input)
      ⟨{ s with node := t.state, running := t.goesOn,
                events := s.events ++ t.out.filterMap NodeEffect.told }, [], true⟩
    else ⟨s, [], true⟩
  | .receive =>
    match s.events with
    | [] => ⟨s, [], true⟩
    | event :: events => ⟨{ s with events, cache := s.cache.onEvent event }, [], true⟩
  | .register contentTopic => ⟨{ s with cache := s.cache.register contentTopic }, [], true⟩
  | .poll contentTopic =>
    let (messages, cache) := s.cache.drain contentTopic
    ⟨{ s with cache }, [(contentTopic, toJson messages)], true⟩

def LoopInput.relays (w : World crate) : LoopInput → Option WakuMessage
  | .event (.swarm (.relayMessage _ _ topic data) _) =>
    if relayVerdict crates w.env topic data = .accept ∧ w.env.channelOpen then crates.decode data
    else none
  | _ => none

def RestStep.accepted (s : RestNode) : RestStep crate → List WakuMessage
  | .turn w input => if s.running then (input.relays crates w).toList else []
  | _ => []

variable {crates config}

theorem told_onChannel (channel : ResponseChannel) (effect : Effect) :
    (effect.onChannel channel).told = effect.told := by
  cases effect <;> rfl

theorem told_acceptEffects (env : Env) (filters : FilterRegistry) (topic : String)
    (m : WakuMessage) : (acceptEffects config env filters topic m).filterMap Effect.told = [] := by
  rw [List.filterMap_eq_nil_iff]
  intro e he
  obtain hput | hpush := List.mem_append.mp he
  · split at hput
    · cases List.mem_singleton.mp hput
      rfl
    · cases hput
  · obtain ⟨push, -, rfl⟩ := List.mem_map.mp hpush
    rfl

theorem told_emit (env : Env) (state : NodeState) (before after : List Effect) (event : Event) :
    (Outcome.emit env state before event after).effects.filterMap Effect.told =
      before.filterMap Effect.told ++
        if env.channelOpen then event :: after.filterMap Effect.told else [] := by
  rw [Outcome.emit]
  split
  · rw [List.filterMap_append]
    rfl
  · rw [List.append_nil]

theorem relayed_handleEvent (w : World crate) (s : NodeState) (event : SwarmEvent)
    (channel : ResponseChannel) :
    ((RsWaku.handleEvent crates config w.env s event).effects.filterMap Effect.told).filterMap
      Event.relayed = (LoopInput.relays crates w (.event (.swarm event channel))).toList := by
  have hother {before after : List Effect} {event : Event} {state : NodeState}
      (hbefore : before.filterMap Effect.told = []) (hafter : after.filterMap Effect.told = [])
      (hevent : event.relayed = none) :
      ((Outcome.emit w.env state before event after).effects.filterMap Effect.told).filterMap
        Event.relayed = [] := by
    rw [told_emit, hbefore, hafter]
    split
    · simp [hevent]
    · rfl
  cases event with
  | newListenAddr address => exact hother rfl rfl rfl
  | connectionEstablished id peer endpoint =>
    unfold RsWaku.handleEvent connectionEstablished
    dsimp only
    split
    · exact hother rfl rfl rfl
    · rfl
  | connectionClosed id peer endpoint => exact hother rfl rfl rfl
  | relayMessage source messageId topic data =>
    rw [RsWaku.handleEvent, relayMessage, LoopInput.relays, relayVerdict]
    cases ShardId.parse topic with
    | error e => rfl
    | ok shard =>
      cases crates.decode data with
      | none => rfl
      | some m =>
        dsimp only
        by_cases haccept : validate (messageFacts w.env m) {} = .accept
        · rw [if_pos haccept, told_emit, told_acceptEffects]
          by_cases hopen : w.env.channelOpen = true
          · rw [if_pos hopen, if_pos ⟨haccept, hopen⟩]
            rfl
          · rw [if_neg hopen, if_neg fun h => hopen h.2]
            rfl
        · rw [if_neg haccept, if_neg fun h => haccept h.1]
          rfl
  | metadataRequest peer request => rfl
  | metadataResponse peer response =>
    rw [RsWaku.handleEvent, handleMetadataResponse]
    split
    · split
      · exact hother rfl rfl rfl
      · rfl
    · rfl
  | filterSubscribeRequest peer request => rfl
  | filterPushRequest peer request =>
    rw [RsWaku.handleEvent, filterPushRequest]
    split
    · exact hother rfl rfl rfl
    · rfl

theorem told_sentReplies (sent : List (ReplySender × Reply)) :
    (sentReplies sent).filterMap NodeEffect.told = [] := by
  rw [sentReplies, List.filterMap_map, List.filterMap_eq_nil_iff]
  exact fun _ _ => rfl

theorem told_lightpushOut (channel : ResponseChannel) (published : Option (String × List UInt8))
    (response : LightpushResponse) :
    (lightpushOut channel published response).filterMap NodeEffect.told = [] := by
  cases published <;> rfl

theorem relayed_turn (n : Node) (w : World crate) (input : LoopInput) :
    ((n.turn crates config (w, input)).out.filterMap NodeEffect.told).filterMap Event.relayed =
      (input.relays crates w).toList := by
  cases input with
  | closed => rfl
  | command command => cases command <;> rfl
  | event event =>
    cases event with
    | swarm event channel =>
      rw [← relayed_handleEvent w n.core event channel]
      congr 1
      change (List.map _ _).filterMap _ = _
      rw [List.filterMap_map]
      exact List.filterMap_congr fun effect _ => told_onChannel channel effect
    | storeQuery peer request channel => rfl
    | lightpush peer request channel =>
      exact congrArg (List.filterMap Event.relayed) (told_lightpushOut channel _ _)
    | peerExchange request channel => rfl
    | response id response => exact congrArg (List.filterMap Event.relayed) (told_sentReplies _)
    | outboundFailure service id error =>
      exact congrArg (List.filterMap Event.relayed) (told_sentReplies _)
    | other => rfl

section Polls
variable (t : String)

def ofTopic (messages : List WakuMessage) : List WakuMessage :=
  messages.filter (·.contentTopic = t)

def relayedOf (events : List Event) : List WakuMessage := ofTopic t (events.filterMap Event.relayed)

def RestNode.inFlight (s : RestNode) : List WakuMessage :=
  (s.cache.drain t).1 ++ relayedOf t s.events

def polledOf (out : List (String × List RestWakuMessage)) : List RestWakuMessage :=
  (out.filter (·.1 = t)).flatMap Prod.snd

def RestNode.HasRoom (s : RestNode) : RestStep crate → Prop
  | .receive => relayedOf t (s.events.take 1) ≠ [] → (s.cache.drain t).1.length < cachePerTopic
  | _ => True

theorem ofTopic_append (ms ms' : List WakuMessage) :
    ofTopic t (ms ++ ms') = ofTopic t ms ++ ofTopic t ms' := List.filter_append ..

theorem relayedOf_append (es es' : List Event) :
    relayedOf t (es ++ es') = relayedOf t es ++ relayedOf t es' := by
  rw [relayedOf, List.filterMap_append, ofTopic_append]
  rfl

theorem polledOf_append (out out' : List (String × List RestWakuMessage)) :
    polledOf t (out ++ out') = polledOf t out ++ polledOf t out' := by
  rw [polledOf, List.filter_append, List.flatMap_append]
  rfl

theorem fst_drain_call (cache : MessageCache) (e : CacheCall) :
    ((cache.call e).drain t).1 = (topicStep t (cache.inner.lookup t) e).getD [] := by
  rw [fst_drain, lookup_call]

theorem fst_drain_register (cache : MessageCache) (u : String) :
    ((cache.register u).drain t).1 = (cache.drain t).1 := by
  have hcall := fst_drain_call t cache (.register u)
  rw [topicStep] at hcall
  rw [fst_drain t cache]
  refine hcall.trans ?_
  split <;> rfl

theorem fst_drain_drain (cache : MessageCache) (u : String) :
    ((cache.drain u).2.drain t).1 = if u = t then [] else (cache.drain t).1 := by
  have hcall := fst_drain_call t cache (.drain u)
  rw [topicStep] at hcall
  rw [fst_drain t cache]
  refine hcall.trans ?_
  change (if u = t then _ else _ : Option _).getD [] = _
  split
  · cases cache.inner.lookup t <;> rfl
  · rfl

/-- A recorded message is added if its topic is registered; a full queue loses its oldest. -/
theorem fst_drain_record (cache : MessageCache) (m : WakuMessage) :
    ((cache.record m).drain t).1.Sublist ((cache.drain t).1 ++ ofTopic t [m]) ∧
      ((cache.inner.lookup t).isSome →
        (ofTopic t [m] ≠ [] → (cache.drain t).1.length < cachePerTopic) →
        ((cache.record m).drain t).1 = (cache.drain t).1 ++ ofTopic t [m]) := by
  have hcall : ((cache.record m).drain t).1 =
      (topicStep t (cache.inner.lookup t) (.record m)).getD [] := fst_drain_call t cache (.record m)
  rw [hcall, fst_drain t cache]
  by_cases ht : m.contentTopic = t
  · have hof : ofTopic t [m] = [m] := List.filter_cons_of_pos (by simpa using ht)
    rw [topicStep, CacheCall.topic, if_pos ht, hof]
    cases cache.inner.lookup t with
    | none => exact ⟨List.nil_sublist _, fun h => absurd h Bool.false_ne_true⟩
    | some q =>
      simp only [Option.map_some, Option.getD_some, push]
      refine ⟨List.Sublist.append_right ?_ [m], fun _ hroom => ?_⟩
      · split
        · exact List.tail_sublist q
        · exact List.Sublist.refl q
      · rw [if_neg (Nat.not_le.mpr (hroom (List.cons_ne_nil m [])))]
  · have hof : ofTopic t [m] = [] := List.filter_cons_of_neg (by simpa using ht)
    rw [@topicStep_of_ne t (.record m) ht, hof, List.append_nil]
    exact ⟨List.Sublist.refl _, fun _ _ => rfl⟩

theorem fst_drain_onEvent (cache : MessageCache) (event : Event) :
    ((cache.onEvent event).drain t).1.Sublist ((cache.drain t).1 ++ relayedOf t [event]) ∧
      ((cache.inner.lookup t).isSome →
        (relayedOf t [event] ≠ [] → (cache.drain t).1.length < cachePerTopic) →
        ((cache.onEvent event).drain t).1 = (cache.drain t).1 ++ relayedOf t [event]) := by
  have hother : (cache.drain t).1 = (cache.drain t).1 ++ [] := (List.append_nil _).symm
  cases event with
  | message shard m id source => exact fst_drain_record t cache m
  | _ => exact ⟨hother ▸ List.Sublist.refl _, fun _ _ => hother⟩

theorem lookup_isSome_call {cache : MessageCache} (h : (cache.inner.lookup t).isSome)
    (e : CacheCall) : ((cache.call e).inner.lookup t).isSome := by
  obtain ⟨q, hq⟩ := Option.isSome_iff_exists.mp h
  rw [lookup_call, hq]
  unfold topicStep
  split
  · cases e <;> rfl
  · rfl

variable {t}

theorem RestNode.step_registered {s : RestNode} (h : (s.cache.inner.lookup t).isSome)
    (e : RestStep crate) : ((s.step crates config e).state.cache.inner.lookup t).isSome := by
  cases e with
  | turn w input =>
    rw [step]
    split <;> exact h
  | receive =>
    rw [step]
    split
    case h_1 => exact h
    case h_2 event events hevents =>
      cases event with
      | message shard m id source => exact lookup_isSome_call t h (.record m)
      | _ => exact h
  | register u => exact lookup_isSome_call t h (.register u)
  | poll u => exact lookup_isSome_call t h (.drain u)

theorem toJson_append (ms ms' : List WakuMessage) :
    toJson (ms ++ ms') = toJson ms ++ toJson ms' := List.map_append ..

theorem inFlight_cons {s : RestNode} {event : Event} {events : List Event}
    (h : s.events = event :: events) :
    s.inFlight t = (s.cache.drain t).1 ++ relayedOf t [event] ++ relayedOf t events := by
  rw [RestNode.inFlight, h, ← List.singleton_append, relayedOf_append, List.append_assoc]

theorem step_receive {s : RestNode} {event : Event} {events : List Event}
    (h : s.events = event :: events) :
    s.step crates config (.receive : RestStep crate) =
      ⟨{ s with events, cache := s.cache.onEvent event }, [], true⟩ := by
  rw [RestNode.step, h]

theorem accepted_receive (s : RestNode) :
    ofTopic t (RestStep.accepted crates s (.receive : RestStep crate)) = [] := rfl

/-- Nothing gets lost, doubled or out of order in a step: what it polls, followed by what is in
flight after it, is what was in flight before it, followed by what it accepts. -/
def RestNode.Conserves (crates : Crates) (config : NodeConfig) (t : String) (s : RestNode)
    (e : RestStep crate) : Prop :=
  polledOf t (s.step crates config e).out ++ toJson ((s.step crates config e).state.inFlight t) =
    toJson (s.inFlight t ++ ofTopic t (e.accepted crates s))

theorem RestNode.conserves_or_receive (s : RestNode) (e : RestStep crate) :
    s.Conserves crates config t e ∨
      ∃ event events, e = .receive ∧ s.events = event :: events := by
  have hnil (ms : List WakuMessage) : toJson ms = toJson (ms ++ []) := by rw [List.append_nil]
  cases e with
  | turn w input =>
    refine .inl ?_
    rw [Conserves, step, RestStep.accepted]
    split
    case isTrue =>
      change toJson ((s.cache.drain t).1 ++ relayedOf t (s.events ++ _)) = _
      have hturn : relayedOf t ((s.node.turn crates config (w, input)).out.filterMap
          NodeEffect.told) = ofTopic t (input.relays crates w).toList :=
        congrArg (ofTopic t) (relayed_turn s.node w input)
      rw [relayedOf_append, hturn, inFlight, List.append_assoc]
    case isFalse => exact hnil _
  | receive =>
    cases hevents : s.events with
    | nil =>
      refine .inl ?_
      rw [Conserves, step, hevents]
      exact hnil _
    | cons event events => exact .inr ⟨event, events, rfl, rfl⟩
  | register u =>
    refine .inl ?_
    change toJson (((s.cache.register u).drain t).1 ++ relayedOf t s.events) = _
    rw [fst_drain_register]
    exact hnil _
  | poll u =>
    refine .inl ?_
    change polledOf t [(u, toJson (s.cache.drain u).1)] ++
      toJson (((s.cache.drain u).2.drain t).1 ++ relayedOf t s.events) = _
    rw [fst_drain_drain, polledOf]
    by_cases hu : u = t
    · rw [if_pos hu, hu, List.filter_cons_of_pos (by simp), List.filter_nil,
        List.flatMap_singleton, ← toJson_append]
      exact hnil _
    · rw [if_neg hu, List.filter_cons_of_neg (by simpa using hu)]
      exact hnil _

theorem RestNode.step_sublist (s : RestNode) (e : RestStep crate) :
    (polledOf t (s.step crates config e).out ++
      toJson ((s.step crates config e).state.inFlight t)).Sublist
        (toJson (s.inFlight t ++ ofTopic t (e.accepted crates s))) := by
  obtain heq | ⟨event, events, rfl, hevents⟩ := s.conserves_or_receive e
  · exact heq ▸ List.Sublist.refl _
  · have hreceived := ((fst_drain_onEvent t s.cache event).1.append_right
      (relayedOf t events)).map RestWakuMessage.fromMessage
    rw [step_receive hevents, accepted_receive, List.append_nil, inFlight_cons hevents]
    exact hreceived

theorem RestNode.step_conserves {s : RestNode} (hregistered : (s.cache.inner.lookup t).isSome)
    {e : RestStep crate} (hroom : s.HasRoom t e) : s.Conserves crates config t e := by
  obtain heq | ⟨event, events, rfl, hevents⟩ := s.conserves_or_receive e
  · exact heq
  · rw [HasRoom, hevents] at hroom
    have hreceived := (fst_drain_onEvent t s.cache event).2 hregistered hroom
    rw [Conserves, step_receive hevents, accepted_receive, List.append_nil, inFlight_cons hevents,
      ← hreceived]
    rfl

def RestNode.acceptedIn (crates : Crates) (config : NodeConfig) (s : RestNode)
    (steps : List (RestStep crate)) : List WakuMessage :=
  (taken (step crates config) s steps).flatMap fun x => x.2.accepted crates x.1

theorem RestNode.step_goesOn (s : RestNode) (e : RestStep crate) :
    (s.step crates config e).goesOn = true := by
  cases e with
  | turn w input =>
    rw [step]
    split <;> rfl
  | receive =>
    rw [step]
    split <;> rfl
  | register u => rfl
  | poll u => rfl

theorem RestNode.acceptedIn_cons (s : RestNode) (e : RestStep crate)
    (steps : List (RestStep crate)) :
    s.acceptedIn crates config (e :: steps) = e.accepted crates s ++
      (s.step crates config e).state.acceptedIn crates config steps := by
  rw [acceptedIn, taken_cons_of_goesOn (s.step_goesOn e), List.flatMap_cons]
  rfl

theorem RestNode.run_sublist (s : RestNode) (steps : List (RestStep crate)) :
    (polledOf t (run (step crates config) s steps).out ++
      toJson ((run (step crates config) s steps).state.inFlight t)).Sublist
        (toJson (s.inFlight t ++ ofTopic t (s.acceptedIn crates config steps))) := by
  induction steps generalizing s with
  | nil =>
    change (toJson (s.inFlight t)).Sublist (toJson (s.inFlight t ++ []))
    rw [List.append_nil]
  | cons e steps ih =>
    rw [run_cons_of_goesOn (s.step_goesOn e), acceptedIn_cons, polledOf_append, ofTopic_append,
      List.append_assoc, ← List.append_assoc (s.inFlight t), toJson_append]
    refine ((ih (s.step crates config e).state).append_left _).trans ?_
    rw [toJson_append, ← List.append_assoc]
    exact (s.step_sublist e).append_right _

theorem RestNode.run_conserves {s : RestNode} (hregistered : (s.cache.inner.lookup t).isSome)
    {steps : List (RestStep crate)}
    (hroom : ∀ x ∈ taken (step crates config) s steps, x.1.HasRoom t x.2) :
    polledOf t (run (step crates config) s steps).out ++
      toJson ((run (step crates config) s steps).state.inFlight t) =
        toJson (s.inFlight t ++ ofTopic t (s.acceptedIn crates config steps)) := by
  induction steps generalizing s with
  | nil =>
    rw [acceptedIn, taken]
    exact congrArg toJson (List.append_nil _).symm
  | cons e steps ih =>
    rw [taken_cons_of_goesOn (s.step_goesOn e)] at hroom
    have hstep : s.Conserves crates config t e :=
      step_conserves hregistered (hroom (s, e) (List.mem_cons_self ..))
    rw [Conserves] at hstep
    have hrest := ih (s.step_registered hregistered e) fun x hx =>
      hroom x (List.mem_cons_of_mem _ hx)
    rw [run_cons_of_goesOn (s.step_goesOn e), acceptedIn_cons, polledOf_append, ofTopic_append,
      List.append_assoc, hrest, toJson_append, ← List.append_assoc, hstep, ← toJson_append,
      List.append_assoc]

def Delivered (crates : Crates) (config : NodeConfig) (s : RestNode)
    (steps : List (RestStep crate)) (topic : String) (data : List UInt8) : Prop :=
  ∃ x ∈ taken (RestNode.step crates config) s steps, x.1.running = true ∧
    ∃ w source id channel,
      x.2 = .turn w (.event (.swarm (.relayMessage source id topic data) channel)) ∧
      relayVerdict crates w.env topic data = .accept ∧ w.env.channelOpen = true

theorem Delivered.mem_acceptedIn {s : RestNode} {steps : List (RestStep crate)} {topic : String}
    {data : List UInt8} {m : WakuMessage} (hdecode : crates.decode data = some m)
    (h : Delivered crates config s steps topic data) :
    m ∈ s.acceptedIn crates config steps := by
  obtain ⟨x, hx, hrunning, w, source, id, channel, hinput, haccept, hopen⟩ := h
  refine List.mem_flatMap.mpr ⟨x, hx, ?_⟩
  rw [hinput, RestStep.accepted, if_pos hrunning, LoopInput.relays, if_pos ⟨haccept, hopen⟩,
    hdecode]
  exact List.mem_singleton_self m

end Polls

theorem MessageCache.lookup_isSome_of_mem {cache : MessageCache} {t : String}
    (h : t ∈ cache.topics) : (cache.inner.lookup t).isSome := AList.lookup_isSome.mpr h

/-- Over any interleaving of the node task, the application and REST requests, the polls of a topic
return messages of the topic that the node accepted, in that order and each once. Once the topic is
registered, and while there is room in its queue, all of them are returned or still in flight. -/
theorem rest_polls_deliver (crates : Crates) (crate : EnrCrate) (config : NodeConfig) (t : String) :
    (∀ steps : List (RestStep crate),
      (polledOf t (run (RestNode.step crates config) {} steps).out).Sublist
        (toJson (ofTopic t (RestNode.acceptedIn crates config {} steps)))) ∧
      ∀ (s : RestNode) (steps : List (RestStep crate)), t ∈ s.cache.topics →
        (∀ x ∈ taken (RestNode.step crates config) s steps, x.1.HasRoom t x.2) →
        polledOf t (run (RestNode.step crates config) s steps).out ++
            toJson ((run (RestNode.step crates config) s steps).state.inFlight t) =
          toJson (s.inFlight t ++ ofTopic t (s.acceptedIn crates config steps)) := by
  refine ⟨fun steps => ?_, fun s steps hregistered hroom => ?_⟩
  · exact (List.sublist_append_left ..).trans (RestNode.run_sublist {} steps)
  · exact RestNode.run_conserves (MessageCache.lookup_isSome_of_mem hregistered) hroom

instance RestNode.decidableHasRoom (t : String) (s : RestNode) :
    (e : RestStep crate) → Decidable (s.HasRoom t e)
  | .turn _ _ => .isTrue trivial
  | .receive => inferInstanceAs (Decidable (_ ≠ _ → _ < _))
  | .register _ => .isTrue trivial
  | .poll _ => .isTrue trivial

def samplePosted : WakuMessage :=
  { payload := [1, 2, 3], contentTopic := "/toychat/2/huilong/proto" }

def sampleRestNode : RestNode :=
  { cache := ({} : MessageCache).register "/toychat/2/huilong/proto" }

def sampleRestSteps : List (RestStep sampleEnrCrate) :=
  [.turn (sampleWorld 0) (.event (.swarm (.relayMessage ⟨[1]⟩ [] (ShardId.mk 1 3).pubsubTopic
      (Crates.standard.encode samplePosted)) ⟨0⟩)),
    .receive, .poll "/toychat/2/huilong/proto"]

theorem sampleRestNode_topics : "/toychat/2/huilong/proto" ∈ sampleRestNode.cache.topics := by
  rw [sampleRestNode, MessageCache.topics_register]
  exact Set.mem_insert ..

theorem sampleRestSteps_room :
    ∀ x ∈ taken (RestNode.step Crates.standard sampleStoreConfig) sampleRestNode sampleRestSteps,
      x.1.HasRoom "/toychat/2/huilong/proto" x.2 := by
  decide +kernel

theorem rest_polls_deliver_sample :
    polledOf "/toychat/2/huilong/proto"
        (run (RestNode.step Crates.standard sampleStoreConfig) sampleRestNode
          sampleRestSteps).out =
      [{ payload := "AQID", contentTopic := "/toychat/2/huilong/proto" }] := by
  have hall := (rest_polls_deliver Crates.standard sampleEnrCrate sampleStoreConfig
    "/toychat/2/huilong/proto").2 sampleRestNode sampleRestSteps
    sampleRestNode_topics sampleRestSteps_room
  have hnone : toJson ((run (RestNode.step Crates.standard sampleStoreConfig) sampleRestNode
      sampleRestSteps).state.inFlight "/toychat/2/huilong/proto") = [] := by decide +kernel
  rw [hnone, List.append_nil] at hall
  rw [hall]
  decide +kernel

/-- The requests that publish a body. Only lightpush can name a pubsub topic. -/
def Posts (crates : Crates) (b64 : Base64Crate) (preset : NetworkPreset) (gossip : Gossipsub)
    (pubsubTopic : Option String) (contentTopic : String) (body : RestWakuMessage)
    (text : String) : Prop :=
  (pubsubTopic = none ∧ relayPublish crates b64 preset (nodePublish crates gossip) contentTopic
      body = some (.ok text)) ∨
    restLightpush crates b64 preset (nodePublish crates gossip)
      ⟨pubsubTopic, { body with contentTopic }⟩ = some (.ok text)

theorem Posts.published {crates : Crates} {b64 : Base64Crate} {preset : NetworkPreset}
    {gossip : Gossipsub} {pubsubTopic : Option String} {contentTopic : String}
    {body : RestWakuMessage} {text : String}
    (h : Posts crates b64 preset gossip pubsubTopic contentTopic body text) :
    ∃ message shard id, body.intoMessage b64 contentTopic = .ok message ∧
      postShard crates preset pubsubTopic contentTopic = some shard ∧
      publishReply crates gossip shard message = .ok id ∧ text = BaseN.hexEncode id.bytes := by
  obtain ⟨rfl, hrelay⟩ | hlightpush := h
  · exact relayPublish_ok hrelay
  · exact restLightpush_ok hlightpush

/-- A body that is posted at one node is polled at another as it was posted: it is published under
the id that the answer names, and once it is delivered to a node where the topic is registered, the
polls return it. Unless a pubsub topic was named, it is published on the shard that a subscription
to the topic leads to. -/
theorem posted_is_polled (crates : Crates) (crate : EnrCrate) (b64 : Base64Crate)
    (hb64 : b64.Documented) (preset : NetworkPreset) (gossip : Gossipsub)
    (hgossip : gossip.UsesMessageId crates) (pubsubTopic : Option String) (contentTopic : String)
    (body : RestWakuMessage) (text : String)
    (hposted : Posts crates b64 preset gossip pubsubTopic contentTopic body text)
    (hcodec : ∀ m, body.intoMessage b64 contentTopic = .ok m →
      crates.decode (crates.encode m) = some m) :
    ∃ message shard, body.intoMessage b64 contentTopic = .ok message ∧
      RestWakuMessage.fromMessage message = { body with contentTopic } ∧
      postShard crates preset pubsubTopic contentTopic = some shard ∧
      gossip.publish shard.pubsubTopic (crates.encode message) =
        .ok (deterministicHash crates shard.pubsubTopic message).bytes ∧
      text = BaseN.hexEncode (deterministicHash crates shard.pubsubTopic message).bytes ∧
      (pubsubTopic = none → ∀ swarm : RelaySwarm, swarm.Documented → ∀ s : AppState swarm,
        s.preset = preset → (relaySubscribe crates s [contentTopic]).1 = some .ok →
        shard ∈ (relaySubscribe crates s [contentTopic]).2.shards ∧
          contentTopic ∈ (relaySubscribe crates s [contentTopic]).2.cache.topics) ∧
      ∀ (config : NodeConfig) (s : RestNode) (steps : List (RestStep crate)),
        contentTopic ∈ s.cache.topics →
        (∀ x ∈ taken (RestNode.step crates config) s steps, x.1.HasRoom contentTopic x.2) →
        Delivered crates config s steps shard.pubsubTopic (crates.encode message) →
        { body with contentTopic } ∈
            polledOf contentTopic (run (RestNode.step crates config) s steps).out ∨
          { body with contentTopic } ∈ toJson
            ((run (RestNode.step crates config) s steps).state.inFlight contentTopic) := by
  obtain ⟨message, shard, id, hmessage, hshard, hid, htext⟩ := hposted.published
  have hdecode := hcodec message hmessage
  have hjson := ((RestWakuMessage.intoMessage_eq_ok hb64).mp hmessage).2
  have htopic : message.contentTopic = contentTopic := congrArg RestWakuMessage.contentTopic hjson
  have hhash := publishReply_ok hgossip hdecode hid
  subst hhash
  refine ⟨message, shard, hmessage, hjson, hshard, publishReply_published hid, htext, ?_, ?_⟩
  · rintro rfl swarm hdoc s rfl hok
    exact relaySubscribe_singleton hdoc hshard hok
  · intro config s steps hregistered hroom hdelivered
    have hall := RestNode.run_conserves (MessageCache.lookup_isSome_of_mem hregistered) hroom
    have hmem : message ∈ ofTopic contentTopic (s.acceptedIn crates config steps) :=
      List.mem_filter.mpr ⟨hdelivered.mem_acceptedIn hdecode, by simpa using htopic⟩
    rw [← List.mem_append, hall, ← hjson]
    exact List.mem_map_of_mem (List.mem_append_right _ hmem)

def sampleBase64 : Base64Crate where
  decode s :=
    match BaseN.decodePadded (Bytes.asBytes s) with
    | some bytes => .ok bytes
    | none => .error "Invalid padding"

theorem sampleBase64_documented : sampleBase64.Documented := by
  intro s bytes
  have hdecode : sampleBase64.decode s = .ok bytes ↔
      BaseN.decodePadded (Bytes.asBytes s) = some bytes := by
    unfold sampleBase64
    dsimp only
    cases BaseN.decodePadded (Bytes.asBytes s) with
    | none => exact iff_of_false nofun nofun
    | some b => simp
  rw [hdecode, BaseN.decodePadded_eq_some]
  exact ⟨Bytes.asBytes_inj, congrArg Bytes.asBytes⟩

theorem posted_is_polled_sample :
    { payload := "AQID", contentTopic := "/toychat/2/huilong/proto" } ∈
      polledOf "/toychat/2/huilong/proto"
        (run (RestNode.step Crates.standard sampleStoreConfig) sampleRestNode
          sampleRestSteps).out := by
  have hposted : Posts Crates.standard sampleBase64 twn sampleGossip none
      "/toychat/2/huilong/proto" { payload := "AQID" } (BaseN.hexEncode
        (deterministicHash Crates.standard "/waku/2/rs/1/3" samplePosted).bytes) :=
    .inl ⟨rfl, by decide +kernel⟩
  have hmessage : RestWakuMessage.intoMessage sampleBase64 { payload := "AQID" }
      "/toychat/2/huilong/proto" = .ok samplePosted := by decide +kernel
  have hcodec : Crates.standard.decode (Crates.standard.encode samplePosted) = some samplePosted :=
    by decide +kernel
  obtain ⟨message, shard, hinto, -, hshard, -, -, -, hpolled⟩ := posted_is_polled Crates.standard
    sampleEnrCrate sampleBase64 sampleBase64_documented twn sampleGossip
    (fun _ _ _ h => (Except.ok.inj h).symm) none "/toychat/2/huilong/proto" { payload := "AQID" } _
    hposted fun m hm => by
      cases hmessage.symm.trans hm
      exact hcodec
  cases hmessage.symm.trans hinto
  have hthree : postShard Crates.standard twn none "/toychat/2/huilong/proto" = some ⟨1, 3⟩ := by
    decide +kernel
  cases hthree.symm.trans hshard
  have hdelivered : Delivered Crates.standard sampleStoreConfig sampleRestNode sampleRestSteps
      (ShardId.mk 1 3).pubsubTopic (Crates.standard.encode samplePosted) :=
    ⟨_, List.mem_cons_self .., rfl, sampleWorld 0, ⟨[1]⟩, [], ⟨0⟩, rfl, by decide +kernel, rfl⟩
  refine (hpolled sampleStoreConfig sampleRestNode sampleRestSteps
    sampleRestNode_topics sampleRestSteps_room hdelivered).resolve_right ?_
  decide +kernel

end RsWaku
