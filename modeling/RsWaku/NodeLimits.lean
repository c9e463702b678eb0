import RsWaku.Connections
import RsWaku.NodeServices
import RsWaku.StoreOnRelay

/-! The rate limits of the store and of lightpush over a whole run of the node's task, and what the
counters of the metrics have counted. -/
namespace RsWaku
open Reactive
variable {crates : Crates} {crate : EnrCrate} {config : NodeConfig}

inductive LimitedService where
  | store | lightpush
deriving DecidableEq

def RateLimiters.of (limits : RateLimiters) : LimitedService → RateLimiter
  | .store => limits.store
  | .lightpush => limits.lightpush

def RateLimiters.setBucket (limits : RateLimiters) (peer : PeerId) (bucket : Bucket) :
    LimitedService → RateLimiters
  | .store => { limits with store := limits.store.setBucket peer bucket }
  | .lightpush => { limits with lightpush := limits.lightpush.setBucket peer bucket }

def Node.refuse (n : Node) (service : LimitedService) (peer : PeerId) (bucket : Bucket) : Node :=
  { n with
    limits := n.limits.setBucket peer bucket service
    services := { n.services with rateLimited := n.services.rateLimited + 1 } }

def limitedCall (service : LimitedService) (i : World crate × LoopInput) :
    Option (PeerId × Instant) :=
  match service, i.2 with
  | .store, .event (.storeQuery peer _ _) => some (peer, i.1.instant)
  | .lightpush, .event (.lightpush peer _ _) => some (peer, i.1.instant)
  | _, _ => none

def NodeEffect.storeStatus : NodeEffect → Option UInt32
  | .respond _ (.storeQuery response) => response.statusCode
  | _ => none

def NodeEffect.lightpushStatus : NodeEffect → Option UInt32
  | .respond _ (.lightpush response) => some response.statusCode
  | _ => none

def NodeEffect.refuses (e : NodeEffect) : Bool :=
  e.storeStatus = some 429 || e.lightpushStatus = some 429

def serviceLog (crates : Crates) (config : NodeConfig) (service : LimitedService)
    (inputs : List (World crate × LoopInput)) : List (PeerId × Instant × Bool) :=
  (driverTurns crates config inputs).filterMap fun x =>
    (limitedCall service x.2).map fun c =>
      (c.1, c.2, !(x.1.turn crates config x.2).out.any NodeEffect.refuses)

theorem allowAll_eq_answers (l : RateLimiter) (calls : List (PeerId × Instant)) :
    l.allowAll calls = (answers (fun l c => l.allow c.1 c.2) l calls).map
      fun e => (e.1.1, e.1.2, e.2) := by
  induction calls generalizing l with
  | nil => rfl
  | cons call calls ih => rw [RateLimiter.allowAll, answers, List.map_cons, ih]

theorem turn_storeQuery (w : World crate) (n : Node) (peer : PeerId) (request : StoreQueryRequest)
    (channel : ResponseChannel) :
    n.turn crates config (w, .event (.storeQuery peer request channel)) =
      ⟨(n.handleStoreQuery config w peer request).1,
        [.respond channel (.storeQuery (n.handleStoreQuery config w peer request).2)], true⟩ := by
  exact rfl

theorem turn_lightpush (w : World crate) (n : Node) (peer : PeerId) (request : LightpushRequest)
    (channel : ResponseChannel) :
    n.turn crates config (w, .event (.lightpush peer request channel)) =
      ⟨(n.handleLightpush crates w peer request).1,
        lightpushOut channel (n.handleLightpush crates w peer request).2.1
          (n.handleLightpush crates w peer request).2.2, true⟩ := by
  exact rfl

theorem limits_turn (service : LimitedService) (n : Node) (i : World crate × LoopInput) :
    (n.turn crates config i).state.limits.of service =
      ((limitedCall service i).map fun c => ((n.limits.of service).allow c.1 c.2).1).getD
        (n.limits.of service) := by
  obtain ⟨w, input⟩ := i
  cases input with
  | closed => cases service <;> rfl
  | command c => cases c <;> cases service <;> rfl
  | event e =>
    cases e with
    | swarm event channel => cases service <;> rfl
    | storeQuery peer request channel =>
      rw [turn_storeQuery]
      obtain ⟨-, hcase⟩ | ⟨-, hcase⟩ := handleStoreQuery_cases config w n peer request
      · rw [hcase]
        cases service <;> rfl
      · rw [hcase]
        cases service <;> rfl
    | lightpush peer request channel =>
      rw [turn_lightpush]
      obtain ⟨-, hcase⟩ | ⟨-, hcase⟩ := handleLightpush_cases crates w n peer request
      · rw [hcase]
        cases service <;> rfl
      · rw [hcase]
        cases service <;> rfl
    | peerExchange request channel => cases service <;> rfl
    | response id response => cases service <;> rfl
    | outboundFailure s id error => cases service <;> rfl
    | other => cases service <;> rfl

theorem serveLightpush_status (gossip : Gossipsub) (request : LightpushRequest) :
    (serveLightpush crates gossip request).2.statusCode ≠ 429 := by
  unfold serveLightpush
  split
  · exact (by decide : (400 : UInt32) ≠ 429)
  · dsimp only
    split
    · exact (by decide : (200 : UInt32) ≠ 429)
    · exact (by decide : (503 : UInt32) ≠ 429)

theorem storeAnswer_status (store : SqliteStore) (request : StoreQueryRequest) :
    (if config.storeEnabled then serve store request
      else storeRefusal request 503 "store not enabled").statusCode ≠ some 429 := by
  split
  · rw [serve_status]
    split
    · exact (by decide : some (200 : UInt32) ≠ some 429)
    · exact (by decide : some (500 : UInt32) ≠ some 429)
  · exact (by decide : some (503 : UInt32) ≠ some 429)

theorem RateLimiter.allow_setBucket (l : RateLimiter) (peer : PeerId) (now : Instant) :
    ∃ bucket, (l.allow peer now).1 = l.setBucket peer bucket := by
  rw [RateLimiter.allow]
  split
  · exact ⟨_, rfl⟩
  · exact ⟨_, rfl⟩

theorem turn_refuses {service : LimitedService} {i : World crate × LoopInput}
    {c : PeerId × Instant} (h : limitedCall service i = some c) (n : Node) :
    ((n.turn crates config i).out.any NodeEffect.refuses =
        !((n.limits.of service).allow c.1 c.2).2) ∧
      ((n.turn crates config i).out.any NodeEffect.refuses = true →
        ∃ channel response bucket, n.turn crates config i =
          ⟨n.refuse service c.1 bucket, [.respond channel response], true⟩) := by
  obtain ⟨w, input⟩ := i
  unfold limitedCall at h
  split at h
  case h_1 peer request channel hinput =>
    obtain rfl : input = .event (.storeQuery peer request channel) := hinput
    cases h
    rw [turn_storeQuery, RateLimiters.of]
    obtain ⟨hallowed, hcase⟩ | ⟨hallowed, hcase⟩ := handleStoreQuery_cases config w n peer request
    · obtain ⟨bucket, hbucket⟩ := n.limits.store.allow_setBucket peer w.instant
      rw [hcase, hallowed, hbucket]
      exact ⟨rfl, fun _ => ⟨channel, _, bucket, rfl⟩⟩
    · have hserved : NodeEffect.refuses (.respond channel (.storeQuery
          (if config.storeEnabled then serve w.store request
            else storeRefusal request 503 "store not enabled"))) = false := by
        rw [NodeEffect.refuses, NodeEffect.storeStatus,
          decide_eq_false (storeAnswer_status w.store request)]
        rfl
      rw [hcase, hallowed, List.any_cons, hserved]
      exact ⟨rfl, fun h => Bool.noConfusion h⟩
  case h_2 peer request channel hinput =>
    obtain rfl : input = .event (.lightpush peer request channel) := hinput
    cases h
    rw [turn_lightpush, RateLimiters.of]
    obtain ⟨hallowed, hcase⟩ | ⟨hallowed, hcase⟩ := handleLightpush_cases crates w n peer request
    · obtain ⟨bucket, hbucket⟩ := n.limits.lightpush.allow_setBucket peer w.instant
      rw [hcase, hallowed, hbucket]
      exact ⟨rfl, fun _ => ⟨channel, _, bucket, rfl⟩⟩
    · have hstatus := @serveLightpush_status crates w.gossip request
      have hserved : (lightpushOut channel (serveLightpush crates w.gossip request).1
          (serveLightpush crates w.gossip request).2).any NodeEffect.refuses = false := by
        cases hpublished : (serveLightpush crates w.gossip request).1 <;>
          simpa [lightpushOut, NodeEffect.refuses, NodeEffect.storeStatus,
            NodeEffect.lightpushStatus] using hstatus
      rw [hcase, hallowed, hserved]
      exact ⟨rfl, fun h => Bool.noConfusion h⟩
  case h_3 => cases h

def limiterCalls (crates : Crates) (config : NodeConfig) (service : LimitedService)
    (inputs : List (World crate × LoopInput)) : List (PeerId × Instant) :=
  ((driverTurns crates config inputs).map Prod.snd).filterMap (limitedCall service)

/-- Each service answers as its limiter does on the requests to it alone. -/
theorem serviceLog_eq (service : LimitedService) (inputs : List (World crate × LoopInput)) :
    serviceLog crates config service inputs =
      (RateLimiter.new 10 1).allowAll (limiterCalls crates config service inputs) := by
  have hnew : ({} : Node).limits.of service = RateLimiter.new 10 1 := by cases service <;> rfl
  have hanswers := @answers_taken _ _ _ (Node.turn crates config) _ _ _
    (fun (l : RateLimiter) (c : PeerId × Instant) => l.allow c.1 c.2)
    (fun n => n.limits.of service) (limitedCall service) (limits_turn service) {} inputs
  rw [hnew] at hanswers
  rw [allowAll_eq_answers, limiterCalls, driverTurns, ← hanswers, List.map_filterMap, serviceLog,
    driverTurns]
  refine List.filterMap_congr fun x _ => ?_
  cases hcall : limitedCall service x.2 with
  | none => rfl
  | some c =>
    have hrefuses := (@turn_refuses crates crate config service x.2 c hcall x.1).1
    simp [hrefuses]

theorem limiterCalls_clock {service : LimitedService} {inputs : List (World crate × LoopInput)}
    (hclock : inputs.Pairwise fun i j => i.1.instant ≤ j.1.instant) :
    (limiterCalls crates config service inputs).Pairwise fun x y => x.2 ≤ y.2 := by
  have htime (i : World crate × LoopInput) (c : PeerId × Instant)
      (h : c ∈ limitedCall service i) : c.2 = i.1.instant := by
    obtain ⟨w, input⟩ := i
    unfold limitedCall at h
    split at h <;> cases h
    · rfl
    · rfl
  refine List.Pairwise.filterMap _ ?_ (hclock.sublist (taken_isPrefixOf ..).sublist)
  intro i j hij c hc c' hc'
  rw [htime i c hc, htime j c' hc']
  exact hij

theorem decisions_congr {calls others : List (PeerId × Instant)} {peer : PeerId}
    (hclock : calls.Pairwise fun x y => x.2 ≤ y.2)
    (hothers : others.Pairwise fun x y => x.2 ≤ y.2)
    (htimes : callTimes peer others = callTimes peer calls) :
    decisions 10 1 others peer = decisions 10 1 calls peer := by
  have hserve := decisions_eq_serve peer (by decide : 1 ≤ (10 : UInt32)) one_pos hclock
  rw [← htimes, decisions_eq_serve peer (by decide : 1 ≤ (10 : UInt32)) one_pos hothers] at hserve
  refine List.map_injective_iff.mpr (fun e e' he => ?_) hserve
  obtain ⟨htime, hanswer⟩ := Prod.mk.inj he
  exact Prod.ext (seconds_injective htime) hanswer

/-- Over a run of the whole node, with any commands and events in between, a peer is served at most
ten requests to a service, and ten more for each second. A request that is refused is answered, its
peer's bucket and the counter of refusals change, and nothing else. A peer's requests to a service
get the same answers in every run in which it sends them at the same times, whatever else is sent
by it and by others. -/
theorem service_rate_limits (crates : Crates) (crate : EnrCrate) (config : NodeConfig)
    (service : LimitedService) (peer : PeerId) (inputs : List (World crate × LoopInput))
    (hclock : inputs.Pairwise fun i j => i.1.instant ≤ j.1.instant) :
    (∀ s t : ℚ, s ≤ t →
      ((decisionsOf peer (serviceLog crates config service inputs)).countP fun e =>
        e.2 ∧ s ≤ seconds e.1 ∧ seconds e.1 ≤ t : ℚ) ≤ 10 + (t - s) * 10) ∧
    (∀ x ∈ driverTurns crates config inputs, ∀ c ∈ limitedCall service x.2,
      (x.1.turn crates config x.2).out.any NodeEffect.refuses = true →
      ∃ channel response bucket, x.1.turn crates config x.2 =
        ⟨x.1.refuse service c.1 bucket, [.respond channel response], true⟩) ∧
    ∀ (config' : NodeConfig) (others : List (World crate × LoopInput)),
      (others.Pairwise fun i j => i.1.instant ≤ j.1.instant) →
      callTimes peer (limiterCalls crates config' service others) =
        callTimes peer (limiterCalls crates config service inputs) →
      decisionsOf peer (serviceLog crates config' service others) =
        decisionsOf peer (serviceLog crates config service inputs) := by
  have hlog (config : NodeConfig) (inputs : List (World crate × LoopInput)) :
      decisionsOf peer (serviceLog crates config service inputs) =
        decisions 10 1 (limiterCalls crates config service inputs) peer := by
    rw [serviceLog_eq]
    rfl
  refine ⟨fun s t hst => ?_, fun x _ c hc hrefuses => ?_, fun config' others hothers htimes => ?_⟩
  · have hserve := decisions_eq_serve peer (by decide : 1 ≤ (10 : UInt32)) one_pos
      (@limiterCalls_clock crates crate config service inputs hclock)
    have hinterval := TokenBucket.taken_interval_le (by norm_num) (by norm_num)
      (hserve.trans (List.append_nil _).symm) hst
    rw [TokenBucket.taken, List.countP_filter, List.countP_map] at hinterval
    rw [hlog]
    simpa [Function.comp_def] using hinterval
  · exact (turn_refuses hc x.1).2 hrefuses
  · rw [hlog, hlog]
    exact decisions_congr (limiterCalls_clock hclock) (limiterCalls_clock hothers) htimes

def sampleWorld (instant : Instant) : World sampleEnrCrate where
  env := ⟨0, 0, true⟩
  instant := instant
  store := .empty
  book := []
  gossip := sampleGossip
  subscribe _ := .ok true
  dial _ := .ok ()
  nextId := 0

/- Eleven store queries of a peer at once, a lightpush request and a query a second later. -/
def sampleFlood : List (World sampleEnrCrate × LoopInput) :=
  List.replicate 11 (sampleWorld 0, .event (.storeQuery ⟨[1]⟩ {} ⟨0⟩)) ++
    [(sampleWorld 5, .event (.lightpush ⟨[1]⟩ {} ⟨1⟩)),
      (sampleWorld 1000000000, .event (.storeQuery ⟨[1]⟩ {} ⟨2⟩))]

theorem service_rate_limits_flood :
    (serviceLog Crates.standard sampleStoreConfig .store sampleFlood).map (·.2.2) =
      List.replicate 10 true ++ [false, true] ∧
    ((decisionsOf ⟨[1]⟩ (serviceLog Crates.standard sampleStoreConfig .store sampleFlood)).countP
      fun e => e.2 ∧ 0 ≤ seconds e.1 ∧ seconds e.1 ≤ 1 / 2 : ℚ) ≤ 10 + (1 / 2 - 0) * 10 := by
  refine ⟨by decide +kernel, ?_⟩
  exact (service_rate_limits Crates.standard sampleEnrCrate sampleStoreConfig .store ⟨[1]⟩
    sampleFlood (by decide)).1 0 (1 / 2) (by norm_num)

def SwarmEvent.accepted (crates : Crates) (env : Env) : SwarmEvent → Bool
  | .relayMessage _ _ topic data => relayVerdict crates env topic data = .accept
  | _ => false

def LoopInput.accepted (crates : Crates) (i : World crate × LoopInput) : Bool :=
  match i.2 with
  | .event (.swarm e _) => e.accepted crates i.1.env
  | _ => false

def NodeEffect.isPush : NodeEffect → Bool
  | .call (.filterPush _ _) => true
  | _ => false

def NodeEffect.servesStore : NodeEffect → Bool
  | .respond _ (.storeQuery response) => response.statusCode ≠ some 429
  | _ => false

def NodeEffect.servesLightpush : NodeEffect → Bool
  | .respond _ (.lightpush response) => response.statusCode ≠ 429
  | _ => false

def bumped (count : UInt64) (n : Nat) : UInt64 := count + UInt64.ofNat n

theorem bumped_zero (count : UInt64) : bumped count 0 = count := UInt64.add_zero count

theorem bumped_add (count : UInt64) (m n : Nat) :
    bumped (bumped count m) n = bumped count (m + n) := by
  rw [bumped, bumped, bumped, UInt64.ofNat_add, UInt64.add_assoc]

theorem pushes_acceptEffects (env : Env) (filters : FilterRegistry) (topic : String)
    (decoded : WakuMessage) (channel : ResponseChannel) :
    ((acceptEffects config env filters topic decoded).map (Effect.onChannel channel)).countP
      NodeEffect.isPush = (pushFilterMatches filters topic decoded).length := by
  have hpushes (pushes : List (PeerId × MessagePush)) :
      ((pushes.map fun p => Effect.filterPush p.1 p.2).map (Effect.onChannel channel)).countP
        NodeEffect.isPush = pushes.length := by
    rw [List.map_map, List.countP_map]
    exact List.countP_eq_length.mpr fun p _ => rfl
  rw [acceptEffects, List.map_append, List.countP_append, hpushes]
  split
  · exact Nat.zero_add _
  · exact Nat.zero_add _

theorem emit_pushes {env : Env} {state : NodeState} {before after : List Effect} {event : Event}
    {channel : ResponseChannel}
    (hafter : (after.map (Effect.onChannel channel)).countP NodeEffect.isPush = 0) :
    ((Outcome.emit env state before event after).effects.map (Effect.onChannel channel)).countP
      NodeEffect.isPush = (before.map (Effect.onChannel channel)).countP NodeEffect.isPush := by
  unfold Outcome.emit
  split
  · have hevent : ¬(Effect.onChannel channel (.sendEvent event)).isPush := by
      simp [Effect.onChannel, NodeEffect.isPush]
    rw [List.map_append, List.countP_append, List.map_cons, List.countP_cons_of_neg hevent, hafter,
      Nat.add_zero]
  · rfl

def Metrics.after (metrics : Metrics) (accepted : Bool) (out : List NodeEffect) : Metrics where
  relayMessages := bumped metrics.relayMessages accepted.toNat
  filterPushes := bumped metrics.filterPushes (out.countP NodeEffect.isPush)

theorem Metrics.after_quiet {metrics : Metrics} {out : List NodeEffect}
    (h : out.countP NodeEffect.isPush = 0) : metrics.after false out = metrics := by
  rw [Metrics.after, h, Bool.toNat_false, bumped_zero, bumped_zero]

/-- The relay branch counts the message and its pushes, also if the application is gone; no other
event counts anything. -/
theorem handleEvent_metrics (env : Env) (s : NodeState) (event : SwarmEvent)
    (channel : ResponseChannel) :
    (RsWaku.handleEvent crates config env s event).state.metrics =
      s.metrics.after (event.accepted crates env)
        ((RsWaku.handleEvent crates config env s event).effects.map
          (Effect.onChannel channel)) := by
  cases event with
  | newListenAddr address =>
    rw [RsWaku.handleEvent, Outcome.emit_state]
    exact (Metrics.after_quiet (emit_pushes rfl)).symm
  | connectionEstablished id peer endpoint =>
    rw [RsWaku.handleEvent, connectionEstablished]
    dsimp only
    split
    · rw [Outcome.emit_state]
      exact (Metrics.after_quiet (emit_pushes rfl)).symm
    · exact (Metrics.after_quiet rfl).symm
  | connectionClosed id peer endpoint =>
    rw [RsWaku.handleEvent, connectionClosed, Outcome.emit_state]
    exact (Metrics.after_quiet (emit_pushes rfl)).symm
  | relayMessage source messageId topic data =>
    rw [RsWaku.handleEvent, relayMessage, SwarmEvent.accepted, relayVerdict]
    cases ShardId.parse topic with
    | error e => exact (Metrics.after_quiet rfl).symm
    | ok shard =>
      cases crates.decode data with
      | none => exact (Metrics.after_quiet rfl).symm
      | some decoded =>
        dsimp only
        split
        case isTrue haccept =>
          rw [Outcome.emit_state, Metrics.after, emit_pushes rfl, pushes_acceptEffects,
            decide_eq_true haccept]
          rfl
        case isFalse hreject =>
          rw [decide_eq_false hreject]
          exact (Metrics.after_quiet rfl).symm
  | metadataRequest peer request => exact (Metrics.after_quiet rfl).symm
  | metadataResponse peer response =>
    rw [RsWaku.handleEvent, handleMetadataResponse]
    split
    · split
      · rw [Outcome.emit_state]
        exact (Metrics.after_quiet (emit_pushes rfl)).symm
      · exact (Metrics.after_quiet rfl).symm
    · exact (Metrics.after_quiet rfl).symm
  | filterSubscribeRequest peer request => exact (Metrics.after_quiet rfl).symm
  | filterPushRequest peer request =>
    rw [RsWaku.handleEvent, filterPushRequest]
    split
    · rw [Outcome.emit_state]
      exact (Metrics.after_quiet (emit_pushes rfl)).symm
    · exact (Metrics.after_quiet rfl).symm

def MetricsSnapshot.after (m : MetricsSnapshot) (accepted : Bool) (out : List NodeEffect) :
    MetricsSnapshot where
  relayMessages := bumped m.relayMessages accepted.toNat
  storeQueries := bumped m.storeQueries (out.countP NodeEffect.servesStore)
  lightpushRequests := bumped m.lightpushRequests (out.countP NodeEffect.servesLightpush)
  filterPushes := bumped m.filterPushes (out.countP NodeEffect.isPush)
  rateLimited := bumped m.rateLimited (out.countP NodeEffect.refuses)

def NodeEffect.Uncounted (e : NodeEffect) : Prop :=
  e.servesStore = false ∧ e.servesLightpush = false ∧ e.isPush = false ∧ e.refuses = false

theorem MetricsSnapshot.after_uncounted {m : MetricsSnapshot} {out : List NodeEffect}
    (h : ∀ e ∈ out, e.Uncounted) : m.after false out = m := by
  have hnone {p : NodeEffect → Bool} (hp : ∀ e ∈ out, p e = false) : out.countP p = 0 := by
    rw [List.countP_eq_zero]
    intro e he hpe
    exact Bool.false_ne_true ((hp e he).symm.trans hpe)
  rw [MetricsSnapshot.after, hnone fun e he => (h e he).1, hnone fun e he => (h e he).2.1,
    hnone fun e he => (h e he).2.2.1, hnone fun e he => (h e he).2.2.2, Bool.toNat_false,
    bumped_zero, bumped_zero, bumped_zero, bumped_zero, bumped_zero]

theorem onChannel_services (channel : ResponseChannel) (es : List Effect) :
    (es.map (Effect.onChannel channel)).countP NodeEffect.servesStore = 0 ∧
      (es.map (Effect.onChannel channel)).countP NodeEffect.servesLightpush = 0 ∧
      (es.map (Effect.onChannel channel)).countP NodeEffect.refuses = 0 := by
  have hnone {p : NodeEffect → Bool} (hp : ∀ e, p (Effect.onChannel channel e) = false) :
      (es.map (Effect.onChannel channel)).countP p = 0 := by
    rw [List.countP_map, List.countP_eq_zero]
    intro e _ he
    exact Bool.false_ne_true ((hp e).symm.trans he)
  refine ⟨hnone fun e => ?_, hnone fun e => ?_, hnone fun e => ?_⟩
  · cases e <;> rfl
  · cases e <;> rfl
  · cases e <;> rfl

theorem uncounted_sentReplies (sent : List (ReplySender × Reply)) :
    ∀ e ∈ sentReplies sent, e.Uncounted := by
  intro e he
  obtain ⟨x, -, rfl⟩ := List.mem_map.mp he
  exact ⟨rfl, rfl, rfl, rfl⟩

theorem uncounted_handleCommand (crates : Crates) (w : World crate) (n : Node) (c : Command) :
    ∀ e ∈ (n.handleCommand crates w c).2, e.Uncounted := by
  cases c <;> simp [Node.handleCommand, NodeEffect.Uncounted, NodeEffect.servesStore,
    NodeEffect.servesLightpush, NodeEffect.isPush, NodeEffect.refuses, NodeEffect.storeStatus,
    NodeEffect.lightpushStatus]

theorem MetricsSnapshot.after_singleton {m : MetricsSnapshot} {e : NodeEffect}
    {store lightpush refused : Bool} (hstore : e.servesStore = store)
    (hlightpush : e.servesLightpush = lightpush) (hpush : e.isPush = false)
    (hrefuses : e.refuses = refused) :
    m.after false [e] = { m with
      storeQueries := bumped m.storeQueries store.toNat
      lightpushRequests := bumped m.lightpushRequests lightpush.toNat
      rateLimited := bumped m.rateLimited refused.toNat } := by
  have hone (p : NodeEffect → Bool) : [e].countP p = (p e).toNat := by
    rw [List.countP_singleton]
    cases p e <;> rfl
  rw [MetricsSnapshot.after, hone, hone, hone, hone, hstore, hlightpush, hpush, hrefuses,
    Bool.toNat_false, bumped_zero, bumped_zero]

theorem snapshot_handleStoreQuery (w : World crate) (n : Node) (peer : PeerId)
    (request : StoreQueryRequest) (channel : ResponseChannel) :
    (n.handleStoreQuery config w peer request).1.snapshot = n.snapshot.after false
      [.respond channel (.storeQuery (n.handleStoreQuery config w peer request).2)] := by
  obtain ⟨-, hcase⟩ | ⟨-, hcase⟩ := handleStoreQuery_cases config w n peer request
  · rw [hcase, @MetricsSnapshot.after_singleton _ _ false false true rfl rfl rfl rfl,
      Bool.toNat_false, bumped_zero, bumped_zero]
    rfl
  · have hstatus := @storeAnswer_status config w.store request
    have hrefuses : (NodeEffect.respond channel (.storeQuery
        (n.handleStoreQuery config w peer request).2)).refuses = false := by
      rw [hcase, NodeEffect.refuses, NodeEffect.storeStatus, decide_eq_false hstatus]
      rfl
    have hserves := decide_eq_true hstatus
    rw [@MetricsSnapshot.after_singleton _ _ true false false (hcase ▸ hserves) rfl rfl hrefuses,
      Bool.toNat_false, bumped_zero, bumped_zero, hcase]
    rfl

theorem snapshot_handleLightpush (w : World crate) (n : Node) (peer : PeerId)
    (request : LightpushRequest) (channel : ResponseChannel) :
    (n.handleLightpush crates w peer request).1.snapshot = n.snapshot.after false
      [.respond channel (.lightpush (n.handleLightpush crates w peer request).2.2)] := by
  obtain ⟨-, hcase⟩ | ⟨-, hcase⟩ := handleLightpush_cases crates w n peer request
  · rw [hcase, @MetricsSnapshot.after_singleton _ _ false false true rfl rfl rfl rfl,
      Bool.toNat_false, bumped_zero, bumped_zero]
    rfl
  · have hstatus := @serveLightpush_status crates w.gossip request
    have hrefuses : (NodeEffect.respond channel (.lightpush
        (n.handleLightpush crates w peer request).2.2)).refuses = false := by
      rw [hcase, NodeEffect.refuses, NodeEffect.lightpushStatus, Bool.or_eq_false_iff]
      exact ⟨rfl, decide_eq_false fun h => hstatus (Option.some.inj h)⟩
    have hserves := decide_eq_true hstatus
    rw [@MetricsSnapshot.after_singleton _ _ false true false rfl (hcase ▸ hserves) rfl hrefuses,
      Bool.toNat_false, bumped_zero, bumped_zero, hcase]
    rfl

theorem MetricsSnapshot.after_publish (m : MetricsSnapshot)
    (published : Option (String × List UInt8)) (out : List NodeEffect) :
    m.after false ((published.map fun p => NodeEffect.publish p.1 p.2).toList ++ out) =
      m.after false out := by
  cases published <;> rfl

theorem turn_snapshot (n : Node) (i : World crate × LoopInput) :
    (n.turn crates config i).state.snapshot =
      n.snapshot.after (LoopInput.accepted crates i) (n.turn crates config i).out := by
  obtain ⟨w, input⟩ := i
  cases input with
  | closed => exact (MetricsSnapshot.after_uncounted (by simp [Node.turn])).symm
  | command c =>
    have hout : ∀ e ∈ (n.turn crates config (w, .command c)).out, e.Uncounted := by
      cases c with
      | subscribe shard reply => exact uncounted_handleCommand crates w n (.subscribe shard reply)
      | publish shard message reply =>
        exact uncounted_handleCommand crates w n (.publish shard message reply)
      | dial addr reply => exact uncounted_handleCommand crates w n (.dial addr reply)
      | request command => exact uncounted_handleCommand crates w n (.request command)
      | shutdown => simp [Node.turn]
    rw [show LoopInput.accepted crates (w, .command c) = false from rfl,
      MetricsSnapshot.after_uncounted hout]
    cases c <;> rfl
  | event e =>
    cases e with
    | swarm event channel =>
      have hmetrics := @handleEvent_metrics crates config w.env n.core event channel
      obtain ⟨hstore, hlightpush, hrefuses⟩ := onChannel_services channel
        (RsWaku.handleEvent crates config w.env n.core event).effects
      rw [Node.snapshot, MetricsSnapshot.after]
      change MetricsSnapshot.mk
        (RsWaku.handleEvent crates config w.env n.core event).state.metrics.relayMessages
        n.services.storeQueries n.services.lightpushRequests
        (RsWaku.handleEvent crates config w.env n.core event).state.metrics.filterPushes
        n.services.rateLimited = ⟨_, bumped _ (List.countP _ (List.map _ _)),
          bumped _ (List.countP _ (List.map _ _)), _, bumped _ (List.countP _ (List.map _ _))⟩
      rw [hmetrics, hstore, hlightpush, hrefuses, bumped_zero, bumped_zero, bumped_zero]
      rfl
    | storeQuery peer request channel => exact snapshot_handleStoreQuery w n peer request channel
    | lightpush peer request channel =>
      exact (snapshot_handleLightpush w n peer request channel).trans
        (MetricsSnapshot.after_publish _ _ _).symm
    | peerExchange request channel =>
      refine (MetricsSnapshot.after_uncounted ?_).symm
      intro e he
      cases List.mem_singleton.mp he
      exact ⟨rfl, rfl, rfl, rfl⟩
    | response id response =>
      exact (MetricsSnapshot.after_uncounted (uncounted_sentReplies _)).symm
    | outboundFailure s id error =>
      exact (MetricsSnapshot.after_uncounted (uncounted_sentReplies _)).symm
    | other => exact (MetricsSnapshot.after_uncounted (by simp [Node.turn, Node.handleEvent])).symm

/-- Over a whole run, whatever the order of its inputs, the counters have counted what the node
did: the relay messages that it accepted, the filter pushes that it sent, and the requests that it
answered, each as served or as refused. -/
theorem metrics_count (crates : Crates) (crate : EnrCrate) (config : NodeConfig)
    (inputs : List (World crate × LoopInput)) :
    (driver crates config inputs).state.snapshot = {
      relayMessages := UInt64.ofNat ((driverTurns crates config inputs).countP
        fun x => LoopInput.accepted crates x.2)
      storeQueries := UInt64.ofNat
        ((driver crates config inputs).out.countP NodeEffect.servesStore)
      lightpushRequests := UInt64.ofNat
        ((driver crates config inputs).out.countP NodeEffect.servesLightpush)
      filterPushes := UInt64.ofNat ((driver crates config inputs).out.countP NodeEffect.isPush)
      rateLimited := UInt64.ofNat
        ((driver crates config inputs).out.countP NodeEffect.refuses) } := by
  have hcount (count : MetricsSnapshot → UInt64) (p : NodeEffect → Bool)
      (hafter : ∀ m accepted out, count (MetricsSnapshot.after m accepted out) =
        bumped (count m) (out.countP p)) (hstart : count ({} : Node).snapshot = 0) :
      count (driver crates config inputs).state.snapshot =
        UInt64.ofNat ((driver crates config inputs).out.countP p) := by
    have hrun := @count_run_out _ _ _ (Node.turn crates config) _ bumped (fun n => count n.snapshot)
      p bumped_zero bumped_add (fun n i =>
        (congrArg count (turn_snapshot n i)).trans (hafter _ _ _)) {} inputs
    rw [driver, hrun, hstart, bumped, UInt64.zero_add]
  have hrelay := @count_run_taken _ _ _ (Node.turn crates config) _ bumped
    (fun n => n.snapshot.relayMessages) (LoopInput.accepted crates) bumped_zero bumped_add
    (fun n i => congrArg MetricsSnapshot.relayMessages (turn_snapshot n i)) {} inputs
  refine MetricsSnapshot.ext ?_
    (hcount MetricsSnapshot.storeQueries NodeEffect.servesStore (fun _ _ _ => rfl) rfl)
    (hcount MetricsSnapshot.lightpushRequests NodeEffect.servesLightpush (fun _ _ _ => rfl) rfl)
    (hcount MetricsSnapshot.filterPushes NodeEffect.isPush (fun _ _ _ => rfl) rfl)
    (hcount MetricsSnapshot.rateLimited NodeEffect.refuses (fun _ _ _ => rfl) rfl)
  exact hrelay.trans (UInt64.zero_add _)

end RsWaku
