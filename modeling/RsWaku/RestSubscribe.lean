import RsWaku.ContentTopics
import RsWaku.RestCache

/-! The REST request that subscribes to content topics: each entry of its list is parsed, its shard
is subscribed to and the topic is registered, before the next entry is looked at. -/
namespace RsWaku

inductive NodeError where
  | build (text : String)
  | listen (text : String)
  | nodeStopped
  | command (text : String)
deriving DecidableEq

structure RelaySwarm where
  State : Type
  running : State → Bool
  topics : State → Set String
  subscribe : State → String → Except String Bool × State

def RelaySwarm.Documented (swarm : RelaySwarm) : Prop :=
  ∀ n topic fresh, (swarm.subscribe n topic).1 = .ok fresh →
    swarm.topics (swarm.subscribe n topic).2 = insert topic (swarm.topics n)

structure NetworkPreset where
  clusterId : UInt16
  shardCount : UInt16

def twn : NetworkPreset := { clusterId := 1, shardCount := 8 }

structure AppState (swarm : RelaySwarm) where
  node : swarm.State
  preset : NetworkPreset := twn
  cache : MessageCache := {}

inductive RestResponse where
  | ok
  | badRequest (e : CoreError)
  | serviceUnavailable (e : NodeError)
deriving DecidableEq

variable (crates : Crates) {swarm : RelaySwarm}

/-- The command that subscribes, with the reply to the handle; a task that has stopped takes no
command. -/
def nodeSubscribe (n : swarm.State) (shard : ShardId) : Except NodeError Unit × swarm.State :=
  if swarm.running n then
    match swarm.subscribe n shard.pubsubTopic with
    | (.ok _, n) => (.ok (), n)
    | (.error e, n) => (.error (.command e), n)
  else (.error .nodeStopped, n)

/-- The answer, none after a panic, and the state that is left. -/
def relaySubscribe (s : AppState swarm) :
    List String → Option RestResponse × AppState swarm
  | [] => (some .ok, s)
  | ctStr :: contentTopics =>
    match ContentTopic.parse ctStr with
    | .error e => (some (.badRequest e), s)
    | .ok ct =>
      match autoshard crates s.preset.clusterId ct s.preset.shardCount with
      | none => (none, s)
      | some shard =>
        match nodeSubscribe s.node shard with
        | (.error e, node) => (some (.serviceUnavailable e), { s with node })
        | (.ok _, node) =>
          relaySubscribe { s with node, cache := s.cache.register ctStr } contentTopics

def MessageCache.topics (cache : MessageCache) : Set String := {t | t ∈ cache.inner}

def AppState.shards (s : AppState swarm) : Set ShardId :=
  {shard | shard.pubsubTopic ∈ swarm.topics s.node}

def NetworkPreset.shardOf (preset : NetworkPreset) (ctStr : String) : Option ShardId :=
  match ContentTopic.parse ctStr with
  | .error _ => none
  | .ok ct => autoshard crates preset.clusterId ct preset.shardCount

def validPrefix (contentTopics : List String) : List String :=
  contentTopics.takeWhile fun ctStr => (ContentTopic.parse ctStr).isOk

theorem MessageCache.topics_register (cache : MessageCache) (t : String) :
    (cache.register t).topics = insert t cache.topics := by
  rw [register]
  split
  case h_1 queue hqueue =>
    have hmem : t ∈ cache.inner := AList.lookup_isSome.mp (by rw [hqueue]; rfl)
    exact (Set.insert_eq_of_mem hmem).symm
  case h_2 =>
    ext u
    exact AList.mem_insert cache.inner

variable {crates}

theorem topics_nodeSubscribe (hdoc : swarm.Documented) {n n' : swarm.State} {shard : ShardId}
    (h : nodeSubscribe n shard = (.ok (), n')) :
    swarm.topics n' = insert shard.pubsubTopic (swarm.topics n) := by
  have hsubscribed := hdoc n shard.pubsubTopic
  rw [nodeSubscribe] at h
  split at h
  case isTrue =>
    split at h
    case h_1 fresh n'' hcall =>
      cases h
      rw [hcall] at hsubscribed
      exact hsubscribed fresh rfl
    case h_2 => cases h
  case isFalse => cases h

theorem relaySubscribe_cons {s : AppState swarm} {c : String} {contentTopics : List String}
    {e : CoreError} (hparse : (ContentTopic.parse c).isOk)
    (h : (relaySubscribe crates s (c :: contentTopics)).1 = some (.badRequest e)) :
    ∃ shard node, s.preset.shardOf crates c = some shard ∧
      nodeSubscribe s.node shard = (.ok (), node) ∧
      relaySubscribe crates s (c :: contentTopics) =
        relaySubscribe crates { s with node, cache := s.cache.register c } contentTopics := by
  unfold relaySubscribe at h
  split at h
  case h_1 e' herror =>
    rw [herror] at hparse
    cases hparse
  case h_2 ct hct =>
    split at h
    case h_1 => cases h
    case h_2 shard hshard =>
      split at h
      case h_1 => cases h
      case h_2 u node hnode =>
        refine ⟨shard, node, ?_, hnode, ?_⟩
        · rw [NetworkPreset.shardOf, hct]
          exact hshard
        · rw [relaySubscribe, hct]
          dsimp only
          rw [hshard]
          dsimp only
          rw [hnode]

theorem relaySubscribe_badRequest (hdoc : swarm.Documented) {s : AppState swarm}
    {contentTopics : List String} {e : CoreError}
    (h : (relaySubscribe crates s contentTopics).1 = some (.badRequest e)) :
    (∀ t, t ∈ (relaySubscribe crates s contentTopics).2.cache.topics ↔
        t ∈ s.cache.topics ∨ t ∈ validPrefix contentTopics) ∧
      (∀ t, t ∈ swarm.topics (relaySubscribe crates s contentTopics).2.node ↔
        t ∈ swarm.topics s.node ∨ ∃ c ∈ validPrefix contentTopics,
          ∃ shard, s.preset.shardOf crates c = some shard ∧ t = shard.pubsubTopic) ∧
      ∀ c ∈ validPrefix contentTopics, ∃ shard, s.preset.shardOf crates c = some shard := by
  induction contentTopics generalizing s with
  | nil => cases h
  | cons c contentTopics ih =>
    by_cases hparse : (ContentTopic.parse c).isOk
    · obtain ⟨shard, node, hshard, hnode, hrest⟩ := relaySubscribe_cons hparse h
      have hvalid : validPrefix (c :: contentTopics) = c :: validPrefix contentTopics :=
        List.takeWhile_cons_of_pos hparse
      have hnodeTopics := topics_nodeSubscribe hdoc hnode
      have hcacheTopics := s.cache.topics_register c
      rw [hrest] at h ⊢
      obtain ⟨hcache, htopics, hshards⟩ := ih h
      rw [hvalid]
      refine ⟨fun t => ?_, fun t => ?_, ?_⟩
      · rw [hcache, hcacheTopics, Set.mem_insert_iff, List.mem_cons, or_assoc, or_left_comm]
      · rw [htopics, hnodeTopics, Set.mem_insert_iff, or_assoc, or_left_comm]
        simp only [List.mem_cons, exists_eq_or_imp, hshard, Option.some.injEq, exists_eq_left']
      · intro c' hc'
        obtain rfl | hc' := List.mem_cons.mp hc'
        · exact ⟨shard, hshard⟩
        · exact hshards c' hc'
    · have hvalid : validPrefix (c :: contentTopics) = [] := List.takeWhile_cons_of_neg hparse
      have hstop : (relaySubscribe crates s (c :: contentTopics)).2 = s := by
        unfold relaySubscribe
        split
        case h_1 => rfl
        case h_2 ct hct =>
          rw [hct] at hparse
          exact absurd rfl hparse
      rw [hstop, hvalid]
      simp

/-- A request that is rejected leaves the registered topics and the subscribed shards as they were
exactly when every entry before the bad one had been subscribed to before. -/
theorem rejected_subscription_unchanged_iff (crates : Crates) (swarm : RelaySwarm)
    (hdoc : swarm.Documented) (s : AppState swarm) (contentTopics : List String) (e : CoreError)
    (h : (relaySubscribe crates s contentTopics).1 = some (.badRequest e)) :
    ((relaySubscribe crates s contentTopics).2.cache.topics = s.cache.topics ∧
      (relaySubscribe crates s contentTopics).2.shards = s.shards) ↔
    ∀ c ∈ validPrefix contentTopics, c ∈ s.cache.topics ∧
      ∃ shard ∈ s.shards, s.preset.shardOf crates c = some shard := by
  obtain ⟨hcache, htopics, hshards⟩ := relaySubscribe_badRequest hdoc h
  constructor
  · intro ⟨hsame, hsameShards⟩ c hc
    refine ⟨hsame ▸ (hcache c).mpr (.inr hc), ?_⟩
    obtain ⟨shard, hshard⟩ := hshards c hc
    refine ⟨shard, hsameShards ▸ ?_, hshard⟩
    exact (htopics shard.pubsubTopic).mpr (.inr ⟨c, hc, shard, hshard, rfl⟩)
  · intro hbefore
    constructor
    · ext t
      rw [hcache]
      exact or_iff_left_of_imp fun ht => (hbefore t ht).1
    · ext shard
      refine (htopics shard.pubsubTopic).trans (or_iff_left_of_imp ?_)
      intro ⟨c, hc, shard', hshard', htopic⟩
      obtain ⟨-, known, hknown, hshard⟩ := hbefore c hc
      rw [hshard'] at hshard
      cases hshard
      rw [htopic]
      exact hknown

def sampleSwarm : RelaySwarm where
  State := List String
  running _ := true
  topics n := {t | t ∈ n}
  subscribe n topic := (.ok (topic ∉ n), topic :: n)

theorem sampleSwarm_documented : sampleSwarm.Documented := by
  intro n topic fresh _
  ext t
  exact List.mem_cons

theorem shardOf_toychat :
    twn.shardOf Crates.standard "/toychat/2/huilong/proto" = some ⟨1, 3⟩ := by
  decide +kernel

def mixedRequest : List String := ["/toychat/2/huilong/proto", "toychat"]

theorem validPrefix_mixedRequest : validPrefix mixedRequest = ["/toychat/2/huilong/proto"] := by
  decide +kernel

def subscribedApp : AppState sampleSwarm where
  node := ["/waku/2/rs/1/3"]
  cache := ({} : MessageCache).register "/toychat/2/huilong/proto"

theorem rejected_subscription_unchanged_sample :
    (relaySubscribe Crates.standard subscribedApp mixedRequest).2.cache.topics =
        subscribedApp.cache.topics ∧
      (relaySubscribe Crates.standard subscribedApp mixedRequest).2.shards =
        subscribedApp.shards := by
  refine (rejected_subscription_unchanged_iff Crates.standard sampleSwarm sampleSwarm_documented
    subscribedApp mixedRequest (.invalidContentTopic "toychat") (by decide +kernel)).mpr
      fun c hc => ?_
  rw [validPrefix_mixedRequest, List.mem_singleton] at hc
  subst hc
  refine ⟨?_, ⟨1, 3⟩, ?_, shardOf_toychat⟩
  · rw [subscribedApp, MessageCache.topics_register]
    exact Set.mem_insert _ _
  · exact (by decide +kernel : ShardId.pubsubTopic ⟨1, 3⟩ ∈ ["/waku/2/rs/1/3"])

def freshApp : AppState sampleSwarm where
  node := []

/- Where nothing was subscribed to, the valid entry of the rejected request is. -/
theorem rejected_subscription_changes :
    (relaySubscribe Crates.standard freshApp mixedRequest).1 =
      some (.badRequest (.invalidContentTopic "toychat")) ∧
    freshApp.cache.topics = ∅ ∧ freshApp.shards = ∅ ∧
    "/toychat/2/huilong/proto" ∈
      (relaySubscribe Crates.standard freshApp mixedRequest).2.cache.topics ∧
    ⟨1, 3⟩ ∈ (relaySubscribe Crates.standard freshApp mixedRequest).2.shards := by
  have hanswer : (relaySubscribe Crates.standard freshApp mixedRequest).1 =
      some (.badRequest (.invalidContentTopic "toychat")) := by
    decide +kernel
  obtain ⟨hcache, htopics, _⟩ := relaySubscribe_badRequest sampleSwarm_documented hanswer
  have hentry : "/toychat/2/huilong/proto" ∈ validPrefix mixedRequest := by
    rw [validPrefix_mixedRequest]
    exact List.mem_cons_self
  refine ⟨hanswer, ?_, ?_, ?_, ?_⟩
  · exact Set.eq_empty_of_forall_notMem fun t => AList.notMem_empty t
  · exact Set.eq_empty_of_forall_notMem fun shard => List.not_mem_nil
  · exact (hcache _).mpr (.inr hentry)
  · exact (htopics _).mpr (.inr ⟨_, hentry, _, shardOf_toychat, rfl⟩)

end RsWaku
