import Mathlib.Data.Finset.Image
import RsWaku.Maps
import RsWaku.Message
import RsWaku.Runs

/-! The filter registry of a full node: subscription requests, the peers that a message is
pushed to, and when the registry agrees with the set of pairs that a peer asked for. -/
namespace RsWaku
open Runs

structure PeerId where
  multihash : List UInt8
deriving DecidableEq

structure FilterSub where
  pubsubTopic : Option String
  contentTopics : List String
deriving DecidableEq

/-- An absent pubsub topic and an empty list of content topics match everything. -/
def FilterSub.matches (s : FilterSub) (topic contentTopic : String) : Bool :=
  s.pubsubTopic.all (· == topic) &&
    (s.contentTopics.isEmpty || s.contentTopics.any (· == contentTopic))

abbrev FilterRegistry := AList fun _ : PeerId => List FilterSub

namespace SubscribeType
def ping : Int32 := 0
def subscribe : Int32 := 1
def unsubscribe : Int32 := 2
def unsubscribeAll : Int32 := 3
end SubscribeType

structure FilterSubscribeRequest where
  requestId : String := ""
  filterSubscribeType : Int32
  pubsubTopic : Option String := none
  contentTopics : List String := []

structure FilterSubscribeResponse where
  requestId : String
  statusCode : UInt32
  statusDesc : Option String

def FilterSubscribeResponse.ok (requestId : String) : FilterSubscribeResponse :=
  ⟨requestId, 200, some "OK"⟩

def FilterSubscribeResponse.error (requestId : String) (code : UInt32) (desc : String) :
    FilterSubscribeResponse :=
  ⟨requestId, code, some desc⟩

def applyFilterRequest (filters : FilterRegistry) (peer : PeerId) (req : FilterSubscribeRequest) :
    FilterRegistry × FilterSubscribeResponse :=
  if req.filterSubscribeType = SubscribeType.subscribe then
    (filters.insert peer ((filters.lookup peer).getD [] ++ [⟨req.pubsubTopic, req.contentTopics⟩]),
      .ok req.requestId)
  else if req.filterSubscribeType = SubscribeType.unsubscribe then
    (match filters.lookup peer with
      | none => filters
      | some subs => filters.insert peer (subs.filter fun s =>
          s.pubsubTopic ≠ req.pubsubTopic ∨ s.contentTopics ≠ req.contentTopics),
      .ok req.requestId)
  else if req.filterSubscribeType = SubscribeType.unsubscribeAll then
    (filters.erase peer, .ok req.requestId)
  else if req.filterSubscribeType = SubscribeType.ping then (filters, .ok req.requestId)
  else (filters, .error req.requestId 400 "unknown type")

structure MessagePush where
  wakuMessage : Option WakuMessage
  pubsubTopic : Option String

def pushFilterMatches (filters : FilterRegistry) (topic : String) (msg : WakuMessage) :
    List (PeerId × MessagePush) :=
  (filters.entries.filter fun e => e.2.any (·.matches topic msg.contentTopic)).map fun e =>
    (e.1, ⟨some msg, some topic⟩)

theorem mem_pushFilterMatches (filters : FilterRegistry) (topic : String) (msg : WakuMessage)
    (p : PeerId) :
    p ∈ (pushFilterMatches filters topic msg).map Prod.fst ↔
      ∃ s ∈ Maps.read filters [] p, s.matches topic msg.contentTopic = true := by
  simp only [pushFilterMatches, List.map_map, List.mem_map, List.mem_filter, List.any_eq_true]
  constructor
  · intro hpush
    obtain ⟨⟨q, subs⟩, ⟨hmem, s, hs, hmatch⟩, rfl⟩ := hpush
    refine ⟨s, ?_, hmatch⟩
    exact (Maps.read_of_lookup (AList.mem_lookup_iff.mpr hmem)).symm ▸ hs
  · intro hsub
    obtain ⟨s, hs, hmatch⟩ := hsub
    cases hl : filters.lookup p with
    | none =>
      rw [Maps.read_of_absent hl] at hs
      cases hs
    | some subs =>
      rw [Maps.read_of_lookup hl] at hs
      exact ⟨⟨p, subs⟩, ⟨AList.mem_lookup_iff.mp hl, s, hs, hmatch⟩, rfl⟩

def nextSubs (subs : List FilterSub) (req : FilterSubscribeRequest) : List FilterSub :=
  if req.filterSubscribeType = SubscribeType.subscribe then
    subs ++ [⟨req.pubsubTopic, req.contentTopics⟩]
  else if req.filterSubscribeType = SubscribeType.unsubscribe then
    subs.filter fun s => s.pubsubTopic ≠ req.pubsubTopic ∨ s.contentTopics ≠ req.contentTopics
  else if req.filterSubscribeType = SubscribeType.unsubscribeAll then []
  else subs

theorem read_applyFilterRequest (filters : FilterRegistry) (peer : PeerId)
    (req : FilterSubscribeRequest) :
    Maps.read (applyFilterRequest filters peer req).1 [] =
      Function.update (Maps.read filters []) peer (nextSubs (Maps.read filters [] peer) req) := by
  unfold applyFilterRequest nextSubs
  split
  · exact Maps.read_insert filters [] _ peer
  · split
    · cases hl : filters.lookup peer with
      | none =>
        have hnil : Maps.read filters [] peer = [] := Maps.read_of_absent hl
        rw [hnil, List.filter_nil]
        exact (Function.update_eq_self_iff.mpr hnil.symm).symm
      | some subs =>
        rw [Maps.read_of_lookup hl]
        exact Maps.read_insert filters [] _ peer
    · split
      · exact Maps.read_erase filters [] peer
      · split <;> rw [Function.update_eq_self]

def FilterSubscribeRequest.Named (req : FilterSubscribeRequest) : Prop :=
  req.filterSubscribeType = SubscribeType.subscribe ∨
      req.filterSubscribeType = SubscribeType.unsubscribe →
    req.pubsubTopic.isSome ∧ req.contentTopics ≠ []

def FilterSubscribeRequest.pairs (req : FilterSubscribeRequest) : Finset (String × String) :=
  (req.pubsubTopic.toList.flatMap fun t => req.contentTopics.map fun c => (t, c)).toFinset

/-- The set semantics of 12/WAKU2-FILTER: union, difference, clearing. -/
def nextWanted (wanted : Finset (String × String)) (req : FilterSubscribeRequest) :
    Finset (String × String) :=
  if req.filterSubscribeType = SubscribeType.subscribe then wanted ∪ req.pairs
  else if req.filterSubscribeType = SubscribeType.unsubscribe then wanted \ req.pairs
  else if req.filterSubscribeType = SubscribeType.unsubscribeAll then ∅
  else wanted

/-- The registry beside the pairs that each peer's own requests add up to. -/
structure FilterRun where
  filters : FilterRegistry
  wanted : PeerId → Finset (String × String)

def FilterRun.init : FilterRun := ⟨∅, fun _ => ∅⟩

def FilterRun.step (s : FilterRun) (e : PeerId × FilterSubscribeRequest) : FilterRun where
  filters := (applyFilterRequest s.filters e.1 e.2).1
  wanted := Function.update s.wanted e.1 (nextWanted (s.wanted e.1) e.2)

def FilterRun.Exact (s : FilterRun) : Prop :=
  ∀ p topic msg, p ∈ (pushFilterMatches s.filters topic msg).map Prod.fst ↔
    (topic, msg.contentTopic) ∈ s.wanted p

/-- An unsubscribe request meets no subscription of its peer, on its pubsub topic, that
lists one of its content topics but is not the same list. -/
def FilterRun.Aligned (s : FilterRun) (e : PeerId × FilterSubscribeRequest) : Prop :=
  e.2.filterSubscribeType = SubscribeType.unsubscribe →
    ∀ sub ∈ Maps.read s.filters [] e.1, sub.pubsubTopic = e.2.pubsubTopic →
      sub.contentTopics ≠ e.2.contentTopics → sub.contentTopics.Disjoint e.2.contentTopics

def FilterSub.Named (sub : FilterSub) : Prop := sub.pubsubTopic.isSome ∧ sub.contentTopics ≠ []

theorem FilterSub.Named.matches_iff {sub : FilterSub} (h : sub.Named) (t c : String) :
    sub.matches t c = true ↔ sub.pubsubTopic = some t ∧ c ∈ sub.contentTopics := by
  obtain ⟨topic, topics⟩ := sub
  obtain ⟨ht, hne⟩ := h
  obtain ⟨t', rfl⟩ := Option.isSome_iff_exists.mp ht
  simp [FilterSub.matches, hne]

theorem mem_pairs (req : FilterSubscribeRequest) (t c : String) :
    (t, c) ∈ req.pairs ↔ req.pubsubTopic = some t ∧ c ∈ req.contentTopics := by
  simp [FilterSubscribeRequest.pairs]

def Covers (subs : List FilterSub) (wanted : Finset (String × String)) : Prop :=
  ∀ t c, (∃ sub ∈ subs, sub.matches t c = true) ↔ (t, c) ∈ wanted

theorem FilterRun.exact_iff (s : FilterRun) :
    s.Exact ↔ ∀ p, Covers (Maps.read s.filters [] p) (s.wanted p) := by
  constructor
  · intro h p t c
    rw [← mem_pushFilterMatches s.filters t { contentTopic := c } p]
    exact h p t { contentTopic := c }
  · intro h p topic msg
    rw [mem_pushFilterMatches]
    exact h p topic msg.contentTopic

variable {subs : List FilterSub} {wanted : Finset (String × String)}
  {req : FilterSubscribeRequest}

theorem nextSubs_named (hsubs : ∀ sub ∈ subs, sub.Named) (hreq : req.Named) :
    ∀ sub ∈ nextSubs subs req, sub.Named := by
  intro sub hsub
  unfold nextSubs at hsub
  split at hsub
  case isTrue hty =>
    obtain hsub | hsub := List.mem_append.mp hsub
    · exact hsubs sub hsub
    · cases List.mem_singleton.mp hsub
      exact hreq (Or.inl hty)
  case isFalse =>
    split at hsub
    · exact hsubs sub (List.mem_of_mem_filter hsub)
    · split at hsub
      · cases hsub
      · exact hsubs sub hsub

theorem covers_subscribe (hreq : req.pubsubTopic.isSome ∧ req.contentTopics ≠ [])
    (h : Covers subs wanted) :
    Covers (subs ++ [⟨req.pubsubTopic, req.contentTopics⟩]) (wanted ∪ req.pairs) := by
  intro t c
  have hnew : FilterSub.matches ⟨req.pubsubTopic, req.contentTopics⟩ t c = true ↔
      (t, c) ∈ req.pairs := by
    rw [mem_pairs]
    exact @FilterSub.Named.matches_iff ⟨req.pubsubTopic, req.contentTopics⟩ hreq t c
  rw [Finset.mem_union, ← h t c, ← hnew]
  constructor
  · intro hex
    obtain ⟨sub, hsub, hmatch⟩ := hex
    obtain hsub | hsub := List.mem_append.mp hsub
    · exact Or.inl ⟨sub, hsub, hmatch⟩
    · cases List.mem_singleton.mp hsub
      exact Or.inr hmatch
  · intro hor
    obtain ⟨sub, hsub, hmatch⟩ | hmatch := hor
    · exact ⟨sub, List.mem_append_left _ hsub, hmatch⟩
    · exact ⟨_, List.mem_append_right _ (List.mem_singleton_self _), hmatch⟩

/-- Removing the equal lists removes the pairs of the request exactly if no other list of
the same pubsub topic shares a content topic with it. -/
theorem covers_unsubscribe_iff (hsubs : ∀ sub ∈ subs, sub.Named)
    (hreq : req.pubsubTopic.isSome ∧ req.contentTopics ≠ []) (h : Covers subs wanted) :
    Covers (subs.filter fun s =>
        s.pubsubTopic ≠ req.pubsubTopic ∨ s.contentTopics ≠ req.contentTopics)
        (wanted \ req.pairs) ↔
      ∀ sub ∈ subs, sub.pubsubTopic = req.pubsubTopic →
        sub.contentTopics ≠ req.contentTopics → sub.contentTopics.Disjoint req.contentTopics := by
  constructor
  · intro hnew sub hsub htopic hlist c hc hc'
    obtain ⟨t, ht⟩ := Option.isSome_iff_exists.mp hreq.1
    have hmatch : sub.matches t c = true :=
      ((hsubs sub hsub).matches_iff t c).mpr ⟨htopic.trans ht, hc⟩
    have hkept := (hnew t c).mp ⟨sub, List.mem_filter.mpr ⟨hsub, by simp [hlist]⟩, hmatch⟩
    exact (Finset.mem_sdiff.mp hkept).2 ((mem_pairs req t c).mpr ⟨ht, hc'⟩)
  · intro hdis t c
    rw [Finset.mem_sdiff, ← h t c, mem_pairs]
    constructor
    · intro hex
      obtain ⟨sub, hkept, hmatch⟩ := hex
      obtain ⟨hsub, hkeep⟩ := List.mem_filter.mp hkept
      refine ⟨⟨sub, hsub, hmatch⟩, ?_⟩
      intro hpair
      obtain ⟨hst, hsc⟩ := ((hsubs sub hsub).matches_iff t c).mp hmatch
      rw [decide_eq_true_eq] at hkeep
      obtain hkeep | hkeep := hkeep
      · exact hkeep (hst.trans hpair.1.symm)
      · exact hdis sub hsub (hst.trans hpair.1.symm) hkeep hsc hpair.2
    · intro hex
      obtain ⟨⟨sub, hsub, hmatch⟩, hnot⟩ := hex
      obtain ⟨hst, hsc⟩ := ((hsubs sub hsub).matches_iff t c).mp hmatch
      refine ⟨sub, List.mem_filter.mpr ⟨hsub, ?_⟩, hmatch⟩
      rw [decide_eq_true_eq]
      by_contra hsame
      simp only [not_or, not_not] at hsame
      exact hnot ⟨hsame.1 ▸ hst, hsame.2 ▸ hsc⟩

theorem covers_next_iff (hsubs : ∀ sub ∈ subs, sub.Named) (hreq : req.Named)
    (h : Covers subs wanted) :
    Covers (nextSubs subs req) (nextWanted wanted req) ↔
      (req.filterSubscribeType = SubscribeType.unsubscribe →
        ∀ sub ∈ subs, sub.pubsubTopic = req.pubsubTopic →
          sub.contentTopics ≠ req.contentTopics →
          sub.contentTopics.Disjoint req.contentTopics) := by
  by_cases hs : req.filterSubscribeType = SubscribeType.subscribe
  · have hne : req.filterSubscribeType ≠ SubscribeType.unsubscribe := by
      rw [hs]
      decide
    simp only [nextSubs, nextWanted, hs, if_true]
    exact iff_of_true (covers_subscribe (hreq (Or.inl hs)) h) fun hu => absurd (hs.trans hu) hne
  · by_cases hu : req.filterSubscribeType = SubscribeType.unsubscribe
    · simp only [nextSubs, nextWanted, if_neg hs, if_pos hu]
      rw [covers_unsubscribe_iff hsubs (hreq (Or.inr hu)) h]
      exact ⟨fun hall _ => hall, fun hall => hall hu⟩
    · simp only [nextSubs, nextWanted, if_neg hs, if_neg hu]
      refine iff_of_true ?_ fun h' => absurd h' hu
      split
      · intro t c
        simp
      · exact h

def FilterRun.Listed (s : FilterRun) : Prop :=
  ∀ p, ∀ sub ∈ Maps.read s.filters [] p, sub.Named

theorem FilterRun.step_listed (s : FilterRun) (e : PeerId × FilterSubscribeRequest)
    (hs : s.Listed) (he : e.2.Named) : (s.step e).Listed := by
  intro p
  simp only [FilterRun.step, read_applyFilterRequest]
  by_cases hp : p = e.1
  · subst hp
    rw [Function.update_self]
    exact nextSubs_named (hs e.1) he
  · rw [Function.update_of_ne hp]
    exact hs p

theorem FilterRun.step_exact_iff (s : FilterRun) (e : PeerId × FilterSubscribeRequest)
    (hs : s.Listed) (he : e.2.Named) (hex : s.Exact) : (s.step e).Exact ↔ s.Aligned e := by
  rw [FilterRun.exact_iff] at hex ⊢
  unfold FilterRun.Aligned
  rw [← covers_next_iff (hs e.1) he (hex e.1)]
  simp only [FilterRun.step, read_applyFilterRequest]
  constructor
  · intro h
    simpa using h e.1
  · intro h p
    by_cases hp : p = e.1
    · subst hp
      simpa using h
    · simpa [hp] using hex p

/-- Along any sequence of requests, pushes agree with the set semantics in every state
exactly if each unsubscribe request meets only equal or disjoint lists. -/
theorem filter_registry_exact_iff (reqs : List (PeerId × FilterSubscribeRequest))
    (hnamed : ∀ e ∈ reqs, e.2.Named) :
    EveryState FilterRun.step FilterRun.Exact FilterRun.init reqs ↔
      EachStep FilterRun.step FilterRun.Aligned FilterRun.init reqs := by
  have hinit : ∀ p, Maps.read FilterRun.init.filters [] p = [] := by
    intro p
    rfl
  refine everyState_iff FilterRun.step_listed FilterRun.step_exact_iff ?_ ?_
    (eachStep_of_forall fun e he _ => hnamed e he)
  · intro p sub hsub
    rw [hinit p] at hsub
    cases hsub
  · rw [FilterRun.exact_iff]
    intro p t c
    rw [hinit p]
    simp [FilterRun.init]

theorem filter_registry_same_list :
    EveryState FilterRun.step FilterRun.Exact FilterRun.init
      [(⟨[1]⟩, { filterSubscribeType := SubscribeType.subscribe
                 pubsubTopic := some "/waku/2/rs/1/0", contentTopics := ["/a/1/x/proto"] }),
       (⟨[1]⟩, { filterSubscribeType := SubscribeType.unsubscribe
                 pubsubTopic := some "/waku/2/rs/1/0", contentTopics := ["/a/1/x/proto"] })] := by
  refine (filter_registry_exact_iff _ ?_).mpr ⟨fun h => absurd h (by decide), ?_, trivial⟩
  · intro e he
    simp only [List.mem_cons, List.not_mem_nil, or_false] at he
    obtain rfl | rfl := he
    · exact fun _ => ⟨rfl, List.cons_ne_nil _ _⟩
    · exact fun _ => ⟨rfl, List.cons_ne_nil _ _⟩
  · intro _ sub hsub _ hne
    cases List.mem_singleton.mp hsub
    exact absurd rfl hne

def partialUnsubscribe : List (PeerId × FilterSubscribeRequest) :=
  [(⟨[1]⟩, { filterSubscribeType := SubscribeType.subscribe
             pubsubTopic := some "/waku/2/rs/1/0"
             contentTopics := ["/a/1/x/proto", "/b/1/x/proto"] }),
   (⟨[1]⟩, { filterSubscribeType := SubscribeType.unsubscribe
             pubsubTopic := some "/waku/2/rs/1/0", contentTopics := ["/a/1/x/proto"] })]

/-- Both requests are acknowledged, and the unsubscribed topic is still pushed. -/
theorem filter_registry_partial_list :
    (∀ e ∈ partialUnsubscribe, e.2.Named ∧
      ∀ filters, (applyFilterRequest filters e.1 e.2).2.statusCode = 200) ∧
    ¬EveryState FilterRun.step FilterRun.Exact FilterRun.init partialUnsubscribe := by
  constructor
  · intro e he
    simp only [partialUnsubscribe, List.mem_cons, List.not_mem_nil, or_false] at he
    obtain rfl | rfl := he
    · exact ⟨fun _ => ⟨rfl, List.cons_ne_nil _ _⟩, fun _ => rfl⟩
    · exact ⟨fun _ => ⟨rfl, List.cons_ne_nil _ _⟩, fun _ => rfl⟩
  · intro h
    have hlast := h _ (List.prefix_refl _) ⟨[1]⟩ "/waku/2/rs/1/0" { contentTopic := "/a/1/x/proto" }
    revert hlast
    decide +kernel

end RsWaku
