import Mathlib.Data.List.AList
import RsWaku.BoundedQueue
import RsWaku.Message
import RsWaku.Runs

/-! The cache of relay messages that the REST API polls by content topic. Every call takes the
cache's lock, so what its callers did is a list of calls. -/
namespace RsWaku
open BoundedQueue Runs

def cachePerTopic : Nat := 100

structure MessageCache where
  inner : AList fun _ : String => List WakuMessage := ∅

namespace MessageCache

def register (cache : MessageCache) (contentTopic : String) : MessageCache :=
  match cache.inner.lookup contentTopic with
  | some _ => cache
  | none => ⟨cache.inner.insert contentTopic []⟩

def record (cache : MessageCache) (msg : WakuMessage) : MessageCache :=
  match cache.inner.lookup msg.contentTopic with
  | some queue => ⟨cache.inner.insert msg.contentTopic (push cachePerTopic queue msg)⟩
  | none => cache

def drain (cache : MessageCache) (contentTopic : String) : List WakuMessage × MessageCache :=
  match cache.inner.lookup contentTopic with
  | some queue => (queue, ⟨cache.inner.insert contentTopic []⟩)
  | none => ([], cache)

end MessageCache

inductive CacheCall where
  | register (contentTopic : String)
  | record (msg : WakuMessage)
  | drain (contentTopic : String)
deriving DecidableEq

def CacheCall.topic : CacheCall → String
  | .register contentTopic => contentTopic
  | .record msg => msg.contentTopic
  | .drain contentTopic => contentTopic

def MessageCache.call (cache : MessageCache) : CacheCall → MessageCache
  | .register contentTopic => cache.register contentTopic
  | .record msg => cache.record msg
  | .drain contentTopic => (cache.drain contentTopic).2

def cacheAfter (calls : List CacheCall) : MessageCache := calls.foldl MessageCache.call {}

variable (t : String)

def MessageCache.polls (cache : MessageCache) : List CacheCall → List (List WakuMessage)
  | [] => []
  | e :: calls =>
    (if e = .drain t then [(cache.drain t).1] else []) ++ (cache.call e).polls calls

def CacheCall.recorded : CacheCall → Option WakuMessage
  | .record msg => if msg.contentTopic = t then some msg else none
  | _ => none

/-- The messages of the topic recorded since its first registration or, if that is later, its
last poll. -/
def pending (calls : List CacheCall) : List WakuMessage :=
  (sinceLast (· = .drain t) (fromFirst (· = .register t) calls)).filterMap (·.recorded t)

def topicStep (queue : Option (List WakuMessage)) (e : CacheCall) : Option (List WakuMessage) :=
  if e.topic = t then
    match e with
    | .register _ => some (queue.getD [])
    | .record msg => queue.map fun q => push cachePerTopic q msg
    | .drain _ => queue.map fun _ => []
  else queue

theorem topicStep_of_ne {e : CacheCall} (h : e.topic ≠ t) (queue : Option (List WakuMessage)) :
    topicStep t queue e = queue := if_neg h

theorem topicStep_none {e : CacheCall} (h : e ≠ .register t) : topicStep t none e = none := by
  by_cases ht : e.topic = t
  · subst ht
    cases e with
    | register u => exact absurd rfl h
    | record msg => simp [topicStep]
    | drain u => simp [topicStep]
  · exact topicStep_of_ne t ht none

theorem lookup_call (cache : MessageCache) (e : CacheCall) :
    (cache.call e).inner.lookup t = topicStep t (cache.inner.lookup t) e := by
  by_cases ht : e.topic = t
  · subst ht
    cases e with
    | register u =>
      cases h : cache.inner.lookup u <;>
        simp [MessageCache.call, MessageCache.register, topicStep, CacheCall.topic, h]
    | record msg =>
      cases h : cache.inner.lookup msg.contentTopic <;>
        simp [MessageCache.call, MessageCache.record, topicStep, CacheCall.topic, h]
    | drain u =>
      cases h : cache.inner.lookup u <;>
        simp [MessageCache.call, MessageCache.drain, topicStep, CacheCall.topic, h]
  · -- whatever is inserted, it is inserted at the topic of the call
    have hother (q : List WakuMessage) :
        (cache.inner.insert e.topic q).lookup t = cache.inner.lookup t :=
      AList.lookup_insert_ne (Ne.symm ht)
    rw [topicStep_of_ne t ht]
    cases e with
    | register u =>
      rw [MessageCache.call, MessageCache.register]
      split
      · rfl
      · exact hother []
    | record msg =>
      rw [MessageCache.call, MessageCache.record]
      split
      · exact hother _
      · rfl
    | drain u =>
      rw [MessageCache.call, MessageCache.drain]
      split
      · exact hother []
      · rfl

theorem lookup_cacheAfter_snoc (calls : List CacheCall) (e : CacheCall) :
    (cacheAfter (calls ++ [e])).inner.lookup t =
      topicStep t ((cacheAfter calls).inner.lookup t) e := by
  rw [cacheAfter, List.foldl_append]
  exact lookup_call t _ e

theorem fst_drain (cache : MessageCache) :
    (cache.drain t).1 = (cache.inner.lookup t).getD [] := by
  cases h : cache.inner.lookup t <;> simp [MessageCache.drain, h]

theorem pending_of_unregistered {calls : List CacheCall} (h : .register t ∉ calls) :
    pending t calls = [] := by
  have hnone : fromFirst (· = .register t) calls = [] := by
    rw [fromFirst, List.dropWhile_eq_nil_iff]
    intro e he
    simpa using fun heq : e = .register t => h (heq ▸ he)
  rw [pending, hnone]
  rfl

theorem pending_snoc (calls : List CacheCall) (e : CacheCall) : pending t (calls ++ [e]) =
    if .register t ∈ calls ∧ e ≠ .drain t then pending t calls ++ (e.recorded t).toList
    else [] := by
  have hany : calls.any (· = .register t) = true ↔ .register t ∈ calls := by simp
  rw [pending, fromFirst_snoc]
  by_cases h : .register t ∈ calls
  · rw [if_pos (hany.mpr h), sinceLast_snoc]
    by_cases he : e = .drain t
    · simp [he]
    · rw [if_neg (by simpa using he), if_pos ⟨h, he⟩, List.filterMap_append, pending]
      cases hrec : e.recorded t <;> simp [hrec]
  · rw [if_neg (mt hany.mp h)]
    by_cases he : e = .register t
    · simp [h, he, sinceLast, CacheCall.recorded]
    · simp [h, he, sinceLast]

/-- The queue of a registered topic is the last of its pending messages. -/
theorem lookup_cacheAfter (calls : List CacheCall) : (cacheAfter calls).inner.lookup t =
    if .register t ∈ calls then some ((pending t calls).rtake cachePerTopic) else none := by
  induction calls using List.reverseRecOn with
  | nil => rfl
  | append_singleton calls e ih =>
    rw [lookup_cacheAfter_snoc, ih, pending_snoc]
    by_cases h : .register t ∈ calls
    · rw [if_pos h, if_pos (List.mem_append_left _ h)]
      by_cases ht : e.topic = t
      · subst ht
        cases e with
        | register u => simp_all [topicStep, CacheCall.topic, CacheCall.recorded]
        | record msg =>
          have hpush := push_rtake (by decide : 0 < cachePerTopic) (pending msg.contentTopic calls)
          simp_all [topicStep, CacheCall.topic, CacheCall.recorded]
        | drain u => simp [topicStep, CacheCall.topic]
      · have hrec : e.recorded t = none := by
          cases e <;> simp_all [CacheCall.recorded, CacheCall.topic]
        have hdrain : e ≠ .drain t := fun h => ht (by rw [h, CacheCall.topic])
        rw [topicStep_of_ne t ht, if_pos ⟨h, hdrain⟩, hrec, Option.toList_none, List.append_nil]
    · rw [if_neg h]
      by_cases he : e = .register t
      · simp [h, he, topicStep, CacheCall.topic]
      · rw [if_neg (by simp [h, Ne.symm he]), topicStep_none t he]

theorem drain_cacheAfter (calls : List CacheCall) :
    ((cacheAfter calls).drain t).1 = (pending t calls).rtake cachePerTopic := by
  rw [fst_drain, lookup_cacheAfter]
  split
  case isTrue => rfl
  case isFalse h => rw [pending_of_unregistered t h]; rfl

theorem polls_snoc (cache : MessageCache) (calls : List CacheCall) (e : CacheCall) :
    cache.polls t (calls ++ [e]) = cache.polls t calls ++
      if e = .drain t then [((calls.foldl MessageCache.call cache).drain t).1] else [] := by
  induction calls generalizing cache with
  | nil => simp [MessageCache.polls]
  | cons x calls ih => rw [List.cons_append, MessageCache.polls, ih, MessageCache.polls]; simp

/-- Everything the polls returned so far, and then what is pending, was recorded in that order
and is returned once. -/
theorem polls_sublist (calls : List CacheCall) :
    ((({} : MessageCache).polls t calls).flatten ++ pending t calls).Sublist
      (calls.filterMap (·.recorded t)) := by
  induction calls using List.reverseRecOn with
  | nil => simp [MessageCache.polls, pending, fromFirst, sinceLast]
  | append_singleton calls e ih =>
    have hrec : [e].filterMap (·.recorded t) = (e.recorded t).toList := by
      cases h : e.recorded t <;> simp [h]
    rw [polls_snoc, pending_snoc, List.flatten_append, List.filterMap_append, hrec]
    change List.Sublist (_ ++ (if _ then [((cacheAfter calls).drain t).1] else []).flatten ++ _) _
    rw [drain_cacheAfter]
    by_cases he : e = .drain t
    · -- the poll returns the last of what was pending
      have hlast := rtake_sublist (pending t calls) cachePerTopic
      have hreturned := (hlast.append_left (({} : MessageCache).polls t calls).flatten).trans ih
      simpa [he, CacheCall.recorded] using hreturned
    · rw [if_neg he, List.flatten_nil, List.append_nil]
      split
      · rw [← List.append_assoc]
        exact ih.append (List.Sublist.refl _)
      · rw [List.append_nil]
        exact ((List.sublist_append_left ..).trans ih).trans (List.sublist_append_left ..)

theorem lookup_filter_topic (calls : List CacheCall) :
    (cacheAfter (calls.filter (·.topic = t))).inner.lookup t =
      (cacheAfter calls).inner.lookup t := by
  induction calls using List.reverseRecOn with
  | nil => rfl
  | append_singleton calls e ih =>
    rw [List.filter_append, lookup_cacheAfter_snoc]
    by_cases ht : e.topic = t
    · rw [List.filter_cons_of_pos (by simpa using ht), List.filter_nil, lookup_cacheAfter_snoc, ih]
    · rw [List.filter_cons_of_neg (by simpa using ht), List.filter_nil, List.append_nil, ih,
        topicStep_of_ne t ht]

theorem register_of_registered {calls : List CacheCall} (h : .register t ∈ calls) :
    (cacheAfter calls).register t = cacheAfter calls := by
  rw [MessageCache.register, lookup_cacheAfter, if_pos h]

theorem drain_returns_recent (calls : List CacheCall) :
    ((cacheAfter calls).drain t).1 = (pending t calls).rtake cachePerTopic ∧
      (.register t ∉ calls → ((cacheAfter calls).drain t).1 = []) ∧
      (({} : MessageCache).polls t calls).flatten.Sublist (calls.filterMap (·.recorded t)) ∧
      (.register t ∈ calls → (cacheAfter calls).register t = cacheAfter calls) ∧
      ((cacheAfter (calls.filter (·.topic = t))).drain t).1 = ((cacheAfter calls).drain t).1 := by
  refine ⟨drain_cacheAfter t calls, fun h => ?_, ?_, register_of_registered t, ?_⟩
  · rw [drain_cacheAfter, pending_of_unregistered t h, List.rtake_nil]
  · exact (List.sublist_append_left ..).trans (polls_sublist t calls)
  · rw [fst_drain, fst_drain, lookup_filter_topic]

end RsWaku
