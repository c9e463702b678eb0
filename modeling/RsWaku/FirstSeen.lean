import Mathlib.Data.Finset.Lattice.Lemmas
import RsWaku.BoundedQueue

/-! A stream that lets an element through if no element with its key came before, and that
remembers the keys it has seen. A queue with keys that never gets full holds what such a stream
lets through. -/
namespace RsWaku.FirstSeen
open BoundedQueue
variable {α κ : Type*} [DecidableEq κ] (key : α → κ)

def fresh : Finset κ → List α → List α
  | _, [] => []
  | seen, a :: as => if key a ∈ seen then fresh seen as else a :: fresh (insert (key a) seen) as

def seenAfter (seen : Finset κ) (as : List α) : Finset κ :=
  as.foldl (fun seen a => insert (key a) seen) seen

variable {key}

theorem fresh_append (seen : Finset κ) (as bs : List α) :
    fresh key seen (as ++ bs) = fresh key seen as ++ fresh key (seenAfter key seen as) bs := by
  induction as generalizing seen with
  | nil => rfl
  | cons a as ih =>
    rw [List.cons_append, fresh, fresh, seenAfter, List.foldl_cons]
    by_cases h : key a ∈ seen
    · rw [if_pos h, if_pos h, ih, Finset.insert_eq_of_mem h]
      rfl
    · rw [if_neg h, if_neg h, ih, List.cons_append]
      rfl

theorem fresh_sublist (seen : Finset κ) (as : List α) : (fresh key seen as).Sublist as := by
  induction as generalizing seen with
  | nil => exact List.Sublist.refl _
  | cons a as ih =>
    rw [fresh]
    split
    · exact (ih seen).cons a
    · exact (ih _).cons_cons a

theorem mem_keys_fresh (seen : Finset κ) (as : List α) (k : κ) :
    k ∈ (fresh key seen as).map key ↔ k ∈ as.map key ∧ k ∉ seen := by
  induction as generalizing seen with
  | nil => simp [fresh]
  | cons a as ih =>
    rw [fresh]
    by_cases h : key a ∈ seen
    · rw [if_pos h, ih, List.map_cons, List.mem_cons]
      constructor
      · exact fun hk => ⟨Or.inr hk.1, hk.2⟩
      · rintro ⟨rfl | hk, hnew⟩
        · exact absurd h hnew
        · exact ⟨hk, hnew⟩
    · rw [if_neg h, List.map_cons, List.mem_cons, ih, List.map_cons, List.mem_cons,
        Finset.mem_insert]
      by_cases hk : k = key a
      · simp [hk, h]
      · simp [hk]

theorem nodup_keys_fresh (seen : Finset κ) (as : List α) : ((fresh key seen as).map key).Nodup := by
  induction as generalizing seen with
  | nil => exact List.nodup_nil
  | cons a as ih =>
    rw [fresh]
    split
    · exact ih seen
    · rw [List.map_cons, List.nodup_cons]
      refine ⟨fun h => ?_, ih _⟩
      exact ((mem_keys_fresh _ as (key a)).mp h).2 (Finset.mem_insert_self _ _)

theorem count_keys_fresh (seen : Finset κ) (as : List α) (k : κ) :
    ((fresh key seen as).map key).count k = if k ∈ as.map key ∧ k ∉ seen then 1 else 0 := by
  rw [(nodup_keys_fresh seen as).count]
  exact if_congr (mem_keys_fresh seen as k) rfl rfl

theorem foldl_pushNew_append {cap : Nat} (queue as : List α)
    (h : queue.length + as.length ≤ cap) :
    as.foldl (pushNew key cap) queue = queue ++ fresh key (queue.map key).toFinset as := by
  induction as generalizing queue with
  | nil => exact (List.append_nil queue).symm
  | cons a as ih =>
    rw [List.length_cons] at h
    have hmem : key a ∈ (queue.map key).toFinset ↔ queue.any (fun e => key e = key a) = true := by
      simp
    rw [List.foldl_cons, pushNew, fresh, if_congr hmem rfl rfl]
    split
    case isTrue => exact ih queue (by omega)
    case isFalse =>
      rw [push, if_neg (by omega), ih _ (by rw [List.length_append, List.length_singleton]; omega),
        List.append_assoc, List.map_append, List.toFinset_append, Finset.union_comm]
      rfl

/-- Up to its capacity the queue holds the first element of each key, in their order. -/
theorem foldl_pushNew_eq_fresh {cap : Nat} (as : List α) (h : as.length ≤ cap) :
    as.foldl (pushNew key cap) [] = fresh key ∅ as :=
  foldl_pushNew_append [] as (by rwa [List.length_nil, Nat.zero_add])

end RsWaku.FirstSeen
