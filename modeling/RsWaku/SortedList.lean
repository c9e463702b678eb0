import Mathlib.Data.Finset.Card
import Mathlib.Data.Finset.Dedup
import Mathlib.Data.List.Destutter
import Mathlib.Data.List.Sort

/-! The members of a list as a strictly increasing list, which represents a finite set in one
way only. -/
namespace RsWaku.SortedList
variable {α : Type*} [LinearOrder α] {l l' : List α}

/-- `sort_unstable` and then `dedup`, which drops an element that equals the one before it. -/
def sortDedup (l : List α) : List α := (l.insertionSort (· ≤ ·)).destutter (· ≠ ·)

theorem mem_destutter'_ne (a x : α) (l : List α) :
    x ∈ l.destutter' (· ≠ ·) a ↔ x = a ∨ x ∈ l := by
  induction l generalizing a with
  | nil => simp
  | cons b l ih =>
    rw [List.destutter'_cons]
    split
    case isTrue hne => rw [List.mem_cons, ih, List.mem_cons]
    case isFalse heq =>
      rw [ih, List.mem_cons, ← not_not.mp heq]
      tauto

theorem mem_sortDedup {x : α} : x ∈ sortDedup l ↔ x ∈ l := by
  have hsorted : x ∈ l.insertionSort (· ≤ ·) ↔ x ∈ l := List.mem_insertionSort _
  rw [sortDedup, ← hsorted]
  cases l.insertionSort (· ≤ ·) with
  | nil => rfl
  | cons a l => rw [List.destutter_cons', mem_destutter'_ne, List.mem_cons]

theorem sortedLT_sortDedup (l : List α) : (sortDedup l).SortedLT := by
  have hle : (sortDedup l).Pairwise (· ≤ ·) :=
    (List.pairwise_insertionSort (· ≤ ·) l).sublist (List.destutter_sublist _ _)
  have hne : (sortDedup l).IsChain (· ≠ ·) := List.isChain_destutter _ _
  rw [List.sortedLT_iff_isChain, List.isChain_iff_getElem]
  intro i hi
  exact lt_of_le_of_ne (List.isChain_iff_getElem.mp hle.isChain i hi)
    (List.isChain_iff_getElem.mp hne i hi)

theorem eq_sortDedup_iff : l = sortDedup l' ↔ l.SortedLT ∧ ∀ x, x ∈ l ↔ x ∈ l' := by
  constructor
  · intro h
    rw [h]
    exact ⟨sortedLT_sortDedup l', fun x => mem_sortDedup⟩
  · intro ⟨hsorted, hmem⟩
    refine hsorted.eq_of_mem_iff (sortedLT_sortDedup l') fun x => ?_
    rw [hmem, mem_sortDedup]

theorem length_sortDedup [DecidableEq α] (l : List α) : (sortDedup l).length = l.toFinset.card := by
  have hset : l.toFinset = (sortDedup l).toFinset := by
    ext x
    rw [List.mem_toFinset, List.mem_toFinset, mem_sortDedup]
  rw [hset, List.toFinset_card_of_nodup (sortedLT_sortDedup l).nodup]

end RsWaku.SortedList
