import Mathlib.Data.List.DropRight
import Mathlib.Data.List.Nodup

/-! A queue of bounded length that drops its oldest element to make room, and the same queue
with keys, where an element whose key is present is ignored. Both hold the last elements of what
was pushed, in the order of the pushes. -/
namespace RsWaku.BoundedQueue
variable {α κ : Type*} {cap : Nat}

def push (cap : Nat) (queue : List α) (x : α) : List α :=
  (if cap ≤ queue.length then queue.tail else queue) ++ [x]

theorem rtake_sublist (xs : List α) (n : Nat) : (xs.rtake n).Sublist xs := List.drop_sublist ..

theorem length_rtake (xs : List α) (n : Nat) : (xs.rtake n).length = min n xs.length := by
  rw [List.rtake, List.length_drop]
  omega

theorem push_rtake (hcap : 0 < cap) (log : List α) (x : α) :
    push cap (log.rtake cap) x = (log ++ [x]).rtake cap := by
  obtain ⟨n, rfl⟩ : ∃ n, cap = n + 1 := ⟨cap - 1, by omega⟩
  rw [List.rtake_concat_succ, push, length_rtake]
  congr 1
  by_cases hfull : n + 1 ≤ log.length
  · rw [if_pos (by omega), List.rtake, List.rtake, List.tail_drop]
    congr 1
    omega
  · rw [if_neg (by omega), List.rtake, List.rtake]
    congr 1
    omega

section Keyed
variable [DecidableEq κ] (key : α → κ)

def pushNew (cap : Nat) (queue : List α) (x : α) : List α :=
  if queue.any fun e => key e = key x then queue else push cap queue x

/-- The log of the pushes that are not ignored: an element enters it unless one of the last
elements that entered has its key. -/
def admitted (cap : Nat) (xs : List α) : List α :=
  xs.foldl (fun log x => if (log.rtake cap).any fun e => key e = key x then log else log ++ [x]) []

theorem admitted_snoc (cap : Nat) (xs : List α) (x : α) : admitted key cap (xs ++ [x]) =
    if ((admitted key cap xs).rtake cap).any fun e => key e = key x then admitted key cap xs
    else admitted key cap xs ++ [x] := by
  rw [admitted, List.foldl_append]
  rfl

theorem admitted_sublist (cap : Nat) (xs : List α) : (admitted key cap xs).Sublist xs := by
  induction xs using List.reverseRecOn with
  | nil => exact List.Sublist.refl []
  | append_singleton xs x ih =>
    rw [admitted_snoc]
    split
    · exact ih.trans (List.sublist_append_left xs [x])
    · exact ih.append (List.Sublist.refl [x])

theorem foldl_pushNew (hcap : 0 < cap) (xs : List α) :
    xs.foldl (pushNew key cap) [] = (admitted key cap xs).rtake cap := by
  induction xs using List.reverseRecOn with
  | nil => simp [admitted]
  | append_singleton xs x ih =>
    rw [List.foldl_append, List.foldl_cons, List.foldl_nil, ih, pushNew, admitted_snoc]
    split
    · rfl
    · exact push_rtake hcap _ x

theorem pushNew_twice (cap : Nat) (queue : List α) (x : α) :
    pushNew key cap (pushNew key cap queue x) x = pushNew key cap queue x := by
  have hpresent : (pushNew key cap queue x).any fun e => key e = key x := by
    rw [pushNew]
    split
    case isTrue h => exact h
    case isFalse =>
      rw [push, List.any_append, List.any_cons, decide_eq_true rfl, Bool.true_or, Bool.or_true]
  exact if_pos hpresent

theorem nodup_pushNew (cap : Nat) (queue : List α) (x : α) (h : (queue.map key).Nodup) :
    ((pushNew key cap queue x).map key).Nodup := by
  rw [pushNew]
  split
  case isTrue => exact h
  case isFalse hnew =>
    have hnew : key x ∉ queue.map key := by simpa using hnew
    have hkept : (if cap ≤ queue.length then queue.tail else queue).Sublist queue := by
      split
      · exact List.tail_sublist queue
      · exact List.Sublist.refl queue
    rw [push, List.map_append, List.map_cons, List.map_nil, ← List.concat_eq_append]
    refine (h.sublist (hkept.map key)).concat fun hmem => ?_
    exact hnew ((hkept.map key).subset hmem)

theorem nodup_foldl_pushNew (cap : Nat) (xs : List α) :
    ((xs.foldl (pushNew key cap) []).map key).Nodup := by
  induction xs using List.reverseRecOn with
  | nil => simp
  | append_singleton xs x ih =>
    rw [List.foldl_append]
    exact nodup_pushNew key cap _ x ih

end Keyed
end RsWaku.BoundedQueue
