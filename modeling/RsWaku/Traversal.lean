import Mathlib.Data.Set.Card
import Mathlib.Logic.Relation

/-! Depth-first traversal of a graph that is given by the successors of each node, with a list
of nodes already fetched and a bound on the number of fetches. -/
namespace RsWaku.Traversal
variable {α : Type*}

/-- The stack has its top first; fetched nodes are kept in the order of fetching. -/
structure State (α : Type*) where
  stack : List α
  fetched : List α
  budget : Nat

/-- One turn: a node that is skipped or was fetched is dropped, another one is fetched if the
budget allows it; without budget the traversal is left. -/
def step [DecidableEq α] (skip : α → Bool) (next : α → List α) (s : State α) :
    Option (State α) :=
  match s.stack with
  | [] => none
  | a :: stack =>
    if skip a ∨ a ∈ s.fetched then some { s with stack }
    else if s.budget = 0 then none
    else some ⟨next a ++ stack, s.fetched ++ [a], s.budget - 1⟩

def Reachable (next : α → List α) : α → α → Prop := Relation.ReflTransGen fun a b => b ∈ next a

def Known (skip : α → Bool) (s : State α) (a : α) : Prop :=
  skip a = true ∨ a ∈ s.fetched ∨ a ∈ s.stack

structure Sound (skip : α → Bool) (next : α → List α) (root : α) (cap : Nat) (s : State α) :
    Prop where
  nodup : s.fetched.Nodup
  spent : s.fetched.length + s.budget = cap
  stacked : ∀ a ∈ s.stack, Reachable next root a
  reached : ∀ a ∈ s.fetched, Reachable next root a ∧ skip a = false
  rooted : Known skip s root
  closed : ∀ a ∈ s.fetched, ∀ b ∈ next a, Known skip s b

variable {skip : α → Bool} {next : α → List α} {root : α} {cap : Nat} {s t : State α}

theorem sound_start (root : α) (cap : Nat) : Sound skip next root cap ⟨[root], [], cap⟩ where
  nodup := List.nodup_nil
  spent := Nat.zero_add cap
  stacked a ha := by
    rw [List.mem_singleton.mp ha]
    exact Relation.ReflTransGen.refl
  reached a ha := by cases ha
  rooted := Or.inr (Or.inr (List.mem_singleton_self root))
  closed a ha := by cases ha

variable [DecidableEq α]

theorem step_cases (h : step skip next s = some t) :
    ∃ a stack, s.stack = a :: stack ∧
      ((skip a = true ∨ a ∈ s.fetched) ∧ t = { s with stack } ∨
        skip a = false ∧ a ∉ s.fetched ∧ 0 < s.budget ∧
          t = ⟨next a ++ stack, s.fetched ++ [a], s.budget - 1⟩) := by
  unfold step at h
  split at h
  case h_1 => cases h
  case h_2 a stack hstack =>
    refine ⟨a, stack, hstack, ?_⟩
    split at h
    case isTrue hdrop =>
      cases h
      exact Or.inl ⟨hdrop, rfl⟩
    case isFalse hfetch =>
      split at h
      case isTrue => cases h
      case isFalse hbudget =>
        cases h
        obtain ⟨hskip, hnew⟩ := not_or.mp hfetch
        exact Or.inr ⟨Bool.eq_false_iff.mpr hskip, hnew, Nat.pos_of_ne_zero hbudget, rfl⟩

theorem Known.turn {b : α} (hb : Known skip s b) (h : step skip next s = some t) :
    Known skip t b := by
  obtain ⟨a, stack, hstack, hcases⟩ := step_cases h
  obtain hskip | hfetched | hstacked := hb
  · exact Or.inl hskip
  · obtain ⟨-, rfl⟩ | ⟨-, -, -, rfl⟩ := hcases
    · exact Or.inr (Or.inl hfetched)
    · exact Or.inr (Or.inl (List.mem_append_left _ hfetched))
  · rw [hstack] at hstacked
    obtain ⟨hdrop, rfl⟩ | ⟨-, -, -, rfl⟩ := hcases
    · obtain rfl | hrest := List.mem_cons.mp hstacked
      · exact hdrop.imp_right Or.inl
      · exact Or.inr (Or.inr hrest)
    · obtain rfl | hrest := List.mem_cons.mp hstacked
      · exact Or.inr (Or.inl (List.mem_append_right _ (List.mem_singleton_self b)))
      · exact Or.inr (Or.inr (List.mem_append_right _ hrest))

theorem Sound.turn (hs : Sound skip next root cap s) (h : step skip next s = some t) :
    Sound skip next root cap t := by
  have hrooted := hs.rooted.turn h
  have hclosed := fun a ha b hb => (hs.closed a ha b hb).turn h
  obtain ⟨a, stack, hstack, ⟨-, rfl⟩ | ⟨hskip, hnew, hbudget, rfl⟩⟩ := step_cases h
  · exact ⟨hs.nodup, hs.spent, fun b hb => hs.stacked b (by simp [hstack, hb]), hs.reached,
      hrooted, hclosed⟩
  · have ha : Reachable next root a := hs.stacked a (by simp [hstack])
    refine ⟨?_, ?_, ?_, ?_, hrooted, ?_⟩
    · exact List.nodup_append_comm.mp (List.nodup_cons.mpr ⟨hnew, hs.nodup⟩)
    · have hspent := hs.spent
      simp only [List.length_append, List.length_singleton]
      omega
    · intro b hb
      obtain hb | hb := List.mem_append.mp hb
      · exact ha.tail hb
      · exact hs.stacked b (by simp [hstack, hb])
    · intro b hb
      obtain hb | hb := List.mem_append.mp hb
      · exact hs.reached b hb
      · rw [List.mem_singleton.mp hb]
        exact ⟨ha, hskip⟩
    · intro b hb c hc
      obtain hb | hb := List.mem_append.mp hb
      · exact hclosed b hb c hc
      · rw [List.mem_singleton.mp hb] at hc
        exact Or.inr (Or.inr (List.mem_append_left _ hc))

theorem step_eq_none (h : step skip next s = none) :
    s.stack = [] ∨ s.budget = 0 ∧ ∃ a ∈ s.stack, skip a = false ∧ a ∉ s.fetched := by
  unfold step at h
  split at h
  case h_1 hstack => exact Or.inl hstack
  case h_2 a stack hstack =>
    split at h
    case isTrue => cases h
    case isFalse hfetch =>
      split at h
      case isTrue hbudget =>
        obtain ⟨hskip, hnew⟩ := not_or.mp hfetch
        exact Or.inr ⟨hbudget, a, by simp [hstack], Bool.eq_false_iff.mpr hskip, hnew⟩
      case isFalse => cases h

/-- A traversal with a large enough budget fetches every reachable node that is not skipped.
The successors of skipped nodes do not count. -/
theorem Sound.complete (hs : Sound skip next root cap s) (h : step skip next s = none)
    (hskip : ∀ a, skip a = true → next a = [])
    (hcap : {a | Reachable next root a}.encard ≤ cap) (a : α) :
    a ∈ s.fetched ↔ Reachable next root a ∧ skip a = false := by
  have hempty : s.stack = [] := by
    -- otherwise the fetched nodes and one more are reachable
    refine (step_eq_none h).resolve_right fun ⟨hbudget, b, hb, _, hnew⟩ => ?_
    have hsub : ((b :: s.fetched).toFinset : Set α) ⊆ {a | Reachable next root a} := by
      intro x hx
      obtain rfl | hx := List.mem_cons.mp (List.mem_toFinset.mp hx)
      · exact hs.stacked x hb
      · exact (hs.reached x hx).1
    have hcard := (Set.encard_le_encard hsub).trans hcap
    rw [Set.encard_coe_eq_coe_finsetCard, Nat.cast_le,
      List.toFinset_card_of_nodup (List.nodup_cons.mpr ⟨hnew, hs.nodup⟩), ← hs.spent,
      hbudget] at hcard
    exact absurd hcard (Nat.not_succ_le_self _)
  have hknown (b : α) (hb : Known skip s b) : skip b = true ∨ b ∈ s.fetched := by
    obtain hb | hb | hb := hb
    · exact Or.inl hb
    · exact Or.inr hb
    · rw [hempty] at hb
      cases hb
  have hall (b : α) (hb : Reachable next root b) : skip b = true ∨ b ∈ s.fetched := by
    induction hb with
    | refl => exact hknown root hs.rooted
    | @tail b c _ hedge ih =>
      obtain hb | hb := ih
      · rw [hskip b hb] at hedge
        cases hedge
      · exact hknown c (hs.closed b hb c hedge)
  constructor
  · exact hs.reached a
  · intro ⟨hreach, hfalse⟩
    exact (hall a hreach).resolve_left (by simp [hfalse])

end RsWaku.Traversal
