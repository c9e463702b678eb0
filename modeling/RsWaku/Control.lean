import Mathlib.Tactic.Common

/-! Control flow of a Rust program: results with `?`, and loops that are left when a turn gives
no next state. Each turn descends in a lexicographic order of two numbers, so that every run is
finite. -/
namespace RsWaku.Control

def okOr {ε α : Type*} (o : Option α) (e : ε) : Except ε α :=
  match o with
  | none => .error e
  | some a => .ok a

section
variable {ε ε' α β : Type} {x : Except ε α}

theorem okOr_eq_ok {o : Option α} {e : ε} {a : α} : okOr o e = .ok a ↔ o = some a := by
  cases o with
  | none => simp [okOr]
  | some b => simp [okOr]

theorem mapError_eq_ok {f : ε → ε'} {a : α} : x.mapError f = .ok a ↔ x = .ok a := by
  cases x with
  | error e => simp [Except.mapError]
  | ok b => simp [Except.mapError]

theorem bind_eq_ok {f : α → Except ε β} {b : β} :
    x >>= f = .ok b ↔ ∃ a, x = .ok a ∧ f a = .ok b := by
  cases x with
  | error e => simp [bind, Except.bind]
  | ok a => simp [bind, Except.bind]

end

variable {σ : Type*}

structure Loop (σ : Type*) where
  turn : σ → Option σ
  size : σ → Nat × Nat
  descends : ∀ {s t}, turn s = some t → Prod.Lex (· < ·) (· < ·) (size t) (size s)

/-- The state in which the loop is left. -/
def Loop.run (l : Loop σ) (s : σ) : σ :=
  match _h : l.turn s with
  | none => s
  | some t => l.run t
termination_by l.size s
decreasing_by exact l.descends _h

variable {l : Loop σ} {s t : σ}

theorem Loop.run_of_none (h : l.turn s = none) : l.run s = s := by
  rw [Loop.run]
  split
  case h_1 => rfl
  case h_2 t ht =>
    rw [h] at ht
    cases ht

theorem Loop.run_of_some (h : l.turn s = some t) : l.run s = l.run t := by
  rw [Loop.run]
  split
  case h_1 hnone =>
    rw [h] at hnone
    cases hnone
  case h_2 u hu =>
    rw [h] at hu
    cases hu
    rfl

def Loop.after (l : Loop σ) : Nat → σ → Option σ
  | 0, s => some s
  | n + 1, s => (l.turn s).bind (l.after n)

theorem Loop.exists_after (l : Loop σ) (s : σ) : ∃ n, l.after n s = some (l.run s) := by
  induction s using Loop.run.induct l with
  | case1 s hnone => exact ⟨0, by rw [Loop.run_of_none hnone]; rfl⟩
  | case2 s t hsome ih =>
    obtain ⟨n, hn⟩ := ih
    exact ⟨n + 1, by rw [Loop.run_of_some hsome, Loop.after, hsome, Option.bind_some, hn]⟩

theorem Loop.run_induction {I : σ → Prop} (hturn : ∀ s t, l.turn s = some t → I s → I t)
    (hs : I s) : I (l.run s) ∧ l.turn (l.run s) = none := by
  induction s using Loop.run.induct l with
  | case1 s hnone =>
    rw [Loop.run_of_none hnone]
    exact ⟨hs, hnone⟩
  | case2 s t hsome ih =>
    rw [Loop.run_of_some hsome]
    exact ih (hturn s t hsome hs)

theorem Loop.turn_run (l : Loop σ) (s : σ) : l.turn (l.run s) = none :=
  (@Loop.run_induction _ l s (fun _ => True) (fun _ _ _ => id) trivial).2

end RsWaku.Control
