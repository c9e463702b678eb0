import Mathlib.Logic.Function.Basic
import Mathlib.Data.List.Pairwise

/-! A table of tokens that wait for an answer under a key: every token is handed out with the
first answer to its key, and with no other. -/
namespace RsWaku.Correlation
variable {κ τ α : Type*} [DecidableEq κ]

inductive Input (κ τ α : Type*) where
  | await (key : κ) (token : τ)
  | answer (key : κ) (value : α)

def step (table : κ → Option τ) : Input κ τ α → (κ → Option τ) × List (τ × α)
  | .await k t => (Function.update table k (some t), [])
  | .answer k a => (Function.update table k none, (table k).toList.map fun t => (t, a))

def run : (κ → Option τ) → List (Input κ τ α) → (κ → Option τ) × List (τ × α)
  | table, [] => (table, [])
  | table, i :: inputs =>
    ((run (step table i).1 inputs).1, (step table i).2 ++ (run (step table i).1 inputs).2)

def Input.answerTo (k : κ) : Input κ τ α → Option α
  | .await _ _ => none
  | .answer k' a => if k' = k then some a else none

def Input.Avoids (k : κ) (t : τ) : Input κ τ α → Prop
  | .await k' t' => k' ≠ k ∧ t' ≠ t
  | .answer _ _ => True

def Fresh (inputs : List (Input κ τ α)) : Prop :=
  inputs.Pairwise fun i j => ∀ k t, i = .await k t → j.Avoids k t

/-- The token waits under no other key, and under this one if the flag is set. -/
structure Held (table : κ → Option τ) (k : κ) (t : τ) (waits : Bool) : Prop where
  here : table k = if waits then some t else none
  only : ∀ k', table k' = some t → k' = k

variable {table : κ → Option τ} {inputs : List (Input κ τ α)} {k : κ} {t : τ} {waits : Bool}

theorem origin_of_step {i : Input κ τ α} {x : κ} (h : (step table i).1 x = some t) :
    table x = some t ∨ i = .await x t := by
  cases i with
  | await k' t' =>
    by_cases hx : x = k'
    · subst hx
      simp only [step, Function.update_self, Option.some.injEq] at h
      exact Or.inr (by rw [h])
    · simp only [step, Function.update_of_ne hx] at h
      exact Or.inl h
  | answer k' a =>
    by_cases hx : x = k'
    · subst hx
      simp [step] at h
    · simp only [step, Function.update_of_ne hx] at h
      exact Or.inl h

theorem Held.step (h : Held table k t waits) {i : Input κ τ α} (hi : i.Avoids k t) :
    Held (step table i).1 k t (waits && (i.answerTo k).isNone) where
  here := by
    cases i with
    | await k' t' =>
      simpa [Correlation.step, Input.answerTo, Function.update_of_ne hi.1.symm] using h.here
    | answer k' a =>
      by_cases hk : k' = k
      · subst hk
        simp [Correlation.step, Input.answerTo]
      · simpa [Correlation.step, Input.answerTo, Function.update_of_ne (Ne.symm hk), hk]
          using h.here
  only := by
    intro x hx
    obtain hold | rfl := origin_of_step hx
    · exact h.only x hold
    · exact absurd rfl hi.2

variable [DecidableEq τ]

def handedTo (t : τ) (out : List (τ × α)) : List α := (out.filter fun x => x.1 = t).map Prod.snd

omit [DecidableEq κ] in
theorem handedTo_append (t : τ) (out out' : List (τ × α)) :
    handedTo t (out ++ out') = handedTo t out ++ handedTo t out' := by
  simp [handedTo]

theorem Held.handedTo_step (h : Held table k t waits) (i : Input κ τ α) :
    handedTo t (Correlation.step table i).2 = if waits then (i.answerTo k).toList else [] := by
  cases i with
  | await k' t' => simp [Correlation.step, handedTo, Input.answerTo]
  | answer k' a =>
    simp only [Correlation.step, Input.answerTo]
    by_cases hk : k' = k
    · subst hk
      rw [h.here]
      cases waits with
      | false => simp [handedTo]
      | true => simp [handedTo]
    · -- whoever waits under the other key is another token
      have hne : ∀ t', table k' = some t' → t' ≠ t := by
        intro t' ht' heq
        rw [heq] at ht'
        exact hk (h.only k' ht')
      cases ht : table k' with
      | none => simp [handedTo, hk]
      | some t' => simp [handedTo, hk, hne t' ht]

/-- Induction over the inputs: a waiting token is handed out with the first answer to its key,
and a token that does not wait is not handed out. -/
theorem Held.run (h : Held table k t waits) (hi : ∀ i ∈ inputs, i.Avoids k t) :
    handedTo t (run table inputs).2 =
        (if waits then (inputs.findSome? (Input.answerTo k)).toList else []) ∧
      Held (run table inputs).1 k t (waits && (inputs.findSome? (Input.answerTo k)).isNone) := by
  induction inputs generalizing table waits with
  | nil => simpa [Correlation.run, handedTo] using h
  | cons i inputs ih =>
    obtain ⟨hout, hheld⟩ := ih (h.step (hi i (by simp))) fun j hj => hi j (by simp [hj])
    rw [Correlation.run, handedTo_append, h.handedTo_step, hout, List.findSome?_cons]
    cases ha : i.answerTo k with
    | none => simpa [ha] using hheld
    | some a => simpa [ha] using hheld

omit [DecidableEq τ] in
theorem run_append (table : κ → Option τ) (pre post : List (Input κ τ α)) :
    run table (pre ++ post) =
      ((run (run table pre).1 post).1, (run table pre).2 ++ (run (run table pre).1 post).2) := by
  induction pre generalizing table with
  | nil => rfl
  | cons i pre ih => rw [List.cons_append, run, ih, run, List.append_assoc]

/-- From the empty table: the token of any input is handed out with the first later answer to
its key and waits under its key until then. -/
theorem Fresh.first_answer {pre post : List (Input κ τ α)} (h : Fresh (pre ++ .await k t :: post)) :
    handedTo t (run (fun _ => none) (pre ++ .await k t :: post)).2 =
        (post.findSome? (Input.answerTo k)).toList ∧
      (run (fun _ => none) (pre ++ .await k t :: post)).1 k =
        if (post.findSome? (Input.answerTo k)).isNone then some t else none := by
  obtain ⟨-, hpost, hpre⟩ := List.pairwise_append.mp h
  have hbefore : ∀ i ∈ pre, i.Avoids k t := by
    intro i hi
    cases i with
    | await k' t' =>
      obtain ⟨hk, ht⟩ := hpre _ hi _ List.mem_cons_self k' t' rfl
      exact ⟨hk.symm, ht.symm⟩
    | answer k' a => trivial
  have hafter : ∀ i ∈ post, i.Avoids k t := fun i hi => (List.pairwise_cons.mp hpost).1 i hi k t rfl
  have hempty : Held (fun _ : κ => (none : Option τ)) k t false := ⟨rfl, fun _ h => by cases h⟩
  obtain ⟨hout, hheld⟩ := hempty.run hbefore
  have hwaits : Held (step (run (fun _ => none) pre).1 (.await k t : Input κ τ α)).1 k t true := by
    refine ⟨Function.update_self .., fun x hx => ?_⟩
    by_contra hxk
    simp only [step, Function.update_of_ne hxk] at hx
    exact hxk (hheld.only x hx)
  obtain ⟨hout', hheld'⟩ := hwaits.run hafter
  rw [run_append, handedTo_append, hout, Correlation.run, handedTo_append, hout']
  exact ⟨rfl, hheld'.here⟩

omit [DecidableEq τ] in
theorem origin_of_mem_run {a : α} (h : (t, a) ∈ (run table inputs).2) :
    (∃ k, table k = some t) ∨ ∃ k, .await k t ∈ inputs := by
  induction inputs generalizing table with
  | nil => cases h
  | cons i inputs ih =>
    obtain hstep | hrest := List.mem_append.mp h
    · cases i with
      | await k' t' => cases hstep
      | answer k' a' =>
        obtain ⟨x, hx, heq⟩ := List.mem_map.mp hstep
        cases heq
        exact Or.inl ⟨k', Option.mem_toList.mp hx⟩
    · obtain ⟨x, hx⟩ | ⟨x, hx⟩ := ih hrest
      · obtain hold | rfl := origin_of_step hx
        · exact Or.inl ⟨x, hold⟩
        · exact Or.inr ⟨x, List.mem_cons_self⟩
      · exact Or.inr ⟨x, List.mem_cons_of_mem i hx⟩

end RsWaku.Correlation
