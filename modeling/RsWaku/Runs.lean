import Mathlib.Data.List.Infix

/-! Runs of a step function: a condition on every step, a property of every reached state,
and the rules that derive the second from the first. -/
namespace RsWaku.Runs
variable {σ ε : Type*}

def EachStep (step : σ → ε → σ) (C : σ → ε → Prop) : σ → List ε → Prop
  | _, [] => True
  | s, e :: es => C s e ∧ EachStep step C (step s e) es

def EveryState (step : σ → ε → σ) (I : σ → Prop) (s : σ) (es : List ε) : Prop :=
  ∀ run, run <+: es → I (run.foldl step s)

variable {step : σ → ε → σ} {I J : σ → Prop} {C V : σ → ε → Prop} {s : σ} {es : List ε}

theorem everyState_nil : EveryState step I s [] ↔ I s := by
  simp [EveryState, List.prefix_nil]

theorem everyState_cons {e : ε} :
    EveryState step I s (e :: es) ↔ I s ∧ EveryState step I (step s e) es := by
  constructor
  · intro h
    refine ⟨h [] List.nil_prefix, fun run hrun => ?_⟩
    exact h (e :: run) (List.cons_prefix_cons.mpr ⟨rfl, hrun⟩)
  · intro h run hrun
    cases run with
    | nil => exact h.1
    | cons x run =>
      obtain ⟨rfl, htail⟩ := List.cons_prefix_cons.mp hrun
      exact h.2 run htail

theorem EveryState.head (h : EveryState step I s es) : I s := h [] List.nil_prefix

theorem eachStep_of_forall (h : ∀ e ∈ es, ∀ s, C s e) : EachStep step C s es := by
  induction es generalizing s with
  | nil => trivial
  | cons e es ih =>
    exact ⟨h e (by simp) s, ih fun x hx => h x (List.mem_cons_of_mem e hx)⟩

theorem related_of_steps (R : σ → σ → Prop) (hrefl : ∀ a, R a a)
    (htrans : ∀ a b c, R a b → R b c → R a c) (hstep : ∀ e ∈ es, ∀ a, R a (step a e)) :
    R s (es.foldl step s) := by
  induction es generalizing s with
  | nil => exact hrefl s
  | cons e es ih =>
    exact htrans _ _ _ (hstep e (by simp) s) (ih fun x hx => hstep x (List.mem_cons_of_mem e hx))

/-- If a step from a good state leads to a good state exactly under a condition, then all
states of a run are good exactly if all its steps meet the condition. J is an invariant of
the valid steps. -/
theorem everyState_iff (hJ : ∀ s e, J s → V s e → J (step s e))
    (hI : ∀ s e, J s → V s e → I s → (I (step s e) ↔ C s e)) (hj : J s) (hi : I s)
    (hv : EachStep step V s es) : EveryState step I s es ↔ EachStep step C s es := by
  induction es generalizing s with
  | nil => simp [everyState_nil, EachStep, hi]
  | cons e es ih =>
    have hnext := hI s e hj hv.1 hi
    rw [everyState_cons]
    constructor
    · intro h
      exact ⟨hnext.mp h.2.head, (ih (hJ s e hj hv.1) h.2.head hv.2).mp h.2⟩
    · intro h
      exact ⟨hi, (ih (hJ s e hj hv.1) (hnext.mpr h.1) hv.2).mpr h.2⟩

theorem pairwise_iff_past {R : ε → ε → Prop} :
    es.Pairwise R ↔ ∀ past e, past ++ [e] <+: es → ∀ earlier ∈ past, R earlier e := by
  constructor
  · intro h past e hpre earlier hmem
    exact (List.pairwise_append.mp (h.sublist hpre.sublist)).2.2 earlier hmem e (by simp)
  · intro h
    induction es using List.reverseRecOn with
    | nil => exact List.Pairwise.nil
    | append_singleton es e ih =>
      have hbefore := ih fun past x hx => h past x (hx.trans (List.prefix_append ..))
      refine List.pairwise_append.mpr ⟨hbefore, List.pairwise_singleton .., fun a ha b hb => ?_⟩
      rw [List.mem_singleton.mp hb]
      exact h es e List.prefix_rfl a ha

def sinceLast (p : ε → Bool) (es : List ε) : List ε := (es.reverse.takeWhile fun e => !p e).reverse

theorem sinceLast_snoc (p : ε → Bool) (es : List ε) (e : ε) :
    sinceLast p (es ++ [e]) = if p e then [] else sinceLast p es ++ [e] := by
  cases h : p e with
  | false => simp [sinceLast, h]
  | true => simp [sinceLast, h]

def fromFirst (p : ε → Bool) (es : List ε) : List ε := es.dropWhile fun e => !p e

theorem fromFirst_snoc (p : ε → Bool) (es : List ε) (e : ε) : fromFirst p (es ++ [e]) =
    if es.any p then fromFirst p es ++ [e] else if p e then [e] else [] := by
  induction es with
  | nil =>
    rw [List.any_nil, if_neg Bool.false_ne_true]
    cases h : p e <;> simp [fromFirst, h]
  | cons x es ih =>
    cases h : p x with
    | false => simpa [fromFirst, h] using ih
    | true => simp [fromFirst, h]

theorem mem_sinceLast_iff {p : ε → Bool} {e : ε} : e ∈ sinceLast p es ↔
    ∃ past later, es = past ++ e :: later ∧ p e = false ∧ ∀ x ∈ later, p x = false := by
  induction es using List.reverseRecOn with
  | nil => simp [sinceLast]
  | append_singleton es x ih =>
    rw [sinceLast_snoc]
    constructor
    · intro h
      split at h
      case isTrue => cases h
      case isFalse hx =>
        obtain hold | hlast := List.mem_append.mp h
        · obtain ⟨past, later, rfl, he, hlater⟩ := ih.mp hold
          refine ⟨past, later ++ [x], by simp, he, fun y hy => ?_⟩
          obtain hy | hy := List.mem_append.mp hy
          · exact hlater y hy
          · rw [List.mem_singleton.mp hy]
            exact Bool.eq_false_iff.mpr hx
        · cases List.mem_singleton.mp hlast
          exact ⟨es, [], rfl, Bool.eq_false_iff.mpr hx, by simp⟩
    · intro ⟨past, later, hes, he, hlater⟩
      obtain rfl | ⟨later, y, rfl⟩ := later.eq_nil_or_concat
      · obtain ⟨-, hx⟩ := List.append_inj' hes rfl
        cases hx
        simp [he]
      · rw [List.concat_eq_append, ← List.cons_append, ← List.append_assoc] at hes
        obtain ⟨rfl, hx⟩ := List.append_inj' hes rfl
        cases hx
        have hx : p x = false := hlater x (by simp)
        rw [hx, if_neg Bool.false_ne_true]
        refine List.mem_append_left _ (ih.mpr ⟨past, later, rfl, he, fun y hy => ?_⟩)
        exact hlater y (by simp [hy])

end RsWaku.Runs
