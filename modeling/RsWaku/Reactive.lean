import Mathlib.Algebra.GroupWithZero.Nat
import Mathlib.Data.List.Basic
import Mathlib.Data.List.Forall2

/-! Reactive programs: a loop takes up one input after the other, and each turn gives the next
state, what it puts out and whether the loop goes on. The rules say what a run puts out, what its
counters count and how a part of the state that answers some of the inputs behaves on its own. -/
namespace RsWaku.Reactive
variable {σ ι ο : Type*}

structure Turn (σ ο : Type*) where
  state : σ
  out : List ο
  goesOn : Bool

def run (turn : σ → ι → Turn σ ο) : σ → List ι → Turn σ ο
  | s, [] => ⟨s, [], true⟩
  | s, i :: inputs =>
    if (turn s i).goesOn then
      ⟨(run turn (turn s i).state inputs).state,
        (turn s i).out ++ (run turn (turn s i).state inputs).out,
        (run turn (turn s i).state inputs).goesOn⟩
    else turn s i

def taken (turn : σ → ι → Turn σ ο) : σ → List ι → List (σ × ι)
  | _, [] => []
  | s, i :: inputs =>
    (s, i) :: if (turn s i).goesOn then taken turn (turn s i).state inputs else []

variable {turn : σ → ι → Turn σ ο} {s : σ} {inputs : List ι}

theorem run_cons_of_goesOn {i : ι} (h : (turn s i).goesOn = true) :
    run turn s (i :: inputs) = ⟨(run turn (turn s i).state inputs).state,
      (turn s i).out ++ (run turn (turn s i).state inputs).out,
      (run turn (turn s i).state inputs).goesOn⟩ := by
  rw [run, if_pos h]

theorem run_cons_of_stops {i : ι} (h : (turn s i).goesOn = false) :
    run turn s (i :: inputs) = turn s i := by
  rw [run, if_neg (Bool.not_eq_true _ ▸ h)]

theorem taken_cons_of_goesOn {i : ι} (h : (turn s i).goesOn = true) :
    taken turn s (i :: inputs) = (s, i) :: taken turn (turn s i).state inputs := by
  rw [taken, if_pos h]

theorem taken_cons_of_stops {i : ι} (h : (turn s i).goesOn = false) :
    taken turn s (i :: inputs) = [(s, i)] := by
  rw [taken, if_neg (Bool.not_eq_true _ ▸ h)]

theorem run_out (turn : σ → ι → Turn σ ο) (s : σ) (inputs : List ι) :
    (run turn s inputs).out = (taken turn s inputs).flatMap fun x => (turn x.1 x.2).out := by
  induction inputs generalizing s with
  | nil => rfl
  | cons i inputs ih =>
    cases h : (turn s i).goesOn with
    | true => rw [run_cons_of_goesOn h, taken_cons_of_goesOn h, List.flatMap_cons, ih]
    | false => rw [run_cons_of_stops h, taken_cons_of_stops h, List.flatMap_singleton]

theorem taken_isPrefixOf (turn : σ → ι → Turn σ ο) (s : σ) (inputs : List ι) :
    (taken turn s inputs).map Prod.snd <+: inputs := by
  induction inputs generalizing s with
  | nil => exact List.nil_prefix
  | cons i inputs ih =>
    cases h : (turn s i).goesOn with
    | true =>
      rw [taken_cons_of_goesOn h, List.map_cons, List.cons_prefix_cons]
      exact ⟨rfl, ih _⟩
    | false =>
      rw [taken_cons_of_stops h]
      exact List.cons_prefix_cons.mpr ⟨rfl, List.nil_prefix⟩

theorem taken_eq (h : (run turn s inputs).goesOn = true) :
    (taken turn s inputs).map Prod.snd = inputs := by
  induction inputs generalizing s with
  | nil => rfl
  | cons i inputs ih =>
    cases hi : (turn s i).goesOn with
    | true =>
      rw [run_cons_of_goesOn hi] at h
      rw [taken_cons_of_goesOn hi, List.map_cons, ih h]
    | false =>
      rw [run_cons_of_stops hi, hi] at h
      cases h

theorem taken_append (h : (run turn s inputs).goesOn = true) (rest : List ι) :
    taken turn s (inputs ++ rest) =
      taken turn s inputs ++ taken turn (run turn s inputs).state rest := by
  induction inputs generalizing s with
  | nil => rfl
  | cons i inputs ih =>
    cases hi : (turn s i).goesOn with
    | true =>
      rw [run_cons_of_goesOn hi] at h ⊢
      rw [List.cons_append, taken_cons_of_goesOn hi, taken_cons_of_goesOn hi, ih h,
        List.cons_append]
    | false =>
      rw [run_cons_of_stops hi, hi] at h
      cases h

theorem run_append_of_stops (h : (run turn s inputs).goesOn = false) (rest : List ι) :
    run turn s (inputs ++ rest) = run turn s inputs := by
  induction inputs generalizing s with
  | nil => cases h
  | cons i inputs ih =>
    cases hi : (turn s i).goesOn with
    | true =>
      rw [run_cons_of_goesOn hi] at h
      rw [List.cons_append, run_cons_of_goesOn hi, run_cons_of_goesOn hi, ih h]
    | false => rw [List.cons_append, run_cons_of_stops hi, run_cons_of_stops hi]

theorem exists_stop (h : (run turn s inputs).goesOn = false) :
    ∃ pre i rest, inputs = pre ++ i :: rest ∧ (run turn s pre).goesOn = true ∧
      (turn (run turn s pre).state i).goesOn = false ∧
      run turn s inputs = ⟨(turn (run turn s pre).state i).state,
        (run turn s pre).out ++ (turn (run turn s pre).state i).out, false⟩ := by
  induction inputs generalizing s with
  | nil => cases h
  | cons i inputs ih =>
    cases hi : (turn s i).goesOn with
    | true =>
      rw [run_cons_of_goesOn hi] at h
      obtain ⟨pre, j, rest, hinputs, hpre, hstop, hrun⟩ := ih h
      refine ⟨i :: pre, j, rest, by rw [hinputs, List.cons_append], ?_, ?_, ?_⟩
      · rwa [run_cons_of_goesOn hi]
      · rwa [run_cons_of_goesOn hi]
      · rw [run_cons_of_goesOn hi, run_cons_of_goesOn hi, hrun, List.append_assoc]
    | false =>
      refine ⟨[], i, inputs, rfl, rfl, hi, ?_⟩
      rw [run_cons_of_stops hi, ← hi]
      rfl

/-- If each turn that goes on answers what its input asks, the run answers what its inputs ask, in
their order. -/
theorem out_forall₂ {α β : Type*} {ask : ι → Option α} {p : ο → Option β} {R : α → β → Prop}
    (hturn : ∀ s i, (turn s i).goesOn = true →
      List.Forall₂ R (ask i).toList ((turn s i).out.filterMap p))
    (h : (run turn s inputs).goesOn = true) :
    List.Forall₂ R (inputs.filterMap ask) ((run turn s inputs).out.filterMap p) := by
  induction inputs generalizing s with
  | nil => exact List.Forall₂.nil
  | cons i inputs ih =>
    cases hi : (turn s i).goesOn with
    | true =>
      rw [run_cons_of_goesOn hi] at h ⊢
      have hhead : (i :: inputs).filterMap ask = (ask i).toList ++ inputs.filterMap ask := by
        cases hask : ask i <;> simp [hask]
      rw [hhead, List.filterMap_append]
      exact List.rel_append (hturn s i hi) (ih h)
    | false =>
      rw [run_cons_of_stops hi, hi] at h
      cases h

/-- If moreover the turn that stops the loop answers nothing, the inputs before it are answered and
neither it nor a later one is. -/
theorem answered_until_stop {α β : Type*} {ask : ι → Option α} {p : ο → Option β}
    {R : α → β → Prop}
    (hturn : ∀ s i, (turn s i).goesOn = true →
      List.Forall₂ R (ask i).toList ((turn s i).out.filterMap p))
    (hstop : ∀ s i, (turn s i).goesOn = false → (turn s i).out.filterMap p = [])
    (s : σ) (inputs : List ι) :
    ∃ handled rest, inputs = handled ++ rest ∧
      List.Forall₂ R (handled.filterMap ask) ((run turn s inputs).out.filterMap p) ∧
      ((run turn s inputs).goesOn = true → rest = []) ∧
      ((run turn s inputs).goesOn = false →
        ∃ i later, rest = i :: later ∧ ∃ s, (turn s i).goesOn = false) := by
  cases h : (run turn s inputs).goesOn with
  | true => exact ⟨inputs, [], (List.append_nil _).symm, out_forall₂ hturn h, by simp, by simp⟩
  | false =>
    obtain ⟨pre, i, rest, hinputs, hpre, hi, hrun⟩ := exists_stop h
    refine ⟨pre, i :: rest, hinputs, ?_, by simp, fun _ => ⟨i, rest, rfl, _, hi⟩⟩
    rw [hrun, List.filterMap_append, hstop _ i hi, List.append_nil]
    exact out_forall₂ hturn hpre

theorem count_run {M : Type*} {bump : M → Nat → M} {count : σ → M} {amount : σ → ι → Nat}
    (hzero : ∀ c, bump c 0 = c) (hadd : ∀ c m n, bump (bump c m) n = bump c (m + n))
    (hturn : ∀ s i, count (turn s i).state = bump (count s) (amount s i)) (s : σ)
    (inputs : List ι) :
    count (run turn s inputs).state =
      bump (count s) ((taken turn s inputs).map fun x => amount x.1 x.2).sum := by
  induction inputs generalizing s with
  | nil => exact (hzero _).symm
  | cons i inputs ih =>
    cases hi : (turn s i).goesOn with
    | true =>
      rw [run_cons_of_goesOn hi, taken_cons_of_goesOn hi, List.map_cons, List.sum_cons, ih, hturn,
        hadd]
    | false =>
      rw [run_cons_of_stops hi, taken_cons_of_stops hi, hturn]
      simp

theorem sum_map_toNat {α : Type*} (p : α → Bool) (l : List α) :
    (l.map fun a => (p a).toNat).sum = l.countP p := by
  induction l with
  | nil => rfl
  | cons a l ih =>
    rw [List.map_cons, List.sum_cons, ih, List.countP_cons, Nat.add_comm]
    cases p a <;> rfl

theorem count_run_taken {M : Type*} {bump : M → Nat → M} {count : σ → M} {p : ι → Bool}
    (hzero : ∀ c, bump c 0 = c) (hadd : ∀ c m n, bump (bump c m) n = bump c (m + n))
    (hturn : ∀ s i, count (turn s i).state = bump (count s) (p i).toNat) (s : σ)
    (inputs : List ι) :
    count (run turn s inputs).state =
      bump (count s) ((taken turn s inputs).countP fun x => p x.2) := by
  rw [count_run hzero hadd hturn, sum_map_toNat]

theorem count_run_out {M : Type*} {bump : M → Nat → M} {count : σ → M} {p : ο → Bool}
    (hzero : ∀ c, bump c 0 = c) (hadd : ∀ c m n, bump (bump c m) n = bump c (m + n))
    (hturn : ∀ s i, count (turn s i).state = bump (count s) ((turn s i).out.countP p)) (s : σ)
    (inputs : List ι) :
    count (run turn s inputs).state = bump (count s) ((run turn s inputs).out.countP p) := by
  rw [count_run hzero hadd hturn, run_out, List.countP_flatMap]
  rfl

def answers {τ κ β : Type*} (step : τ → κ → τ × β) : τ → List κ → List (κ × β)
  | _, [] => []
  | t, k :: calls => (k, (step t k).2) :: answers step (step t k).1 calls

/-- A part of the state that changes only with its own calls answers them as it does alone. -/
theorem answers_taken {τ κ β : Type*} {step : τ → κ → τ × β} {part : σ → τ} {call : ι → Option κ}
    (hturn : ∀ s i, part (turn s i).state =
      ((call i).map fun k => (step (part s) k).1).getD (part s)) (s : σ) (inputs : List ι) :
    (taken turn s inputs).filterMap
        (fun x => (call x.2).map fun k => (k, (step (part x.1) k).2)) =
      answers step (part s) (((taken turn s inputs).map Prod.snd).filterMap call) := by
  induction inputs generalizing s with
  | nil => rfl
  | cons i inputs ih =>
    have hhead (rest : List (σ × ι)) (htail : rest.filterMap
          (fun x => (call x.2).map fun k => (k, (step (part x.1) k).2)) =
        answers step (part (turn s i).state) ((rest.map Prod.snd).filterMap call)) :
        ((s, i) :: rest).filterMap (fun x => (call x.2).map fun k => (k, (step (part x.1) k).2)) =
          answers step (part s) ((((s, i) :: rest).map Prod.snd).filterMap call) := by
      rw [hturn] at htail
      cases hcall : call i with
      | none => simpa [hcall] using htail
      | some k => simpa [hcall, answers] using htail
    cases hi : (turn s i).goesOn with
    | true =>
      rw [taken_cons_of_goesOn hi]
      exact hhead _ (ih _)
    | false =>
      rw [taken_cons_of_stops hi]
      exact hhead [] rfl

/-- A loop whose turns act on an abstraction of its state like some calls, and put out what these
give, acts in a whole run like the calls of all inputs that it takes up. -/
theorem run_simulates {τ κ β : Type*} {exec : τ → List κ → τ × List β} {abs : σ → τ}
    {calls : ι → List κ} {p : ο → Option β} (hnil : ∀ t, exec t [] = (t, []))
    (happend : ∀ t ks ks', exec t (ks ++ ks') =
      ((exec (exec t ks).1 ks').1, (exec t ks).2 ++ (exec (exec t ks).1 ks').2))
    (hturn : ∀ s i, exec (abs s) (calls i) =
      (abs (turn s i).state, (turn s i).out.filterMap p)) (s : σ) (inputs : List ι) :
    exec (abs s) (((taken turn s inputs).map Prod.snd).flatMap calls) =
      (abs (run turn s inputs).state, (run turn s inputs).out.filterMap p) := by
  induction inputs generalizing s with
  | nil => exact hnil _
  | cons i inputs ih =>
    cases hi : (turn s i).goesOn with
    | true =>
      rw [taken_cons_of_goesOn hi, run_cons_of_goesOn hi, List.map_cons, List.flatMap_cons,
        happend, hturn, ih, List.filterMap_append]
    | false =>
      rw [taken_cons_of_stops hi, run_cons_of_stops hi, List.map_singleton, List.flatMap_singleton,
        hturn]

end RsWaku.Reactive
