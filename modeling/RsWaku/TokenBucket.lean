import Mathlib.Algebra.Order.Field.Basic
import Mathlib.Data.List.Infix
import Mathlib.Tactic.Linarith
import Mathlib.Tactic.Ring

/-! Token buckets over an ordered field. What a bucket holds, after refilling and clamping at
every request, is a minimum over all past windows: the capacity plus the refill of the window
less what was taken in it. -/
namespace RsWaku.TokenBucket
variable {K : Type*} [Field K] [LinearOrder K]

structure Bucket (K : Type*) where
  tokens : K
  last : K

/-- The tokens at a time, for capacity c and refill rate r; a new bucket is full. -/
def available (c r : K) : Option (Bucket K) → K → K
  | none, _ => c
  | some b, now => min (b.tokens + (now - b.last) * r) c

def cost (allowed : Bool) : K := if allowed then 1 else 0

def charge (c r : K) (b : Option (Bucket K)) (e : K × Bool) : Option (Bucket K) :=
  some ⟨available c r b e.1 - cost e.2, e.1⟩

def after (c r : K) (history : List (K × Bool)) : Option (Bucket K) :=
  history.foldl (charge c r) none

def taken (history : List (K × Bool)) : K := history.countP (·.2)

omit [LinearOrder K] in
theorem taken_append (h h' : List (K × Bool)) : taken (h ++ h') = taken h + taken h' := by
  simp [taken]

omit [LinearOrder K] in
theorem taken_singleton (e : K × Bool) : taken [e] = cost e.2 := by
  obtain ⟨t, allowed⟩ := e
  cases allowed <;> simp [taken, cost]

theorem after_snoc (c r : K) (h : List (K × Bool)) (e : K × Bool) :
    after c r (h ++ [e]) = charge c r (after c r h) e := by
  simp [after]

def EachWindow (P : K × Bool → List (K × Bool) → Prop) (history : List (K × Bool)) : Prop :=
  ∀ older e rest, history = older ++ e :: rest → P e (e :: rest)

omit [Field K] [LinearOrder K] in
theorem eachWindow_snoc {P : K × Bool → List (K × Bool) → Prop} {h : List (K × Bool)}
    {x : K × Bool} :
    EachWindow P (h ++ [x]) ↔ P x [x] ∧ EachWindow (fun e w => P e (w ++ [x])) h := by
  constructor
  · intro hall
    refine ⟨hall h x [] rfl, fun older e rest heq => ?_⟩
    exact hall older e (rest ++ [x]) (by rw [heq, List.append_assoc, List.cons_append])
  · intro ⟨hlast, hall⟩ older e rest heq
    obtain rfl | ⟨rest, y, rfl⟩ := rest.eq_nil_or_concat
    · obtain ⟨-, hx⟩ := List.append_inj' heq rfl
      cases hx
      exact hlast
    · rw [List.concat_eq_append, ← List.cons_append, ← List.append_assoc] at heq
      obtain ⟨hold, hx⟩ := List.append_inj' heq rfl
      cases hx
      rw [List.concat_eq_append, ← List.cons_append]
      exact hall older e rest hold

omit [Field K] [LinearOrder K] in
theorem EachWindow.imp {P Q : K × Bool → List (K × Bool) → Prop} {h : List (K × Bool)}
    (hp : EachWindow P h) (hpq : ∀ e ∈ h, ∀ w, P e w → Q e w) : EachWindow Q h := by
  intro older e rest heq
  exact hpq e (by simp [heq]) _ (hp older e rest heq)

omit [Field K] [LinearOrder K] in
theorem eachWindow_iff_drop {P : K × Bool → List (K × Bool) → Prop} {h : List (K × Bool)} :
    EachWindow P h ↔ ∀ i (hi : i < h.length), P h[i] (h.drop i) := by
  constructor
  · intro hall i hi
    rw [List.drop_eq_getElem_cons hi]
    apply hall (h.take i)
    rw [← List.drop_eq_getElem_cons hi, List.take_append_drop]
  · intro hall older e rest heq
    subst heq
    simpa using hall older.length (by simp)

def serve (c r : K) : Option (Bucket K) → List K → List (K × Bool)
  | _, [] => []
  | b, t :: times =>
    (t, decide (1 ≤ available c r b t)) ::
      serve c r (charge c r b (t, decide (1 ≤ available c r b t))) times

theorem serve_eq_append {c r : K} {b : Option (Bucket K)} {times : List K}
    {past later : List (K × Bool)} {e : K × Bool} (h : serve c r b times = past ++ e :: later) :
    e.2 = true ↔ 1 ≤ available c r (past.foldl (charge c r) b) e.1 := by
  induction past generalizing b times with
  | nil =>
    cases times with
    | nil => cases h
    | cons t times =>
      rw [← (List.cons.inj h).1]
      exact decide_eq_true_iff
  | cons x past ih =>
    cases times with
    | nil => cases h
    | cons t times =>
      obtain ⟨hx, hrest⟩ := List.cons.inj h
      rw [List.foldl_cons, ← hx]
      exact ih hrest

variable [IsStrictOrderedRing K] {c r : K}

/-- Induction over the history: an amount is available exactly if no window of the past is
overdrawn by it. -/
theorem le_available_iff (h : List (K × Bool)) (x now : K) :
    x ≤ available c r (after c r h) now ↔
      x ≤ c ∧ EachWindow (fun e w => x + taken w ≤ c + (now - e.1) * r) h := by
  induction h using List.reverseRecOn generalizing x now with
  | nil => simp [after, available, EachWindow]
  | append_singleton h e ih =>
    have hx : x ≤ available c r (after c r h) e.1 - cost e.2 + (now - e.1) * r ↔
        x + cost e.2 - (now - e.1) * r ≤ available c r (after c r h) e.1 := by
      constructor <;> intro hle <;> linarith
    rw [after_snoc, charge, available, le_min_iff, hx, ih, eachWindow_snoc, taken_singleton,
      and_comm]
    simp only [taken_append, taken_singleton]
    constructor
    · intro ⟨hc, hlast, hall⟩
      exact ⟨hc, by linarith, hall.imp fun e' _ w hw => by linarith⟩
    · intro ⟨hc, hlast, hall⟩
      exact ⟨hc, by linarith, hall.imp fun e' _ w hw => by linarith⟩

/-- A request is allowed exactly if every window up to it stays within its budget. -/
theorem allowed_iff {times : List K} {past later : List (K × Bool)} {e : K × Bool}
    (h : serve c r none times = past ++ e :: later) :
    e.2 = true ↔ 1 ≤ c ∧ EachWindow (fun x w => 1 + taken w ≤ c + (e.1 - x.1) * r) past := by
  rw [serve_eq_append h]
  exact le_available_iff past 1 e.1

theorem getElem_allowed_iff {times : List K} {h : List (K × Bool)}
    (hserve : serve c r none times = h) (k : Nat) (hk : k < h.length) :
    h[k].2 = true ↔ ∀ i (hi : i ≤ k),
      1 + taken ((h.take k).drop i) ≤ c + (h[k].1 - h[i].1) * r := by
  have hsplit : h = h.take k ++ h[k] :: h.drop (k + 1) := by
    rw [← List.drop_eq_getElem_cons hk, List.take_append_drop]
  have hself : 1 + taken ((h.take k).drop k) ≤ c + (h[k].1 - h[k].1) * r ↔ 1 ≤ c := by
    rw [List.drop_take_self, taken, List.countP_nil, Nat.cast_zero, sub_self, zero_mul, add_zero,
      add_zero]
  rw [allowed_iff (hserve.trans hsplit), eachWindow_iff_drop, ← hself]
  constructor
  · intro ⟨hlast, hall⟩ i hi
    obtain heq | hlt := hi.eq_or_lt
    · subst heq
      exact hlast
    · have hwindow := hall i (by simp [hlt, hlt.trans hk])
      rwa [List.getElem_take] at hwindow
  · intro hall
    refine ⟨hall k le_rfl, fun i hi => ?_⟩
    rw [List.getElem_take]
    exact hall i (hi.le.trans (List.length_take_le k h))

theorem taken_le_of_sublist {h h' : List (K × Bool)} (hs : h.Sublist h') : taken h ≤ taken h' :=
  Nat.cast_le.mpr hs.countP_le

theorem exists_window (h : List (K × Bool)) (s u : K) :
    h.filter (fun e => s ≤ e.1 ∧ e.1 ≤ u) = [] ∨ ∃ older x rest, h = older ++ x :: rest ∧
      s ≤ x.1 ∧ taken (h.filter fun e => s ≤ e.1 ∧ e.1 ≤ u) ≤ taken (x :: rest) := by
  induction h with
  | nil => exact Or.inl rfl
  | cons x h ih =>
    by_cases hx : s ≤ x.1
    · exact Or.inr ⟨[], x, h, rfl, hx, taken_le_of_sublist List.filter_sublist⟩
    · rw [List.filter_cons_of_neg (by simp [hx])]
      obtain hnone | ⟨older, y, rest, heq, hy, hle⟩ := ih
      · exact Or.inl hnone
      · exact Or.inr ⟨x :: older, y, rest, by rw [heq, List.cons_append], hy, hle⟩

theorem taken_interval_le (hc : 0 ≤ c) (hr : 0 ≤ r) {times : List K} {h later : List (K × Bool)}
    (hserve : serve c r none times = h ++ later) {s u : K} (hsu : s ≤ u) :
    taken (h.filter fun e => s ≤ e.1 ∧ e.1 ≤ u) ≤ c + (u - s) * r := by
  have hbudget : 0 ≤ (u - s) * r := mul_nonneg (sub_nonneg.mpr hsu) hr
  induction h using List.reverseRecOn generalizing later with
  | nil => simpa [taken] using add_nonneg hc hbudget
  | append_singleton h e ih =>
    rw [List.append_assoc, List.singleton_append] at hserve
    have hself : taken ([e].filter fun e => s ≤ e.1 ∧ e.1 ≤ u) =
        if (s ≤ e.1 ∧ e.1 ≤ u) ∧ e.2 = true then (1 : K) else 0 := by
      by_cases hs : s ≤ e.1 ∧ e.1 ≤ u
      · rw [List.filter_cons_of_pos (by simpa using hs), List.filter_nil, taken_singleton, cost]
        simp only [hs, true_and]
      · rw [List.filter_cons_of_neg (by simpa using hs), List.filter_nil, if_neg fun h => hs h.1]
        exact Nat.cast_zero
    rw [List.filter_append, taken_append, hself]
    split
    case isTrue hin =>
      obtain ⟨hcap, hwindows⟩ := (allowed_iff hserve).mp hin.2
      obtain hnone | ⟨older, x, rest, heq, hx, hle⟩ := exists_window h s u
      · rw [hnone]
        simp only [taken, List.countP_nil, Nat.cast_zero]
        linarith
      · have hwindow := hwindows older x rest heq
        have hspan : (e.1 - x.1) * r ≤ (u - s) * r :=
          mul_le_mul_of_nonneg_right (by linarith [hin.1.2]) hr
        linarith
    case isFalse =>
      rw [add_zero]
      exact ih hserve

theorem available_of_tick {b : Bucket K} {δ t : K} (hr : c ≤ δ * r) (hr0 : 0 ≤ r)
    (htokens : 0 ≤ b.tokens) (ht : t = b.last ∨ b.last + δ ≤ t) :
    available c r (some b) t = if t = b.last then min b.tokens c else c := by
  split
  case isTrue heq => rw [available, heq, sub_self, zero_mul, add_zero]
  case isFalse hne =>
    have hgap : δ * r ≤ (t - b.last) * r :=
      mul_le_mul_of_nonneg_right (by linarith [ht.resolve_left hne]) hr0
    rw [available, min_eq_right (by linarith)]

theorem serve_congr_rate {r' δ : K} (hc : 0 ≤ c) (hr : c ≤ δ * r) (hr' : c ≤ δ * r')
    (hr0 : 0 ≤ r) (hr0' : 0 ≤ r') {b : Option (Bucket K)} {times : List K}
    (htokens : ∀ x ∈ b, 0 ≤ x.tokens) (hb : ∀ x ∈ b, ∀ t ∈ times, t = x.last ∨ x.last + δ ≤ t)
    (htimes : times.Pairwise fun t u => u = t ∨ t + δ ≤ u) :
    serve c r b times = serve c r' b times := by
  induction times generalizing b with
  | nil => rfl
  | cons t times ih =>
    obtain ⟨hnext, hrest⟩ := List.pairwise_cons.mp htimes
    have havailable : available c r b t = available c r' b t ∧ 0 ≤ available c r' b t := by
      cases b with
      | none => exact ⟨rfl, hc⟩
      | some x =>
        have hx := htokens x rfl
        rw [available_of_tick hr hr0 hx (hb x rfl t (by simp)),
          available_of_tick hr' hr0' hx (hb x rfl t (by simp))]
        refine ⟨rfl, ?_⟩
        split
        · exact le_min hx hc
        · exact hc
    rw [serve, serve, charge, charge, havailable.1]
    congr 1
    apply ih ?_ ?_ hrest
    · intro x hx
      cases hx
      unfold cost
      split
      case isTrue hone => exact sub_nonneg.mpr (of_decide_eq_true hone)
      case isFalse => exact sub_nonneg.mpr havailable.2
    · intro x hx u hu
      cases hx
      exact hnext u hu

end RsWaku.TokenBucket
