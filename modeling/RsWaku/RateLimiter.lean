import RsWaku.Filter
import RsWaku.TokenBucket
import Mathlib.Data.Rat.Cast.Order

/-! The per-peer rate limiter of the request protocols. Tokens, rates and elapsed seconds are
exact rationals in place of f64. -/
namespace RsWaku

/-- Nanoseconds of the monotonic clock. -/
abbrev Instant := Nat

/-- `now.saturating_duration_since(earlier).as_secs_f64()`. -/
def secondsSince (now earlier : Instant) : ℚ := ((now - earlier : Nat) : ℚ) / 10 ^ 9

def minPositive : ℚ := 1 / 2 ^ 1022

structure Bucket where
  tokens : ℚ
  last : Instant

structure RateLimiter where
  capacity : ℚ
  refillPerSec : ℚ
  buckets : AList fun _ : PeerId => Bucket

def RateLimiter.new (capacity : UInt32) (periodSecs : ℚ) : RateLimiter :=
  let capacity : ℚ := (max capacity 1).toNat
  { capacity, refillPerSec := capacity / max periodSecs minPositive, buckets := ∅ }

def RateLimiter.allow (l : RateLimiter) (peer : PeerId) (now : Instant) : RateLimiter × Bool :=
  let bucket := (l.buckets.lookup peer).getD { tokens := l.capacity, last := now }
  let elapsed := secondsSince now bucket.last
  let tokens := min (bucket.tokens + elapsed * l.refillPerSec) l.capacity
  if tokens ≥ 1 then
    ({ l with buckets := l.buckets.insert peer { tokens := tokens - 1, last := now } }, true)
  else
    ({ l with buckets := l.buckets.insert peer { tokens, last := now } }, false)

def RateLimiter.allowAll : RateLimiter → List (PeerId × Instant) → List (PeerId × Instant × Bool)
  | _, [] => []
  | l, (peer, now) :: calls =>
    (peer, now, (l.allow peer now).2) :: (l.allow peer now).1.allowAll calls

def decisionsOf (peer : PeerId) (answers : List (PeerId × Instant × Bool)) :
    List (Instant × Bool) :=
  (answers.filter (·.1 = peer)).map Prod.snd

def callTimes (peer : PeerId) (calls : List (PeerId × Instant)) : List Instant :=
  (calls.filter (·.1 = peer)).map Prod.snd

def seconds (t : Instant) : ℚ := t / 10 ^ 9

def RateLimiter.bucketOf (l : RateLimiter) (peer : PeerId) : Option (TokenBucket.Bucket ℚ) :=
  (l.buckets.lookup peer).map fun b => ⟨b.tokens, seconds b.last⟩

theorem secondsSince_eq {now earlier : Instant} (h : earlier ≤ now) :
    secondsSince now earlier = seconds now - seconds earlier := by
  rw [secondsSince, seconds, seconds, Nat.cast_sub h, sub_div]

def RateLimiter.UsedBy (l : RateLimiter) (now : Instant) : Prop :=
  ∀ peer, ∀ b ∈ l.buckets.lookup peer, b.last ≤ now

def RateLimiter.available (l : RateLimiter) (peer : PeerId) (now : Instant) : ℚ :=
  TokenBucket.available l.capacity l.refillPerSec (l.bucketOf peer) (seconds now)

def RateLimiter.setBucket (l : RateLimiter) (peer : PeerId) (bucket : Bucket) : RateLimiter :=
  { l with buckets := l.buckets.insert peer bucket }

theorem RateLimiter.bucketOf_setBucket (l : RateLimiter) (peer p : PeerId) (b : Bucket) :
    (l.setBucket peer b).bucketOf p =
      if p = peer then some ⟨b.tokens, seconds b.last⟩ else l.bucketOf p := by
  unfold RateLimiter.bucketOf RateLimiter.setBucket
  split
  case isTrue hp => rw [hp, AList.lookup_insert, Option.map_some]
  case isFalse hp => rw [AList.lookup_insert_ne hp]

theorem RateLimiter.UsedBy.setBucket {l : RateLimiter} {now : Instant} (h : l.UsedBy now)
    (peer : PeerId) {b : Bucket} (hb : b.last ≤ now) : (l.setBucket peer b).UsedBy now := by
  intro p b' hb'
  by_cases hp : p = peer
  · rw [RateLimiter.setBucket, hp, AList.lookup_insert] at hb'
    cases hb'
    exact hb
  · rw [RateLimiter.setBucket, AList.lookup_insert_ne hp] at hb'
    exact h p b' hb'

theorem RateLimiter.allow_eq {l : RateLimiter} {now : Instant} (h : l.UsedBy now) (peer : PeerId) :
    l.allow peer now =
      (l.setBucket peer ⟨l.available peer now -
          TokenBucket.cost (decide (1 ≤ l.available peer now)), now⟩,
        decide (1 ≤ l.available peer now)) := by
  have hrefilled (b : Bucket)
      (hb : b = (l.buckets.lookup peer).getD { tokens := l.capacity, last := now }) :
      min (b.tokens + secondsSince now b.last * l.refillPerSec) l.capacity =
        l.available peer now := by
    rw [hb, RateLimiter.available, RateLimiter.bucketOf]
    cases hlookup : l.buckets.lookup peer with
    | none =>
      rw [Option.getD_none, secondsSince_eq le_rfl, sub_self, zero_mul, add_zero, min_self]
      rfl
    | some b =>
      rw [Option.getD_some, secondsSince_eq (h peer b hlookup)]
      rfl
  simp only [RateLimiter.allow, hrefilled _ rfl, ge_iff_le]
  split
  case isTrue hone =>
    rw [decide_eq_true hone]
    rfl
  case isFalse hone =>
    rw [decide_eq_false hone, TokenBucket.cost, if_neg Bool.false_ne_true, sub_zero]
    rfl

theorem callTimes_cons (peer p : PeerId) (now : Instant) (calls : List (PeerId × Instant)) :
    callTimes peer ((p, now) :: calls) =
      if p = peer then now :: callTimes peer calls else callTimes peer calls := by
  unfold callTimes
  split
  case isTrue hp => rw [List.filter_cons_of_pos (by simpa using hp), List.map_cons]
  case isFalse hp => rw [List.filter_cons_of_neg (by simpa using hp)]

theorem decisionsOf_allowAll_cons (l : RateLimiter) (peer p : PeerId) (now : Instant)
    (calls : List (PeerId × Instant)) :
    decisionsOf peer (l.allowAll ((p, now) :: calls)) =
      if p = peer then
        (now, (l.allow p now).2) :: decisionsOf peer ((l.allow p now).1.allowAll calls)
      else decisionsOf peer ((l.allow p now).1.allowAll calls) := by
  rw [RateLimiter.allowAll, decisionsOf]
  split
  case isTrue hp =>
    rw [List.filter_cons_of_pos (by simpa using hp), List.map_cons]
    rfl
  case isFalse hp =>
    rw [List.filter_cons_of_neg (by simpa using hp)]
    rfl

theorem decisionsOf_times (peer : PeerId) (l : RateLimiter) (calls : List (PeerId × Instant)) :
    (decisionsOf peer (l.allowAll calls)).map Prod.fst = callTimes peer calls := by
  induction calls generalizing l with
  | nil => rfl
  | cons call calls ih =>
    rw [decisionsOf_allowAll_cons, callTimes_cons]
    split
    · rw [List.map_cons, ih]
    · exact ih _

theorem RateLimiter.decisionsOf_eq_serve (peer : PeerId) {l : RateLimiter}
    {calls : List (PeerId × Instant)} (hused : ∀ call ∈ calls, l.UsedBy call.2)
    (hclock : calls.Pairwise fun x y => x.2 ≤ y.2) :
    (decisionsOf peer (l.allowAll calls)).map (fun e => (seconds e.1, e.2)) =
      TokenBucket.serve l.capacity l.refillPerSec (l.bucketOf peer)
        ((callTimes peer calls).map seconds) := by
  induction calls generalizing l with
  | nil => rfl
  | cons call calls ih =>
    obtain ⟨p, now⟩ := call
    obtain ⟨hlater, hrest⟩ := List.pairwise_cons.mp hclock
    have hnow : l.UsedBy now := hused (p, now) (by simp)
    rw [decisionsOf_allowAll_cons, callTimes_cons, l.allow_eq hnow]
    have hnext := @ih (l.setBucket p ⟨l.available p now -
      TokenBucket.cost (decide (1 ≤ l.available p now)), now⟩)
      (fun call hcall =>
        (hused call (List.mem_cons_of_mem _ hcall)).setBucket p (hlater call hcall)) hrest
    rw [RateLimiter.bucketOf_setBucket] at hnext
    split
    case isTrue hp =>
      subst hp
      rw [if_pos rfl] at hnext
      rw [List.map_cons, List.map_cons, TokenBucket.serve, hnext]
      rfl
    case isFalse hp =>
      rw [if_neg (Ne.symm hp)] at hnext
      exact hnext

def decisions (capacity : UInt32) (periodSecs : ℚ) (calls : List (PeerId × Instant))
    (peer : PeerId) : List (Instant × Bool) :=
  decisionsOf peer ((RateLimiter.new capacity periodSecs).allowAll calls)

theorem seconds_injective : Function.Injective seconds := by
  intro t u h
  exact Nat.cast_injective ((div_left_inj' (by norm_num)).mp h)

theorem seconds_step {t u : Instant} (h : t ≤ u) :
    seconds u = seconds t ∨ seconds t + 1 / 10 ^ 9 ≤ seconds u := by
  obtain heq | hlt := h.eq_or_lt
  · exact Or.inl (congrArg seconds heq.symm)
  · right
    rw [seconds, seconds, ← add_div]
    exact div_le_div_of_nonneg_right (by exact_mod_cast hlt) (by norm_num)

theorem minPositive_lt : minPositive < 1 / 10 ^ 9 := by
  have hpow : (10 : ℚ) ^ 9 < 2 ^ 1022 := calc
    (10 : ℚ) ^ 9 < 2 ^ 30 := by norm_num
    _ ≤ 2 ^ 1022 := pow_le_pow_right₀ one_le_two (by decide)
  exact one_div_lt_one_div_of_lt (by norm_num) hpow

/-- A period below the least positive f64 fills the bucket within a nanosecond, as does the
period that `new` puts in its place. -/
theorem serve_new {c period : ℚ} (hc : 0 ≤ c) (hperiod : 0 < period) {times : List Instant}
    (hclock : times.Pairwise (· ≤ ·)) :
    TokenBucket.serve c (c / max period minPositive) none (times.map seconds) =
      TokenBucket.serve c (c / period) none (times.map seconds) := by
  obtain hle | hlt := le_or_gt minPositive period
  · rw [max_eq_left hle]
  · have hfills {T : ℚ} (hT : 0 < T) (hT' : T < 1 / 10 ^ 9) : c ≤ 1 / 10 ^ 9 * (c / T) := by
      rw [← mul_div_assoc, le_div_iff₀ hT, mul_comm]
      exact mul_le_mul_of_nonneg_right hT'.le hc
    have hmin : 0 < minPositive := hperiod.trans hlt
    rw [max_eq_right hlt.le]
    apply TokenBucket.serve_congr_rate hc (hfills hmin minPositive_lt)
      (hfills hperiod (hlt.trans minPositive_lt)) (div_nonneg hc hmin.le) (div_nonneg hc hperiod.le)
    · simp
    · simp
    · exact List.pairwise_map.mpr (hclock.imp seconds_step)

theorem RateLimiter.new_eq {capacity : UInt32} (h : 1 ≤ capacity) (period : ℚ) :
    RateLimiter.new capacity period =
      ⟨capacity.toNat, capacity.toNat / max period minPositive, ∅⟩ := by
  have hmax : max capacity 1 = capacity := by
    change (if capacity ≤ 1 then 1 else capacity) = capacity
    split
    case isTrue hle => exact UInt32.le_antisymm h hle
    case isFalse => rfl
  rw [RateLimiter.new, hmax]

theorem decisions_eq_serve {capacity : UInt32} {period : ℚ} {calls : List (PeerId × Instant)}
    (peer : PeerId) (hcapacity : 1 ≤ capacity) (hperiod : 0 < period)
    (hclock : calls.Pairwise fun x y => x.2 ≤ y.2) :
    TokenBucket.serve (capacity.toNat : ℚ) (capacity.toNat / period) none
        ((callTimes peer calls).map seconds) =
      (decisions capacity period calls peer).map fun e => (seconds e.1, e.2) := by
  have htimes : (callTimes peer calls).Pairwise (· ≤ ·) :=
    List.pairwise_map.mpr (hclock.sublist List.filter_sublist)
  rw [← serve_new (Nat.cast_nonneg _) hperiod htimes, decisions, RateLimiter.new_eq hcapacity,
    RateLimiter.decisionsOf_eq_serve peer _ hclock]
  · rfl
  · intro call _ p b hb
    cases hb

/-- A call of a peer is allowed exactly if every window of the peer's calls that ends with it
stays within its budget; so no interval exceeds its budget. The decisions depend on the peer's
own calls only. -/
theorem rate_limiter_budget (capacity : UInt32) (period : ℚ) (calls : List (PeerId × Instant))
    (peer : PeerId) (hcapacity : 1 ≤ capacity) (hperiod : 0 < period)
    (hclock : calls.Pairwise fun x y => x.2 ≤ y.2) :
    (decisions capacity period calls peer).map Prod.fst = callTimes peer calls ∧
    (∀ k (hk : k < (decisions capacity period calls peer).length),
      (decisions capacity period calls peer)[k].2 = true ↔ ∀ i (hi : i ≤ k),
        ((((decisions capacity period calls peer).take k).drop i).countP (·.2) : ℚ) + 1 ≤
          capacity.toNat + (seconds (decisions capacity period calls peer)[k].1 -
            seconds (decisions capacity period calls peer)[i].1) * capacity.toNat / period) ∧
    (∀ s t : ℚ, s ≤ t →
      ((decisions capacity period calls peer).countP fun e =>
        e.2 ∧ s ≤ seconds e.1 ∧ seconds e.1 ≤ t : ℚ) ≤
        capacity.toNat + (t - s) * capacity.toNat / period) ∧
    ∀ others : List (PeerId × Instant), (others.Pairwise fun x y => x.2 ≤ y.2) →
      callTimes peer others = callTimes peer calls →
      decisions capacity period others peer = decisions capacity period calls peer := by
  have hserve := decisions_eq_serve peer hcapacity hperiod hclock
  refine ⟨decisionsOf_times .., ?_, ?_, ?_⟩
  · intro k hk
    have hallowed := TokenBucket.getElem_allowed_iff hserve k (by simpa using hk)
    simp only [List.getElem_map, TokenBucket.taken, ← List.map_take, ← List.map_drop,
      List.countP_map, mul_div_assoc, add_comm (1 : ℚ)] at hallowed ⊢
    exact hallowed
  · intro s t hst
    have hinterval := TokenBucket.taken_interval_le (Nat.cast_nonneg _)
      (div_nonneg (Nat.cast_nonneg _) hperiod.le) (hserve.trans (List.append_nil _).symm) hst
    rw [TokenBucket.taken, List.countP_filter, List.countP_map, ← mul_div_assoc] at hinterval
    simpa [Function.comp_def] using hinterval
  · intro others hothers htimes
    have hserve' := decisions_eq_serve peer hcapacity hperiod hothers
    rw [htimes, hserve] at hserve'
    apply List.map_injective_iff.mpr ?_ hserve'.symm
    intro e e' he
    obtain ⟨htime, hanswer⟩ := Prod.mk.inj he
    exact Prod.ext (seconds_injective htime) hanswer

/- A burst of three, one call after half of the period, and another peer in between. -/
def sampleCalls : List (PeerId × Instant) :=
  [(⟨[1]⟩, 5), (⟨[1]⟩, 5), (⟨[2]⟩, 5), (⟨[1]⟩, 5), (⟨[1]⟩, 500000005)]

theorem rate_limiter_budget_sample :
    decisions 2 1 sampleCalls ⟨[1]⟩ = [(5, true), (5, true), (5, false), (500000005, true)] ∧
    (2 : ℚ) + 1 ≤ 2 + (seconds 500000005 - seconds 5) * 2 / 1 ∧
    ((decisions 2 1 sampleCalls ⟨[1]⟩).countP fun e =>
      e.2 ∧ 0 ≤ seconds e.1 ∧ seconds e.1 ≤ 1 / 2 : ℚ) ≤
      (2 : UInt32).toNat + (1 / 2 - 0) * (2 : UInt32).toNat / 1 ∧
    decisions 2 1 (sampleCalls.filter (·.1 = ⟨[1]⟩)) ⟨[1]⟩ = decisions 2 1 sampleCalls ⟨[1]⟩ := by
  have hanswers : decisions 2 1 sampleCalls ⟨[1]⟩ =
    [(5, true), (5, true), (5, false), (500000005, true)] := by decide +kernel
  obtain ⟨-, hbudget, hinterval, hothers⟩ := rate_limiter_budget 2 1 sampleCalls ⟨[1]⟩ (by decide)
    one_pos (by decide)
  refine ⟨hanswers, ?_, hinterval 0 (1 / 2) (by norm_num), hothers _ (by decide) (by decide)⟩
  have hlast := (hbudget 3 (by rw [hanswers]; decide)).mp (by simp [hanswers]) 0 (by decide)
  simpa [hanswers] using hlast

end RsWaku
