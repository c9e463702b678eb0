import Mathlib.Tactic.FieldSimp
import Mathlib.Tactic.Ring
import RsWaku.Rln
import RsWaku.Runs
import RsWaku.ScalarField

/-! The nullifier log over a history of calls: what an observation answers is decided by the
first proof with its nullifier since its epoch was last forgotten. -/
namespace RsWaku
open Runs
variable {Fr Zk : Type*} {zk : Zerokit Fr Zk}

def NullifierLog.firstShare (log : NullifierLog Fr) (epochKey nullifierKey : List UInt8) :
    Option (Fr × Fr) :=
  (Maps.read log.seen ∅ epochKey).lookup nullifierKey

def RlnProof.keys (zk : Zerokit Fr Zk) (p : RlnProof Fr Zk) : List UInt8 × List UInt8 :=
  (zk.frToBytesLe p.externalNullifier, zk.frToBytesLe p.nullifier)

theorem NullifierLog.firstShare_insert (log : NullifierLog Fr) (ek nk : List UInt8)
    (share : Fr × Fr) (k : List UInt8 × List UInt8) :
    (NullifierLog.mk (log.seen.insert ek ((Maps.read log.seen ∅ ek).insert nk share))).firstShare
        k.1 k.2 =
      if k = (ek, nk) then some share else log.firstShare k.1 k.2 := by
  obtain ⟨ek', nk'⟩ := k
  simp only [NullifierLog.firstShare, Maps.read_insert, Prod.mk.injEq]
  by_cases he : ek' = ek
  · subst he
    rw [Function.update_self]
    by_cases hn : nk' = nk
    · subst hn
      simp
    · rw [AList.lookup_insert_ne hn, if_neg fun h => hn h.2]
  · rw [Function.update_of_ne he, if_neg fun h => he h.1]

theorem NullifierLog.firstShare_forgetEpoch (log : NullifierLog Fr) (e : Fr)
    (ek nk : List UInt8) :
    (log.forgetEpoch zk e).firstShare ek nk =
      if ek = zk.frToBytesLe e then none else log.firstShare ek nk := by
  rw [NullifierLog.firstShare, NullifierLog.forgetEpoch, Maps.read_erase]
  by_cases h : ek = zk.frToBytesLe e
  · rw [if_pos h, h, Function.update_self, AList.lookup_empty]
  · rw [if_neg h, Function.update_of_ne h, NullifierLog.firstShare]

theorem RlnProof.keys_eq_iff (hbytes : Function.Injective zk.frToBytesLe) (p q : RlnProof Fr Zk) :
    p.keys zk = q.keys zk ↔
      q.externalNullifier = p.externalNullifier ∧ q.nullifier = p.nullifier := by
  rw [RlnProof.keys, RlnProof.keys, Prod.mk.injEq, hbytes.eq_iff, hbytes.eq_iff, eq_comm,
    @eq_comm _ p.nullifier]

variable [DecidableEq Fr]

theorem NullifierLog.observe_cases (zk : Zerokit Fr Zk) (log : NullifierLog Fr)
    (p : RlnProof Fr Zk) :
    (log.firstShare (p.keys zk).1 (p.keys zk).2 = none ∧ (log.observe zk p).2 = .ok .ok ∧
      ∀ k : List UInt8 × List UInt8, (log.observe zk p).1.firstShare k.1 k.2 =
        if k = p.keys zk then some p.share else log.firstShare k.1 k.2) ∨
    ∃ prev, log.firstShare (p.keys zk).1 (p.keys zk).2 = some prev ∧
      (log.observe zk p).1 = log ∧
      (log.observe zk p).2 = if prev = p.share then .ok .duplicate else
        match zk.computeIdSecret prev p.share with
        | .ok secret => .ok (.doubleSignaling secret)
        | .error e => .error (.rln e) := by
  unfold NullifierLog.observe
  dsimp only
  split
  case h_1 hnone =>
    exact Or.inl ⟨hnone, rfl, fun k => log.firstShare_insert _ _ p.share k⟩
  case h_2 prev hsome =>
    refine Or.inr ⟨prev, hsome, ?_⟩
    by_cases heq : prev = p.share
    · rw [if_pos heq, if_pos heq]
      exact ⟨rfl, rfl⟩
    · rw [if_neg heq, if_neg heq]
      cases zk.computeIdSecret prev p.share with
      | ok secret => exact ⟨rfl, rfl⟩
      | error e => exact ⟨rfl, rfl⟩

theorem NullifierLog.firstShare_observe (zk : Zerokit Fr Zk) (log : NullifierLog Fr)
    (p : RlnProof Fr Zk) (k : List UInt8 × List UInt8) :
    (log.observe zk p).1.firstShare k.1 k.2 =
      if k = p.keys zk then some ((log.firstShare k.1 k.2).getD p.share)
      else log.firstShare k.1 k.2 := by
  obtain ⟨hnone, -, hlog⟩ | ⟨prev, hprev, hlog, -⟩ := log.observe_cases zk p
  · rw [hlog]
    split
    case isTrue hk => rw [hk, hnone, Option.getD_none]
    case isFalse => rfl
  · rw [hlog]
    split
    case isTrue hk => rw [hk, hprev, Option.getD_some]
    case isFalse => rfl

theorem NullifierLog.observe_keeps (log : NullifierLog Fr) (p : RlnProof Fr Zk)
    {k : List UInt8 × List UInt8} {share : Fr × Fr} (h : log.firstShare k.1 k.2 = some share) :
    (log.observe zk p).1.firstShare k.1 k.2 = some share := by
  rw [log.firstShare_observe, h, Option.getD_some, ite_self]

theorem NullifierLog.observe_unflagged
    (hrecover : ∀ p q e, zk.computeIdSecret p q = .error e → p.1 = q.1)
    (log : NullifierLog Fr) (p : RlnProof Fr Zk)
    (h : ∀ secret, (log.observe zk p).2 ≠ .ok (.doubleSignaling secret)) :
    ∃ y, (log.observe zk p).1.firstShare (p.keys zk).1 (p.keys zk).2 = some (p.share.1, y) := by
  obtain ⟨-, -, hlog⟩ | ⟨prev, hprev, hlog, hout⟩ := log.observe_cases zk p
  · exact ⟨p.share.2, by rw [hlog, if_pos rfl]⟩
  · rw [hout] at h
    rw [hlog, hprev]
    by_cases heq : prev = p.share
    · exact ⟨p.share.2, congrArg some heq⟩
    · rw [if_neg heq] at h
      cases hc : zk.computeIdSecret prev p.share with
      | ok secret =>
        rw [hc] at h
        exact absurd rfl (h secret)
      | error e => exact ⟨prev.2, by rw [← hrecover _ _ e hc]⟩

inductive LogCall (Fr Zk : Type*) where
  | observe (proof : RlnProof Fr Zk)
  | forgetEpoch (externalNullifier : Fr)

def NullifierLog.call (zk : Zerokit Fr Zk) (log : NullifierLog Fr) :
    LogCall Fr Zk → NullifierLog Fr
  | .observe proof => (log.observe zk proof).1
  | .forgetEpoch externalNullifier => log.forgetEpoch zk externalNullifier

def LogCall.forgets (externalNullifier : Fr) : LogCall Fr Zk → Bool
  | .observe _ => false
  | .forgetEpoch e => e = externalNullifier

def LogCall.sights (p : RlnProof Fr Zk) : LogCall Fr Zk → Option (RlnProof Fr Zk)
  | .observe q =>
    if q.externalNullifier = p.externalNullifier ∧ q.nullifier = p.nullifier then some q else none
  | .forgetEpoch _ => none

/-- The first proof with the epoch and the nullifier of p since that epoch was last forgotten. -/
def firstSighting (p : RlnProof Fr Zk) (calls : List (LogCall Fr Zk)) : Option (RlnProof Fr Zk) :=
  (sinceLast (LogCall.forgets p.externalNullifier) calls).findSome? (LogCall.sights p)

def outcomeAfter (zk : Zerokit Fr Zk) (calls : List (LogCall Fr Zk)) (p : RlnProof Fr Zk) :
    Except RlnError (NullifierOutcome Fr) :=
  ((calls.foldl (NullifierLog.call zk) {}).observe zk p).2

theorem firstSighting_snoc (p : RlnProof Fr Zk) (calls : List (LogCall Fr Zk))
    (c : LogCall Fr Zk) :
    firstSighting p (calls ++ [c]) =
      if c.forgets p.externalNullifier then none else (firstSighting p calls).or (c.sights p) := by
  rw [firstSighting, sinceLast_snoc]
  split
  · rfl
  · simp [firstSighting, List.findSome?_append]

/-- Induction over the calls: the log holds the share of the first sighting. -/
theorem firstShare_after (hbytes : Function.Injective zk.frToBytesLe)
    (calls : List (LogCall Fr Zk)) (p : RlnProof Fr Zk) :
    (calls.foldl (NullifierLog.call zk) {}).firstShare (p.keys zk).1 (p.keys zk).2 =
      (firstSighting p calls).map RlnProof.share := by
  induction calls using List.reverseRecOn with
  | nil => rfl
  | append_singleton calls c ih =>
    rw [List.foldl_append, List.foldl_cons, List.foldl_nil, firstSighting_snoc]
    cases c with
    | forgetEpoch e =>
      rw [NullifierLog.call, NullifierLog.firstShare_forgetEpoch]
      by_cases he : e = p.externalNullifier
      · simp [RlnProof.keys, LogCall.forgets, he]
      · have hne : ¬(p.keys zk).1 = zk.frToBytesLe e := fun h => he (hbytes h).symm
        rw [if_neg hne, ih]
        simp [LogCall.forgets, he, LogCall.sights]
    | observe q =>
      rw [NullifierLog.call, NullifierLog.firstShare_observe, ih, LogCall.sights, LogCall.forgets,
        if_neg Bool.false_ne_true]
      have hkeys := RlnProof.keys_eq_iff hbytes p q
      by_cases hk : p.keys zk = q.keys zk
      · rw [if_pos hk, if_pos (hkeys.mp hk)]
        cases firstSighting p calls with
        | none => rfl
        | some first => rfl
      · rw [if_neg hk, if_neg (mt hkeys.mpr hk), Option.or_none]

theorem NullifierLog.observe_outcome (zk : Zerokit Fr Zk) (log : NullifierLog Fr)
    (p : RlnProof Fr Zk) :
    (log.observe zk p).2 =
      match log.firstShare (p.keys zk).1 (p.keys zk).2 with
      | none => .ok .ok
      | some prev => if prev = p.share then .ok .duplicate else
        match zk.computeIdSecret prev p.share with
        | .ok secret => .ok (.doubleSignaling secret)
        | .error e => .error (.rln e) := by
  obtain ⟨hnone, hout, -⟩ | ⟨prev, hprev, -, hout⟩ := log.observe_cases zk p
  · rw [hnone, hout]
  · rw [hprev, hout]

def LogCall.concerns (p : RlnProof Fr Zk) (c : LogCall Fr Zk) : Bool :=
  (c.sights p).isSome || c.forgets p.externalNullifier

theorem firstSighting_filter (p : RlnProof Fr Zk) (calls : List (LogCall Fr Zk)) :
    firstSighting p (calls.filter (LogCall.concerns p)) = firstSighting p calls := by
  induction calls using List.reverseRecOn with
  | nil => rfl
  | append_singleton calls c ih =>
    rw [List.filter_append, firstSighting_snoc]
    cases hc : c.concerns p with
    | true => rw [List.filter_cons_of_pos hc, List.filter_nil, firstSighting_snoc, ih]
    | false =>
      rw [List.filter_cons_of_neg (by simp [hc]), List.filter_nil, List.append_nil, ih]
      simp only [LogCall.concerns, Bool.or_eq_false_iff, Option.isSome_eq_false_iff,
        Option.isNone_iff_eq_none] at hc
      simp [hc.1, hc.2]

theorem interpolate_at_zero {K : Type*} [Field K] {x x' : K} (a0 a1 : K) (hne : x ≠ x') :
    a0 + a1 * x - (a0 + a1 * x' - (a0 + a1 * x)) / (x' - x) * x = a0 := by
  have hd : x' - x ≠ 0 := sub_ne_zero.mpr hne.symm
  field_simp
  ring

/-- The outcome of an observation after any history of calls: fresh without an earlier
sighting since the epoch was forgotten, a duplicate of an equal share, and otherwise the secret
of the line through both shares. Calls that concern other nullifiers or epochs change nothing. -/
theorem observe_history {K : Type*} [Field K] [DecidableEq K] (zk : Zerokit K Zk)
    (hbytes : Function.Injective zk.frToBytesLe)
    (hinterpolate : ∀ p q : K × K, p.1 ≠ q.1 →
      zk.computeIdSecret p q = .ok (p.2 - (q.2 - p.2) / (q.1 - p.1) * p.1))
    (calls : List (LogCall K Zk)) (p : RlnProof K Zk) :
    (firstSighting p calls = none → outcomeAfter zk calls p = .ok .ok) ∧
    (∀ q, firstSighting p calls = some q → q.share = p.share →
      outcomeAfter zk calls p = .ok .duplicate) ∧
    (∀ q a0 a1, firstSighting p calls = some q → q.share.1 ≠ p.share.1 →
      q.share.2 = a0 + a1 * q.share.1 → p.share.2 = a0 + a1 * p.share.1 →
      outcomeAfter zk calls p = .ok (.doubleSignaling a0)) ∧
    outcomeAfter zk (calls.filter (LogCall.concerns p)) p = outcomeAfter zk calls p := by
  have hout : ∀ calls : List (LogCall K Zk), outcomeAfter zk calls p =
      match (firstSighting p calls).map RlnProof.share with
      | none => .ok .ok
      | some prev => if prev = p.share then .ok .duplicate else
        match zk.computeIdSecret prev p.share with
        | .ok secret => .ok (.doubleSignaling secret)
        | .error e => .error (.rln e) := by
    intro calls
    rw [outcomeAfter, NullifierLog.observe_outcome, firstShare_after hbytes]
  refine ⟨?_, ?_, ?_, ?_⟩
  · intro hnone
    rw [hout, hnone]
    rfl
  · intro q hq heq
    rw [hout, hq, Option.map_some]
    exact if_pos heq
  · intro q a0 a1 hq hne hqy hpy
    have hshare : q.share ≠ p.share := fun h => hne (congrArg Prod.fst h)
    rw [hout, hq, Option.map_some]
    dsimp only
    rw [if_neg hshare, hinterpolate _ _ hne, hqy, hpy, interpolate_at_zero a0 a1 hne]
  · rw [hout, hout, firstSighting_filter]

def sampleIdentity : RlnIdentity (ZMod bn254) := ⟨5, 25, 1⟩

def sampleSlope (secret ext : ZMod bn254) (messageId : UInt64) : ZMod bn254 :=
  17 * secret + 31 * ext + messageId.toNat

def sampleNullifier (secret ext : ZMod bn254) (messageId : UInt64) : ZMod bn254 :=
  37 * sampleSlope secret ext messageId

/- A proof system that checks its relation in the clear, for the one registered identity. -/
def sampleZerokit : Zerokit (ZMod bn254) Unit where
  hashToFieldLe signal := signal.foldr (fun b acc => b.toNat + 256 * acc) 1
  poseidonHash inputs := inputs.foldl (fun acc x => 31 * acc + x) 1
  frFromU64 n := n.toNat
  frToBytesLe := frToBytesLe
  computeIdSecret p q :=
    if p.1 = q.1 then .error "equal shares"
    else .ok (p.2 - p.1 * ((p.2 - q.2) * (p.1 - q.1)⁻¹))
  setNextLeaf leaves leaf := .ok (leaves ++ [leaf])
  getRoot leaves := leaves.foldl (fun acc x => 41 * acc + x) 2
  verifyWithRoots _ values x roots :=
    .ok (decide (values.root ∈ roots ∧ values.x = x ∧
      values.nullifier = sampleNullifier sampleIdentity.secret values.externalNullifier 0 ∧
      values.y = sampleIdentity.secret +
        sampleSlope sampleIdentity.secret values.externalNullifier 0 * x))

def sampleProof (ext x : ZMod bn254) : RlnProof (ZMod bn254) Unit where
  proof := ()
  proofValues :=
    { root := sampleZerokit.getRoot []
      x := x
      y := sampleIdentity.secret + sampleSlope sampleIdentity.secret ext 0 * x
      nullifier := sampleNullifier sampleIdentity.secret ext 0
      externalNullifier := ext }

theorem observe_history_sample :
    outcomeAfter sampleZerokit [.observe (sampleProof 3 7), .forgetEpoch 3] (sampleProof 3 9) =
      .ok .ok ∧
    outcomeAfter sampleZerokit [.observe (sampleProof 3 7)] (sampleProof 3 7) = .ok .duplicate ∧
    outcomeAfter sampleZerokit [.observe (sampleProof 3 7), .observe (sampleProof 4 8),
      .observe (sampleProof 3 8), .forgetEpoch 4] (sampleProof 3 9) =
        .ok (.doubleSignaling sampleIdentity.secret) := by
  have hinterpolate : ∀ p q : ZMod bn254 × ZMod bn254, p.1 ≠ q.1 →
      sampleZerokit.computeIdSecret p q = .ok (p.2 - (q.2 - p.2) / (q.1 - p.1) * p.1) := by
    intro p q hne
    have hslope : (p.2 - q.2) * (p.1 - q.1)⁻¹ = (q.2 - p.2) / (q.1 - p.1) := by
      rw [← div_eq_mul_inv, ← neg_sub q.2, ← neg_sub q.1, neg_div_neg_eq]
    change (if p.1 = q.1 then _ else _) = _
    rw [if_neg hne, hslope, mul_comm]
  have h := observe_history sampleZerokit frToBytesLe_injective hinterpolate
  have h43 : (4 : ZMod bn254) ≠ 3 := by decide
  have h79 : (7 : ZMod bn254) ≠ 9 := by decide
  refine ⟨(h _ _).1 ?_, (h _ _).2.1 (sampleProof 3 7) ?_ rfl,
    (h _ _).2.2.1 (sampleProof 3 7) _ _ ?_ h79 rfl rfl⟩
  · simp [firstSighting, sinceLast, LogCall.forgets, RlnProof.externalNullifier, sampleProof]
  · simp [firstSighting, sinceLast, LogCall.forgets, LogCall.sights]
  · simp [firstSighting, sinceLast, LogCall.forgets, LogCall.sights, RlnProof.externalNullifier,
      RlnProof.nullifier, sampleProof, h43]

end RsWaku
