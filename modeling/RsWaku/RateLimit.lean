import Mathlib.Combinatorics.Enumerative.DoubleCounting
import Mathlib.Data.ZMod.Basic
import RsWaku.NullifierLog

/-! The rate limit over a run of the inbound validator: the log keeps the first share of each
nullifier, so one message slot of an identity yields one unflagged message per epoch. -/
namespace RsWaku
variable {Fr Zk : Type*} {zk : Zerokit Fr Zk} [DecidableEq Fr]

def RlnValidator.Accepts (zk : Zerokit Fr Zk) (v : RlnValidator Fr) (proof : RlnProof Fr Zk)
    (signal : List UInt8) (nowSecs : UInt64) : Prop :=
  proof.share.1 = zk.hashToFieldLe signal ∧ v.relay.verify zk proof = true ∧
    v.InWindow zk proof nowSecs

instance (zk : Zerokit Fr Zk) (v : RlnValidator Fr) (proof : RlnProof Fr Zk)
    (signal : List UInt8) (nowSecs : UInt64) : Decidable (v.Accepts zk proof signal nowSecs) :=
  inferInstanceAs (Decidable (_ ∧ _))

def NullifierOutcome.flagged : Except RlnError (NullifierOutcome Fr) → Bool
  | .ok (.doubleSignaling _) => true
  | _ => false

theorem RlnValidator.verifyInbound_eq (zk : Zerokit Fr Zk) (v : RlnValidator Fr)
    (proof : RlnProof Fr Zk) (signal : List UInt8) (nowSecs : UInt64) :
    v.verifyInbound zk proof signal nowSecs =
      if v.Accepts zk proof signal nowSecs then
        ({ v with log := (v.log.observe zk proof).1 },
          .valid (NullifierOutcome.flagged (v.log.observe zk proof).2))
      else (v, .invalid) := by
  unfold RlnValidator.verifyInbound
  by_cases h : v.Accepts zk proof signal nowSecs
  · obtain ⟨hx, hverify, hwindow⟩ := id h
    rw [if_pos h, if_neg (not_not.mpr hx), if_neg (by simp [hverify]), if_neg (not_not.mpr hwindow)]
    dsimp only
    split
    case h_1 secret hsecret => rw [hsecret, NullifierOutcome.flagged]
    case h_2 hother => rw [NullifierOutcome.flagged.eq_2 _ hother]
  · rw [if_neg h]
    -- one of the checks fails
    split_ifs with hx hverify hwindow
    · rfl
    · rfl
    · exact absurd ⟨not_not.mp hx, by simpa using hverify, hwindow⟩ h
    · rfl

theorem RlnValidator.verifyInbound_cases (zk : Zerokit Fr Zk) (v : RlnValidator Fr)
    (proof : RlnProof Fr Zk) (signal : List UInt8) (nowSecs : UInt64) :
    v.verifyInbound zk proof signal nowSecs = (v, .invalid) ∨
    v.Accepts zk proof signal nowSecs ∧ v.verifyInbound zk proof signal nowSecs =
      ({ v with log := (v.log.observe zk proof).1 },
        .valid (NullifierOutcome.flagged (v.log.observe zk proof).2)) := by
  rw [verifyInbound_eq]
  by_cases h : v.Accepts zk proof signal nowSecs
  · exact Or.inr ⟨h, if_pos h⟩
  · exact Or.inl (if_neg h)

theorem RlnValidator.verifyInbound_relay (v : RlnValidator Fr) (proof : RlnProof Fr Zk)
    (signal : List UInt8) (nowSecs : UInt64) :
    (v.verifyInbound zk proof signal nowSecs).1.relay = v.relay := by
  obtain h | ⟨-, h⟩ := v.verifyInbound_cases zk proof signal nowSecs
  · rw [h]
  · rw [h]

theorem RlnValidator.verifyInbound_keeps (zk : Zerokit Fr Zk) (v : RlnValidator Fr)
    (proof : RlnProof Fr Zk) (signal : List UInt8) (nowSecs : UInt64)
    {k : List UInt8 × List UInt8} {share : Fr × Fr}
    (h : v.log.firstShare k.1 k.2 = some share) :
    (v.verifyInbound zk proof signal nowSecs).1.log.firstShare k.1 k.2 = some share := by
  obtain hinv | ⟨-, hvalid⟩ := v.verifyInbound_cases zk proof signal nowSecs
  · rw [hinv]
    exact h
  · rw [hvalid]
    exact v.log.observe_keeps proof h

theorem RlnValidator.verifyInbound_unflagged
    (hrecover : ∀ p q e, zk.computeIdSecret p q = .error e → p.1 = q.1) (v : RlnValidator Fr)
    (proof : RlnProof Fr Zk) (signal : List UInt8) (nowSecs : UInt64)
    (h : (v.verifyInbound zk proof signal nowSecs).2 = .valid false) :
    ∃ y, (v.verifyInbound zk proof signal nowSecs).1.log.firstShare
      (proof.keys zk).1 (proof.keys zk).2 = some (zk.hashToFieldLe signal, y) := by
  obtain hinv | ⟨hacc, hvalid⟩ := v.verifyInbound_cases zk proof signal nowSecs
  · rw [hinv] at h
    cases h
  · rw [hvalid, InboundVerdict.valid.injEq] at h
    rw [hvalid, ← hacc.1]
    apply NullifierLog.observe_unflagged hrecover v.log proof
    intro secret hsecret
    rw [hsecret, NullifierOutcome.flagged] at h
    cases h

structure InboundCall (Fr Zk : Type*) where
  proof : RlnProof Fr Zk
  signal : List UInt8
  nowSecs : UInt64

def RlnValidator.verifyAll (zk : Zerokit Fr Zk) :
    RlnValidator Fr → List (InboundCall Fr Zk) → List (InboundCall Fr Zk × InboundVerdict)
  | _, [] => []
  | v, c :: calls =>
    (c, (v.verifyInbound zk c.proof c.signal c.nowSecs).2) ::
      RlnValidator.verifyAll zk (v.verifyInbound zk c.proof c.signal c.nowSecs).1 calls

variable {calls : List (InboundCall Fr Zk)}

/-- Once the log holds a share for a nullifier, every later unflagged message with that
nullifier has the x of the share. -/
theorem RlnValidator.unflagged_of_logged
    (hrecover : ∀ p q e, zk.computeIdSecret p q = .error e → p.1 = q.1) (v : RlnValidator Fr)
    {share : Fr × Fr} {r : InboundCall Fr Zk × InboundVerdict} (hr : r ∈ v.verifyAll zk calls)
    (hlog : v.log.firstShare (r.1.proof.keys zk).1 (r.1.proof.keys zk).2 = some share)
    (hvalid : r.2 = .valid false) : zk.hashToFieldLe r.1.signal = share.1 := by
  induction calls generalizing v with
  | nil => cases hr
  | cons c calls ih =>
    have hkept := v.verifyInbound_keeps zk c.proof c.signal c.nowSecs hlog
    obtain rfl | hr := List.mem_cons.mp hr
    · obtain ⟨y, hy⟩ := RlnValidator.verifyInbound_unflagged hrecover v _ _ _ hvalid
      rw [hkept] at hy
      rw [Option.some.inj hy]
    · exact ih _ hr hkept

theorem RlnValidator.unflagged_unique
    (hrecover : ∀ p q e, zk.computeIdSecret p q = .error e → p.1 = q.1) (v : RlnValidator Fr)
    {r r' : InboundCall Fr Zk × InboundVerdict} (hr : r ∈ v.verifyAll zk calls)
    (hr' : r' ∈ v.verifyAll zk calls) (hkeys : r.1.proof.keys zk = r'.1.proof.keys zk)
    (hvalid : r.2 = .valid false) (hvalid' : r'.2 = .valid false) :
    zk.hashToFieldLe r.1.signal = zk.hashToFieldLe r'.1.signal := by
  induction calls generalizing v with
  | nil => cases hr
  | cons c calls ih =>
    obtain rfl | hmem := List.mem_cons.mp hr
    · obtain ⟨y, hy⟩ := RlnValidator.verifyInbound_unflagged hrecover v _ _ _ hvalid
      obtain rfl | hmem' := List.mem_cons.mp hr'
      · rfl
      · rw [hkeys] at hy
        exact (RlnValidator.unflagged_of_logged hrecover _ hmem' hy hvalid').symm
    · obtain rfl | hmem' := List.mem_cons.mp hr'
      · obtain ⟨y, hy⟩ := RlnValidator.verifyInbound_unflagged hrecover v _ _ _ hvalid'
        rw [← hkeys] at hy
        exact RlnValidator.unflagged_of_logged hrecover _ hmem hy hvalid
      · exact ih _ hmem hmem'

theorem RlnValidator.verified_of_valid (v : RlnValidator Fr)
    {r : InboundCall Fr Zk × InboundVerdict} (hr : r ∈ v.verifyAll zk calls) {d : Bool}
    (hvalid : r.2 = .valid d) : v.relay.verify zk r.1.proof = true := by
  induction calls generalizing v with
  | nil => cases hr
  | cons c calls ih =>
    obtain rfl | hr := List.mem_cons.mp hr
    · obtain hinv | ⟨hacc, -⟩ := v.verifyInbound_cases zk c.proof c.signal c.nowSecs
      · rw [hinv] at hvalid
        cases hvalid
      · exact hacc.2.1
    · have hnext := ih _ hr
      rwa [RlnValidator.verifyInbound_relay] at hnext

variable [CommRing Fr]

/-- The proof uses a message slot of the identity: its nullifier is that of the slot and its
share lies on the slot's line through the secret. -/
def RlnIdentity.Signs (nullifierOf slopeOf : Fr → Fr → UInt64 → Fr) (identity : RlnIdentity Fr)
    (p : RlnProof Fr Zk) : Prop :=
  ∃ messageId < identity.userMessageLimit,
    p.nullifier = nullifierOf identity.secret p.externalNullifier messageId ∧
    p.share.2 = identity.secret +
      slopeOf identity.secret p.externalNullifier messageId * p.share.1

/-- Soundness of the proof system: a proof that verifies was made by a registered identity. -/
def RlnRelay.ZkSound (zk : Zerokit Fr Zk) (nullifierOf slopeOf : Fr → Fr → UInt64 → Fr)
    (relay : RlnRelay Fr) : Prop :=
  ∀ p, relay.verify zk p = true → ∃ identity : RlnIdentity Fr,
    identity.rateCommitment zk ∈ relay.leaves ∧ identity.Signs nullifierOf slopeOf p

/-- Every valid proof of a run belongs to a registered identity, and the unflagged messages
of one identity in one epoch have at most as many different x as its message limit. -/
theorem rln_rate_limit (zk : Zerokit Fr Zk) (nullifierOf slopeOf : Fr → Fr → UInt64 → Fr)
    (relay : RlnRelay Fr) (epochSizeSecs : UInt64) (calls : List (InboundCall Fr Zk))
    (hsound : relay.ZkSound zk nullifierOf slopeOf)
    (hrecover : ∀ p q e, zk.computeIdSecret p q = .error e → p.1 = q.1) :
    (∀ r ∈ (RlnValidator.new relay epochSizeSecs).verifyAll zk calls, ∀ d, r.2 = .valid d →
      ∃ identity : RlnIdentity Fr, identity.rateCommitment zk ∈ relay.leaves ∧
        identity.Signs nullifierOf slopeOf r.1.proof) ∧
    ∀ (identity : RlnIdentity Fr) (epoch : UInt64) (xs : Finset Fr),
      (∀ x ∈ xs, ∃ r ∈ (RlnValidator.new relay epochSizeSecs).verifyAll zk calls,
        r.2 = .valid false ∧ r.1.proof.externalNullifier = relay.externalNullifier zk epoch ∧
        identity.Signs nullifierOf slopeOf r.1.proof ∧ zk.hashToFieldLe r.1.signal = x) →
      xs.card ≤ identity.userMessageLimit.toNat := by
  constructor
  · intro r hr d hvalid
    exact hsound r.1.proof (RlnValidator.verified_of_valid _ hr hvalid)
  · intro identity epoch xs hxs
    -- each x is related to the slot of a message that has it
    rw [← Finset.card_range identity.userMessageLimit.toNat]
    refine Finset.card_le_card_of_forall_subsingleton
      (fun x slot => ∃ r ∈ (RlnValidator.new relay epochSizeSecs).verifyAll zk calls,
        r.2 = .valid false ∧ r.1.proof.externalNullifier = relay.externalNullifier zk epoch ∧
        r.1.proof.nullifier = nullifierOf identity.secret r.1.proof.externalNullifier
          (UInt64.ofNat slot) ∧ zk.hashToFieldLe r.1.signal = x) ?_ ?_
    · intro x hx
      obtain ⟨r, hr, hvalid, hext, ⟨messageId, hlt, hnull, -⟩, hsig⟩ := hxs x hx
      refine ⟨messageId.toNat, Finset.mem_range.mpr (UInt64.lt_iff_toNat_lt.mp hlt), r, hr, hvalid,
        hext, ?_, hsig⟩
      rw [UInt64.ofNat_toNat, hnull]
    · intro slot _ x hx x' hx'
      obtain ⟨-, r, hr, hvalid, hext, hnull, rfl⟩ := hx
      obtain ⟨-, r', hr', hvalid', hext', hnull', rfl⟩ := hx'
      refine RlnValidator.unflagged_unique hrecover _ hr hr' ?_ hvalid hvalid'
      rw [RlnProof.keys, RlnProof.keys, hnull, hnull', hext, hext']

def sampleRelay : RlnRelay (ZMod bn254) :=
  match (RlnRelay.new sampleZerokit).register sampleZerokit sampleIdentity with
  | .ok (relay, _) => relay
  | .error _ => RlnRelay.new sampleZerokit

def sampleCall (signal : List UInt8) (epoch nowSecs : UInt64) : InboundCall (ZMod bn254) Unit :=
  let ext := sampleRelay.externalNullifier sampleZerokit epoch
  let x := sampleZerokit.hashToFieldLe signal
  { proof :=
      { proof := ()
        proofValues :=
          { root := sampleZerokit.getRoot sampleRelay.leaves
            x := x
            y := sampleIdentity.secret + sampleSlope sampleIdentity.secret ext 0 * x
            nullifier := sampleNullifier sampleIdentity.secret ext 0
            externalNullifier := ext } }
    signal := signal
    nowSecs := nowSecs }

theorem sampleRelay_zkSound : sampleRelay.ZkSound sampleZerokit sampleNullifier sampleSlope := by
  intro p hp
  simp only [RlnRelay.verify, sampleZerokit, decide_eq_true_eq] at hp
  exact ⟨sampleIdentity, List.mem_singleton_self _, 0, by decide, hp.2.2.1, hp.2.2.2⟩

theorem rln_rate_limit_sample :
    ((RlnValidator.new sampleRelay 600).verifyAll sampleZerokit
      [sampleCall [1] 3 1900, sampleCall [2] 3 1900]).map Prod.snd = [.valid false, .valid true] ∧
    Finset.card {sampleZerokit.hashToFieldLe [1]} ≤ sampleIdentity.userMessageLimit.toNat := by
  have hverdicts : ((RlnValidator.new sampleRelay 600).verifyAll sampleZerokit
      [sampleCall [1] 3 1900, sampleCall [2] 3 1900]).map Prod.snd =
        [.valid false, .valid true] := by
    decide +kernel
  refine ⟨hverdicts, (rln_rate_limit sampleZerokit sampleNullifier sampleSlope sampleRelay 600
    [sampleCall [1] 3 1900, sampleCall [2] 3 1900] sampleRelay_zkSound ?_).2 sampleIdentity 3 _ ?_⟩
  · intro p q e h
    simp only [sampleZerokit] at h
    split at h
    case isTrue heq => exact heq
    case isFalse => cases h
  · intro x hx
    refine ⟨(sampleCall [1] 3 1900, .valid false), ?_, rfl, rfl, ⟨0, by decide, rfl, rfl⟩,
      (Finset.mem_singleton.mp hx).symm⟩
    refine List.mem_cons.mpr (Or.inl (Prod.ext rfl ?_))
    exact (List.cons.inj hverdicts).1.symm

end RsWaku
