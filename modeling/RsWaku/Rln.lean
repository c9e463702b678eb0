import RsWaku.Maps

/-! RLN relay: proofs and their public values, the nullifier log and the validator of
inbound messages. The functions of zerokit are a parameter. -/
namespace RsWaku
variable {Fr Zk : Type*} [DecidableEq Fr]

structure ProofValues (Fr : Type*) where
  root : Fr
  x : Fr
  y : Fr
  nullifier : Fr
  externalNullifier : Fr

structure RlnProof (Fr Zk : Type*) where
  proof : Zk
  proofValues : ProofValues Fr

def RlnProof.externalNullifier (p : RlnProof Fr Zk) : Fr := p.proofValues.externalNullifier
def RlnProof.nullifier (p : RlnProof Fr Zk) : Fr := p.proofValues.nullifier

def RlnProof.share (p : RlnProof Fr Zk) : Fr × Fr := (p.proofValues.x, p.proofValues.y)

/-- What is called in zerokit; the membership tree is the list of its leaves. -/
structure Zerokit (Fr Zk : Type*) where
  hashToFieldLe : List UInt8 → Fr
  poseidonHash : List Fr → Fr
  frFromU64 : UInt64 → Fr
  frToBytesLe : Fr → List UInt8
  computeIdSecret : Fr × Fr → Fr × Fr → Except String Fr
  setNextLeaf : List Fr → Fr → Except String (List Fr)
  getRoot : List Fr → Fr
  verifyWithRoots : Zk → ProofValues Fr → Fr → List Fr → Except String Bool

inductive RlnError where
  | rln (message : String)

structure RlnIdentity (Fr : Type*) where
  secret : Fr
  commitment : Fr
  userMessageLimit : UInt64

def RlnIdentity.rateCommitment (zk : Zerokit Fr Zk) (identity : RlnIdentity Fr) : Fr :=
  zk.poseidonHash [identity.commitment, zk.frFromU64 identity.userMessageLimit]

inductive NullifierOutcome (Fr : Type*) where
  | ok
  | duplicate
  | doubleSignaling (recoveredSecret : Fr)

abbrev EpochNullifiers (Fr : Type*) := AList fun _ : List UInt8 => Fr × Fr

/-- From external nullifier bytes, which stand for the epoch, to its nullifiers. -/
structure NullifierLog (Fr : Type*) where
  seen : AList fun _ : List UInt8 => EpochNullifiers Fr := ∅

def NullifierLog.observe (zk : Zerokit Fr Zk) (log : NullifierLog Fr) (proof : RlnProof Fr Zk) :
    NullifierLog Fr × Except RlnError (NullifierOutcome Fr) :=
  let epochKey := zk.frToBytesLe proof.externalNullifier
  let nullifierKey := zk.frToBytesLe proof.nullifier
  let bucket := Maps.read log.seen ∅ epochKey
  match bucket.lookup nullifierKey with
  | none => (⟨log.seen.insert epochKey (bucket.insert nullifierKey proof.share)⟩, .ok .ok)
  | some prevShare =>
    if prevShare = proof.share then (log, .ok .duplicate)
    else match zk.computeIdSecret prevShare proof.share with
      | .ok secret => (log, .ok (.doubleSignaling secret))
      | .error e => (log, .error (.rln e))

def NullifierLog.forgetEpoch (zk : Zerokit Fr Zk) (log : NullifierLog Fr) (externalNullifier : Fr) :
    NullifierLog Fr :=
  ⟨log.seen.erase (zk.frToBytesLe externalNullifier)⟩

def NullifierLog.trackedEpochs (log : NullifierLog Fr) : Nat := log.seen.keys.length

structure RlnRelay (Fr : Type*) where
  leaves : List Fr
  rlnIdentifier : Fr

def RlnRelay.new (zk : Zerokit Fr Zk) : RlnRelay Fr :=
  ⟨[], zk.hashToFieldLe "rln-relay-v2".toUTF8.data.toList⟩

def RlnRelay.register (zk : Zerokit Fr Zk) (relay : RlnRelay Fr) (identity : RlnIdentity Fr) :
    Except RlnError (RlnRelay Fr × Nat) :=
  match zk.setNextLeaf relay.leaves (identity.rateCommitment zk) with
  | .ok leaves => .ok ({ relay with leaves }, relay.leaves.length)
  | .error e => .error (.rln e)

def RlnRelay.externalNullifier (zk : Zerokit Fr Zk) (relay : RlnRelay Fr) (epoch : UInt64) : Fr :=
  zk.poseidonHash [zk.frFromU64 epoch, relay.rlnIdentifier]

def RlnRelay.verify (zk : Zerokit Fr Zk) (relay : RlnRelay Fr) (proof : RlnProof Fr Zk) : Bool :=
  match zk.verifyWithRoots proof.proof proof.proofValues proof.proofValues.x
      [zk.getRoot relay.leaves] with
  | .ok valid => valid
  | .error _ => false

inductive InboundVerdict where
  | valid (doubleSignaling : Bool)
  | invalid
deriving DecidableEq

/-- The constructor replaces an epoch size of zero by one. -/
structure RlnValidator (Fr : Type*) where
  relay : RlnRelay Fr
  log : NullifierLog Fr := {}
  epochSizeSecs : UInt64
  epoch_pos : 0 < epochSizeSecs.toNat

def RlnValidator.new (relay : RlnRelay Fr) (epochSizeSecs : UInt64) : RlnValidator Fr where
  relay := relay
  epochSizeSecs := if epochSizeSecs = 0 then 1 else epochSizeSecs
  epoch_pos := by
    split
    case isTrue => exact Nat.one_pos
    case isFalse h => exact Nat.pos_of_ne_zero fun h0 => h (UInt64.toNat_inj.mp h0)

def RlnValidator.epochAt (v : RlnValidator Fr) (nowSecs : UInt64) : UInt64 :=
  nowSecs / v.epochSizeSecs

def RlnValidator.InWindow (zk : Zerokit Fr Zk) (v : RlnValidator Fr) (proof : RlnProof Fr Zk)
    (nowSecs : UInt64) : Prop :=
  proof.externalNullifier = v.relay.externalNullifier zk (v.epochAt nowSecs) ∨
    0 < v.epochAt nowSecs ∧
      proof.externalNullifier = v.relay.externalNullifier zk (v.epochAt nowSecs - 1)

instance (zk : Zerokit Fr Zk) (v : RlnValidator Fr) (proof : RlnProof Fr Zk) (nowSecs : UInt64) :
    Decidable (v.InWindow zk proof nowSecs) :=
  inferInstanceAs (Decidable (_ ∨ _))

/-- Only a detected double signal is flagged; an error of the log is not. -/
def RlnValidator.verifyInbound (zk : Zerokit Fr Zk) (v : RlnValidator Fr) (proof : RlnProof Fr Zk)
    (signal : List UInt8) (nowSecs : UInt64) : RlnValidator Fr × InboundVerdict :=
  if proof.share.1 ≠ zk.hashToFieldLe signal then (v, .invalid)
  else if v.relay.verify zk proof = false then (v, .invalid)
  else if ¬v.InWindow zk proof nowSecs then (v, .invalid)
  else
    let (log, outcome) := v.log.observe zk proof
    match outcome with
    | .ok (.doubleSignaling _) => ({ v with log }, .valid true)
    | _ => ({ v with log }, .valid false)

end RsWaku
