import Mathlib.Data.List.Basic
import RsWaku.Message

/-! The relay layer: shard topics, the gossipsub message id and the validation policy. -/
namespace RsWaku
open Bytes

def maxMessageSize : Nat := 150 * 1024

structure ShardId where
  clusterId : UInt16
  shard : UInt16
deriving DecidableEq

def ShardId.pubsubTopic (s : ShardId) : String :=
  "/waku/2/rs/" ++ toString s.clusterId ++ "/" ++ toString s.shard

inductive CoreError where
  | invalidContentTopic (topic : String)
  | invalidPubsubTopic (topic : String)
deriving DecidableEq

def splitOnce (sep : Char) : List Char → Option (List Char × List Char)
  | [] => none
  | c :: cs => if c = sep then some ([], cs) else (splitOnce sep cs).map fun ab => (c :: ab.1, ab.2)

/-- `u16::from_str`: at least one decimal digit after an optional plus sign. -/
def parseU16 (cs : List Char) : Option UInt16 :=
  let digits := match cs with
    | '+' :: rest => rest
    | _ => cs
  if digits ≠ [] ∧ digits.all Char.isDigit ∧ Nat.ofDigitChars 10 digits 0 < 65536 then
    some (UInt16.ofNat (Nat.ofDigitChars 10 digits 0))
  else none

def ShardId.parse (topic : String) : Except CoreError ShardId :=
  match topic.toList.dropPrefix? "/waku/2/rs/".toList with
  | none => .error (.invalidPubsubTopic topic)
  | some rest =>
    match splitOnce '/' rest with
    | none => .error (.invalidPubsubTopic topic)
    | some (c, s) =>
      match parseU16 c, parseU16 s with
      | some clusterId, some shard => .ok ⟨clusterId, shard⟩
      | _, _ => .error (.invalidPubsubTopic topic)

/-- The gossipsub message id; a payload that does not decode is hashed as it is. -/
def wakuMessageId (crates : Crates) (topic : String) (data : List UInt8) : List UInt8 :=
  match crates.decode data with
  | some msg => (deterministicHash crates topic msg).bytes
  | none => (crates.sha256 data).bytes

inductive Validation where
  | accept | reject | ignore
deriving DecidableEq

inductive RlnStatus where
  | absent
  | valid (epochGapSecs : Int64) (doubleSignaling : Bool)
  | invalid

structure MessageFacts where
  timestampGapSecs : Option Int64
  rln : RlnStatus
  shardSaturated : Bool

structure ValidationPolicy where
  enforceRln : Bool := false
  timestampToleranceSecs : Int64 := 20
  maxEpochGapSecs : Int64 := 20

def validate (facts : MessageFacts) (policy : ValidationPolicy) : Validation :=
  if ∃ gap ∈ facts.timestampGapSecs, policy.timestampToleranceSecs < gap.abs then .reject
  else if !policy.enforceRln then .accept
  else match facts.rln with
    | .absent => if facts.shardSaturated then .ignore else .accept
    | .invalid => .reject
    | .valid epochGapSecs doubleSignaling =>
      if policy.maxEpochGapSecs < epochGapSecs.abs ∨ doubleSignaling then .reject else .accept

end RsWaku
