import RsWaku.Bytes
import RsWaku.Sha256
import RsWaku.Wire

/-! The Waku message, its deterministic hash and the functions of other crates that
both rest on. -/
namespace RsWaku
open Bytes

/-- The wire type of 14/WAKU2-MESSAGE; the pubsub topic is not part of it. -/
structure WakuMessage where
  payload : List UInt8 := []
  contentTopic : String := ""
  version : Option UInt32 := none
  timestamp : Option Int64 := none
  metadata : Option (List UInt8) := none
  rateLimitProof : Option (List UInt8) := none
  ephemeral : Option Bool := none
deriving DecidableEq

structure MessageHash where
  bytes : List UInt8
  size : bytes.length = 32
deriving DecidableEq

theorem MessageHash.bytes_inj {g h : MessageHash} (e : g.bytes = h.bytes) : g = h := by
  cases g
  cases h
  cases e
  rfl

def MessageHash.ofBytes (b : List UInt8) : Option MessageHash :=
  if h : b.length = 32 then some ⟨b, h⟩ else none

theorem MessageHash.ofBytes_eq_some {b : List UInt8} {h : MessageHash} :
    MessageHash.ofBytes b = some h ↔ h.bytes = b := by
  constructor
  · intro e
    unfold MessageHash.ofBytes at e
    split at e
    · cases e; rfl
    · cases e
  · intro e
    subst e
    simp [MessageHash.ofBytes, h.size]

/-- What the node calls in `sha2` and in the codec that `prost` derives for `WakuMessage`. -/
structure Crates where
  sha256 : List UInt8 → MessageHash
  encode : WakuMessage → List UInt8
  decode : List UInt8 → Option WakuMessage

/-- The bytes fed to the hasher: absent fields contribute nothing and no field is delimited. -/
def hashPreimage (pubsubTopic : String) (msg : WakuMessage) : List UInt8 :=
  asBytes pubsubTopic ++ msg.payload ++ asBytes msg.contentTopic ++ msg.metadata.getD [] ++
    (msg.timestamp.map toBeBytes).getD []

def deterministicHash (crates : Crates) (pubsubTopic : String) (msg : WakuMessage) : MessageHash :=
  crates.sha256 (hashPreimage pubsubTopic msg)

/-- The fields prost writes, in tag order; the two plain fields are left out when empty. -/
def WakuMessage.toFields (m : WakuMessage) : List Wire.Field :=
  (if m.payload = [] then [] else [⟨1, .len m.payload⟩]) ++
  (if m.contentTopic = "" then [] else [⟨2, .len (asBytes m.contentTopic)⟩]) ++
  (m.version.map fun v => ⟨3, .varint v.toNat⟩).toList ++
  (m.timestamp.map fun t => ⟨10, .varint t.toUInt64.toNat⟩).toList ++
  (m.metadata.map fun b => ⟨11, .len b⟩).toList ++
  (m.rateLimitProof.map fun b => ⟨21, .len b⟩).toList ++
  (m.ephemeral.map fun b => ⟨31, .varint b.toNat⟩).toList

def WakuMessage.mergeField (m : WakuMessage) (f : Wire.Field) : Option WakuMessage :=
  match f.tag, f.value with
  | 1, .len b => some { m with payload := b }
  | 2, .len b => (String.fromUTF8? ⟨b.toArray⟩).map fun s => { m with contentTopic := s }
  | 3, .varint v => some { m with version := some (UInt32.ofNat v) }
  | 10, .varint v => some { m with timestamp := some (UInt64.ofNat v).toInt64 }
  | 11, .len b => some { m with metadata := some b }
  | 21, .len b => some { m with rateLimitProof := some b }
  | 31, .varint v => some { m with ephemeral := some (v != 0) }
  | tag, _ => if tag ∈ [1, 2, 3, 10, 11, 21, 31] then none else some m

def WakuMessage.ofFields (fs : List Wire.Field) : Option WakuMessage :=
  fs.foldlM WakuMessage.mergeField {}

/-- The crates as they are: SHA-256 of FIPS 180-4 and the protobuf encoding of the message. -/
def Crates.standard : Crates where
  sha256 b := ⟨Sha256.digest b, Sha256.digest_length b⟩
  encode m := Wire.encodeFields m.toFields
  decode b := (Wire.decodeFields b).bind WakuMessage.ofFields

def WakuMessage.Sized (m : WakuMessage) : Prop :=
  m.payload.length < 2 ^ 64 ∧ (asBytes m.contentTopic).length < 2 ^ 64 ∧
    (∀ b ∈ m.metadata, b.length < 2 ^ 64) ∧ (∀ b ∈ m.rateLimitProof, b.length < 2 ^ 64)

theorem fromUTF8_asBytes (s : String) : String.fromUTF8? ⟨(asBytes s).toArray⟩ = some s := by
  have hb : (⟨(asBytes s).toArray⟩ : ByteArray) = s.toUTF8 := by simp [asBytes]
  rw [hb, String.fromUTF8?, String.toUTF8_eq_toByteArray, dif_pos s.isValidUTF8]
  rfl

theorem WakuMessage.toFields_wellFormed (m : WakuMessage) (h : m.Sized) :
    ∀ f ∈ m.toFields, f.WellFormed := by
  obtain ⟨hp, hc, hm, hr⟩ := h
  have hfield : ∀ tag v, 1 ≤ tag ∧ tag ≤ 31 → v.WellFormed → Wire.Field.WellFormed ⟨tag, v⟩ :=
    fun tag v htag hv => ⟨htag.1, Nat.lt_of_le_of_lt htag.2 (by decide), hv⟩
  intro f hf
  simp only [WakuMessage.toFields, List.mem_append, or_assoc] at hf
  obtain hf | hf | hf | hf | hf | hf | hf := hf
  · split at hf
    · cases hf
    · cases List.mem_singleton.mp hf
      exact hfield 1 _ (by decide) hp
  · split at hf
    · cases hf
    · cases List.mem_singleton.mp hf
      exact hfield 2 _ (by decide) hc
  · obtain ⟨v, _, rfl⟩ := Option.map_eq_some_iff.mp (Option.mem_toList.mp hf)
    exact hfield 3 _ (by decide) (Nat.lt_trans v.toNat_lt (by decide))
  · obtain ⟨t, _, rfl⟩ := Option.map_eq_some_iff.mp (Option.mem_toList.mp hf)
    exact hfield 10 _ (by decide) t.toUInt64.toNat_lt
  · obtain ⟨b, hb, rfl⟩ := Option.map_eq_some_iff.mp (Option.mem_toList.mp hf)
    exact hfield 11 _ (by decide) (hm b hb)
  · obtain ⟨b, hb, rfl⟩ := Option.map_eq_some_iff.mp (Option.mem_toList.mp hf)
    exact hfield 21 _ (by decide) (hr b hb)
  · obtain ⟨b, _, rfl⟩ := Option.map_eq_some_iff.mp (Option.mem_toList.mp hf)
    exact hfield 31 _ (by decide) (Nat.lt_trans b.toNat_lt (by decide))

theorem WakuMessage.ofFields_toFields (m : WakuMessage) :
    WakuMessage.ofFields m.toFields = some m := by
  obtain ⟨payload, topic, version, timestamp, metadata, proof, ephemeral⟩ := m
  have h1 : List.foldlM WakuMessage.mergeField {}
      (if payload = [] then [] else [⟨1, .len payload⟩]) = some { payload } := by
    split <;> simp_all [WakuMessage.mergeField]
  have h2 : List.foldlM WakuMessage.mergeField { payload }
      (if topic = "" then [] else [⟨2, .len (asBytes topic)⟩]) =
        some { payload, contentTopic := topic } := by
    split <;> simp_all [WakuMessage.mergeField, fromUTF8_asBytes]
  have h3 : List.foldlM WakuMessage.mergeField { payload, contentTopic := topic }
      (version.map fun v => ⟨3, .varint v.toNat⟩).toList =
        some { payload, contentTopic := topic, version } := by
    cases version <;> simp [WakuMessage.mergeField]
  have h4 : List.foldlM WakuMessage.mergeField { payload, contentTopic := topic, version }
      (timestamp.map fun t => ⟨10, .varint t.toUInt64.toNat⟩).toList =
        some { payload, contentTopic := topic, version, timestamp } := by
    cases timestamp <;> simp [WakuMessage.mergeField]
  have h5 : List.foldlM WakuMessage.mergeField
      { payload, contentTopic := topic, version, timestamp }
      (metadata.map fun b => ⟨11, .len b⟩).toList =
        some { payload, contentTopic := topic, version, timestamp, metadata } := by
    cases metadata <;> simp [WakuMessage.mergeField]
  have h6 : List.foldlM WakuMessage.mergeField
      { payload, contentTopic := topic, version, timestamp, metadata }
      (proof.map fun b => ⟨21, .len b⟩).toList =
        some { payload, contentTopic := topic, version, timestamp, metadata,
               rateLimitProof := proof } := by
    cases proof <;> simp [WakuMessage.mergeField]
  have h7 : List.foldlM WakuMessage.mergeField
      { payload, contentTopic := topic, version, timestamp, metadata, rateLimitProof := proof }
      (ephemeral.map fun b => ⟨31, .varint b.toNat⟩).toList =
        some ⟨payload, topic, version, timestamp, metadata, proof, ephemeral⟩ := by
    cases ephemeral with
    | none => rfl
    | some b => cases b <;> rfl
  simp only [WakuMessage.ofFields, WakuMessage.toFields, List.foldlM_append, h1, h2, h3, h4, h5,
    h6, h7, Option.bind_eq_bind, Option.bind_some]

theorem Crates.standard_decode_encode (m : WakuMessage) (h : m.Sized) :
    Crates.standard.decode (Crates.standard.encode m) = some m := by
  simp only [Crates.standard, Wire.decodeFields_encodeFields _ (m.toFields_wellFormed h)]
  exact m.ofFields_toFields

theorem Crates.standard_payload_le (m : WakuMessage) :
    m.payload.length ≤ (Crates.standard.encode m).length := by
  by_cases hp : m.payload = []
  · simp [hp]
  · simp only [Crates.standard, WakuMessage.toFields, if_neg hp, Wire.encodeFields,
      List.flatMap_append, List.length_append, List.flatMap_cons, Wire.encodeField,
      Wire.Value.encode]
    omega

theorem Crates.standard_decode_undefined (b : UInt8) (rest : List UInt8) (hb : b.toNat < 128)
    (hw : 6 ≤ b.toNat % 8) : Crates.standard.decode (b :: rest) = none := by
  simp only [Crates.standard, Wire.decodeFields_undefined_wireType b rest hb hw, Option.bind_none]

end RsWaku
