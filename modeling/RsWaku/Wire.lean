import Mathlib.Tactic.Ring

/-! The protobuf wire format: base-128 varints, field keys and the decoding loop,
with the round trip of every list of well-formed fields. -/
namespace RsWaku.Wire

def varintDigits : Nat → Nat → List UInt8
  | 0, _ => []
  | n+1, v => if v < 128 then [UInt8.ofNat v] else
      UInt8.ofNat (v % 128 + 128) :: varintDigits n (v / 128)

def encodeVarint (v : Nat) : List UInt8 := varintDigits 10 v

/-- Read a varint of at most `left` bytes. The tenth byte carries one bit only. -/
def varintFrom : Nat → List UInt8 → Option (Nat × List UInt8)
  | 0, _ => none
  | _+1, [] => none
  | left+1, b :: rest =>
    if b.toNat < 128 then
      if left = 0 ∧ 2 ≤ b.toNat then none else some (b.toNat, rest)
    else (varintFrom left rest).map fun (v, r) => (b.toNat - 128 + 128 * v, r)

def decodeVarint (bytes : List UInt8) : Option (Nat × List UInt8) := varintFrom 10 bytes

theorem varintFrom_digits (k v : Nat) (rest : List UInt8) (h : v < 2 ^ (7 * k + 1)) :
    varintFrom (k+1) (varintDigits (k+1) v ++ rest) = some (v, rest) := by
  induction k generalizing v with
  | zero =>
    have hv : v < 2 := by simpa using h
    have hn : (UInt8.ofNat v).toNat = v := by rw [UInt8.toNat_ofNat']; omega
    have hsmall : v < 128 := by omega
    have hbit : ¬2 ≤ v := by omega
    simp [varintDigits, hsmall, varintFrom, hn, hbit]
  | succ k ih =>
    rw [varintDigits]
    by_cases hs : v < 128
    · have hn : (UInt8.ofNat v).toNat = v := by rw [UInt8.toNat_ofNat']; omega
      simp [hs, varintFrom, hn]
    · have hn : (UInt8.ofNat (v % 128 + 128)).toNat = v % 128 + 128 := by
        rw [UInt8.toNat_ofNat']; omega
      have hd : v / 128 < 2 ^ (7 * k + 1) := by
        have hp : 2 ^ (7 * (k+1) + 1) = 2 ^ (7 * k + 1) * 128 := by ring
        rw [hp] at h
        omega
      simp only [if_neg hs, List.cons_append, varintFrom, hn, ih (v / 128) hd, Option.map_some]
      rw [if_neg (by omega)]
      simp only [Option.some.injEq, Prod.mk.injEq, and_true]
      omega

theorem decodeVarint_encodeVarint (v : Nat) (rest : List UInt8) (h : v < 2 ^ 64) :
    decodeVarint (encodeVarint v ++ rest) = some (v, rest) :=
  varintFrom_digits 9 v rest h

/-- The payload of a field. The fields inside a group are skipped, not kept. -/
inductive Value where
  | varint (v : Nat)
  | fixed64 (bytes : List UInt8)
  | len (bytes : List UInt8)
  | fixed32 (bytes : List UInt8)
  | group
deriving DecidableEq

structure Field where
  tag : Nat
  value : Value
deriving DecidableEq

def splitBytes (n : Nat) (bytes : List UInt8) : Option (List UInt8 × List UInt8) :=
  if n ≤ bytes.length then some (bytes.take n, bytes.drop n) else none

/-- Field number and wire type; the key must fit 32 bits, the number be positive and
the wire type be one of the six that the format defines. -/
def decodeKey (bytes : List UInt8) : Option ((Nat × Nat) × List UInt8) :=
  match decodeVarint bytes with
  | none => none
  | some (key, rest) =>
    if key < 2 ^ 32 ∧ 1 ≤ key / 8 ∧ key % 8 ≤ 5 then some ((key / 8, key % 8), rest) else none

mutual
def decodeValue : Nat → Nat → Nat → Nat → List UInt8 → Option (Value × List UInt8)
  | _, _, _, 0, bytes => (decodeVarint bytes).map fun (v, r) => (.varint v, r)
  | _, _, _, 1, bytes => (splitBytes 8 bytes).map fun (v, r) => (.fixed64 v, r)
  | _, _, _, 2, bytes =>
    match decodeVarint bytes with
    | none => none
    | some (n, rest) => (splitBytes n rest).map fun (v, r) => (.len v, r)
  | 0, _, _, 3, _ => none
  | fuel+1, depth, tag, 3, bytes => (skipGroup fuel depth tag bytes).map fun r => (.group, r)
  | _, _, _, 5, bytes => (splitBytes 4 bytes).map fun (v, r) => (.fixed32 v, r)
  | _, _, _, _, _ => none

def skipGroup : Nat → Nat → Nat → List UInt8 → Option (List UInt8)
  | 0, _, _, _ => none
  | fuel+1, depth, tag, bytes =>
    match decodeKey bytes with
    | none => none
    | some ((inner, wireType), rest) =>
      if wireType = 4 then if inner = tag then some rest else none
      else if depth ≤ 1 then none
      else match decodeValue fuel (depth - 1) inner wireType rest with
        | none => none
        | some (_, rest') => skipGroup fuel depth tag rest'
end

def recursionLimit : Nat := 100

def decodeField (bytes : List UInt8) : Option (Field × List UInt8) :=
  match decodeKey bytes with
  | none => none
  | some ((tag, wireType), rest) =>
    (decodeValue bytes.length recursionLimit tag wireType rest).map fun (v, r) => (⟨tag, v⟩, r)

/-- The decoding loop: fields until the buffer is empty. Every field takes a byte, so
the length of the buffer is enough fuel. -/
def decodeFieldsFrom : Nat → List UInt8 → Option (List Field)
  | _, [] => some []
  | 0, _ :: _ => none
  | fuel+1, b :: bytes =>
    match decodeField (b :: bytes) with
    | none => none
    | some (f, rest) => (decodeFieldsFrom fuel rest).map (f :: ·)

def decodeFields (bytes : List UInt8) : Option (List Field) := decodeFieldsFrom bytes.length bytes

def Value.wireType : Value → Nat
  | .varint _ => 0
  | .fixed64 _ => 1
  | .len _ => 2
  | .group => 3
  | .fixed32 _ => 5

def Value.encode : Value → List UInt8
  | .varint v => encodeVarint v
  | .fixed64 bytes => bytes
  | .len bytes => encodeVarint bytes.length ++ bytes
  | .group => []
  | .fixed32 bytes => bytes

def encodeField (f : Field) : List UInt8 :=
  encodeVarint (f.tag * 8 + f.value.wireType) ++ f.value.encode

def encodeFields (fs : List Field) : List UInt8 := fs.flatMap encodeField

def Value.WellFormed : Value → Prop
  | .varint v => v < 2 ^ 64
  | .fixed64 bytes => bytes.length = 8
  | .len bytes => bytes.length < 2 ^ 64
  | .group => False
  | .fixed32 bytes => bytes.length = 4

def Field.WellFormed (f : Field) : Prop := 1 ≤ f.tag ∧ f.tag < 2 ^ 29 ∧ f.value.WellFormed

theorem splitBytes_append (bytes rest : List UInt8) :
    splitBytes bytes.length (bytes ++ rest) = some (bytes, rest) := by
  simp [splitBytes]

theorem Value.wireType_le (v : Value) : v.wireType ≤ 5 := by
  cases v <;> simp [Value.wireType]

theorem decodeKey_encode (tag : Nat) (v : Value) (rest : List UInt8)
    (h1 : 1 ≤ tag) (h2 : tag < 2 ^ 29) :
    decodeKey (encodeVarint (tag * 8 + v.wireType) ++ rest) = some ((tag, v.wireType), rest) := by
  have hw := v.wireType_le
  rw [decodeKey, decodeVarint_encodeVarint _ _ (by omega)]
  simp only
  rw [if_pos (by omega)]
  simp only [Option.some.injEq, Prod.mk.injEq, and_true]
  omega

theorem decodeValue_encode (fuel depth tag : Nat) (v : Value) (rest : List UInt8)
    (h : v.WellFormed) :
    decodeValue fuel depth tag v.wireType (v.encode ++ rest) = some (v, rest) := by
  cases v with
  | varint n => simp [Value.wireType, Value.encode, decodeValue, decodeVarint_encodeVarint n rest h]
  | fixed64 bytes =>
    have hs := splitBytes_append bytes rest
    rw [Value.WellFormed] at h
    rw [h] at hs
    simp [Value.wireType, Value.encode, decodeValue, hs]
  | len bytes =>
    have hv := decodeVarint_encodeVarint bytes.length (bytes ++ rest) h
    simp [Value.wireType, Value.encode, decodeValue, hv, splitBytes_append]
  | fixed32 bytes =>
    have hs := splitBytes_append bytes rest
    rw [Value.WellFormed] at h
    rw [h] at hs
    simp [Value.wireType, Value.encode, decodeValue, hs]
  | group => exact False.elim h

theorem decodeField_encodeField (f : Field) (rest : List UInt8) (h : f.WellFormed) :
    decodeField (encodeField f ++ rest) = some (f, rest) := by
  obtain ⟨h1, h2, hv⟩ := h
  rw [decodeField, encodeField, List.append_assoc, decodeKey_encode f.tag f.value _ h1 h2]
  simp only [decodeValue_encode _ _ _ _ _ hv, Option.map_some]

theorem encodeVarint_ne_nil (v : Nat) : encodeVarint v ≠ [] := by
  rw [encodeVarint, varintDigits]
  split <;> simp

theorem encodeField_length_pos (f : Field) : 0 < (encodeField f).length := by
  rw [encodeField, List.length_append]
  have := List.length_pos_iff.mpr (encodeVarint_ne_nil (f.tag * 8 + f.value.wireType))
  omega

theorem decodeFieldsFrom_encode (fs : List Field) (fuel : Nat) (h : ∀ f ∈ fs, f.WellFormed)
    (hfuel : (encodeFields fs).length ≤ fuel) :
    decodeFieldsFrom fuel (encodeFields fs) = some fs := by
  induction fs generalizing fuel with
  | nil => simp [encodeFields, decodeFieldsFrom]
  | cons f fs ih =>
    have hpos := encodeField_length_pos f
    have hf := decodeField_encodeField f (encodeFields fs) (h f (by simp))
    have he : encodeFields (f :: fs) = encodeField f ++ encodeFields fs := rfl
    rw [he, List.length_append] at hfuel
    rw [he]
    obtain ⟨fuel', rfl⟩ : ∃ n, fuel = n+1 := ⟨fuel - 1, by omega⟩
    cases hb : encodeField f ++ encodeFields fs with
    | nil =>
      have := congrArg List.length hb
      simp only [List.length_append, List.length_nil] at this
      omega
    | cons b bytes =>
      rw [hb] at hf
      simp only [decodeFieldsFrom, hf, ih fuel' (fun g hg => h g (by simp [hg])) (by omega),
        Option.map_some]

theorem decodeFields_encodeFields (fs : List Field) (h : ∀ f ∈ fs, f.WellFormed) :
    decodeFields (encodeFields fs) = some fs :=
  decodeFieldsFrom_encode fs _ h (Nat.le_refl _)

theorem decodeFields_undefined_wireType (b : UInt8) (rest : List UInt8)
    (hb : b.toNat < 128) (hw : 6 ≤ b.toNat % 8) : decodeFields (b :: rest) = none := by
  have hk : decodeKey (b :: rest) = none := by
    simp only [decodeKey, decodeVarint, varintFrom, if_pos hb]
    rw [if_neg (by omega)]
    simp only
    rw [if_neg (by omega)]
  simp [decodeFields, decodeFieldsFrom, decodeField, hk]

end RsWaku.Wire
