import RsWaku.Protobuf

/-! The scalar encodings of protobuf beyond the unsigned varint: packed lists of numbers, signed
numbers in zigzag order and in two's complement. -/
namespace RsWaku.Protobuf
open Wire
variable {α β : Type}

/-- Decoding undoes encoding for the values of a schema that fit the address space. -/
def Schema.Lawful (s : Schema α) : Prop :=
  ∀ a, (s.encode a).length < 2 ^ 64 → s.decode (s.encode a) = some a

def pack (vs : List Nat) : List UInt8 := vs.flatMap encodeVarint

/-- Varints until the buffer is empty. Each takes a byte, so the length is enough fuel. -/
def unpackFrom : Nat → List UInt8 → Option (List Nat)
  | _, [] => some []
  | 0, _ :: _ => none
  | fuel+1, b :: bytes =>
    match decodeVarint (b :: bytes) with
    | none => none
    | some (v, rest) => (unpackFrom fuel rest).map (v :: ·)

def unpack (bytes : List UInt8) : Option (List Nat) := unpackFrom bytes.length bytes

theorem unpackFrom_pack (vs : List Nat) (fuel : Nat) (h : ∀ v ∈ vs, v < 2 ^ 64)
    (hfuel : (pack vs).length ≤ fuel) : unpackFrom fuel (pack vs) = some vs := by
  induction vs generalizing fuel with
  | nil => simp [pack, unpackFrom]
  | cons v vs ih =>
    have hpos := List.length_pos_iff.mpr (encodeVarint_ne_nil v)
    have hv := decodeVarint_encodeVarint v (pack vs) (h v List.mem_cons_self)
    have hpack : pack (v :: vs) = encodeVarint v ++ pack vs := rfl
    rw [hpack, List.length_append] at hfuel
    obtain ⟨fuel', rfl⟩ : ∃ n, fuel = n + 1 := ⟨fuel - 1, by omega⟩
    have hrest := ih fuel' (fun w hw => h w (List.mem_cons_of_mem v hw)) (by omega)
    rw [hpack]
    cases hbytes : encodeVarint v ++ pack vs with
    | nil =>
      have hlen := congrArg List.length hbytes
      rw [List.length_append, List.length_nil] at hlen
      omega
    | cons b bytes =>
      rw [hbytes] at hv
      simp only [unpackFrom, hv, hrest, Option.map_some]

theorem unpack_pack {vs : List Nat} (h : ∀ v ∈ vs, v < 2 ^ 64) : unpack (pack vs) = some vs :=
  unpackFrom_pack vs _ h (Nat.le_refl _)

def packed (tag : Nat) (number : β → Nat) (xs : List β) : List Field :=
  if xs.isEmpty then [] else [⟨tag, .len (pack (xs.map number))⟩]

theorem merges_packed (s : Schema α) {tag : Nat} {number : β → Nat} {xs : List β}
    (hold : List β → α)
    (h : s.merge (hold []) ⟨tag, .len (pack (xs.map number))⟩ = some (hold xs)) :
    s.Merges (packed tag number xs) (hold []) (hold xs) := by
  cases xs with
  | nil => rfl
  | cons x xs => exact merges_singleton.mpr h

theorem written_packed {tag : Nat} (htag : 1 ≤ tag ∧ tag < 2 ^ 29) (number : β → Nat)
    (xs : List β) : ∀ f ∈ packed tag number xs, Written f := by
  intro f hf
  rw [packed] at hf
  split at hf
  · cases hf
  · cases List.mem_singleton.mp hf
    exact written_len htag _

/-- `((value << 1) ^ (value >> 63)) as u64`. -/
def zigzag (n : Int64) : UInt64 := ((n <<< 1) ^^^ (n >>> 63)).toUInt64

/-- `((value >> 1) as i64) ^ (-((value & 1) as i64))`. -/
def unzigzag (v : UInt64) : Int64 := (v >>> 1).toInt64 ^^^ (-(v &&& 1).toInt64)

theorem sshiftRight_sign {k : Nat} (w : BitVec (k + 1)) :
    w.sshiftRight k = if w.msb then BitVec.allOnes (k + 1) else 0#(k + 1) := by
  apply BitVec.eq_of_getLsbD_eq
  intro i hi
  have hbit : (if k + i < k + 1 then w.getLsbD (k + i) else w.msb) = w.msb := by
    split
    · rw [BitVec.msb_eq_getLsbD_last, show k + i = k + 1 - 1 by omega]
    · rfl
  rw [BitVec.getLsbD_sshiftRight, hbit]
  cases w.msb with
  | false => simp
  | true =>
    have hin : ¬k + 1 ≤ i := by omega
    rw [if_pos rfl, BitVec.getLsbD_allOnes, decide_eq_true hi, decide_eq_false hin]
    rfl

theorem unzigzag_zigzag_bits {k : Nat} (w : BitVec (k + 1)) :
    (w <<< 1 ^^^ w.sshiftRight k) >>> 1 ^^^ -((w <<< 1 ^^^ w.sshiftRight k) &&& 1#(k + 1)) = w := by
  have hlow : (w <<< 1 ^^^ w.sshiftRight k) &&& 1#(k + 1) =
      if w.msb then 1#(k + 1) else 0#(k + 1) := by
    apply BitVec.eq_of_getLsbD_eq
    intro i hi
    rw [sshiftRight_sign]
    cases w.msb <;> cases i <;> simp [BitVec.getLsbD_one]
  rw [hlow, sshiftRight_sign]
  apply BitVec.eq_of_getLsbD_eq
  intro i hi
  -- the last bit is the sign, the others are shifted out and back
  by_cases hlast : i = k
  · have hsign : w.getLsbD i = w.msb := by
      rw [hlast]
      exact (BitVec.msb_eq_getLsbD_last w).symm
    rw [hsign, hlast]
    cases w.msb <;> simp [BitVec.neg_one_eq_allOnes, Nat.add_comm 1 k]
  · have hin : 1 + i < k + 1 := by omega
    cases w.msb <;> simp [BitVec.neg_one_eq_allOnes, hin, hi]

theorem unzigzag_zigzag (n : Int64) : unzigzag (zigzag n) = n := by
  apply Int64.toBitVec_inj.mp
  simpa [unzigzag, zigzag] using unzigzag_zigzag_bits n.toBitVec

def signed (n : Int32) : Nat := n.toInt64.toUInt64.toNat

def unsigned (v : Nat) : Int32 := (UInt64.ofNat v).toInt64.toInt32

theorem unsigned_signed (n : Int32) : unsigned (signed n) = n := by
  rw [unsigned, signed, UInt64.ofNat_toNat]
  simp

end RsWaku.Protobuf
