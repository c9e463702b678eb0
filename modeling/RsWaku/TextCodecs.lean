import RsWaku.BaseN
import RsWaku.Control

/-! Byte strings as text: strict decoders accept nothing but what the encoder writes. Base 64 with
padding and hexadecimal, which is read in both cases. -/
namespace RsWaku.BaseN
open Bytes

section Lawful
variable {e : Encoding} (h : e.Lawful)
include h

theorem Encoding.Lawful.symbol_idxOf {b : UInt8} (hb : b ∈ e.symbols) :
    e.symbols.idxOf b < 2 ^ e.bit ∧ e.symbols.getD (e.symbols.idxOf b) 0 = b := by
  have hlt := List.idxOf_lt_length_of_mem hb
  refine ⟨h.count ▸ hlt, ?_⟩
  rw [List.getD_eq_getElem _ _ hlt]
  exact List.getElem_idxOf hlt

theorem Encoding.Lawful.map_idxOf {input : List UInt8}
    (hinput : input.findIdx? (· ∉ e.symbols) = none) :
    (∀ d ∈ input.map fun b => e.symbols.idxOf b, d < 2 ^ e.bit) ∧
      ((input.map fun b => e.symbols.idxOf b).map fun d => e.symbols.getD d 0) = input := by
  have hmem : ∀ b ∈ input, b ∈ e.symbols := by
    intro b hb
    simpa using List.findIdx?_eq_none_iff.mp hinput b hb
  constructor
  · intro d hd
    obtain ⟨b, hb, rfl⟩ := List.mem_map.mp hd
    exact (h.symbol_idxOf (hmem b hb)).1
  · rw [List.map_map]
    exact (List.map_congr_left fun b hb => (h.symbol_idxOf (hmem b hb)).2).trans (List.map_id input)

theorem Encoding.Lawful.encodedLength_of_trail {n : Nat} (htrail : e.bit * n % 8 < e.bit) :
    e.encodedLength (e.bit * n / 8) = n := by
  have hbits := Nat.div_add_mod (e.bit * n) 8
  have hsum : 8 * (e.bit * n / 8) + e.bit - 1 = e.bit * n + (e.bit - 1 - e.bit * n % 8) := by omega
  rw [Encoding.encodedLength, hsum, Nat.mul_add_div h.bit_pos, Nat.div_eq_of_lt (by omega),
    Nat.add_zero]

theorem Encoding.Lawful.encode_digits {ds : List Nat} (hds : ∀ d ∈ ds, d < 2 ^ e.bit)
    (htrail : e.bit * ds.length % 8 < e.bit)
    (hdvd : 2 ^ (e.bit * ds.length % 8) ∣ number (2 ^ e.bit) ds) :
    asBytes (e.encode ((digits 256 (e.bit * ds.length / 8)
      (number (2 ^ e.bit) ds / 2 ^ (e.bit * ds.length % 8))).map UInt8.ofNat)) =
        ds.map fun d => e.symbols.getD d 0 := by
  have hlength := h.encodedLength_of_trail htrail
  have hbits := Nat.div_add_mod (e.bit * ds.length) 8
  have hvalue := number_lt ds hds
  have hdigits := digits_number ds hds
  generalize number (2 ^ e.bit) ds = value at hdvd hvalue hdigits
  generalize e.bit * ds.length % 8 = trail at hdvd hbits
  generalize e.bit * ds.length / 8 = m at hlength hbits
  have hsmall : value / 2 ^ trail < 256 ^ m := by
    refine Nat.div_lt_of_lt_mul (hvalue.trans_eq ?_)
    rw [← Nat.pow_mul, ← hbits, Nat.add_comm, Nat.pow_add, Nat.pow_mul 2 8 m]
  have hbytes : ((digits 256 m (value / 2 ^ trail)).map UInt8.ofNat).map UInt8.toNat =
      digits 256 m (value / 2 ^ trail) := by
    rw [List.map_map]
    refine (List.map_congr_left fun d hd => ?_).trans (List.map_id _)
    exact UInt8.toNat_ofNat_of_lt' (digits_lt (by decide) d hd)
  have hzeros : e.bit * ds.length - 8 * m = trail := by omega
  rw [Encoding.encode, hbytes, number_digits hsmall, List.length_map, digits_length, hlength,
    hzeros, Nat.div_mul_cancel hdvd, hdigits, h.asBytes_symbols hds]

theorem Encoding.Lawful.asBytes_encode (bytes : List UInt8) :
    (asBytes (e.encode bytes)).length = e.encodedLength bytes.length ∧
      ∀ b ∈ asBytes (e.encode bytes), b ∈ e.symbols := by
  rw [Encoding.encode, h.asBytes_symbols (digits_lt (Nat.two_pow_pos e.bit))]
  refine ⟨by rw [List.length_map, digits_length], fun b hb => ?_⟩
  obtain ⟨d, hd, rfl⟩ := List.mem_map.mp hb
  exact h.symbol_mem (digits_lt (Nat.two_pow_pos e.bit) d hd)

theorem Encoding.Lawful.encode_of_decode {input bytes : List UInt8}
    (hdecode : e.decode input = .ok bytes) : asBytes (e.encode bytes) = input := by
  rw [Encoding.decode] at hdecode
  dsimp only at hdecode
  split at hdecode
  case isTrue => cases hdecode
  case isFalse htrail =>
    split at hdecode
    case h_1 => cases hdecode
    case h_2 hinput =>
      split at hdecode
      case isTrue => cases hdecode
      case isFalse hzero =>
        obtain ⟨hds, hsymbols⟩ := h.map_idxOf hinput
        have htrail := Nat.lt_of_div_eq_zero h.bit_pos (not_not.mp htrail)
        have hdvd := Nat.dvd_of_mod_eq_zero (not_not.mp hzero)
        cases hdecode
        rw [← List.length_map (fun b => e.symbols.idxOf b)] at htrail hdvd ⊢
        exact (h.encode_digits hds htrail hdvd).trans hsymbols

end Lawful

def base64 : Encoding where
  bit := 6
  symbols := "ABCDEFGHIJKLMNOPQRSTUVWXYZabcdefghijklmnopqrstuvwxyz0123456789+/".toUTF8.data.toList

def base16 : Encoding where
  bit := 4
  symbols := "0123456789abcdef".toUTF8.data.toList

theorem base64_lawful : base64.Lawful :=
  ⟨by decide, by decide, by decide +kernel, by decide +kernel, by decide +kernel⟩

theorem base16_lawful : base16.Lawful :=
  ⟨by decide, by decide, by decide +kernel, by decide +kernel, by decide +kernel⟩

def padding (n : Nat) : Nat := (4 - n % 4) % 4

def encodePadded (bytes : List UInt8) : String :=
  base64.encode bytes ++ String.ofList (List.replicate (padding (base64.encode bytes).length) '=')

def decodePadded (input : List UInt8) : Option (List UInt8) :=
  let body := input.takeWhile (· ≠ 61)
  if input = body ++ List.replicate (padding body.length) 61 then (base64.decode body).toOption
  else none

theorem asBytes_encodePadded (bytes : List UInt8) : asBytes (encodePadded bytes) =
    asBytes (base64.encode bytes) ++
      List.replicate (padding (asBytes (base64.encode bytes)).length) 61 := by
  have hpad (n : Nat) : asBytes (String.ofList (List.replicate n '=')) = List.replicate n 61 := by
    rw [asBytes_ofList]
    induction n with
    | zero => rfl
    | succ n ih =>
      rw [List.replicate_succ, List.flatMap_cons, ih]
      rfl
  rw [encodePadded, asBytes_append, hpad, (base64_lawful.asBytes_encode bytes).1,
    Encoding.encode_length]

theorem takeWhile_encodePadded (bytes : List UInt8) :
    (asBytes (encodePadded bytes)).takeWhile (· ≠ 61) = asBytes (base64.encode bytes) := by
  have hsymbol : ∀ b ∈ base64.symbols, b ≠ 61 := by decide +kernel
  have hbody : ∀ b ∈ asBytes (base64.encode bytes), decide (b ≠ 61) = true := fun b hb =>
    decide_eq_true (hsymbol b ((base64_lawful.asBytes_encode bytes).2 b hb))
  have hrest (n : Nat) : (List.replicate n (61 : UInt8)).takeWhile (· ≠ 61) = [] := by
    cases n <;> rfl
  rw [asBytes_encodePadded, List.takeWhile_append_of_pos hbody, hrest, List.append_nil]

theorem decodePadded_eq_some {input bytes : List UInt8} :
    decodePadded input = some bytes ↔ input = asBytes (encodePadded bytes) := by
  constructor
  · intro h
    rw [decodePadded] at h
    split at h
    case isFalse => cases h
    case isTrue hinput =>
      cases hdecode : base64.decode (input.takeWhile (· ≠ 61)) with
      | error e =>
        rw [hdecode] at h
        cases h
      | ok b =>
        rw [hdecode] at h
        cases h
        rw [asBytes_encodePadded, base64_lawful.encode_of_decode hdecode]
        exact hinput
  · rintro rfl
    rw [decodePadded, takeWhile_encodePadded, if_pos (asBytes_encodePadded bytes),
      base64_lawful.decode_encode]
    rfl

inductive HexError where
  | oddLength
  | invalidHexCharacter (c : UInt8) (index : Nat)
deriving DecidableEq

def lowerHex (b : UInt8) : UInt8 := if 65 ≤ b ∧ b ≤ 70 then b + 32 else b

def hexEncode (bytes : List UInt8) : String := base16.encode bytes

def hexDecode (input : List UInt8) : Except HexError (List UInt8) :=
  if input.length % 2 ≠ 0 then .error .oddLength
  else (base16.decode (input.map lowerHex)).mapError fun e =>
    .invalidHexCharacter (input.getD e.position 0) e.position

theorem hexDecode_hexEncode (bytes : List UInt8) :
    hexDecode (asBytes (hexEncode bytes)) = .ok bytes := by
  obtain ⟨hlength, hsymbols⟩ := base16_lawful.asBytes_encode bytes
  have hlower : ∀ b ∈ base16.symbols, lowerHex b = b := by decide +kernel
  have hsame : (asBytes (hexEncode bytes)).map lowerHex = asBytes (hexEncode bytes) :=
    (List.map_congr_left fun b hb => hlower b (hsymbols b hb)).trans (List.map_id _)
  have heven : base16.encodedLength bytes.length % 2 = 0 := by
    change (8 * bytes.length + 4 - 1) / 4 % 2 = 0
    omega
  rw [hexDecode, hsame, hexEncode, hlength, if_neg (not_not.mpr heven), base16_lawful.decode_encode]
  rfl

/- The test vectors of the RFC. -/
example : encodePadded [0x66, 0x6f, 0x6f, 0x62] = "Zm9vYg==" := by decide +kernel

example : hexDecode (asBytes "66F") = .error .oddLength := by decide +kernel

example : hexDecode (asBytes "66Fx") = .error (.invalidHexCharacter 120 3) := by decide +kernel

end RsWaku.BaseN
