import Mathlib.Data.List.GetD
import Mathlib.Data.List.Induction
import Mathlib.Data.List.Nodup
import Mathlib.Tactic.Ring
import RsWaku.Bytes

/-! The base 32 and base 64 encodings of RFC 4648 without padding: a byte string is read as one
big-endian number, extended with zero bits to whole symbols. Decoding is strict: it refuses a
length that no encoding has, other symbols, and trailing bits that are not zero; it undoes
encoding. -/
namespace RsWaku.BaseN
open Bytes

structure Encoding where
  bit : Nat
  symbols : List UInt8

def base32 : Encoding where
  bit := 5
  symbols := "ABCDEFGHIJKLMNOPQRSTUVWXYZ234567".toUTF8.data.toList

def base64Url : Encoding where
  bit := 6
  symbols := "ABCDEFGHIJKLMNOPQRSTUVWXYZabcdefghijklmnopqrstuvwxyz0123456789-_".toUTF8.data.toList

def digits (base n x : Nat) : List Nat := (List.range n).map fun i => x / base ^ (n - 1 - i) % base

def number (base : Nat) (ds : List Nat) : Nat := ds.foldl (fun acc d => acc * base + d) 0

def Encoding.encodedLength (e : Encoding) (n : Nat) : Nat := (8 * n + e.bit - 1) / e.bit

def Encoding.encode (e : Encoding) (bytes : List UInt8) : String :=
  let n := e.encodedLength bytes.length
  let value := number 256 (bytes.map UInt8.toNat) * 2 ^ (e.bit * n - 8 * bytes.length)
  String.ofList ((digits (2 ^ e.bit) n value).map fun d => Char.ofNat (e.symbols.getD d 0).toNat)

inductive DecodeKind where
  | length | symbol | trailing
deriving DecidableEq

structure DecodeError where
  position : Nat
  kind : DecodeKind
deriving DecidableEq

def DecodeKind.text : DecodeKind → String
  | .length => "invalid length"
  | .symbol => "invalid symbol"
  | .trailing => "non-zero trailing bits"

def DecodeError.text (e : DecodeError) : String := e.kind.text ++ " at " ++ toString e.position

def Encoding.decode (e : Encoding) (input : List UInt8) : Except DecodeError (List UInt8) :=
  let trail := e.bit * input.length % 8
  if trail / e.bit ≠ 0 then .error ⟨input.length - trail / e.bit, .length⟩
  else
    match input.findIdx? (· ∉ e.symbols) with
    | some position => .error ⟨position, .symbol⟩
    | none =>
      let value := number (2 ^ e.bit) (input.map fun b => e.symbols.idxOf b)
      if value % 2 ^ trail ≠ 0 then .error ⟨input.length - 1, .trailing⟩
      else .ok ((digits 256 (e.bit * input.length / 8) (value / 2 ^ trail)).map UInt8.ofNat)

theorem Encoding.encode_length (e : Encoding) (bytes : List UInt8) :
    (e.encode bytes).length = e.encodedLength bytes.length := by
  simp [Encoding.encode, digits]

theorem digits_succ (base n x : Nat) :
    digits base (n + 1) x = digits base n (x / base) ++ [x % base] := by
  rw [digits, List.range_succ, List.map_append, List.map_singleton]
  congr 1
  · refine List.map_congr_left fun i hi => ?_
    have hi := List.mem_range.mp hi
    have hexp : n + 1 - 1 - i = (n - 1 - i) + 1 := by omega
    rw [hexp, Nat.pow_succ, Nat.mul_comm, Nat.div_div_eq_div_mul]
  · simp

theorem number_concat (base : Nat) (ds : List Nat) (d : Nat) :
    number base (ds ++ [d]) = number base ds * base + d := by
  simp [number]

theorem number_digits {base n x : Nat} (h : x < base ^ n) : number base (digits base n x) = x := by
  induction n generalizing x with
  | zero =>
    have hx : x = 0 := by simpa using h
    rw [hx]
    rfl
  | succ n ih =>
    have hdiv : x / base < base ^ n := Nat.div_lt_of_lt_mul (by rwa [Nat.mul_comm, ← Nat.pow_succ])
    rw [digits_succ, number_concat, ih hdiv, Nat.mul_comm]
    exact Nat.div_add_mod x base

theorem digits_number {base : Nat} (ds : List Nat) (h : ∀ d ∈ ds, d < base) :
    digits base ds.length (number base ds) = ds := by
  induction ds using List.reverseRecOn with
  | nil => rfl
  | append_singleton ds d ih =>
    have hd : d < base := h d (by simp)
    have hpos : 0 < base := by omega
    rw [List.length_append, List.length_singleton, digits_succ, number_concat,
      Nat.mul_comm, Nat.mul_add_div hpos, Nat.mul_add_mod, Nat.div_eq_of_lt hd,
      Nat.mod_eq_of_lt hd, Nat.add_zero, ih fun x hx => h x (by simp [hx])]

theorem number_lt {base : Nat} (ds : List Nat) (h : ∀ d ∈ ds, d < base) :
    number base ds < base ^ ds.length := by
  induction ds using List.reverseRecOn with
  | nil => exact Nat.one_pos
  | append_singleton ds d ih =>
    have hd : d < base := h d (by simp)
    have hds := ih fun x hx => h x (by simp [hx])
    rw [number_concat, List.length_append, List.length_singleton, Nat.pow_succ]
    calc number base ds * base + d < number base ds * base + base := by omega
      _ = (number base ds + 1) * base := by ring
      _ ≤ base ^ ds.length * base := Nat.mul_le_mul_right base hds

theorem digits_lt {base n x : Nat} (hbase : 0 < base) : ∀ d ∈ digits base n x, d < base := by
  intro d hd
  obtain ⟨i, -, rfl⟩ := List.mem_map.mp hd
  exact Nat.mod_lt _ hbase

theorem digits_length (base n x : Nat) : (digits base n x).length = n := by simp [digits]

/-- One ASCII symbol for each value of a symbol's bits. -/
structure Encoding.Lawful (e : Encoding) : Prop where
  bit_pos : 0 < e.bit
  bit_le : e.bit ≤ 8
  count : e.symbols.length = 2 ^ e.bit
  nodup : e.symbols.Nodup
  ascii : ∀ b ∈ e.symbols, b.toNat < 128

theorem base64Url_lawful : base64Url.Lawful :=
  ⟨by decide, by decide, by decide +kernel, by decide +kernel, by decide +kernel⟩

theorem encodeChar_ascii {b : UInt8} (h : b.toNat < 128) :
    String.utf8EncodeChar (Char.ofNat b.toNat) = [b] := by
  have hall : ∀ i : Fin 128, String.utf8EncodeChar (Char.ofNat i.val) = [UInt8.ofNat i.val] := by
    decide +kernel
  rw [hall ⟨b.toNat, h⟩, UInt8.ofNat_toNat]

section Lawful
variable {e : Encoding} (h : e.Lawful)
include h

theorem Encoding.Lawful.symbol_mem {d : Nat} (hd : d < 2 ^ e.bit) :
    e.symbols.getD d 0 ∈ e.symbols := by
  have hlt : d < e.symbols.length := h.count.symm ▸ hd
  rw [List.getD_eq_getElem _ _ hlt]
  exact List.getElem_mem hlt

theorem Encoding.Lawful.idxOf_symbol {d : Nat} (hd : d < 2 ^ e.bit) :
    e.symbols.idxOf (e.symbols.getD d 0) = d := by
  have hlt : d < e.symbols.length := h.count.symm ▸ hd
  rw [List.getD_eq_getElem _ _ hlt]
  exact h.nodup.idxOf_getElem d hlt

theorem Encoding.Lawful.asBytes_symbols {ds : List Nat} (hds : ∀ d ∈ ds, d < 2 ^ e.bit) :
    asBytes (String.ofList (ds.map fun d => Char.ofNat (e.symbols.getD d 0).toNat)) =
      ds.map fun d => e.symbols.getD d 0 := by
  rw [asBytes_ofList, List.flatMap_map]
  induction ds with
  | nil => rfl
  | cons d ds ih =>
    have hd := encodeChar_ascii (h.ascii _ (h.symbol_mem (hds d (by simp))))
    rw [List.flatMap_cons, hd, ih fun x hx => hds x (List.mem_cons_of_mem d hx)]
    rfl

theorem Encoding.Lawful.trail (n : Nat) :
    e.bit * e.encodedLength n % 8 = e.bit * e.encodedLength n - 8 * n ∧
      8 * n ≤ e.bit * e.encodedLength n ∧ e.bit * e.encodedLength n < 8 * n + e.bit := by
  have hpos := h.bit_pos
  have hle := h.bit_le
  have hdiv := Nat.div_add_mod (8 * n + e.bit - 1) e.bit
  have hmod := Nat.mod_lt (8 * n + e.bit - 1) hpos
  rw [Encoding.encodedLength]
  omega

theorem Encoding.Lawful.decode_symbols {ds : List Nat} (hds : ∀ d ∈ ds, d < 2 ^ e.bit)
    (htrail : e.bit * ds.length % 8 / e.bit = 0)
    (hzero : number (2 ^ e.bit) ds % 2 ^ (e.bit * ds.length % 8) = 0) :
    e.decode (ds.map fun d => e.symbols.getD d 0) =
      .ok ((digits 256 (e.bit * ds.length / 8)
        (number (2 ^ e.bit) ds / 2 ^ (e.bit * ds.length % 8))).map UInt8.ofNat) := by
  have hfound : (ds.map fun d => e.symbols.getD d 0).findIdx? (· ∉ e.symbols) = none := by
    rw [List.findIdx?_eq_none_iff]
    intro b hb
    obtain ⟨d, hd, rfl⟩ := List.mem_map.mp hb
    simpa using h.symbol_mem (hds d hd)
  have hback : (ds.map fun d => e.symbols.getD d 0).map (fun b => e.symbols.idxOf b) = ds := by
    rw [List.map_map]
    exact (List.map_congr_left fun d hd => h.idxOf_symbol (hds d hd)).trans (List.map_id ds)
  rw [Encoding.decode, List.length_map, if_neg (not_not.mpr htrail), hfound]
  simp only [hback]
  rw [if_neg (not_not.mpr hzero)]

theorem Encoding.Lawful.decode_encode (bytes : List UInt8) :
    e.decode (asBytes (e.encode bytes)) = .ok bytes := by
  have hbytes : ∀ d ∈ bytes.map UInt8.toNat, d < 256 := by
    intro d hd
    obtain ⟨b, -, rfl⟩ := List.mem_map.mp hd
    exact b.toNat_lt
  have hnumber := number_lt _ hbytes
  have hdigits := digits_number _ hbytes
  rw [List.length_map] at hnumber hdigits
  obtain ⟨htrail, hle, hlt⟩ := h.trail bytes.length
  rw [Encoding.encode]
  generalize number 256 (bytes.map UInt8.toNat) = value at hnumber hdigits
  generalize e.encodedLength bytes.length = n at htrail hle hlt
  have hvalue : value * 2 ^ (e.bit * n - 8 * bytes.length) < (2 ^ e.bit) ^ n := by
    calc value * 2 ^ (e.bit * n - 8 * bytes.length)
        < 256 ^ bytes.length * 2 ^ (e.bit * n - 8 * bytes.length) :=
          Nat.mul_lt_mul_of_pos_right hnumber (Nat.two_pow_pos _)
      _ = 2 ^ (8 * bytes.length) * 2 ^ (e.bit * n - 8 * bytes.length) := by
          rw [Nat.pow_mul]
      _ = (2 ^ e.bit) ^ n := by
          rw [← Nat.pow_add, Nat.add_sub_cancel' hle, Nat.pow_mul]
  have hds := @digits_lt (2 ^ e.bit) n (value * 2 ^ (e.bit * n - 8 * bytes.length))
    (Nat.two_pow_pos e.bit)
  have hlen := digits_length (2 ^ e.bit) n (value * 2 ^ (e.bit * n - 8 * bytes.length))
  rw [h.asBytes_symbols hds, h.decode_symbols hds]
  · rw [hlen, number_digits hvalue, htrail, Nat.mul_div_cancel _ (Nat.two_pow_pos _)]
    have hsize : e.bit * n / 8 = bytes.length := by
      have hbit := h.bit_le
      omega
    rw [hsize, hdigits, List.map_map]
    have hid : UInt8.ofNat ∘ UInt8.toNat = id := funext fun b => UInt8.ofNat_toNat
    rw [hid, List.map_id]
  · rw [hlen, htrail]
    exact Nat.div_eq_of_lt (by omega)
  · rw [hlen, htrail, number_digits hvalue]
    exact Nat.mul_mod_left ..

end Lawful

/- The test vectors of the RFC. -/
example : base32.encode [0x66, 0x6f, 0x6f, 0x62] = "MZXW6YQ" := by decide +kernel

example : base64Url.decode [0x5a, 0x6d, 0x39, 0x76, 0x59, 0x67] =
    .ok [0x66, 0x6f, 0x6f, 0x62] := by decide +kernel

end RsWaku.BaseN
