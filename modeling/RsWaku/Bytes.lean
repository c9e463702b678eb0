import Mathlib.Algebra.Group.Nat.Defs
import Mathlib.Data.List.Lex

/-! Byte strings of a Rust program: the order of machine integers, the UTF-8 bytes
of a string and the big-endian bytes of an integer. -/

instance UInt8.instLinearOrder : LinearOrder UInt8 where
  le_refl := UInt8.le_refl
  le_trans _ _ _ := UInt8.le_trans
  lt_iff_le_not_ge a b := by
    rw [UInt8.lt_iff_toNat_lt, UInt8.le_iff_toNat_le, UInt8.le_iff_toNat_le]
    omega
  le_antisymm _ _ := UInt8.le_antisymm
  le_total := UInt8.le_total
  toDecidableLE := inferInstance

instance UInt16.instLinearOrder : LinearOrder UInt16 where
  le_refl := UInt16.le_refl
  le_trans _ _ _ := UInt16.le_trans
  lt_iff_le_not_ge a b := by
    rw [UInt16.lt_iff_toNat_lt, UInt16.le_iff_toNat_le, UInt16.le_iff_toNat_le]
    omega
  le_antisymm _ _ := UInt16.le_antisymm
  le_total := UInt16.le_total
  toDecidableLE := inferInstance

instance Int64.instLinearOrder : LinearOrder Int64 where
  le_refl := Int64.le_refl
  le_trans _ _ _ := Int64.le_trans
  lt_iff_le_not_ge a b := by
    rw [Int64.lt_iff_toInt_lt, Int64.le_iff_toInt_le, Int64.le_iff_toInt_le]
    omega
  le_antisymm _ _ := Int64.le_antisymm
  le_total := Int64.le_total
  toDecidableLE := inferInstance

namespace RsWaku.Bytes

def asBytes (s : String) : List UInt8 := s.toUTF8.data.toList

theorem asBytes_append (s t : String) : asBytes (s ++ t) = asBytes s ++ asBytes t := by
  simp [asBytes, String.toByteArray_append, ByteArray.data_append]

theorem asBytes_ofList (l : List Char) :
    asBytes (String.ofList l) = l.flatMap String.utf8EncodeChar := by
  simp [asBytes, String.toUTF8_eq_toByteArray, List.utf8Encode]

theorem asBytes_inj {s t : String} (h : asBytes s = asBytes t) : s = t := by
  rw [← String.toByteArray_inj, ByteArray.ext_iff]
  exact Array.toList_inj.mp h

/-- `i64::to_be_bytes`. -/
def toBeBytes (t : Int64) : List UInt8 :=
  [7, 6, 5, 4, 3, 2, 1, 0].map fun i => UInt8.ofNat (t.toUInt64.toNat / 256 ^ i % 256)

theorem toBeBytes_length (t : Int64) : (toBeBytes t).length = 8 := rfl

theorem div_mod_digit (a b n : Nat) (hq : a / 256 ^ (n+1) = b / 256 ^ (n+1))
    (hd : a / 256 ^ n % 256 = b / 256 ^ n % 256) : a / 256 ^ n = b / 256 ^ n := by
  rw [Nat.pow_succ, ← Nat.div_div_eq_div_mul, ← Nat.div_div_eq_div_mul] at hq
  omega

theorem eq_of_digits (a b n : Nat) (hq : a / 256 ^ n = b / 256 ^ n)
    (hd : ∀ i < n, a / 256 ^ i % 256 = b / 256 ^ i % 256) : a = b := by
  induction n with
  | zero => simpa using hq
  | succ n ih =>
    exact ih (div_mod_digit a b n hq (hd n (Nat.lt_succ_self n)))
      fun i hi => hd i (Nat.lt_succ_of_lt hi)

theorem toBeBytes_inj {t u : Int64} (h : toBeBytes t = toBeBytes u) : t = u := by
  have hd : ∀ i ∈ [7, 6, 5, 4, 3, 2, 1, 0],
      t.toUInt64.toNat / 256 ^ i % 256 = u.toUInt64.toNat / 256 ^ i % 256 := by
    intro i hi
    have hbyte := congrArg UInt8.toNat (List.map_inj_left.mp h i hi)
    rwa [UInt8.toNat_ofNat', UInt8.toNat_ofNat', Nat.mod_mod, Nat.mod_mod] at hbyte
  have hn : t.toUInt64.toNat = u.toUInt64.toNat := by
    have hsize : (256 : Nat) ^ 8 = 2 ^ 64 := rfl
    refine eq_of_digits _ _ 8 ?_ fun i hi => hd i (by simp; omega)
    rw [hsize, Nat.div_eq_of_lt t.toUInt64.toNat_lt, Nat.div_eq_of_lt u.toUInt64.toNat_lt]
  exact Int64.toBitVec_inj.mp (congrArg UInt64.toBitVec (UInt64.toNat_inj.mp hn))

def u16ToBeBytes (n : UInt16) : List UInt8 :=
  [UInt8.ofNat (n.toNat / 256), UInt8.ofNat (n.toNat % 256)]

def u16FromBeBytes (hi lo : UInt8) : UInt16 := UInt16.ofNat (hi.toNat * 256 + lo.toNat)

theorem u16FromBeBytes_toBeBytes (n : UInt16) :
    u16FromBeBytes (UInt8.ofNat (n.toNat / 256)) (UInt8.ofNat (n.toNat % 256)) = n := by
  have hn := n.toNat_lt
  apply UInt16.toNat_inj.mp
  rw [u16FromBeBytes, UInt16.toNat_ofNat', UInt8.toNat_ofNat', UInt8.toNat_ofNat']
  omega

theorem u16ToBeBytes_fromBeBytes (hi lo : UInt8) :
    u16ToBeBytes (u16FromBeBytes hi lo) = [hi, lo] := by
  have hhi := hi.toNat_lt
  have hlo := lo.toNat_lt
  have hsize : UInt16.size = 65536 := rfl
  have hvalue : (u16FromBeBytes hi lo).toNat = hi.toNat * 256 + lo.toNat :=
    UInt16.toNat_ofNat_of_lt (by omega)
  have hdiv : (hi.toNat * 256 + lo.toNat) / 256 = hi.toNat := by omega
  have hmod : (hi.toNat * 256 + lo.toNat) % 256 = lo.toNat := by omega
  rw [u16ToBeBytes, hvalue, hdiv, hmod, UInt8.ofNat_toNat, UInt8.ofNat_toNat]

theorem toInt_toInt64 (u : UInt64) : u.toInt64.toInt = Int.bmod u.toNat (2 ^ 64) :=
  BitVec.toInt_eq_toNat_bmod u.toBitVec

theorem lt_zero_iff (n : Int64) : n < 0 ↔ n.toInt < 0 := by
  rw [Int64.lt_iff_toInt_lt, Int64.toInt_zero]

end RsWaku.Bytes
