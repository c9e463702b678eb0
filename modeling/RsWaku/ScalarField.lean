import Mathlib.Data.List.Prime
import Mathlib.Data.Nat.Digits.Lemmas
import Mathlib.NumberTheory.LucasPrimality
import Mathlib.Tactic.NormNum.Prime
import RsWaku.Bytes

/-! The scalar field of BN254. Its order is shown prime by Lucas' test, which asks for the
primality of the factors of p - 1: the certificates go down to factors that are small. -/
namespace RsWaku

def powMod (m a n : Nat) : Nat :=
  (Nat.digits 2 n).foldr (fun d acc => acc * acc * a ^ d % m) (1 % m)

theorem powMod_eq (m a n : Nat) : powMod m a n = a ^ n % m := by
  suffices h : ∀ digits : List Nat, digits.foldr (fun d acc => acc * acc * a ^ d % m) (1 % m) =
      a ^ Nat.ofDigits 2 digits % m by
    rw [powMod, h, Nat.ofDigits_digits]
  intro digits
  induction digits with
  | nil => rfl
  | cons d digits ih =>
    have hpow : a ^ Nat.ofDigits 2 (d :: digits) =
        a ^ Nat.ofDigits 2 digits * a ^ Nat.ofDigits 2 digits * a ^ d := by
      rw [Nat.ofDigits_cons, pow_add, two_mul, pow_add, mul_comm]
    rw [List.foldr_cons, ih, hpow]
    exact ((Nat.mod_modEq _ m).mul (Nat.mod_modEq _ m)).mul_right _

theorem pow_eq_one_iff_powMod {p : Nat} (hp : 1 < p) (a n : Nat) :
    (a : ZMod p) ^ n = 1 ↔ powMod p a n = 1 := by
  rw [powMod_eq, ← Nat.cast_pow, ← Nat.cast_one, ZMod.natCast_eq_natCast_iff',
    Nat.mod_eq_of_lt hp]

/-- Lucas' test with the prime factors of p - 1 in a list. -/
theorem prime_of_lucas {p : Nat} (a : Nat) (factors : List Nat) (k : Nat)
    (hprime : ∀ q ∈ factors, q.Prime)
    (hcheck : 1 < p ∧ p - 1 ∣ factors.prod ^ k ∧ powMod p a (p - 1) = 1 ∧
      ∀ q ∈ factors, powMod p a ((p - 1) / q) ≠ 1) : p.Prime := by
  obtain ⟨hp, hprod, hone, hne⟩ := hcheck
  apply lucas_primality p a ((pow_eq_one_iff_powMod hp _ _).mpr hone)
  intro q hq hdvd
  have hmem : q ∣ factors.prod := hq.dvd_of_dvd_pow (hdvd.trans hprod)
  obtain ⟨r, hr, hqr⟩ := (Prime.dvd_prod_iff hq.prime).mp hmem
  rw [(Nat.prime_dvd_prime_iff_eq hq (hprime r hr)).mp hqr, Ne, pow_eq_one_iff_powMod hp]
  exact hne r hr

theorem prime_405928799 : Nat.Prime 405928799 :=
  prime_of_lucas 22 [2, 11, 3691, 4999] 1 (by norm_num) (by decide +kernel)

theorem prime_12048837557 : Nat.Prime 12048837557 :=
  prime_of_lucas 2 [2, 7, 661, 93001] 2 (by norm_num) (by decide +kernel)

theorem prime_5156902474397 : Nat.Prime 5156902474397 :=
  prime_of_lucas 2 [12048837557, 2, 107] 2
    (List.forall_mem_cons.mpr ⟨prime_12048837557, by norm_num⟩) (by decide +kernel)

theorem prime_1670836401704629 : Nat.Prime 1670836401704629 :=
  prime_of_lucas 2 [5156902474397, 2, 3] 4
    (List.forall_mem_cons.mpr ⟨prime_5156902474397, by norm_num⟩) (by decide +kernel)

theorem prime_639533339 : Nat.Prime 639533339 :=
  prime_of_lucas 2 [2, 229, 853, 1637] 1 (by norm_num) (by decide +kernel)

theorem prime_65865678001877903 : Nat.Prime 65865678001877903 :=
  prime_of_lucas 5 [639533339, 2, 83, 379, 1637] 1
    (List.forall_mem_cons.mpr ⟨prime_639533339, by norm_num⟩) (by decide +kernel)

theorem prime_13818364434197438864469338081 : Nat.Prime 13818364434197438864469338081 :=
  prime_of_lucas 3 [65865678001877903, 2, 5, 823, 1593227] 5
    (List.forall_mem_cons.mpr ⟨prime_65865678001877903, by norm_num⟩) (by decide +kernel)

def bn254 : Nat := 21888242871839275222246405745257275088548364400416034343698204186575808495617

instance fact_prime_bn254 : Fact bn254.Prime where
  out := by
    apply prime_of_lucas 5 [405928799, 1670836401704629, 13818364434197438864469338081,
      2, 3, 13, 29, 983, 11003, 237073] 28 ?_ (by decide +kernel)
    simp only [List.forall_mem_cons]
    exact ⟨prime_405928799, prime_1670836401704629, prime_13818364434197438864469338081,
      by norm_num⟩

def frToBytesLe (x : ZMod bn254) : List UInt8 :=
  (List.range 32).map fun i => UInt8.ofNat (x.val / 256 ^ i % 256)

theorem frToBytesLe_injective : Function.Injective frToBytesLe := by
  intro x y h
  have hval : x.val = y.val := by
    apply Bytes.eq_of_digits _ _ 32
    · have hsize : bn254 < 256 ^ 32 := by decide
      rw [Nat.div_eq_of_lt (x.val_lt.trans hsize), Nat.div_eq_of_lt (y.val_lt.trans hsize)]
    · intro i hi
      have hbyte := congrArg UInt8.toNat (List.map_inj_left.mp h i (List.mem_range.mpr hi))
      rwa [UInt8.toNat_ofNat', UInt8.toNat_ofNat', Nat.mod_mod, Nat.mod_mod] at hbyte
  exact ZMod.val_injective bn254 hval

end RsWaku
