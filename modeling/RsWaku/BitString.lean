import Mathlib.Data.List.GetD

/-! Strings of bits that are kept in bytes, the most significant bit of a byte first. -/
namespace RsWaku.BitString
variable {bytes bytes' : List UInt8} {i j : Nat}

/-- `1 << (7 - i % 8)`. -/
def bitMask (i : Nat) : UInt8 := 1 <<< UInt8.ofNat (7 - i % 8)

/-- Bit i of a string; a byte behind the end has no bits. -/
def isSet (bytes : List UInt8) (i : Nat) : Bool := bytes.getD (i / 8) 0 &&& bitMask i != 0

def setBit (bytes : List UInt8) (i : Nat) : List UInt8 :=
  bytes.modify (i / 8) fun b => b ||| bitMask i

theorem bitMask_toBitVec (i : Nat) : (bitMask i).toBitVec = BitVec.twoPow 8 (7 - i % 8) := by
  have hall : ∀ k < 8, (1 <<< UInt8.ofNat k : UInt8).toBitVec = BitVec.twoPow 8 k := by decide
  exact hall (7 - i % 8) (by omega)

theorem and_bitMask (b : UInt8) (i : Nat) :
    (b &&& bitMask i != 0) = b.toBitVec.getLsbD (7 - i % 8) := by
  have hne : BitVec.twoPow 8 (7 - i % 8) ≠ 0#8 := by
    intro h
    have hbit := congrArg (BitVec.getLsbD · (7 - i % 8)) h
    simp only [BitVec.getLsbD_twoPow, BitVec.getLsbD_zero] at hbit
    simp at hbit
    omega
  rw [Bool.eq_iff_iff, bne_iff_ne, ne_eq, ← UInt8.toBitVec_inj, UInt8.toBitVec_and,
    bitMask_toBitVec, BitVec.and_twoPow]
  split
  case isTrue hset => exact iff_of_true hne hset
  case isFalse hclear => exact iff_of_false (not_not_intro rfl) hclear

theorem or_bitMask (b : UInt8) (i j : Nat) :
    ((b ||| bitMask i) &&& bitMask j != 0) =
      ((b &&& bitMask j != 0) || decide (i % 8 = j % 8)) := by
  rw [and_bitMask, and_bitMask, UInt8.toBitVec_or, BitVec.getLsbD_or, bitMask_toBitVec,
    BitVec.getLsbD_twoPow]
  congr 1
  rw [Bool.eq_iff_iff, Bool.and_eq_true, decide_eq_true_iff, decide_eq_true_iff,
    decide_eq_true_iff]
  omega

@[simp] theorem length_setBit : (setBit bytes i).length = bytes.length := List.length_modify ..

theorem getD_setBit (hi : i / 8 < bytes.length) (n : Nat) :
    (setBit bytes i).getD n 0 =
      if i / 8 = n then bytes.getD n 0 ||| bitMask i else bytes.getD n 0 := by
  rw [setBit, List.getD_eq_getElem?_getD, List.getElem?_modify, List.getD_eq_getElem?_getD]
  by_cases hn : i / 8 = n
  · subst hn
    simp [hi]
  · simp [hn]

theorem isSet_setBit (hi : i / 8 < bytes.length) :
    isSet (setBit bytes i) j = true ↔ isSet bytes j = true ∨ i = j := by
  rw [isSet, isSet, getD_setBit hi]
  by_cases hbyte : i / 8 = j / 8
  · have hbit : i = j ↔ i % 8 = j % 8 := by omega
    rw [if_pos hbyte, or_bitMask, Bool.or_eq_true, decide_eq_true_iff, hbit]
  · have hne : i ≠ j := fun h => hbyte (h ▸ rfl)
    rw [if_neg hbyte, or_iff_left hne]

theorem isSet_foldl_setBit {positions : List Nat} (h : ∀ i ∈ positions, i / 8 < bytes.length) :
    isSet (positions.foldl setBit bytes) j = true ↔ isSet bytes j = true ∨ j ∈ positions := by
  induction positions generalizing bytes with
  | nil => simp
  | cons i positions ih =>
    have htail := @ih (setBit bytes i) fun k hk => by
      rw [length_setBit]
      exact h k (List.mem_cons_of_mem i hk)
    rw [List.foldl_cons, htail, isSet_setBit (h i List.mem_cons_self), List.mem_cons, or_assoc,
      @eq_comm _ i j]

theorem length_foldl_setBit (positions : List Nat) :
    (positions.foldl setBit bytes).length = bytes.length := by
  induction positions generalizing bytes with
  | nil => rfl
  | cons i positions ih => rw [List.foldl_cons, ih, length_setBit]

theorem isSet_replicate_zero (n i : Nat) : isSet (List.replicate n 0) i = false := by
  have hzero : (List.replicate n (0 : UInt8)).getD (i / 8) 0 = 0 := by
    rw [List.getD_eq_getElem?_getD, List.getElem?_replicate]
    split <;> rfl
  rw [isSet, hzero, and_bitMask]
  exact BitVec.getLsbD_zero

theorem ext_isSet (hlen : bytes.length = bytes'.length)
    (hbits : ∀ i < 8 * bytes.length, isSet bytes i = isSet bytes' i) : bytes = bytes' := by
  refine List.ext_getElem hlen fun n hn hn' => ?_
  rw [← UInt8.toBitVec_inj]
  refine BitVec.eq_of_getLsbD_eq fun k hk => ?_
  -- bit k of byte n, counted from the other end
  have hbit := hbits (8 * n + (7 - k)) (by omega)
  have hdiv : (8 * n + (7 - k)) / 8 = n := by omega
  have hmod : 7 - (8 * n + (7 - k)) % 8 = k := by omega
  rwa [isSet, isSet, and_bitMask, and_bitMask, hdiv, hmod, List.getD_eq_getElem _ _ hn,
    List.getD_eq_getElem _ _ hn'] at hbit

end RsWaku.BitString
