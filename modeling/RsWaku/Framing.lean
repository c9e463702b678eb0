import Mathlib.Data.List.Infix
import Mathlib.Tactic.Ring

/-! Length-prefixed frames on a byte stream: the length is an unsigned LEB128 varint, read into
64 bits. A stream is the list of the bytes that are still to come. -/
namespace RsWaku.Framing

inductive IoError where
  | unexpectedEof
  | invalidData (message : String)
deriving DecidableEq

abbrev Read (α : Type) := Except IoError (α × List UInt8)

def readExact (n : Nat) (stream : List UInt8) : Read (List UInt8) :=
  if n ≤ stream.length then .ok (stream.take n, stream.drop n) else .error .unexpectedEof

def readUvarintLoop (value : UInt64) (shift : UInt32) : List UInt8 → Read UInt64
  | [] => .error .unexpectedEof
  | byte :: rest =>
    let value := value ||| ((byte &&& 0x7f).toUInt64 <<< shift.toUInt64)
    if byte &&& 0x80 = 0 then .ok (value, rest)
    else
      let shift := shift + 7
      if 64 ≤ shift then .error (.invalidData "varint overflow")
      else readUvarintLoop value shift rest

def readUvarint (stream : List UInt8) : Read UInt64 := readUvarintLoop 0 0 stream

theorem shiftRight_seven (v : UInt64) : (v >>> 7).toNat = v.toNat / 128 := by
  rw [UInt64.toNat_shiftRight]
  exact Nat.shiftRight_eq_div_pow v.toNat 7

def writeUvarint (v : UInt64) : List UInt8 :=
  let byte := (v &&& 0x7f).toUInt8
  let rest := v >>> 7
  if rest ≠ 0 then (byte ||| 0x80) :: writeUvarint rest else [byte]
termination_by v.toNat
decreasing_by
  have hne : (v >>> 7).toNat ≠ 0 := fun h => ‹rest ≠ 0› (UInt64.toNat_inj.mp h)
  rw [shiftRight_seven] at hne
  rw [shiftRight_seven]
  omega

def readLp (maxFrameLen : Nat) (tooLong : String) (stream : List UInt8) : Read (List UInt8) :=
  match readUvarint stream with
  | .error e => .error e
  | .ok (len, rest) =>
    if maxFrameLen < len.toNat then .error (.invalidData tooLong) else readExact len.toNat rest

def writeLp (data : List UInt8) : List UInt8 :=
  writeUvarint (UInt64.ofNat data.length) ++ data

def readMany {α : Type} (read : List UInt8 → Read α) : Nat → List UInt8 → Read (List α)
  | 0, stream => .ok ([], stream)
  | n+1, stream =>
    match read stream with
    | .error e => .error e
    | .ok (x, rest) =>
      match readMany read n rest with
      | .error e => .error e
      | .ok (xs, rest) => .ok (x :: xs, rest)

theorem payload_toNat (b : UInt8) : (b &&& 0x7f).toNat = b.toNat % 128 := by
  rw [UInt8.toNat_and]
  exact Nat.and_two_pow_sub_one_eq_mod b.toNat 7

theorem continuation_iff (b : UInt8) : b &&& 0x80 = 0 ↔ b.toNat < 128 := by
  have hbit : ∀ i : Fin 256, i.val &&& 128 = 0 ↔ i.val < 128 := by decide +kernel
  rw [← UInt8.toNat_inj, UInt8.toNat_and]
  exact hbit ⟨b.toNat, b.toNat_lt⟩

/-- The number whose base-128 digits, least significant first, are the payload bits. -/
def groups : List UInt8 → Nat
  | [] => 0
  | b :: bytes => b.toNat % 128 + 128 * groups bytes

theorem sum_groups_from (bytes : List UInt8) (k : Nat) :
    (bytes.mapIdx fun i b => b.toNat % 128 * 2 ^ (7 * (i + k))).sum =
      2 ^ (7 * k) * groups bytes := by
  induction bytes generalizing k with
  | nil => rfl
  | cons b bytes ih =>
    have hnext := ih (k + 1)
    simp only [← Nat.add_assoc, Nat.add_right_comm _ k 1] at hnext
    rw [List.mapIdx_cons, List.sum_cons, hnext, groups]
    ring

theorem groups_eq_sum (bytes : List UInt8) :
    groups bytes = (bytes.mapIdx fun i b => b.toNat % 128 * 2 ^ (7 * i)).sum := by
  have hsum := sum_groups_from bytes 0
  simp only [Nat.add_zero, Nat.mul_zero, Nat.pow_zero, Nat.one_mul] at hsum
  exact hsum.symm

theorem groups_concat (init : List UInt8) (last : UInt8) :
    groups (init ++ [last]) = groups init + 128 ^ init.length * (last.toNat % 128) := by
  induction init with
  | nil => simp [groups]
  | cons b init ih =>
    rw [List.cons_append, groups, ih, groups, List.length_cons]
    ring

theorem groups_lt (bytes : List UInt8) : groups bytes < 128 ^ bytes.length := by
  induction bytes with
  | nil => exact Nat.one_pos
  | cons b bytes ih =>
    have hb := Nat.mod_lt b.toNat (by decide : 128 > 0)
    rw [groups, List.length_cons, Nat.pow_succ]
    omega

structure IsVarint (bytes : List UInt8) : Prop where
  nonempty : bytes ≠ []
  continued : ∀ b ∈ bytes.dropLast, 128 ≤ b.toNat
  ended : ∀ b ∈ bytes.getLast?, b.toNat < 128

theorem isVarint_concat {init : List UInt8} {last : UInt8} :
    IsVarint (init ++ [last]) ↔ (∀ b ∈ init, 128 ≤ b.toNat) ∧ last.toNat < 128 := by
  constructor
  · intro h
    exact ⟨by simpa using h.continued, h.ended last (by simp)⟩
  · intro ⟨hinit, hlast⟩
    exact ⟨by simp, by simpa using hinit, by simpa using hlast⟩

theorem IsVarint.split {bytes : List UInt8} (h : IsVarint bytes) : ∃ init last,
    bytes = init ++ [last] ∧ (∀ b ∈ init, 128 ≤ b.toNat) ∧ last.toNat < 128 := by
  obtain rfl | ⟨init, last, rfl⟩ := bytes.eq_nil_or_concat
  · exact absurd rfl h.nonempty
  · rw [List.concat_eq_append] at h ⊢
    exact ⟨init, last, rfl, isVarint_concat.mp h⟩

/- Below the shifted group stand the bits read before, above it the shift drops what exceeds
64 bits. -/
theorem or_shift_toNat (value : UInt64) (b : UInt8) (shift : Nat) (hshift : shift < 64)
    (hvalue : value.toNat < 2 ^ shift) :
    (value ||| ((b &&& 0x7f).toUInt64 <<< UInt64.ofNat shift)).toNat =
      (value.toNat + 2 ^ shift * (b.toNat % 128)) % 2 ^ 64 := by
  have hmodulus : 2 ^ 64 = 2 ^ shift * 2 ^ (64 - shift) := by
    rw [← Nat.pow_add]
    congr 1
    omega
  have hgroup : ((b &&& 0x7f).toUInt64 <<< UInt64.ofNat shift).toNat =
      2 ^ shift * (b.toNat % 128 % 2 ^ (64 - shift)) := by
    rw [UInt64.toNat_shiftLeft, UInt8.toNat_toUInt64, payload_toNat, UInt64.toNat_ofNat',
      Nat.mod_eq_of_lt (Nat.lt_trans hshift (by decide)), Nat.mod_eq_of_lt hshift,
      Nat.shiftLeft_eq, Nat.mul_comm, hmodulus, Nat.mul_mod_mul_left]
  have hlt : 2 ^ shift * (b.toNat % 128 % 2 ^ (64 - shift)) + value.toNat <
      2 ^ shift * 2 ^ (64 - shift) :=
    calc 2 ^ shift * (b.toNat % 128 % 2 ^ (64 - shift)) + value.toNat
        < 2 ^ shift * (b.toNat % 128 % 2 ^ (64 - shift)) + 2 ^ shift := by omega
      _ = 2 ^ shift * (b.toNat % 128 % 2 ^ (64 - shift) + 1) := by ring
      _ ≤ 2 ^ shift * 2 ^ (64 - shift) :=
          Nat.mul_le_mul_left _ (Nat.mod_lt _ (Nat.two_pow_pos _))
  rw [UInt64.toNat_or, hgroup, Nat.or_comm, ← Nat.two_pow_add_eq_or_of_lt hvalue, hmodulus,
    Nat.add_comm value.toNat, ← Nat.mod_add_mod, Nat.mul_mod_mul_left, Nat.mod_eq_of_lt hlt]

theorem readUvarintLoop_cons {k : Nat} (hk : k ≤ 9) {value : UInt64}
    (hvalue : value.toNat < 2 ^ (7 * k)) (b : UInt8) (rest : List UInt8) :
    readUvarintLoop value (UInt32.ofNat (7 * k)) (b :: rest) =
      if b.toNat < 128 then
        .ok (UInt64.ofNat (value.toNat + 2 ^ (7 * k) * (b.toNat % 128)), rest)
      else if k = 9 then .error (.invalidData "varint overflow")
      else readUvarintLoop (UInt64.ofNat (value.toNat + 2 ^ (7 * k) * (b.toNat % 128)))
        (UInt32.ofNat (7 * (k + 1))) rest := by
  have hword : UInt32.size = 2 ^ 32 ∧ UInt64.size = 2 ^ 64 := ⟨rfl, rfl⟩
  have hshift : (UInt32.ofNat (7 * k)).toUInt64 = UInt64.ofNat (7 * k) := by
    apply UInt64.toNat_inj.mp
    rw [UInt32.toNat_toUInt64, UInt32.toNat_ofNat_of_lt' (by omega),
      UInt64.toNat_ofNat_of_lt' (by omega)]
  have hvalue' : value ||| ((b &&& 0x7f).toUInt64 <<< UInt64.ofNat (7 * k)) =
      UInt64.ofNat (value.toNat + 2 ^ (7 * k) * (b.toNat % 128)) := by
    apply UInt64.toNat_inj.mp
    rw [or_shift_toNat value b (7 * k) (by omega) hvalue, UInt64.toNat_ofNat']
  have hnext : UInt32.ofNat (7 * k) + 7 = UInt32.ofNat (7 * (k + 1)) := by
    rw [Nat.mul_add, UInt32.ofNat_add]
    rfl
  have hlast : 64 ≤ UInt32.ofNat (7 * (k + 1)) ↔ k = 9 := by
    rw [UInt32.le_iff_toNat_le, UInt32.toNat_ofNat_of_lt' (by omega)]
    change 64 ≤ _ ↔ _
    omega
  rw [readUvarintLoop, hshift]
  simp only [hvalue', continuation_iff, hnext, hlast]

theorem step_bound {k v g : Nat} (hk : k < 9) (hv : v < 2 ^ (7 * k)) (hg : g < 128) :
    (UInt64.ofNat (v + 2 ^ (7 * k) * g)).toNat = v + 2 ^ (7 * k) * g ∧
      v + 2 ^ (7 * k) * g < 2 ^ (7 * (k + 1)) := by
  have hpow : 2 ^ (7 * (k + 1)) = 2 ^ (7 * k) * 128 := by ring
  have hlt : v + 2 ^ (7 * k) * g < 2 ^ (7 * (k + 1)) :=
    calc v + 2 ^ (7 * k) * g < 2 ^ (7 * k) + 2 ^ (7 * k) * g := by omega
      _ = 2 ^ (7 * k) * (g + 1) := by ring
      _ ≤ 2 ^ (7 * k) * 128 := Nat.mul_le_mul_left _ hg
      _ = 2 ^ (7 * (k + 1)) := hpow.symm
  have hle : 2 ^ (7 * (k + 1)) ≤ 2 ^ 63 := Nat.pow_le_pow_right (by decide) (by omega)
  refine ⟨?_, hlt⟩
  rw [UInt64.toNat_ofNat', Nat.mod_eq_of_lt (by omega)]

theorem readUvarintLoop_continued {k : Nat} (hk : k < 9) {value : UInt64}
    (hvalue : value.toNat < 2 ^ (7 * k)) {b : UInt8} (hb : 128 ≤ b.toNat) (rest : List UInt8) :
    ∃ value' : UInt64, value'.toNat = value.toNat + 2 ^ (7 * k) * (b.toNat % 128) ∧
      value'.toNat < 2 ^ (7 * (k + 1)) ∧
      readUvarintLoop value (UInt32.ofNat (7 * k)) (b :: rest) =
        readUvarintLoop value' (UInt32.ofNat (7 * (k + 1))) rest := by
  obtain ⟨hexact, hlt⟩ := step_bound hk hvalue (Nat.mod_lt b.toNat (by decide : 128 > 0))
  refine ⟨_, hexact, by rw [hexact]; exact hlt, ?_⟩
  rw [readUvarintLoop_cons (Nat.le_of_lt hk) hvalue, if_neg (by omega), if_neg (by omega)]

/-- Induction over the bytes before the last one, which counts modulo 2^64. -/
theorem readUvarintLoop_ok {init : List UInt8} {last : UInt8} (hinit : ∀ b ∈ init, 128 ≤ b.toNat)
    (hlast : last.toNat < 128) (rest : List UInt8) {k : Nat} (hk : k + init.length ≤ 9)
    {value : UInt64} (hvalue : value.toNat < 2 ^ (7 * k)) :
    readUvarintLoop value (UInt32.ofNat (7 * k)) (init ++ last :: rest) =
      .ok (UInt64.ofNat (value.toNat + 2 ^ (7 * k) * groups (init ++ [last])), rest) := by
  induction init generalizing k value with
  | nil =>
    have hk9 : k ≤ 9 := hk
    rw [List.nil_append, readUvarintLoop_cons hk9 hvalue, if_pos hlast]
    rfl
  | cons b init ih =>
    rw [List.length_cons] at hk
    obtain ⟨value', hexact, hlt, hstep⟩ := readUvarintLoop_continued (by omega : k < 9) hvalue
      (hinit b (by simp)) (init ++ last :: rest)
    rw [List.cons_append, hstep, ih (fun x hx => hinit x (List.mem_cons_of_mem b hx)) (by omega)
      hlt, hexact, List.cons_append, groups]
    congr 3
    ring

theorem readUvarintLoop_eof {bytes : List UInt8} (hbytes : ∀ b ∈ bytes, 128 ≤ b.toNat) {k : Nat}
    (hk : k + bytes.length ≤ 9) {value : UInt64} (hvalue : value.toNat < 2 ^ (7 * k)) :
    readUvarintLoop value (UInt32.ofNat (7 * k)) bytes = .error .unexpectedEof := by
  induction bytes generalizing k value with
  | nil => rfl
  | cons b bytes ih =>
    rw [List.length_cons] at hk
    obtain ⟨value', -, hlt, hstep⟩ := readUvarintLoop_continued (by omega : k < 9) hvalue
      (hbytes b (by simp)) bytes
    rw [hstep]
    exact ih (fun x hx => hbytes x (List.mem_cons_of_mem b hx)) (by omega) hlt

theorem readUvarintLoop_overflow {bytes : List UInt8} (hbytes : ∀ b ∈ bytes, 128 ≤ b.toNat)
    (rest : List UInt8) {k : Nat} (hk : k + bytes.length = 10) (hk9 : k ≤ 9) {value : UInt64}
    (hvalue : value.toNat < 2 ^ (7 * k)) :
    readUvarintLoop value (UInt32.ofNat (7 * k)) (bytes ++ rest) =
      .error (.invalidData "varint overflow") := by
  induction bytes generalizing k value with
  | nil =>
    rw [List.length_nil] at hk
    omega
  | cons b bytes ih =>
    have hb := hbytes b (by simp)
    rw [List.length_cons] at hk
    by_cases hlast : k = 9
    · rw [List.cons_append, readUvarintLoop_cons hk9 hvalue, if_neg (by omega), if_pos hlast]
    · obtain ⟨value', -, hlt, hstep⟩ := readUvarintLoop_continued (by omega : k < 9) hvalue hb
        (bytes ++ rest)
      rw [List.cons_append, hstep]
      exact ih (fun x hx => hbytes x (List.mem_cons_of_mem b hx)) (by omega) (by omega) hlt

theorem readUvarint_ok {bytes : List UInt8} (h : IsVarint bytes) (hlen : bytes.length ≤ 10)
    (rest : List UInt8) :
    readUvarint (bytes ++ rest) = .ok (UInt64.ofNat (groups bytes), rest) := by
  obtain ⟨init, last, rfl, hinit, hlast⟩ := h.split
  rw [List.length_append, List.length_singleton] at hlen
  have hread := @readUvarintLoop_ok init last hinit hlast rest 0 (by omega) 0 (by decide)
  rw [List.append_assoc]
  refine hread.trans ?_
  congr 3
  simp

theorem readUvarint_eof {bytes : List UInt8} (hbytes : ∀ b ∈ bytes, 128 ≤ b.toNat)
    (hlen : bytes.length ≤ 9) : readUvarint bytes = .error .unexpectedEof :=
  @readUvarintLoop_eof bytes hbytes 0 (by omega) 0 (by decide)

theorem readUvarint_overflow {bytes : List UInt8} (hbytes : ∀ b ∈ bytes, 128 ≤ b.toNat)
    (hlen : bytes.length = 10) (rest : List UInt8) :
    readUvarint (bytes ++ rest) = .error (.invalidData "varint overflow") :=
  @readUvarintLoop_overflow bytes hbytes rest 0 (by omega) (by decide) 0 (by decide)

/-- What stands at the front of a stream: a varint of at most ten bytes, the begin of one, or ten
bytes that all continue. -/
theorem stream_cases (stream : List UInt8) :
    (∃ bytes rest, stream = bytes ++ rest ∧ IsVarint bytes ∧ bytes.length ≤ 10) ∨
    ((∀ b ∈ stream, 128 ≤ b.toNat) ∧ stream.length ≤ 9) ∨
    ∃ bytes rest, stream = bytes ++ rest ∧ (∀ b ∈ bytes, 128 ≤ b.toNat) ∧ bytes.length = 10 := by
  let init := stream.takeWhile fun b => 128 ≤ b.toNat
  let tail := stream.dropWhile fun b => 128 ≤ b.toNat
  have hinit : ∀ b ∈ init, 128 ≤ b.toNat := by
    intro b hb
    simpa using List.all_eq_true.mp List.all_takeWhile b hb
  have hsplit : init ++ tail = stream := List.takeWhile_append_dropWhile
  by_cases hlong : 10 ≤ init.length
  · refine Or.inr (Or.inr ⟨init.take 10, init.drop 10 ++ tail, ?_, ?_, ?_⟩)
    · rw [← List.append_assoc, List.take_append_drop]
      exact hsplit.symm
    · exact fun b hb => hinit b (List.mem_of_mem_take hb)
    · rw [List.length_take, Nat.min_eq_left hlong]
  · cases hrest : tail with
    | nil =>
      rw [hrest, List.append_nil] at hsplit
      rw [← hsplit]
      exact Or.inr (Or.inl ⟨hinit, by omega⟩)
    | cons last rest =>
      have hlast : last.toNat < 128 := by
        have hhead := List.head?_dropWhile_not (fun b : UInt8 => decide (128 ≤ b.toNat)) stream
        rw [show stream.dropWhile _ = last :: rest from hrest] at hhead
        simpa using hhead
      rw [hrest] at hsplit
      refine Or.inl ⟨init ++ [last], rest, ?_, isVarint_concat.mpr ⟨hinit, hlast⟩, ?_⟩
      · rw [List.append_assoc]
        exact hsplit.symm
      · rw [List.length_append, List.length_singleton]
        omega

theorem toNat_ofNat_byte {n : Nat} (h : n < 256) : (UInt8.ofNat n).toNat = n :=
  UInt8.toNat_ofNat_of_lt' h

theorem writeUvarint_eq (v : UInt64) : writeUvarint v =
    if v.toNat < 128 then [UInt8.ofNat v.toNat]
    else UInt8.ofNat (v.toNat % 128 + 128) :: writeUvarint (v >>> 7) := by
  have hlow : (v &&& 0x7f).toUInt8.toNat = v.toNat % 128 := by
    have hmask : v.toNat &&& 127 = v.toNat % 128 := Nat.and_two_pow_sub_one_eq_mod v.toNat 7
    rw [UInt64.toNat_toUInt8, UInt64.toNat_and]
    change (v.toNat &&& 127) % 256 = _
    omega
  have hrest : v >>> 7 ≠ 0 ↔ ¬v.toNat < 128 := by
    rw [Ne, ← UInt64.toNat_inj, shiftRight_seven]
    change ¬_ = 0 ↔ _
    omega
  have hmore : (v &&& 0x7f).toUInt8 ||| 0x80 = UInt8.ofNat (v.toNat % 128 + 128) := by
    have hlt : v.toNat % 128 < 2 ^ 7 := Nat.mod_lt _ (by decide)
    have hadd := Nat.two_pow_add_eq_or_of_lt hlt 1
    apply UInt8.toNat_inj.mp
    rw [UInt8.toNat_or, hlow, toNat_ofNat_byte (by omega), Nat.or_comm, Nat.add_comm]
    exact hadd.symm
  rw [writeUvarint]
  by_cases hsmall : v.toNat < 128
  · have hbyte : (v &&& 0x7f).toUInt8 = UInt8.ofNat v.toNat := by
      apply UInt8.toNat_inj.mp
      rw [hlow, toNat_ofNat_byte (by omega), Nat.mod_eq_of_lt hsmall]
    rw [if_neg (fun h => hrest.mp h hsmall), if_pos hsmall, hbyte]
  · rw [if_pos (hrest.mpr hsmall), if_neg hsmall, hmore]

theorem IsVarint.cons {b : UInt8} {bytes : List UInt8} (hb : 128 ≤ b.toNat) (h : IsVarint bytes) :
    IsVarint (b :: bytes) := by
  obtain ⟨init, last, rfl, hinit, hlast⟩ := h.split
  rw [← List.cons_append, isVarint_concat]
  exact ⟨List.forall_mem_cons.mpr ⟨hb, hinit⟩, hlast⟩

theorem writeUvarint_small {v : UInt64} (h : v.toNat < 128) :
    IsVarint (writeUvarint v) ∧ groups (writeUvarint v) = v.toNat ∧
      (writeUvarint v).length = 1 := by
  have hbyte := toNat_ofNat_byte (by omega : v.toNat < 256)
  rw [writeUvarint_eq, if_pos h]
  refine ⟨(@isVarint_concat [] _).mpr ⟨by simp, by omega⟩, ?_, rfl⟩
  rw [groups, groups, hbyte]
  omega

theorem writeUvarint_groups (n : Nat) (v : UInt64) (h : v.toNat < 128 ^ (n + 1)) :
    IsVarint (writeUvarint v) ∧ groups (writeUvarint v) = v.toNat ∧
      (writeUvarint v).length ≤ n + 1 := by
  induction n generalizing v with
  | zero =>
    obtain ⟨hvarint, hgroups, hlen⟩ := writeUvarint_small h
    exact ⟨hvarint, hgroups, hlen.le⟩
  | succ n ih =>
    by_cases hsmall : v.toNat < 128
    · obtain ⟨hvarint, hgroups, hlen⟩ := writeUvarint_small hsmall
      exact ⟨hvarint, hgroups, by omega⟩
    · have hbyte := toNat_ofNat_byte (by omega : v.toNat % 128 + 128 < 256)
      have hquot : (v >>> 7).toNat < 128 ^ (n + 1) := by
        rw [shiftRight_seven]
        rw [Nat.pow_succ] at h
        omega
      obtain ⟨hvarint, hgroups, hlen⟩ := ih (v >>> 7) hquot
      rw [writeUvarint_eq, if_neg hsmall]
      refine ⟨hvarint.cons (by omega), ?_, by rw [List.length_cons]; omega⟩
      rw [groups, hbyte, hgroups, shiftRight_seven]
      omega

theorem writeUvarint_spec (v : UInt64) :
    IsVarint (writeUvarint v) ∧ groups (writeUvarint v) = v.toNat ∧
      (writeUvarint v).length ≤ 10 :=
  writeUvarint_groups 9 v (Nat.lt_trans v.toNat_lt (by decide))

theorem readUvarint_writeUvarint (v : UInt64) (rest : List UInt8) :
    readUvarint (writeUvarint v ++ rest) = .ok (v, rest) := by
  obtain ⟨hvarint, hgroups, hlen⟩ := writeUvarint_spec v
  rw [readUvarint_ok hvarint hlen, hgroups, UInt64.ofNat_toNat]

theorem readUvarint_prefix {v : UInt64} {q : List UInt8} (hq : q <+: writeUvarint v)
    (hne : q ≠ writeUvarint v) : readUvarint q = .error .unexpectedEof := by
  obtain ⟨hvarint, -, hlen⟩ := writeUvarint_spec v
  obtain ⟨init, last, hsplit, hinit, -⟩ := hvarint.split
  rw [hsplit] at hq hne hlen
  obtain heq | hpre := List.prefix_concat_iff.mp hq
  · exact absurd heq hne
  · rw [List.length_append, List.length_singleton] at hlen
    exact readUvarint_eof (fun b hb => hinit b (hpre.subset hb))
      (Nat.le_trans hpre.length_le (by omega))

theorem readExact_append (data rest : List UInt8) :
    readExact data.length (data ++ rest) = .ok (data, rest) := by
  simp [readExact]

section
variable {maxFrameLen : Nat} {tooLong : String}

/-- A written frame is read back, and refused if it is longer than the reader admits. -/
theorem readLp_writeLp {data : List UInt8} (hlen : data.length < 2 ^ 64) (rest : List UInt8) :
    readLp maxFrameLen tooLong (writeLp data ++ rest) =
      if data.length ≤ maxFrameLen then .ok (data, rest) else .error (.invalidData tooLong) := by
  have hlength : (UInt64.ofNat data.length).toNat = data.length := UInt64.toNat_ofNat_of_lt' hlen
  rw [readLp, writeLp, List.append_assoc, readUvarint_writeUvarint]
  simp only [hlength, readExact_append]
  by_cases h : data.length ≤ maxFrameLen
  · rw [if_pos h, if_neg (Nat.not_lt.mpr h)]
  · rw [if_neg h, if_pos (Nat.lt_of_not_le h)]

theorem readLp_prefix {data q : List UInt8} (hlen : data.length < 2 ^ 64)
    (hmax : data.length ≤ maxFrameLen) (hq : q <+: writeLp data) (hne : q ≠ writeLp data) :
    readLp maxFrameLen tooLong q = .error .unexpectedEof := by
  have hlength : (UInt64.ofNat data.length).toNat = data.length := UInt64.toNat_ofNat_of_lt' hlen
  by_cases hshort : q <+: writeUvarint (UInt64.ofNat data.length) ∧
      q ≠ writeUvarint (UInt64.ofNat data.length)
  · rw [readLp, readUvarint_prefix hshort.1 hshort.2]
  · -- the whole length stands at the front of q
    have hpre : writeUvarint (UInt64.ofNat data.length) <+: q := by
      obtain h | h := List.prefix_or_prefix_of_prefix hq (List.prefix_append _ data)
      · by_cases heq : q = writeUvarint (UInt64.ofNat data.length)
        · rw [heq]
        · exact absurd ⟨h, heq⟩ hshort
      · exact h
    obtain ⟨part, rfl⟩ := hpre
    have hpart : part <+: data := (List.prefix_append_right_inj _).mp hq
    have hlt : part.length < data.length := by
      apply Nat.lt_of_le_of_ne hpart.length_le
      intro heq
      exact hne (by rw [writeLp, hpart.eq_of_length heq])
    rw [readLp, readUvarint_writeUvarint]
    simp only [hlength]
    rw [if_neg (by omega), readExact, if_neg (by omega)]

end

theorem readMany_flatMap {α : Type} {read : List UInt8 → Read α} {write : α → List UInt8}
    {xs : List α} (h : ∀ x ∈ xs, ∀ rest, read (write x ++ rest) = .ok (x, rest))
    (rest : List UInt8) : readMany read xs.length (xs.flatMap write ++ rest) = .ok (xs, rest) := by
  induction xs with
  | nil => rfl
  | cons x xs ih =>
    rw [List.flatMap_cons, List.append_assoc, List.length_cons, readMany, h x (by simp)]
    simp only [ih fun y hy => h y (List.mem_cons_of_mem x hy)]

end RsWaku.Framing
