import RsWaku.Framing

/-! The five copies of the length-prefixed framing, one in each crate of a request-response
protocol. They differ in the greatest frame and in the text of its error. -/
namespace RsWaku
open Framing

structure LpCopy where
  maxFrameLen : Nat
  readLp : List UInt8 → Read (List UInt8)
  writeLp : List UInt8 → List UInt8
  readUvarint : List UInt8 → Read UInt64
  writeUvarint : UInt64 → List UInt8

def lpCopy (maxFrameLen : Nat) (tooLong : String) : LpCopy where
  maxFrameLen := maxFrameLen
  readLp := Framing.readLp maxFrameLen tooLong
  writeLp := Framing.writeLp
  readUvarint := Framing.readUvarint
  writeUvarint := Framing.writeUvarint

/-- Here the payload before `WakuMetadata::decode` and after `encode_to_vec`. -/
def metadataLp : LpCopy := lpCopy (64 * 1024) "metadata frame exceeds maximum length"

def storeLp : LpCopy := lpCopy (100 * 1024 * 1024) "store frame exceeds maximum length"

def lightpushLp : LpCopy := lpCopy (1024 * 1024) "lightpush frame exceeds maximum length"

def peerExchangeLp : LpCopy := lpCopy (1024 * 1024) "peer-exchange frame exceeds maximum length"

def filterLp : LpCopy := lpCopy (1024 * 1024) "filter frame exceeds maximum length"

def lpCopies : List LpCopy := [metadataLp, storeLp, lightpushLp, peerExchangeLp, filterLp]

theorem mem_lpCopies {c : LpCopy} (hc : c ∈ lpCopies) :
    ∃ maxFrameLen tooLong, maxFrameLen < 2 ^ 64 ∧ c = lpCopy maxFrameLen tooLong := by
  simp only [lpCopies, List.mem_cons, List.not_mem_nil, or_false] at hc
  obtain rfl | rfl | rfl | rfl | rfl := hc
  · exact ⟨64 * 1024, _, by decide, rfl⟩
  · exact ⟨100 * 1024 * 1024, _, by decide, rfl⟩
  · exact ⟨1024 * 1024, _, by decide, rfl⟩
  · exact ⟨1024 * 1024, _, by decide, rfl⟩
  · exact ⟨1024 * 1024, _, by decide, rfl⟩

theorem lpCopy_readLp_writeLp (maxFrameLen : Nat) (tooLong : String) {data : List UInt8}
    (hlen : data.length < 2 ^ 64) :
    (lpCopy maxFrameLen tooLong).readLp ((lpCopy maxFrameLen tooLong).writeLp data) =
      if data.length ≤ maxFrameLen then .ok (data, []) else .error (.invalidData tooLong) := by
  have hread := @readLp_writeLp maxFrameLen tooLong data hlen []
  rwa [List.append_nil] at hread

/-- The frames of a sequence are read back one by one, whatever follows them, and no proper
prefix of a frame is read as one. -/
theorem framing_prefix_free (c : LpCopy) (hc : c ∈ lpCopies) :
    (∀ (frames : List (List UInt8)) (further : List UInt8),
      (∀ f ∈ frames, f.length ≤ c.maxFrameLen) →
      readMany c.readLp frames.length (frames.flatMap c.writeLp ++ further) =
        .ok (frames, further)) ∧
    ∀ data q : List UInt8, data.length ≤ c.maxFrameLen → q <+: c.writeLp data →
      q ≠ c.writeLp data → ∃ e, c.readLp q = .error e := by
  obtain ⟨maxFrameLen, tooLong, hmax, rfl⟩ := mem_lpCopies hc
  constructor
  · intro frames further hlen
    apply readMany_flatMap
    intro f hf rest
    have hf := hlen f hf
    exact (readLp_writeLp (Nat.lt_of_le_of_lt hf hmax) rest).trans (if_pos hf)
  · intro data q hdata hq hne
    exact ⟨_, readLp_prefix (Nat.lt_of_le_of_lt hdata hmax) hdata hq hne⟩

theorem framing_prefix_free_sample :
    readMany metadataLp.readLp 2 ([[1, 2, 3], []].flatMap metadataLp.writeLp ++ [9]) =
      .ok ([[1, 2, 3], []], [9]) :=
  (framing_prefix_free metadataLp (by simp [lpCopies])).1 [[1, 2, 3], []] [9] (by decide)

/-- A reader of varints is faithful on a stream: its value is the whole sum of the groups it
consumed, and it fails if the sum exceeds 64 bits, if the stream ends inside the varint and if
the varint has more than ten bytes. -/
structure VarintFaithful (read : List UInt8 → Read UInt64) (stream : List UInt8) : Prop where
  exact : ∀ v rest, read stream = .ok (v, rest) → ∃ bytes, stream = bytes ++ rest ∧
    IsVarint bytes ∧ v.toNat = (bytes.mapIdx fun i b => b.toNat % 128 * 2 ^ (7 * i)).sum
  fits : ∀ bytes rest, stream = bytes ++ rest → IsVarint bytes →
    2 ^ 64 ≤ (bytes.mapIdx fun i b => b.toNat % 128 * 2 ^ (7 * i)).sum →
    ∃ e, read stream = .error e
  complete : (∀ b ∈ stream, 128 ≤ b.toNat) → ∃ e, read stream = .error e
  short : ∀ bytes rest, stream = bytes ++ rest → bytes.length = 10 →
    (∀ b ∈ bytes, 128 ≤ b.toNat) → ∃ e, read stream = .error e

def LosesBits (stream : List UInt8) : Prop :=
  ∃ nine b rest, stream = nine ++ b :: rest ∧ nine.length = 9 ∧ (∀ x ∈ nine, 128 ≤ x.toNat) ∧
    2 ≤ b.toNat ∧ b.toNat < 128

theorem groups_fits {bytes rest : List UInt8} (h : IsVarint bytes) (hlen : bytes.length ≤ 10)
    (hkept : ¬LosesBits (bytes ++ rest)) : groups bytes < 2 ^ 64 := by
  obtain ⟨init, last, rfl, hinit, hlast⟩ := h.split
  rw [List.length_append, List.length_singleton] at hlen
  have hlow := groups_lt init
  rw [groups_concat, Nat.mod_eq_of_lt hlast]
  by_cases hnine : init.length = 9
  · have hbit : last.toNat < 2 := by
      by_contra hbig
      refine hkept ⟨init, last, rest, ?_, hnine, hinit, by omega, hlast⟩
      rw [List.append_assoc, List.singleton_append]
    rw [hnine] at hlow ⊢
    omega
  · have hpow : 128 ^ init.length ≤ 128 ^ 8 := Nat.pow_le_pow_right (by decide) (by omega)
    have hgroup : 128 ^ init.length * last.toNat ≤ 128 ^ init.length * 127 :=
      Nat.mul_le_mul_left _ (by omega)
    omega

theorem readUvarint_losesBits {stream : List UInt8} (h : LosesBits stream) :
    ¬VarintFaithful readUvarint stream := by
  obtain ⟨nine, b, rest, rfl, hnine, hcontinued, hlow, hhigh⟩ := h
  intro hfaithful
  have hvarint : IsVarint (nine ++ [b]) := isVarint_concat.mpr ⟨hcontinued, hhigh⟩
  have hread : readUvarint (nine ++ b :: rest) =
      .ok (UInt64.ofNat (groups (nine ++ [b])), rest) := by
    have hok := readUvarint_ok hvarint (by simp [hnine]) rest
    rwa [List.append_assoc, List.singleton_append] at hok
  obtain ⟨e, he⟩ := hfaithful.fits (nine ++ [b]) rest (by simp) hvarint (by
    rw [← groups_eq_sum, groups_concat, hnine, Nat.mod_eq_of_lt hhigh]
    omega)
  rw [hread] at he
  cases he

theorem readUvarint_complete {stream : List UInt8} (h : ∀ b ∈ stream, 128 ≤ b.toNat) :
    ∃ e, readUvarint stream = .error e := by
  by_cases hlen : stream.length ≤ 9
  · exact ⟨_, readUvarint_eof h hlen⟩
  · have hten : (stream.take 10).length = 10 := by
      rw [List.length_take]
      omega
    rw [← List.take_append_drop 10 stream]
    exact ⟨_, readUvarint_overflow (fun b hb => h b (List.mem_of_mem_take hb)) hten _⟩

theorem readUvarint_too_long {bytes : List UInt8} (h : IsVarint bytes) (hlen : 10 < bytes.length)
    (rest : List UInt8) : ∃ e, readUvarint (bytes ++ rest) = .error e := by
  obtain ⟨init, last, rfl, hinit, -⟩ := h.split
  rw [List.length_append, List.length_singleton] at hlen
  have hten : (init.take 10).length = 10 := by
    rw [List.length_take]
    omega
  rw [← List.take_append_drop 10 init, List.append_assoc, List.append_assoc]
  exact ⟨_, readUvarint_overflow (fun b hb => hinit b (List.mem_of_mem_take hb)) hten _⟩

theorem readUvarint_exact {stream : List UInt8} (hkept : ¬LosesBits stream) {v : UInt64}
    {rest : List UInt8} (hread : readUvarint stream = .ok (v, rest)) :
    ∃ bytes, stream = bytes ++ rest ∧ IsVarint bytes ∧ v.toNat = groups bytes := by
  obtain ⟨bytes, rest', rfl, hvarint, hlen⟩ | ⟨hcontinued, hlen⟩ |
    ⟨bytes, rest', rfl, hcontinued, hlen⟩ := stream_cases stream
  · rw [readUvarint_ok hvarint hlen] at hread
    cases hread
    exact ⟨bytes, rfl, hvarint, UInt64.toNat_ofNat_of_lt' (groups_fits hvarint hlen hkept)⟩
  · rw [readUvarint_eof hcontinued hlen] at hread
    cases hread
  · rw [readUvarint_overflow hcontinued hlen] at hread
    cases hread

/-- Each copy decodes faithfully exactly the streams that lose no bits in their tenth byte. -/
theorem read_uvarint_faithful_iff (c : LpCopy) (hc : c ∈ lpCopies) (stream : List UInt8) :
    VarintFaithful c.readUvarint stream ↔ ¬LosesBits stream := by
  obtain ⟨_, _, -, rfl⟩ := mem_lpCopies hc
  constructor
  · intro hfaithful hloses
    exact readUvarint_losesBits hloses hfaithful
  · intro hkept
    refine ⟨fun v rest hread => ?_, ?_, readUvarint_complete, ?_⟩
    · simp only [← groups_eq_sum]
      exact readUvarint_exact hkept hread
    · rintro bytes rest rfl hvarint hbig
      rw [← groups_eq_sum] at hbig
      by_cases hlen : bytes.length ≤ 10
      · exact absurd (groups_fits hvarint hlen hkept) (Nat.not_lt.mpr hbig)
      · exact readUvarint_too_long hvarint (by omega) rest
    · rintro bytes rest rfl hlen hcontinued
      exact ⟨_, readUvarint_overflow hcontinued hlen rest⟩

theorem read_uvarint_faithful_sample : VarintFaithful storeLp.readUvarint [172, 2] := by
  refine (read_uvarint_faithful_iff storeLp (by simp [lpCopies]) [172, 2]).mpr ?_
  rintro ⟨nine, b, rest, hstream, hnine, -⟩
  have hlen := congrArg List.length hstream
  rw [List.length_append, hnine] at hlen
  simp at hlen
  omega

/- A ten-byte varint of 2^64 is read as 0. -/
theorem read_uvarint_drops_bit :
    storeLp.readUvarint [128, 128, 128, 128, 128, 128, 128, 128, 128, 2] = .ok (0, []) ∧
    ¬VarintFaithful storeLp.readUvarint [128, 128, 128, 128, 128, 128, 128, 128, 128, 2] := by
  have hloses : LosesBits [128, 128, 128, 128, 128, 128, 128, 128, 128, 2] :=
    ⟨List.replicate 9 128, 2, [], rfl, List.length_replicate, by simp, by decide, by decide⟩
  exact ⟨by decide +kernel, readUvarint_losesBits hloses⟩

end RsWaku
