import RsWaku.BitString
import RsWaku.Bytes
import RsWaku.SortedList

/-! The relay shards that a node record carries, with their two forms on the wire: the list of
indices and the bit vector. -/
namespace RsWaku
open BitString Bytes SortedList

def bitVectorShards : Nat := 1024

def bitVectorBytes : Nat := bitVectorShards / 8

inductive EnrError where
  | tooShort (length : Nat)
  | indicesLengthMismatch (expected actual : Nat)
  | bitVectorLength (expected actual : Nat)
  | shardOutOfRange (shard : UInt16)
  | tooManyShards (count : Nat)
deriving DecidableEq

structure RelayShards where
  clusterId : UInt16
  shards : List UInt16
deriving DecidableEq

namespace RelayShards

def new (clusterId : UInt16) (shards : List UInt16) : RelayShards :=
  { clusterId, shards := sortDedup shards }

def toIndicesList (rs : RelayShards) : Except EnrError (List UInt8) :=
  if 255 < rs.shards.length then .error (.tooManyShards rs.shards.length)
  else .ok (u16ToBeBytes rs.clusterId ++ [UInt8.ofNat rs.shards.length] ++
    rs.shards.flatMap u16ToBeBytes)

def u16Chunks : List UInt8 → List UInt16
  | hi :: lo :: rest => u16FromBeBytes hi lo :: u16Chunks rest
  | _ => []

def fromIndicesList (bytes : List UInt8) : Except EnrError RelayShards :=
  match bytes with
  | hi :: lo :: count :: rest =>
    let expected := 3 + count.toNat * 2
    if bytes.length ≠ expected then .error (.indicesLengthMismatch expected bytes.length)
    else .ok { clusterId := u16FromBeBytes hi lo, shards := u16Chunks rest }
  | _ => .error (.tooShort bytes.length)

def setShard (out : List UInt8) (s : UInt16) : Except EnrError (List UInt8) :=
  let idx := s.toNat
  if bitVectorShards ≤ idx then .error (.shardOutOfRange s)
  else .ok (out.modify (2 + idx / 8) fun b => b ||| bitMask idx)

def toBitVector (rs : RelayShards) : Except EnrError (List UInt8) :=
  rs.shards.foldlM setShard (u16ToBeBytes rs.clusterId ++ List.replicate bitVectorBytes 0)

def fromBitVector (bytes : List UInt8) : Except EnrError RelayShards :=
  if bytes.length ≠ 2 + bitVectorBytes then
    .error (.bitVectorLength (2 + bitVectorBytes) bytes.length)
  else
    .ok
      { clusterId := u16FromBeBytes (bytes.getD 0 0) (bytes.getD 1 0)
        shards := ((List.range bitVectorShards).filter fun idx =>
          bytes.getD (2 + idx / 8) 0 &&& bitMask idx != 0).map UInt16.ofNat }

theorem u16Chunks_flatMap (shards : List UInt16) :
    u16Chunks (shards.flatMap u16ToBeBytes) = shards := by
  induction shards with
  | nil => rfl
  | cons s shards ih =>
    rw [List.flatMap_cons, u16ToBeBytes, List.cons_append, List.cons_append, List.nil_append,
      u16Chunks, ih, u16FromBeBytes_toBeBytes]

theorem flatMap_u16Chunks {bytes : List UInt8} (h : bytes.length % 2 = 0) :
    (u16Chunks bytes).flatMap u16ToBeBytes = bytes := by
  fun_induction u16Chunks bytes with
  | case1 hi lo rest ih =>
    have hrest : rest.length % 2 = 0 := by
      simp only [List.length_cons] at h
      omega
    rw [List.flatMap_cons, u16ToBeBytes_fromBeBytes, ih hrest]
    rfl
  | case2 bytes hshort =>
    match bytes, hshort, h with
    | [], _, _ => rfl
    | hi :: lo :: rest, hshort, _ => exact absurd rfl (hshort hi lo rest)

theorem length_flatMap_u16ToBeBytes (shards : List UInt16) :
    (shards.flatMap u16ToBeBytes).length = shards.length * 2 := by
  induction shards with
  | nil => rfl
  | cons s shards ih =>
    rw [List.flatMap_cons, List.length_append, ih, List.length_cons, u16ToBeBytes]
    simp only [List.length_cons, List.length_nil]
    omega

theorem fromIndicesList_eq_ok {bytes : List UInt8} {rs : RelayShards} :
    fromIndicesList bytes = .ok rs ↔ rs.toIndicesList = .ok bytes := by
  constructor
  · intro h
    unfold fromIndicesList at h
    split at h
    case h_1 hi lo count rest =>
      dsimp only at h
      split at h
      case isTrue => cases h
      case isFalse hlength =>
        cases h
        have hcount := count.toNat_lt
        have hrest : rest.length = count.toNat * 2 := by
          simp only [List.length_cons] at hlength
          omega
        have hbytes := @flatMap_u16Chunks rest (by omega)
        have hchunks := length_flatMap_u16ToBeBytes (u16Chunks rest)
        rw [hbytes, hrest] at hchunks
        have hlen : (u16Chunks rest).length = count.toNat := by omega
        rw [toIndicesList, if_neg (by dsimp only; omega)]
        dsimp only
        rw [hlen, hbytes, u16ToBeBytes_fromBeBytes, UInt8.ofNat_toNat]
        rfl
    case h_2 => cases h
  · intro h
    unfold toIndicesList at h
    split at h
    case isTrue => cases h
    case isFalse hcount =>
      cases h
      have hlength := length_flatMap_u16ToBeBytes rs.shards
      have hsize : UInt8.size = 256 := rfl
      have hbyte : (UInt8.ofNat rs.shards.length).toNat = rs.shards.length :=
        UInt8.toNat_ofNat_of_lt (by omega)
      change fromIndicesList (UInt8.ofNat (rs.clusterId.toNat / 256) ::
        UInt8.ofNat (rs.clusterId.toNat % 256) :: UInt8.ofNat rs.shards.length ::
        rs.shards.flatMap u16ToBeBytes) = .ok rs
      rw [fromIndicesList, if_neg (by simp only [List.length_cons, hlength, hbyte]; omega),
        u16FromBeBytes_toBeBytes, u16Chunks_flatMap]

theorem toIndicesList_isOk (rs : RelayShards) :
    (∃ bytes, rs.toIndicesList = .ok bytes) ↔ rs.shards.length ≤ 255 := by
  rw [toIndicesList]
  split
  case isTrue hmany => simp [hmany]
  case isFalse hfew => simp [Nat.le_of_not_lt hfew]

theorem length_toIndicesList {rs : RelayShards} {bytes : List UInt8}
    (h : rs.toIndicesList = .ok bytes) : bytes.length = 3 + rs.shards.length * 2 := by
  rw [toIndicesList] at h
  split at h
  case isTrue => cases h
  case isFalse =>
    cases h
    simp only [List.length_append, length_flatMap_u16ToBeBytes, u16ToBeBytes, List.length_cons,
      List.length_nil]

theorem fromIndicesList_isOk (bytes : List UInt8) :
    (∃ rs, fromIndicesList bytes = .ok rs) ↔
      3 ≤ bytes.length ∧ bytes.length = 3 + 2 * (bytes.getD 2 0).toNat := by
  unfold fromIndicesList
  split
  case h_1 hi lo count rest =>
    have hlong : 3 ≤ (hi :: lo :: count :: rest).length := by simp
    rw [and_iff_right hlong, List.getD_cons_succ, List.getD_cons_succ, List.getD_cons_zero,
      Nat.mul_comm 2]
    dsimp only
    split
    case isTrue hne => exact iff_of_false (by simp) hne
    case isFalse heq => exact iff_of_true ⟨_, rfl⟩ (not_not.mp heq)
  case h_2 hshort =>
    refine iff_of_false (by simp) fun ⟨hlong, _⟩ => ?_
    match bytes, hshort, hlong with
    | hi :: lo :: count :: rest, hshort, _ => exact hshort hi lo count rest rfl

/-- The indices list is a bijection between the descriptors with at most 255 shards, in any order
and with repetitions, and the byte strings whose length their third byte announces. -/
theorem indices_list_bijection (rs : RelayShards) (bytes : List UInt8) :
    ((∃ encoded, rs.toIndicesList = .ok encoded) ↔ rs.shards.length ≤ 255) ∧
      (∀ encoded, rs.toIndicesList = .ok encoded → fromIndicesList encoded = .ok rs) ∧
      (∀ decoded, fromIndicesList bytes = .ok decoded → decoded.toIndicesList = .ok bytes) ∧
      ((∃ decoded, fromIndicesList bytes = .ok decoded) ↔
        3 ≤ bytes.length ∧ bytes.length = 3 + 2 * (bytes.getD 2 0).toNat) :=
  ⟨rs.toIndicesList_isOk, fun _ => fromIndicesList_eq_ok.mpr, fun _ => fromIndicesList_eq_ok.mp,
    fromIndicesList_isOk bytes⟩

def bitShards (vector : List UInt8) : List UInt16 :=
  ((List.range bitVectorShards).filter (isSet vector)).map UInt16.ofNat

section BitVector
variable {vector : List UInt8} {hi lo : UInt8}

theorem setShard_cons (s : UInt16) : setShard (hi :: lo :: vector) s =
    if bitVectorShards ≤ s.toNat then .error (.shardOutOfRange s)
    else .ok (hi :: lo :: setBit vector s.toNat) := by
  rw [setShard, Nat.add_comm 2]
  rfl

theorem foldlM_setShard (shards : List UInt16) (bytes : List UInt8) :
    shards.foldlM setShard (hi :: lo :: vector) = .ok bytes ↔
      (∀ s ∈ shards, s.toNat < bitVectorShards) ∧
        bytes = hi :: lo :: (shards.map UInt16.toNat).foldl setBit vector := by
  induction shards generalizing vector with
  | nil => simp [pure, Except.pure, eq_comm]
  | cons s shards ih =>
    rw [List.foldlM_cons, setShard_cons]
    split
    case isTrue hout =>
      refine iff_of_false (by simp [bind, Except.bind]) fun ⟨hall, _⟩ => ?_
      exact absurd (hall s List.mem_cons_self) (Nat.not_lt.mpr hout)
    case isFalse hin =>
      change shards.foldlM setShard (hi :: lo :: setBit vector s.toNat) = .ok bytes ↔ _
      rw [ih, List.forall_mem_cons, List.map_cons, List.foldl_cons,
        and_iff_right (Nat.lt_of_not_le hin)]

theorem toBitVector_eq_ok {rs : RelayShards} {bytes : List UInt8} :
    rs.toBitVector = .ok bytes ↔ (∀ s ∈ rs.shards, s.toNat < bitVectorShards) ∧
      bytes = u16ToBeBytes rs.clusterId ++
        (rs.shards.map UInt16.toNat).foldl setBit (List.replicate bitVectorBytes 0) :=
  foldlM_setShard rs.shards bytes

theorem byte_of_shard {shards : List UInt16} (h : ∀ s ∈ shards, s.toNat < bitVectorShards) :
    ∀ n ∈ shards.map UInt16.toNat,
      n / 8 < (List.replicate bitVectorBytes (0 : UInt8)).length := by
  intro n hn
  obtain ⟨s, hs, rfl⟩ := List.mem_map.mp hn
  have hlt := h s hs
  rw [List.length_replicate, bitVectorBytes]
  rw [bitVectorShards] at hlt ⊢
  omega

theorem toNat_ofNat_shard {n : Nat} (h : n < bitVectorShards) : (UInt16.ofNat n).toNat = n := by
  rw [UInt16.toNat_ofNat']
  exact Nat.mod_eq_of_lt (Nat.lt_trans h (by decide))

theorem mem_bitShards {s : UInt16} :
    s ∈ bitShards vector ↔ s.toNat < bitVectorShards ∧ isSet vector s.toNat = true := by
  rw [bitShards, List.mem_map]
  constructor
  · intro ⟨n, hn, hs⟩
    obtain ⟨hlt, hset⟩ := List.mem_filter.mp hn
    rw [List.mem_range] at hlt
    rw [← hs, toNat_ofNat_shard hlt]
    exact ⟨hlt, hset⟩
  · intro ⟨hlt, hset⟩
    exact ⟨s.toNat, List.mem_filter.mpr ⟨List.mem_range.mpr hlt, hset⟩, UInt16.ofNat_toNat⟩

theorem sortedLT_bitShards (vector : List UInt8) : (bitShards vector).SortedLT := by
  refine List.Pairwise.sortedLT (List.pairwise_map.mpr ?_)
  have hrange : ((List.range bitVectorShards).filter (isSet vector)).Pairwise (· < ·) :=
    List.pairwise_lt_range.sublist List.filter_sublist
  refine hrange.imp_of_mem fun {a b} ha hb hlt => ?_
  have ha' := List.mem_range.mp (List.mem_of_mem_filter ha)
  have hb' := List.mem_range.mp (List.mem_of_mem_filter hb)
  rw [UInt16.lt_iff_toNat_lt, toNat_ofNat_shard ha', toNat_ofNat_shard hb']
  exact hlt

theorem exists_vector {bytes : List UInt8} (h : bytes.length = 2 + bitVectorBytes) :
    ∃ hi lo vector, bytes = hi :: lo :: vector ∧ vector.length = bitVectorBytes := by
  match bytes, h with
  | hi :: lo :: vector, h =>
    rw [List.length_cons, List.length_cons] at h
    exact ⟨hi, lo, vector, rfl, by omega⟩

theorem fromBitVector_cons (hlen : vector.length = bitVectorBytes) :
    fromBitVector (hi :: lo :: vector) =
      .ok { clusterId := u16FromBeBytes hi lo, shards := bitShards vector } := by
  have hbits : (fun idx => (hi :: lo :: vector).getD (2 + idx / 8) 0 &&& bitMask idx != 0) =
      isSet vector := by
    funext idx
    rw [Nat.add_comm 2]
    rfl
  rw [fromBitVector, if_neg (by rw [List.length_cons, List.length_cons, hlen]; omega), hbits]
  rfl

theorem fromBitVector_of_toBitVector {rs : RelayShards} {encoded : List UInt8}
    (h : rs.toBitVector = .ok encoded) :
    fromBitVector encoded = .ok (new rs.clusterId rs.shards) := by
  obtain ⟨hall, rfl⟩ := toBitVector_eq_ok.mp h
  have hbytes := byte_of_shard hall
  have hlen := @length_foldl_setBit (List.replicate bitVectorBytes 0) (rs.shards.map UInt16.toNat)
  rw [List.length_replicate] at hlen
  rw [u16ToBeBytes, List.cons_append, List.cons_append, List.nil_append, fromBitVector_cons hlen,
    u16FromBeBytes_toBeBytes, new]
  suffices hshards : bitShards ((rs.shards.map UInt16.toNat).foldl setBit
      (List.replicate bitVectorBytes 0)) = sortDedup rs.shards by rw [hshards]
  refine eq_sortDedup_iff.mpr ⟨sortedLT_bitShards _, fun s => ?_⟩
  rw [mem_bitShards, isSet_foldl_setBit hbytes, isSet_replicate_zero, List.mem_map]
  constructor
  · rintro ⟨-, hzero | ⟨s', hs', heq⟩⟩
    · cases hzero
    · rwa [← UInt16.toNat_inj.mp heq]
  · intro hs
    exact ⟨hall s hs, .inr ⟨s, hs, rfl⟩⟩

theorem toBitVector_of_fromBitVector (hlen : vector.length = bitVectorBytes) :
    toBitVector { clusterId := u16FromBeBytes hi lo, shards := bitShards vector } =
      .ok (hi :: lo :: vector) := by
  have hall : ∀ s ∈ bitShards vector, s.toNat < bitVectorShards :=
    fun s hs => (mem_bitShards.mp hs).1
  rw [toBitVector_eq_ok]
  dsimp only
  refine ⟨hall, ?_⟩
  have hbytes := byte_of_shard hall
  rw [u16ToBeBytes_fromBeBytes, List.cons_append, List.cons_append, List.nil_append]
  suffices hvector : vector = ((bitShards vector).map UInt16.toNat).foldl setBit
      (List.replicate bitVectorBytes 0) by rw [← hvector]
  refine ext_isSet ?_ fun i hi => ?_
  · rw [length_foldl_setBit, List.length_replicate, hlen]
  · have hi' : i < bitVectorShards := by
      rw [hlen, bitVectorBytes] at hi
      rw [bitVectorShards] at hi ⊢
      omega
    rw [Bool.eq_iff_iff, isSet_foldl_setBit hbytes, isSet_replicate_zero, List.mem_map]
    constructor
    · intro hset
      have hvalue := toNat_ofNat_shard hi'
      refine .inr ⟨UInt16.ofNat i, mem_bitShards.mpr ?_, hvalue⟩
      rw [hvalue]
      exact ⟨hi', hset⟩
    · rintro (hzero | ⟨s, hs, rfl⟩)
      · cases hzero
      · exact (mem_bitShards.mp hs).2

theorem toBitVector_isError (rs : RelayShards) :
    (∃ e, rs.toBitVector = .error e) ↔ ∃ s ∈ rs.shards, bitVectorShards ≤ s.toNat := by
  have hok := @toBitVector_eq_ok rs
  by_cases hall : ∀ s ∈ rs.shards, s.toNat < bitVectorShards
  · have hencoded := hok.mpr ⟨hall, rfl⟩
    refine iff_of_false (by simp [hencoded]) fun ⟨s, hs, hout⟩ => ?_
    exact absurd (hall s hs) (Nat.not_lt.mpr hout)
  · have hout : ∃ s ∈ rs.shards, bitVectorShards ≤ s.toNat := by
      by_contra hnone
      exact hall fun s hs => Nat.lt_of_not_le fun hle => hnone ⟨s, hs, hle⟩
    refine iff_of_true ?_ hout
    cases hresult : rs.toBitVector with
    | error e => exact ⟨e, rfl⟩
    | ok bytes => exact absurd (hok.mp hresult).1 hall

end BitVector

/-- The bit vector encodes sets of shards below 1024, and every string of 130 bytes is the encoding
of one. -/
theorem bit_vector_codec (rs : RelayShards) :
    ((∃ e, rs.toBitVector = .error e) ↔ ∃ s ∈ rs.shards, 1024 ≤ s.toNat) ∧
      (∀ encoded, rs.toBitVector = .ok encoded →
        fromBitVector encoded = .ok (new rs.clusterId rs.shards)) ∧
      ∀ bytes : List UInt8, bytes.length = 130 →
        ∃ decoded, fromBitVector bytes = .ok decoded ∧ decoded.toBitVector = .ok bytes := by
  refine ⟨rs.toBitVector_isError, fun _ => fromBitVector_of_toBitVector, fun bytes hlength => ?_⟩
  obtain ⟨hi, lo, vector, rfl, hlen⟩ := exists_vector hlength
  exact ⟨_, fromBitVector_cons hlen, toBitVector_of_fromBitVector hlen⟩

end RelayShards

inductive ShardSource where
  | new (clusterId : UInt16) (shards : List UInt16)
  | indicesList (bytes : List UInt8)
  | bitVector (bytes : List UInt8)

namespace ShardSource
open RelayShards

def relayShards : ShardSource → Except EnrError RelayShards
  | .new clusterId shards => .ok (RelayShards.new clusterId shards)
  | .indicesList bytes => fromIndicesList bytes
  | .bitVector bytes => fromBitVector bytes

def Ascending : ShardSource → Prop
  | .indicesList bytes => (u16Chunks (bytes.drop 3)).SortedLT
  | _ => True

theorem sortedLT_iff_ascending {src : ShardSource} {rs : RelayShards}
    (h : src.relayShards = .ok rs) : rs.shards.SortedLT ↔ src.Ascending := by
  cases src with
  | new clusterId shards =>
    cases h
    exact iff_of_true (sortedLT_sortDedup shards) trivial
  | indicesList bytes =>
    rw [relayShards, fromIndicesList.eq_def] at h
    split at h
    case h_1 =>
      dsimp only at h
      split at h
      case isTrue => cases h
      case isFalse =>
        cases h
        rfl
    case h_2 => cases h
  | bitVector bytes =>
    have hlength : bytes.length = 2 + bitVectorBytes := by
      by_contra hne
      rw [relayShards, fromBitVector, if_pos hne] at h
      cases h
    obtain ⟨hi, lo, vector, rfl, hlen⟩ := exists_vector hlength
    rw [relayShards, fromBitVector_cons hlen] at h
    cases h
    dsimp only
    exact iff_of_true (sortedLT_bitShards vector) trivial

end ShardSource

/-- Descriptors represent their sets in one way, unless they were read from an indices list in
which the shards do not increase. -/
theorem relay_shards_canonical_iff (src : ShardSource) (rs : RelayShards)
    (h : src.relayShards = .ok rs) :
    (rs.shards.SortedLT ∧
      ∀ (src' : ShardSource) (rs' : RelayShards), src'.relayShards = .ok rs' → src'.Ascending →
        rs'.clusterId = rs.clusterId → (∀ s, s ∈ rs'.shards ↔ s ∈ rs.shards) → rs' = rs) ↔
      src.Ascending := by
  have hsorted := ShardSource.sortedLT_iff_ascending h
  constructor
  · intro ⟨hlt, _⟩
    exact hsorted.mp hlt
  · intro hascending
    refine ⟨hsorted.mpr hascending, fun src' rs' h' hascending' hcluster hset => ?_⟩
    have hsorted' := (ShardSource.sortedLT_iff_ascending h').mpr hascending'
    have hshards := hsorted'.eq_of_mem_iff (hsorted.mpr hascending) hset
    cases rs
    cases rs'
    cases hcluster
    cases hshards
    rfl

theorem relay_shards_canonical_sample : ([0, 1] : List UInt16).SortedLT :=
  ((relay_shards_canonical_iff (.indicesList [0, 1, 2, 0, 0, 0, 1]) ⟨1, [0, 1]⟩ (by decide)).mpr
    (by decide +kernel : (RelayShards.u16Chunks [0, 0, 0, 1]).SortedLT)).1

theorem relay_shards_not_canonical :
    RelayShards.fromIndicesList [0, 1, 2, 0, 1, 0, 0] = .ok ⟨1, [1, 0]⟩ ∧
    RelayShards.fromIndicesList [0, 1, 2, 0, 0, 0, 1] = .ok ⟨1, [0, 1]⟩ ∧
    (∀ s : UInt16, s ∈ [1, 0] ↔ s ∈ [0, 1]) ∧
    ¬([1, 0] : List UInt16).SortedLT ∧
    (⟨1, [1, 0]⟩ : RelayShards) ≠ ⟨1, [0, 1]⟩ := by
  refine ⟨by decide, by decide, fun s => ?_, by decide +kernel, by decide⟩
  simp [or_comm]

end RsWaku
