import Mathlib.Algebra.GroupWithZero.Nat
import RsWaku.Control
import RsWaku.RelayShards

/-! The node record that discovery advertises: which entries are built into it, whether they fit
the size of a record, and how a reader finds the relay shards. -/
namespace RsWaku
open Bytes Control SortedList

def rlpHeaderSize (n : Nat) : Nat := if n ≤ 55 then 1 else 1 + (Nat.log2 n / 8 + 1)

def rlpStringSize (b : List UInt8) : Nat :=
  if b.length = 1 ∧ b.headD 0 < 128 then 1 else rlpHeaderSize b.length + b.length

/-- The bytes of a record with the given entries: a list of the signature of 64 bytes, the
sequence number 1 and the entries. -/
def recordSize (entries : List (String × List UInt8)) : Nat :=
  let payload := rlpStringSize (List.replicate 64 0) + rlpStringSize [1] +
    (entries.map fun e => rlpStringSize (asBytes e.1) + rlpStringSize e.2).sum
  rlpHeaderSize payload + payload

/-- What discovery calls in the `enr` crate. The builder is given by the entries that were added to
it, a getter by the name it is asked for. -/
structure EnrBuilder where
  CombinedKey : Type
  Enr : Type
  publicKey : CombinedKey → String × List UInt8
  build : CombinedKey → List (String × List UInt8) → Except String Enr
  getDecodable : Enr → String → Option (Except String (List UInt8))

inductive DiscoveryError where
  | enrBuild (text : String)
  | init (text : String)
  | discv5 (text : String)
deriving DecidableEq

def EnrError.toString : EnrError → String
  | .tooShort length => "relay-shards field too short: " ++ length.repr ++ " bytes"
  | .indicesLengthMismatch expected actual =>
    "relay-shards indices-list length mismatch: header says " ++ expected.repr ++ ", got " ++
      actual.repr ++ " bytes"
  | .bitVectorLength expected actual =>
    "relay-shards bit-vector must be " ++ expected.repr ++ " bytes, got " ++ actual.repr
  | .shardOutOfRange shard =>
    "shard index " ++ shard.toNat.repr ++ " out of range for the bit-vector form (max " ++
      (bitVectorShards - 1).repr ++ ")"
  | .tooManyShards count =>
    "too many shards for the indices-list form: " ++ count.repr ++ " > 255"

structure DiscoveryConfig where
  listenIp : Vector UInt8 4
  udpPort : UInt16
  tcpPort : Option UInt16 := none
  externalIp : Option (Vector UInt8 4) := none
  clusterId : UInt16
  shards : List UInt16

def portBytes (port : UInt16) : List UInt8 := (u16ToBeBytes port).dropWhile (· = 0)

def wakuEntries (config : DiscoveryConfig) (rsBytes : List UInt8) : List (String × List UInt8) :=
  [("ip", (config.externalIp.getD config.listenIp).toList), ("udp", portBytes config.udpPort)] ++
    (config.tcpPort.map fun tcp => ("tcp", portBytes tcp)).toList ++ [("rs", rsBytes)]

/-- A record of at most 295 bytes is built; `enr` 0.13 counts eight bytes for the headers and
refuses those that come closer to the 300 of the format. A record that is built gives its entries
back. -/
structure EnrBuilder.Documented (crate : EnrBuilder) : Prop where
  key : ∀ key, ((crate.publicKey key).1 = "secp256k1" ∧ (crate.publicKey key).2.length = 33) ∨
    ((crate.publicKey key).1 = "ed25519" ∧ (crate.publicKey key).2.length = 32)
  fits : ∀ key config rsBytes,
    recordSize (("id", asBytes "v4") :: crate.publicKey key :: wakuEntries config rsBytes) ≤ 295 →
    ∃ enr, crate.build key (wakuEntries config rsBytes) = .ok enr
  entries : ∀ key config rsBytes enr, crate.build key (wakuEntries config rsBytes) = .ok enr →
    ∀ name, name ≠ "id" → name ≠ (crate.publicKey key).1 →
      crate.getDecodable enr name = ((wakuEntries config rsBytes).lookup name).map .ok

variable (crate : EnrBuilder)

def buildWakuEnr (key : crate.CombinedKey) (config : DiscoveryConfig) :
    Except DiscoveryError crate.Enr := do
  let shards := RelayShards.new config.clusterId config.shards
  let rsBytes ← shards.toIndicesList.mapError fun e => .enrBuild e.toString
  (crate.build key (wakuEntries config rsBytes)).mapError .enrBuild

/-- An indices list that does not decode hides the bit vector. -/
def enrRelayShards (enr : crate.Enr) : Option RelayShards :=
  match crate.getDecodable enr "rs" with
  | some (.ok bytes) => (RelayShards.fromIndicesList bytes).toOption
  | _ =>
    match crate.getDecodable enr "rsv" with
    | some (.ok bytes) => (RelayShards.fromBitVector bytes).toOption
    | _ => none

/-- The record carries the shards in one of the two forms: the indices list for at most 64 of them
and the bit vector for more. -/
def HasPrescribedForm (rs : RelayShards) (enr : crate.Enr) : Prop :=
  if rs.shards.length ≤ 64 then
    crate.getDecodable enr "rsv" = none ∧ ∃ bytes, rs.toIndicesList = .ok bytes ∧
      crate.getDecodable enr "rs" = some (.ok bytes)
  else
    crate.getDecodable enr "rs" = none ∧ ∃ bytes, rs.toBitVector = .ok bytes ∧
      crate.getDecodable enr "rsv" = some (.ok bytes)

def Advertises (key : crate.CombinedKey) (config : DiscoveryConfig) : Prop :=
  ∃ enr, buildWakuEnr crate key config = .ok enr ∧
    enrRelayShards crate enr = some (RelayShards.new config.clusterId config.shards) ∧
    HasPrescribedForm crate (RelayShards.new config.clusterId config.shards) enr

theorem rlpHeaderSize_le {n k : Nat} (h : n < 256 ^ k) (hk : 0 < k) : rlpHeaderSize n ≤ 1 + k := by
  have hpow : (256 : Nat) ^ k = 2 ^ (8 * k) := by rw [Nat.pow_mul]
  rw [rlpHeaderSize]
  split
  case isTrue => omega
  case isFalse hlong =>
    have hlog := (Nat.log2_lt (by omega)).mpr (hpow ▸ h)
    omega

theorem rlpStringSize_le_short {b : List UInt8} (h : b.length ≤ 55) :
    rlpStringSize b ≤ 1 + b.length := by
  rw [rlpStringSize, rlpHeaderSize, if_pos h]
  split <;> omega

theorem rlpStringSize_le {b : List UInt8} (h : b.length < 256) :
    rlpStringSize b ≤ 2 + b.length := by
  have hheader := @rlpHeaderSize_le b.length 1 (by omega) (by omega)
  rw [rlpStringSize]
  split <;> omega

theorem rlpStringSize_portBytes (port : UInt16) : rlpStringSize (portBytes port) ≤ 3 := by
  have hlength : (portBytes port).length ≤ 2 := (List.dropWhile_sublist _).length_le
  have hsize := @rlpStringSize_le_short (portBytes port) (by omega)
  omega

variable {crate}

theorem EnrBuilder.Documented.rlpStringSize_publicKey (hdoc : crate.Documented)
    (key : crate.CombinedKey) :
    rlpStringSize (asBytes (crate.publicKey key).1) + rlpStringSize (crate.publicKey key).2 ≤
      44 := by
  obtain ⟨hname, hlength⟩ | ⟨hname, hlength⟩ := hdoc.key key
  · have hsize := @rlpStringSize_le_short (crate.publicKey key).2 (by omega)
    have hscheme : rlpStringSize (asBytes "secp256k1") = 10 := by decide
    rw [hname]
    omega
  · have hsize := @rlpStringSize_le_short (crate.publicKey key).2 (by omega)
    have hscheme : rlpStringSize (asBytes "ed25519") = 8 := by decide
    rw [hname]
    omega

theorem size_wakuEntries_le (config : DiscoveryConfig) {rsBytes : List UInt8}
    (h : rsBytes.length ≤ 148) :
    ((wakuEntries config rsBytes).map fun e =>
      rlpStringSize (asBytes e.1) + rlpStringSize e.2).sum ≤ 175 := by
  have hip := @rlpStringSize_le_short (config.externalIp.getD config.listenIp).toList (by simp)
  rw [Vector.length_toList] at hip
  have hudp := rlpStringSize_portBytes config.udpPort
  have hrs := @rlpStringSize_le rsBytes (by omega)
  obtain ⟨hipName, hudpName, htcpName, hrsName⟩ : rlpStringSize (asBytes "ip") = 3 ∧
      rlpStringSize (asBytes "udp") = 4 ∧ rlpStringSize (asBytes "tcp") = 4 ∧
      rlpStringSize (asBytes "rs") = 3 := by decide
  rw [wakuEntries]
  cases config.tcpPort with
  | none =>
    simp only [Option.map_none, Option.toList_none, List.append_nil, List.cons_append,
      List.nil_append, List.map_cons, List.map_nil, List.sum_cons, List.sum_nil, hipName, hudpName,
      hrsName]
    omega
  | some tcp =>
    have htcp := rlpStringSize_portBytes tcp
    simp only [Option.map_some, Option.toList_some, List.cons_append, List.nil_append,
      List.map_cons, List.map_nil, List.sum_cons, List.sum_nil, hipName, hudpName, htcpName,
      hrsName]
    omega

theorem recordSize_le (hdoc : crate.Documented) (key : crate.CombinedKey)
    (config : DiscoveryConfig) {rsBytes : List UInt8} (h : rsBytes.length ≤ 148) :
    recordSize (("id", asBytes "v4") :: crate.publicKey key :: wakuEntries config rsBytes) ≤
      295 := by
  have hkey := hdoc.rlpStringSize_publicKey key
  have hentries := size_wakuEntries_le config h
  obtain ⟨hsignature, hseq, hid, hv4⟩ : rlpStringSize (List.replicate 64 0) = 66 ∧
      rlpStringSize [1] = 1 ∧ rlpStringSize (asBytes "id") = 3 ∧
      rlpStringSize (asBytes "v4") = 3 := by decide
  rw [recordSize, List.map_cons, List.map_cons, List.sum_cons, List.sum_cons, hsignature, hseq]
  dsimp only
  rw [hid, hv4]
  have hheader {n : Nat} (hn : n ≤ 292) : rlpHeaderSize n + n ≤ 295 := by
    have hle := @rlpHeaderSize_le n 2 (by omega) (by decide)
    omega
  exact hheader (by omega)

theorem lookup_wakuEntries (config : DiscoveryConfig) (rsBytes : List UInt8) :
    (wakuEntries config rsBytes).lookup "rs" = some rsBytes ∧
      (wakuEntries config rsBytes).lookup "rsv" = none := by
  unfold wakuEntries
  cases config.tcpPort with
  | none => exact ⟨rfl, rfl⟩
  | some tcp => exact ⟨rfl, rfl⟩

theorem build_wakuEntries (hdoc : crate.Documented) {key : crate.CombinedKey}
    {config : DiscoveryConfig} {rsBytes : List UInt8} {enr : crate.Enr}
    (h : crate.build key (wakuEntries config rsBytes) = .ok enr) :
    crate.getDecodable enr "rs" = some (.ok rsBytes) ∧ crate.getDecodable enr "rsv" = none := by
  obtain ⟨hrs, hrsv⟩ := lookup_wakuEntries config rsBytes
  have hname : ∀ name ∈ ["rs", "rsv"], name ≠ "id" ∧ name ≠ (crate.publicKey key).1 := by
    obtain ⟨hscheme, _⟩ | ⟨hscheme, _⟩ := hdoc.key key
    all_goals
      rw [hscheme]
      decide
  have hentry (name : String) (hmem : name ∈ ["rs", "rsv"]) :=
    hdoc.entries key config rsBytes enr h name (hname name hmem).1 (hname name hmem).2
  constructor
  · rw [hentry "rs" (by decide), hrs]
    rfl
  · rw [hentry "rsv" (by decide), hrsv]
    rfl

theorem buildWakuEnr_eq_ok {key : crate.CombinedKey} {config : DiscoveryConfig} {enr : crate.Enr} :
    buildWakuEnr crate key config = .ok enr ↔
      ∃ rsBytes, (RelayShards.new config.clusterId config.shards).toIndicesList = .ok rsBytes ∧
        crate.build key (wakuEntries config rsBytes) = .ok enr := by
  rw [buildWakuEnr, bind_eq_ok]
  simp only [mapError_eq_ok]

theorem buildWakuEnr_rs (hdoc : crate.Documented) {key : crate.CombinedKey}
    {config : DiscoveryConfig} {enr : crate.Enr} (h : buildWakuEnr crate key config = .ok enr) :
    ∃ rsBytes, crate.getDecodable enr "rs" = some (.ok rsBytes) := by
  obtain ⟨rsBytes, _, hbuild⟩ := buildWakuEnr_eq_ok.mp h
  exact ⟨rsBytes, (build_wakuEntries hdoc hbuild).1⟩

theorem buildWakuEnr_of_le (hdoc : crate.Documented) (key : crate.CombinedKey)
    {config : DiscoveryConfig}
    (h : (RelayShards.new config.clusterId config.shards).shards.length ≤ 72) :
    ∃ enr rsBytes, buildWakuEnr crate key config = .ok enr ∧
      (RelayShards.new config.clusterId config.shards).toIndicesList = .ok rsBytes ∧
      crate.getDecodable enr "rs" = some (.ok rsBytes) ∧
      crate.getDecodable enr "rsv" = none := by
  obtain ⟨rsBytes, hencoded⟩ :=
    (RelayShards.new config.clusterId config.shards).toIndicesList_isOk.mpr (by omega)
  have hlength := RelayShards.length_toIndicesList hencoded
  obtain ⟨enr, hbuild⟩ :=
    hdoc.fits key config rsBytes (recordSize_le hdoc key config (by omega))
  obtain ⟨hrs, hrsv⟩ := build_wakuEntries hdoc hbuild
  exact ⟨enr, rsBytes, buildWakuEnr_eq_ok.mpr ⟨rsBytes, hencoded, hbuild⟩, hencoded, hrs, hrsv⟩

theorem advertises_of_le (hdoc : crate.Documented) (key : crate.CombinedKey)
    {config : DiscoveryConfig}
    (h : (RelayShards.new config.clusterId config.shards).shards.length ≤ 64) :
    Advertises crate key config := by
  obtain ⟨enr, rsBytes, hbuild, hencoded, hrs, hrsv⟩ :=
    @buildWakuEnr_of_le crate hdoc key config (by omega)
  refine ⟨enr, hbuild, ?_, ?_⟩
  · rw [enrRelayShards, hrs]
    dsimp only
    rw [RelayShards.fromIndicesList_eq_ok.mpr hencoded]
    rfl
  · rw [HasPrescribedForm, if_pos h]
    exact ⟨hrsv, rsBytes, hencoded, hrs⟩

theorem not_advertises_of_gt (hdoc : crate.Documented) (key : crate.CombinedKey)
    {config : DiscoveryConfig}
    (h : 64 < (RelayShards.new config.clusterId config.shards).shards.length) :
    ¬Advertises crate key config := by
  intro ⟨enr, hbuild, _, hform⟩
  rw [HasPrescribedForm, if_neg (Nat.not_le.mpr h)] at hform
  obtain ⟨rsBytes, hrs⟩ := buildWakuEnr_rs hdoc hbuild
  rw [hform.1] at hrs
  cases hrs

theorem buildWakuEnr_tooMany (key : crate.CombinedKey) {config : DiscoveryConfig}
    (h : 255 < (RelayShards.new config.clusterId config.shards).shards.length) :
    buildWakuEnr crate key config = .error (.enrBuild
      (EnrError.tooManyShards
        (RelayShards.new config.clusterId config.shards).shards.length).toString) := by
  rw [buildWakuEnr, RelayShards.toIndicesList, if_pos h]
  rfl

/-- The record of a node advertises its shards as the format prescribes exactly when at most 64 of
them are distinct. -/
theorem relay_shards_advertised_iff (crate : EnrBuilder) (hdoc : crate.Documented)
    (key : crate.CombinedKey) (config : DiscoveryConfig) :
    Advertises crate key config ↔ config.shards.toFinset.card ≤ 64 := by
  have hcard : (RelayShards.new config.clusterId config.shards).shards.length =
      config.shards.toFinset.card := length_sortDedup config.shards
  constructor
  · intro hadvertises
    by_contra hmany
    exact not_advertises_of_gt hdoc key (by omega) hadvertises
  · intro hfew
    exact advertises_of_le hdoc key (by omega)

def sampleEnrBuilder : EnrBuilder where
  CombinedKey := Unit
  Enr := List (String × List UInt8)
  publicKey _ := ("secp256k1", List.replicate 33 2)
  build _ entries :=
    let enr := ("id", asBytes "v4") :: ("secp256k1", List.replicate 33 2) :: entries
    if recordSize enr ≤ 295 then .ok enr else .error "enr exceeds max size"
  getDecodable enr name := (enr.lookup name).map .ok

theorem sampleEnrBuilder_documented : sampleEnrBuilder.Documented where
  key _ := .inl ⟨rfl, rfl⟩
  fits key config rsBytes h := ⟨_, if_pos h⟩
  entries key config rsBytes enr hbuild name hid hkey := by
    by_cases hsize : recordSize (("id", asBytes "v4") :: ("secp256k1", List.replicate 33 2) ::
        wakuEntries config rsBytes) ≤ 295
    · cases (if_pos hsize).symm.trans hbuild
      change Option.map _ (List.lookup name _) = _
      have hid' : (name == "id") = false := beq_false_of_ne hid
      have hkey' : (name == "secp256k1") = false := beq_false_of_ne hkey
      rw [List.lookup_cons, hid', List.lookup_cons, hkey']
    · cases (if_neg hsize).symm.trans hbuild

def sampleDiscovery (n : Nat) : DiscoveryConfig where
  listenIp := #v[0, 0, 0, 0]
  udpPort := 9000
  clusterId := 1
  shards := (List.range n).map UInt16.ofNat

theorem length_sampleDiscovery {n : Nat} (h : n ≤ bitVectorShards) :
    (RelayShards.new (sampleDiscovery n).clusterId (sampleDiscovery n).shards).shards.length =
      n := by
  have hnodup : (sampleDiscovery n).shards.Nodup := by
    refine List.Nodup.map_on (fun a ha b hb heq => ?_) List.nodup_range
    have ha' := Nat.lt_of_lt_of_le (List.mem_range.mp ha) h
    have hb' := Nat.lt_of_lt_of_le (List.mem_range.mp hb) h
    rw [← RelayShards.toNat_ofNat_shard ha', heq, RelayShards.toNat_ofNat_shard hb']
  rw [RelayShards.new, length_sortDedup, List.toFinset_card_of_nodup hnodup, sampleDiscovery,
    List.length_map, List.length_range]

theorem relay_shards_advertised_eight : Advertises sampleEnrBuilder () (sampleDiscovery 8) :=
  (relay_shards_advertised_iff sampleEnrBuilder sampleEnrBuilder_documented ()
    (sampleDiscovery 8)).mpr (by decide +kernel)

/- With 65 shards the record has the indices list where the bit vector belongs, and with 256 there
is no record at all. -/
theorem relay_shards_not_advertised :
    (∃ enr rsBytes, buildWakuEnr sampleEnrBuilder () (sampleDiscovery 65) = .ok enr ∧
      sampleEnrBuilder.getDecodable enr "rs" = some (.ok rsBytes) ∧
      sampleEnrBuilder.getDecodable enr "rsv" = none) ∧
    ¬Advertises sampleEnrBuilder () (sampleDiscovery 65) ∧
    buildWakuEnr sampleEnrBuilder () (sampleDiscovery 256) =
      .error (.enrBuild "too many shards for the indices-list form: 256 > 255") ∧
    ¬Advertises sampleEnrBuilder () (sampleDiscovery 256) := by
  have h65 := @length_sampleDiscovery 65 (by decide)
  have h256 := @length_sampleDiscovery 256 (by decide)
  obtain ⟨enr, rsBytes, hbuild, _, hrs, hrsv⟩ := @buildWakuEnr_of_le sampleEnrBuilder
    sampleEnrBuilder_documented () (sampleDiscovery 65) (h65.le.trans (by decide))
  refine ⟨⟨enr, rsBytes, hbuild, hrs, hrsv⟩, ?_, ?_, ?_⟩
  · exact not_advertises_of_gt sampleEnrBuilder_documented ()
      (Nat.lt_of_lt_of_eq (by decide) h65.symm)
  · rw [@buildWakuEnr_tooMany sampleEnrBuilder () (sampleDiscovery 256)
      (Nat.lt_of_lt_of_eq (by decide) h256.symm)]
    rw [h256]
    rfl
  · exact not_advertises_of_gt sampleEnrBuilder_documented ()
      (Nat.lt_of_lt_of_eq (by decide) h256.symm)

end RsWaku
