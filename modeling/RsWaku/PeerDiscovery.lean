import RsWaku.DiscoveryLoop
import RsWaku.ProtocolCodecs
import RsWaku.RestSubscribe

/-! How the record of a node reaches other nodes: the node advertises it under its own key, others
keep it in their books and pass it on by peer exchange, and whoever gets it can dial the node. -/
namespace RsWaku
open BaseN BoundedQueue Bytes Control FirstSeen Framing Protobuf Wire

structure IdentityCrate extends DiscoveryCrate where
  Keypair : Type
  toPeerId : Keypair → PeerId
  secp256k1Secret : Keypair → Option (List UInt8)
  secp256k1FromBytes : List UInt8 → Except String CombinedKey

structure DiscoverySettings where
  udpPort : UInt16
  advertisedIp : Vector UInt8 4
  advertisedTcpPort : UInt16

def DiscoveryError.toString : DiscoveryError → String
  | .enrBuild text => "ENR build failed: " ++ text
  | .init text => "discv5 init failed: " ++ text
  | .discv5 text => "discv5 error: " ++ text

/-- The configuration that `spawn` makes of the settings; it listens on localhost. -/
def DiscoverySettings.config (settings : DiscoverySettings) (clusterId : UInt16)
    (shards : List UInt16) : DiscoveryConfig where
  listenIp := #v[127, 0, 0, 1]
  udpPort := settings.udpPort
  tcpPort := some settings.advertisedTcpPort
  externalIp := some settings.advertisedIp
  clusterId
  shards

def keypairToCombined (crate : IdentityCrate) (keypair : crate.Keypair) :
    Except NodeError crate.CombinedKey := do
  let secret ← okOr (crate.secp256k1Secret keypair)
    (.build "node identity must be secp256k1 for discv5")
  (crate.secp256k1FromBytes secret).mapError .build

def discv5Enr (crate : IdentityCrate) (keypair : crate.Keypair) (clusterId : UInt16)
    (shards : List UInt16) (settings : DiscoverySettings) (start : Except DiscoveryError Unit) :
    Except NodeError crate.Enr := do
  let key ← keypairToCombined crate keypair
  let enr ← (buildWakuEnr crate.builder key (settings.config clusterId shards)).mapError
    fun e => .build e.toString
  let () ← start.mapError fun e => .build e.toString
  return enr

def enrFromBytes (crate : DiscoveryCrate) (bytes : List UInt8) : Option crate.Enr :=
  crate.enrFromStr ("enr:" ++ base64Url.encode bytes)

def PeerExchangeRpc.enrs (rpc : PeerExchangeRpc) : List (List UInt8) := rpc.response.getD []

def askForPeers (crate : DiscoveryCrate) (book : List crate.Enr) (numPeers : UInt64) :
    Except IoError (List crate.Enr) := do
  let (query, _) ← readMessage peerExchangeLp peerExchangeRpc
    (writeMessage peerExchangeLp peerExchangeRpc (.ofQuery numPeers))
  let (rpc, _) ← readMessage peerExchangeLp peerExchangeRpc
    (writeMessage peerExchangeLp peerExchangeRpc (servePeerExchange crate.records book query))
  return rpc.enrs.filterMap (enrFromBytes crate)

section Exchange
variable {crate : DiscoveryCrate}

def DiscoveryCrate.ReadsText (crate : DiscoveryCrate) : Prop :=
  ∀ enr, crate.enrFromStr (crate.toBase64 enr) = some enr

theorem enrFromBytes_rlp (hdoc : crate.records.Documented) (hread : crate.ReadsText)
    (enr : crate.Enr) : enrFromBytes crate (crate.rlp enr) = some enr := by
  rw [← hread enr]
  exact congrArg crate.enrFromStr (hdoc.text enr).symm

theorem servePeerExchange_eq (hdoc : crate.records.Documented) (book : List crate.Enr)
    (numPeers : UInt64) : servePeerExchange crate.records book (.ofQuery numPeers) =
      .ofResponse ((book.take numPeers.toNat).map crate.rlp) :=
  congrArg PeerExchangeRpc.ofResponse (List.map_congr_left fun enr _ => enrToBytes_eq hdoc enr)

theorem readMessage_peerExchange {rpc : PeerExchangeRpc}
    (h : (peerExchangeRpc.encode rpc).length ≤ 1024 * 1024) :
    readMessage peerExchangeLp peerExchangeRpc (writeMessage peerExchangeLp peerExchangeRpc rpc) =
      .ok (rpc, []) := by
  have hlp : peerExchangeLp ∈ lpCopies := by simp [lpCopies]
  have hread := (readsBack hlp (fun _ => peerExchangeRpc_decode_encode) rpc).fits h []
  rwa [List.append_nil] at hread

theorem length_peerExchangeQuery_le (numPeers : UInt64) :
    (peerExchangeQuery.encode numPeers).length ≤ 20 := by
  change (encodeFields (plain 0 (fun n : UInt64 => ⟨1, .varint n.toNat⟩) numPeers)).length ≤ 20
  rw [plain]
  split
  · decide
  · have hkey := length_encodeVarint_le (1 * 8 + 0)
    have hvalue := length_encodeVarint_le numPeers.toNat
    simp only [encodeFields, encodeField, Value.encode, Value.wireType, List.flatMap_cons,
      List.flatMap_nil, List.append_nil, List.length_append]
    omega

theorem length_query_le (numPeers : UInt64) :
    (peerExchangeRpc.encode (.ofQuery numPeers)).length ≤ 1024 * 1024 := by
  change (encodeFields (optional (fun n => ⟨1, .len (peerExchangeQuery.encode n)⟩)
    (some numPeers) ++ [])).length ≤ _
  rw [List.append_nil, length_optional, Option.map_some, Option.getD_some]
  have hfield := lenFieldSize_le 1 (peerExchangeQuery.encode numPeers).length
  have hquery := length_peerExchangeQuery_le numPeers
  omega

theorem askForPeers_eq (hdoc : crate.records.Documented) (hread : crate.ReadsText)
    (book : List crate.Enr) (hbook : book.length ≤ peerBookCap) (numPeers : UInt64) :
    askForPeers crate book numPeers = .ok (book.take numPeers.toNat) := by
  have hsize : (peerExchangeRpc.encode
      (.ofResponse ((book.take numPeers.toNat).map crate.rlp))).length ≤ 1024 * 1024 := by
    refine (@length_response_le 300 _ ?_).trans ?_
    · intro b hb
      obtain ⟨enr, -, rfl⟩ := List.mem_map.mp hb
      exact hdoc.size enr
    · rw [List.length_map, List.length_take]
      rw [peerBookCap] at hbook
      omega
  have hserved := readMessage_peerExchange hsize
  rw [← servePeerExchange_eq hdoc] at hserved
  refine bind_eq_ok.mpr ⟨_, readMessage_peerExchange (length_query_le numPeers), ?_⟩
  refine bind_eq_ok.mpr ⟨_, hserved, congrArg Except.ok ?_⟩
  rw [servePeerExchange_eq hdoc]
  change ((book.take numPeers.toNat).map crate.rlp).filterMap (enrFromBytes crate) = _
  rw [List.filterMap_map]
  exact (List.filterMap_congr fun enr _ => enrFromBytes_rlp hdoc hread enr).trans
    List.filterMap_some

def recordsMet (bootstrap : List crate.Enr) (rounds : List (Round crate)) : List crate.Enr :=
  bootstrap ++ (dialable (foundBy rounds)).map DiscoveredPeer.enr

theorem discoveryLoop_book (bootstrap : List crate.Enr) (rounds : List (Round crate))
    (sends : Nat) : (discoveryLoop bootstrap rounds sends).state.book =
      bookAfter crate.records (recordsMet bootstrap rounds) :=
  congrArg (fun x => x.1.book) (discoveryLoop_eq bootstrap rounds sends)

theorem bookAfter_sublist (calls : List crate.Enr) :
    (bookAfter crate.records calls).Sublist calls := by
  have hlast := foldl_pushNew crate.nodeId (by decide : 0 < peerBookCap) calls
  have hsub := (rtake_sublist _ peerBookCap).trans (admitted_sublist crate.nodeId peerBookCap calls)
  rw [← hlast] at hsub
  exact hsub

/-- Whatever a node has discovered, a peer that asks it for records gets the first records of its
book as they are, each of a node of its own. Of up to 200 records that were met it gets the first
of each node, if it asks for as many. -/
theorem exchanged_records (crate : DiscoveryCrate) (hdoc : crate.records.Documented)
    (hread : crate.ReadsText) (bootstrap : List crate.Enr) (rounds : List (Round crate))
    (sends : Nat) (numPeers : UInt64) :
    ∃ enrs, askForPeers crate (discoveryLoop bootstrap rounds sends).state.book numPeers =
        .ok enrs ∧
      enrs.Sublist (recordsMet bootstrap rounds) ∧ (enrs.map crate.nodeId).Nodup ∧
      enrs.length ≤ min numPeers.toNat peerBookCap ∧
      ((recordsMet bootstrap rounds).length ≤ min numPeers.toNat peerBookCap →
        enrs = fresh crate.nodeId ∅ (recordsMet bootstrap rounds)) := by
  have hbook := discoveryLoop_book bootstrap rounds sends
  generalize recordsMet bootstrap rounds = met at hbook ⊢
  have hcap : (bookAfter crate.records met).length ≤ peerBookCap :=
    @length_bookAfter_le crate.records met
  have htake : ((bookAfter crate.records met).take numPeers.toNat).Sublist
      (bookAfter crate.records met) := List.take_sublist ..
  have hnodup : ((bookAfter crate.records met).map crate.nodeId).Nodup :=
    nodup_foldl_pushNew crate.nodeId peerBookCap met
  rw [hbook]
  refine ⟨_, askForPeers_eq hdoc hread _ hcap numPeers, htake.trans (bookAfter_sublist met),
    hnodup.sublist (htake.map _), ?_, fun hfew => ?_⟩
  · rw [List.length_take]
    exact le_min (Nat.min_le_left ..) ((Nat.min_le_right ..).trans hcap)
  · have hall : bookAfter crate.records met = fresh crate.nodeId ∅ met :=
      foldl_pushNew_eq_fresh met (hfew.trans (Nat.min_le_right ..))
    rw [hall]
    refine List.take_of_length_le ((fresh_sublist ..).length_le.trans ?_)
    exact hfew.trans (Nat.min_le_left ..)

theorem sampleNetwork_readsText : sampleNetwork.ReadsText := SampleEnr.ofText_text

theorem exchanged_records_sample :
    askForPeers sampleNetwork (@discoveryLoop sampleNetwork [SampleEnr.first]
      [⟨false, .ok [SampleEnr.second, .first]⟩] 10).state.book 5 =
        .ok [SampleEnr.first, .second] := by
  obtain ⟨enrs, hasked, -, -, -, hall⟩ := exchanged_records sampleNetwork
    sampleEnrCrate_documented sampleNetwork_readsText [SampleEnr.first]
    [⟨false, .ok [SampleEnr.second, .first]⟩] 10 5
  exact hasked.trans (congrArg Except.ok (hall (by decide)))

end Exchange

section Advertised
variable {crate : IdentityCrate}

/-- The getters of a record read the entries it was built of, and its key leads to the peer id. -/
structure IdentityCrate.Documented (crate : IdentityCrate) : Prop where
  builder : crate.builder.Documented
  ip4 : ∀ enr ip, crate.getDecodable enr "ip" = some (.ok ip.toList) → crate.ip4 enr = some ip
  tcp4 : ∀ enr port, crate.getDecodable enr "tcp" = some (.ok (portBytes port)) →
    crate.tcp4 enr = some port
  encodedKey : ∀ key entries enr, crate.build key entries = .ok enr →
    crate.encodedKey enr = (crate.publicKey key).2
  secret : ∀ keypair secret, crate.secp256k1Secret keypair = some secret →
    ∃ key, crate.secp256k1FromBytes secret = .ok key ∧
      crate.secp256k1PeerId (crate.publicKey key).2 = some (crate.toPeerId keypair)

theorem lookup_config (settings : DiscoverySettings) (clusterId : UInt16) (shards : List UInt16)
    (rsBytes : List UInt8) :
    (wakuEntries (settings.config clusterId shards) rsBytes).lookup "ip" =
        some settings.advertisedIp.toList ∧
      (wakuEntries (settings.config clusterId shards) rsBytes).lookup "tcp" =
        some (portBytes settings.advertisedTcpPort) ∧
      (wakuEntries (settings.config clusterId shards) rsBytes).lookup "rs" = some rsBytes :=
  ⟨rfl, rfl, rfl⟩

theorem buildWakuEnr_config (hdoc : crate.Documented) (key : crate.CombinedKey)
    (clusterId : UInt16) {shards : List UInt16} (h : shards.toFinset.card ≤ 72)
    (settings : DiscoverySettings) :
    ∃ enr, buildWakuEnr crate.builder key (settings.config clusterId shards) = .ok enr ∧
      crate.encodedKey enr = (crate.publicKey key).2 ∧
      enrRelayShards crate.builder enr = some (.new clusterId shards) ∧
      crate.ip4 enr = some settings.advertisedIp ∧
      crate.tcp4 enr = some settings.advertisedTcpPort := by
  have hcard : (RelayShards.new clusterId shards).shards.length = shards.toFinset.card :=
    SortedList.length_sortDedup shards
  obtain ⟨rsBytes, hencoded⟩ := (RelayShards.new clusterId shards).toIndicesList_isOk.mpr (by omega)
  have hlength := RelayShards.length_toIndicesList hencoded
  obtain ⟨enr, hbuild⟩ := hdoc.builder.fits key (settings.config clusterId shards) rsBytes
    (recordSize_le hdoc.builder key _ (by omega))
  have hname : ∀ name ∈ ["ip", "tcp", "rs"], name ≠ "id" ∧ name ≠ (crate.publicKey key).1 := by
    obtain ⟨hscheme, _⟩ | ⟨hscheme, _⟩ := hdoc.builder.key key
    all_goals
      rw [show (crate.publicKey key).1 = _ from hscheme]
      decide
  have hentry (name : String) (hmem : name ∈ ["ip", "tcp", "rs"]) :=
    hdoc.builder.entries key (settings.config clusterId shards) rsBytes enr hbuild name
      (hname name hmem).1 (hname name hmem).2
  obtain ⟨hip, htcp, hrs⟩ := lookup_config settings clusterId shards rsBytes
  refine ⟨enr, buildWakuEnr_eq_ok.mpr ⟨rsBytes, hencoded, hbuild⟩, hdoc.encodedKey _ _ _ hbuild,
    ?_, hdoc.ip4 _ _ ?_, hdoc.tcp4 _ _ ?_⟩
  · rw [enrRelayShards, hentry "rs" (by decide), hrs]
    dsimp only [Option.map_some]
    rw [RelayShards.fromIndicesList_eq_ok.mpr hencoded]
    rfl
  · exact (hentry "ip" (by decide)).trans (congrArg _ hip)
  · exact (hentry "tcp" (by decide)).trans (congrArg _ htcp)

theorem keypairToCombined_ok (hdoc : crate.Documented) {keypair : crate.Keypair}
    (h : (crate.secp256k1Secret keypair).isSome) :
    ∃ key, keypairToCombined crate keypair = .ok key ∧
      crate.secp256k1PeerId (crate.publicKey key).2 = some (crate.toPeerId keypair) := by
  obtain ⟨secret, hsecret⟩ := Option.isSome_iff_exists.mp h
  obtain ⟨key, hkey, hpeer⟩ := hdoc.secret keypair secret hsecret
  refine ⟨key, bind_eq_ok.mpr ⟨secret, okOr_eq_ok.mpr hsecret, ?_⟩, hpeer⟩
  exact mapError_eq_ok.mpr hkey

/-- The record that a node advertises leads back to the node: to its peer id, the address of its
settings and its shards. Exactly the nodes of its cluster take it from discv5, and a node that
meets it dials the peer. -/
theorem advertised_record_dialable (crate : IdentityCrate) (hdoc : crate.Documented)
    (keypair : crate.Keypair) (hsecp : (crate.secp256k1Secret keypair).isSome)
    (clusterId : UInt16) (shards : List UInt16) (hshards : shards.toFinset.card ≤ 72)
    (settings : DiscoverySettings) :
    ∃ enr, discv5Enr crate keypair clusterId shards settings (.ok ()) = .ok enr ∧
      enrToDialable crate.toDiscoveryCrate enr = some ⟨crate.toPeerId keypair,
        [[.ofIp4 settings.advertisedIp, .tcp settings.advertisedTcpPort,
          .p2p (crate.toPeerId keypair)]], .new clusterId shards, enr⟩ ∧
      (∀ cluster, inCluster crate.toDiscoveryCrate cluster enr = true ↔ cluster = clusterId) ∧
      ∀ bootstrap rounds sends, enr ∈ bootstrap ++ foundBy rounds →
        (bootstrap ++ foundBy rounds).length ≤ sends →
        dialsTo (crate.toPeerId keypair) (discoveryLoop bootstrap rounds sends).out = 1 := by
  obtain ⟨key, hkey, hpeer⟩ := keypairToCombined_ok hdoc hsecp
  obtain ⟨enr, hbuild, hencoded, hrelay, hip, htcp⟩ :=
    buildWakuEnr_config hdoc key clusterId hshards settings
  have hdial : enrToDialable crate.toDiscoveryCrate enr = some ⟨crate.toPeerId keypair,
      [[.ofIp4 settings.advertisedIp, .tcp settings.advertisedTcpPort,
        .p2p (crate.toPeerId keypair)]], .new clusterId shards, enr⟩ := by
    rw [enrToDialable, enrPeerId, hencoded, hpeer, hrelay, hip, htcp]
    rfl
  refine ⟨enr, ?_, hdial, fun cluster => ?_, fun bootstrap rounds sends hmem hsends => ?_⟩
  · refine bind_eq_ok.mpr ⟨key, hkey, bind_eq_ok.mpr ⟨enr, mapError_eq_ok.mpr hbuild, rfl⟩⟩
  · rw [inCluster, hrelay]
    exact decide_eq_true_iff.trans eq_comm
  · rw [dialsTo_discoveryLoop hsends]
    exact if_pos ⟨_, List.mem_filterMap.mpr ⟨enr, hmem, hdial⟩, rfl⟩

def samplePort (bytes : List UInt8) : UInt16 :=
  bytes.foldl (fun acc b => acc * 256 + UInt16.ofNat b.toNat) 0

theorem samplePort_dropWhile (bytes : List UInt8) :
    samplePort (bytes.dropWhile (· = 0)) = samplePort bytes := by
  induction bytes with
  | nil => rfl
  | cons b bytes ih =>
    by_cases h : b = 0
    · rw [List.dropWhile_cons_of_pos (by simpa using h), ih, h]
      rfl
    · rw [List.dropWhile_cons_of_neg (by simpa using h)]

theorem samplePort_portBytes (port : UInt16) : samplePort (portBytes port) = port := by
  rw [portBytes, samplePort_dropWhile, u16ToBeBytes]
  refine Eq.trans ?_ (u16FromBeBytes_toBeBytes port)
  rw [u16FromBeBytes, UInt16.ofNat_add, UInt16.ofNat_mul, samplePort, List.foldl_cons,
    List.foldl_cons, List.foldl_nil, UInt16.zero_mul, UInt16.zero_add]
  rfl

def sampleIdentityCrate : IdentityCrate where
  Enr := List (String × List UInt8)
  VerifyingKey := Unit
  Signature := Unit
  CombinedKey := Unit
  Keypair := Unit
  keccak256 _ := Vector.replicate 32 0
  toUppercase := String.toUpper
  fromSec1Bytes _ := none
  fromSlice _ := none
  verifyPrehash _ _ _ := false
  enrFromStr _ := none
  nodeId _ := []
  rlp _ := []
  toBase64 _ := ""
  publicKey := sampleEnrBuilder.publicKey
  build := sampleEnrBuilder.build
  getDecodable := sampleEnrBuilder.getDecodable
  encodedKey _ := List.replicate 33 2
  secp256k1PeerId key := some ⟨key⟩
  ip4 enr := (enr.lookup "ip").bind fun b => if h : b.length = 4 then some ⟨b.toArray, h⟩ else none
  tcp4 enr := (enr.lookup "tcp").map samplePort
  toPeerId _ := ⟨List.replicate 33 2⟩
  secp256k1Secret _ := some (List.replicate 32 1)
  secp256k1FromBytes _ := .ok ()

theorem sampleIdentityCrate_documented : sampleIdentityCrate.Documented where
  builder := sampleEnrBuilder_documented
  ip4 enr ip h := by
    obtain ⟨b, hb, hip⟩ := Option.map_eq_some_iff.mp h
    cases hip
    change (List.lookup "ip" enr).bind _ = some ip
    rw [hb, Option.bind_some, dif_pos (Vector.length_toList ..)]
    rfl
  tcp4 enr port h := by
    obtain ⟨b, hb, hport⟩ := Option.map_eq_some_iff.mp h
    cases hport
    change (List.lookup "tcp" enr).map samplePort = some port
    rw [hb, Option.map_some, samplePort_portBytes]
  encodedKey _ _ _ _ := rfl
  secret _ _ _ := ⟨(), rfl, rfl⟩

theorem advertised_record_dialable_sample :
    ∃ enr, discv5Enr sampleIdentityCrate () 1 [0, 5] ⟨9000, #v[10, 0, 0, 1], 60000⟩ (.ok ()) =
        .ok enr ∧
      inCluster sampleIdentityCrate.toDiscoveryCrate 1 enr = true := by
  obtain ⟨enr, hadvertised, -, hcluster, -⟩ := advertised_record_dialable sampleIdentityCrate
    sampleIdentityCrate_documented () rfl 1 [0, 5] (by decide) ⟨9000, #v[10, 0, 0, 1], 60000⟩
  exact ⟨enr, hadvertised, (hcluster 1).mpr rfl⟩

end Advertised
end RsWaku
