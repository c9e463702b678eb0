import RsWaku.EnrTree
import RsWaku.FirstSeen
import RsWaku.NodeRecord
import RsWaku.PeerBook
import RsWaku.Reactive
import RsWaku.Runtime

/-! The task that discovers peers: it dials the bootstrap peers, then asks discv5 again and again
for nodes of its cluster and dials those that it does not know yet. Every record goes into the
book that peer exchange is served from. -/
namespace RsWaku
open BoundedQueue Bytes FirstSeen Reactive

structure DiscoveryCrate extends DnsCrates where
  CombinedKey : Type
  nodeId : Enr → List UInt8
  rlp : Enr → List UInt8
  toBase64 : Enr → String
  publicKey : CombinedKey → String × List UInt8
  build : CombinedKey → List (String × List UInt8) → Except String Enr
  getDecodable : Enr → String → Option (Except String (List UInt8))
  encodedKey : Enr → List UInt8
  secp256k1PeerId : List UInt8 → Option PeerId
  ip4 : Enr → Option (Vector UInt8 4)
  tcp4 : Enr → Option UInt16

abbrev DiscoveryCrate.records (crate : DiscoveryCrate) : EnrCrate where
  Enr := crate.Enr
  nodeId := crate.nodeId
  rlp := crate.rlp
  toBase64 := crate.toBase64

abbrev DiscoveryCrate.builder (crate : DiscoveryCrate) : EnrBuilder where
  CombinedKey := crate.CombinedKey
  Enr := crate.Enr
  publicKey := crate.publicKey
  build := crate.build
  getDecodable := crate.getDecodable

def Protocol.ofIp4 (ip : Vector UInt8 4) : Protocol :=
  .ip4 (ip.toList.foldl (fun acc b => acc <<< 8 ||| b.toBitVec.setWidth 32) 0)

def Protocol.tcp (port : UInt16) : Protocol := .other 6 (u16ToBeBytes port)

def Protocol.p2p (peer : PeerId) : Protocol := .other 421 peer.multihash

theorem Protocol.p2p_inj {peer peer' : PeerId} :
    Protocol.p2p peer = Protocol.p2p peer' ↔ peer = peer' := by
  cases peer
  cases peer'
  simp [Protocol.p2p]

variable (crate : DiscoveryCrate)

structure DiscoveredPeer where
  peerId : PeerId
  addrs : List Multiaddr
  shards : RelayShards
  enr : crate.Enr

def enrPeerId (enr : crate.Enr) : Option PeerId := crate.secp256k1PeerId (crate.encodedKey enr)

def enrToDialable (enr : crate.Enr) : Option (DiscoveredPeer crate) := do
  let peerId ← enrPeerId crate enr
  let shards ← enrRelayShards crate.builder enr
  let ip ← crate.ip4 enr
  let tcp ← crate.tcp4 enr
  return ⟨peerId, [[.ofIp4 ip, .tcp tcp, .p2p peerId]], shards, enr⟩

/-- The predicate that `discover` passes to discv5. -/
def inCluster (clusterId : UInt16) (enr : crate.Enr) : Bool :=
  ((enrRelayShards crate.builder enr).map fun rs => decide (rs.clusterId = clusterId)).getD false

/-- The records of a tree that cannot be resolved are left out. Each link comes with what the
resolver answers while it is followed. -/
def resolveDnsBootstrap (system : Bool) (urls : List (String × TxtResolver)) : List crate.Enr :=
  if system then
    urls.flatMap fun url => (resolve crate.toDnsCrates url.1 url.2).toOption.getD []
  else []

/-- What the loop meets after a pause: whether the channel to the node is closed, and what
`discover` returns. -/
structure Round where
  isClosed : Bool
  discover : Except DiscoveryError (List crate.Enr)

/-- The peers that are known, the peer book, and how many commands the channel to the node will
still take before it is closed. -/
structure Discoverer where
  known : Finset PeerId
  book : List crate.Enr
  sends : Nat

variable {crate}

def Round.found (r : Round crate) : List crate.Enr := r.discover.toOption.getD []

def Round.discoverDialable (r : Round crate) :
    Except DiscoveryError (List (DiscoveredPeer crate)) :=
  r.discover.map fun enrs => enrs.filterMap (enrToDialable crate)

def dialDiscovered (s : Discoverer crate) (peer : DiscoveredPeer crate) :
    Discoverer crate × List Multiaddr :=
  let book := rememberEnr crate.records s.book peer.enr
  if peer.peerId ∈ s.known then ({ s with book }, [])
  else
    (⟨insert peer.peerId s.known, book, s.sends - peer.addrs.length⟩, peer.addrs.take s.sends)

def Discoverer.bootstrap : Discoverer crate → List crate.Enr → Discoverer crate × List Multiaddr
  | s, [] => (s, [])
  | s, enr :: enrs =>
    let s := { s with book := rememberEnr crate.records s.book enr }
    let (s, dials) := match enrToDialable crate enr with
      | some peer => dialDiscovered s peer
      | none => (s, [])
    let (s, later) := s.bootstrap enrs
    (s, dials ++ later)

def Discoverer.dialAll : Discoverer crate → List (DiscoveredPeer crate) →
    Discoverer crate × List Multiaddr
  | s, [] => (s, [])
  | s, peer :: peers =>
    let (s, dials) := dialDiscovered s peer
    let (s, later) := s.dialAll peers
    (s, dials ++ later)

def Discoverer.round (s : Discoverer crate) (r : Round crate) :
    Turn (Discoverer crate) Multiaddr :=
  if r.isClosed then ⟨s, [], false⟩
  else
    match r.discoverDialable with
    | .ok peers =>
      let (s, dials) := s.dialAll peers
      ⟨s, dials, true⟩
    | .error _ => ⟨s, [], true⟩

def discoveryLoop (bootstrap : List crate.Enr) (rounds : List (Round crate)) (sends : Nat) :
    Turn (Discoverer crate) Multiaddr :=
  let (s, dials) := Discoverer.bootstrap ⟨∅, [], sends⟩ bootstrap
  let t := run Discoverer.round s rounds
  ⟨t.state, dials ++ t.out, t.goesOn⟩

def foundBy (rounds : List (Round crate)) : List crate.Enr :=
  (rounds.takeWhile fun r => !r.isClosed).flatMap Round.found

def dialable (enrs : List crate.Enr) : List (DiscoveredPeer crate) :=
  enrs.filterMap (enrToDialable crate)

theorem dialable_append (enrs enrs' : List crate.Enr) :
    dialable (enrs ++ enrs') = dialable enrs ++ dialable enrs' := List.filterMap_append ..

def addrsOf (peers : List (DiscoveredPeer crate)) : List Multiaddr :=
  peers.flatMap DiscoveredPeer.addrs

def newPeers (known : Finset PeerId) (peers : List (DiscoveredPeer crate)) :
    List (DiscoveredPeer crate) :=
  fresh DiscoveredPeer.peerId known peers

def remembered (book enrs : List crate.Enr) : List crate.Enr :=
  enrs.foldl (rememberEnr crate.records) book

theorem remembered_append (book enrs enrs' : List crate.Enr) :
    remembered book (enrs ++ enrs') = remembered (remembered book enrs) enrs' :=
  @List.foldl_append _ _ (rememberEnr crate.records) book enrs enrs'

def Discoverer.met (s : Discoverer crate) (peers : List (DiscoveredPeer crate))
    (enrs : List crate.Enr) : Discoverer crate × List Multiaddr :=
  (⟨seenAfter DiscoveredPeer.peerId s.known peers, remembered s.book enrs,
    s.sends - (addrsOf (newPeers s.known peers)).length⟩,
    (addrsOf (newPeers s.known peers)).take s.sends)

theorem Discoverer.met_nil (s : Discoverer crate) (enrs : List crate.Enr) :
    s.met [] enrs = ({ s with book := remembered s.book enrs }, []) := by
  rw [met, newPeers, fresh, addrsOf, List.flatMap_nil, List.take_nil]
  rfl

theorem Discoverer.met_append (s : Discoverer crate) (peers peers' : List (DiscoveredPeer crate))
    (enrs enrs' : List crate.Enr) :
    s.met (peers ++ peers') (enrs ++ enrs') = (((s.met peers enrs).1.met peers' enrs').1,
      (s.met peers enrs).2 ++ ((s.met peers enrs).1.met peers' enrs').2) := by
  simp only [met, newPeers, fresh_append, addrsOf, List.flatMap_append, List.take_append,
    remembered_append, List.foldl_append, seenAfter, List.length_append, Nat.sub_sub]

theorem dialDiscovered_eq (s : Discoverer crate) (peer : DiscoveredPeer crate) :
    dialDiscovered s peer = s.met [peer] [peer.enr] := by
  rw [dialDiscovered, Discoverer.met, newPeers, fresh, fresh]
  by_cases h : peer.peerId ∈ s.known
  · rw [if_pos h, if_pos h]
    simp only [addrsOf, seenAfter, List.foldl_cons, List.foldl_nil, Finset.insert_eq_of_mem h,
      List.flatMap_nil, List.length_nil, Nat.sub_zero, List.take_nil]
    rfl
  · rw [if_neg h, if_neg h]
    simp only [addrsOf, seenAfter, List.foldl_cons, List.foldl_nil, fresh, List.flatMap_singleton]
    rfl

theorem Discoverer.dialAll_eq (s : Discoverer crate) (peers : List (DiscoveredPeer crate)) :
    s.dialAll peers = s.met peers (peers.map DiscoveredPeer.enr) := by
  induction peers generalizing s with
  | nil => exact (s.met_nil []).symm
  | cons peer peers ih =>
    have hsplit := s.met_append [peer] peers [peer.enr] (peers.map DiscoveredPeer.enr)
    rw [dialAll]
    dsimp only
    rw [dialDiscovered_eq, ih]
    exact hsplit.symm

theorem enrToDialable_some {enr : crate.Enr} {peer : DiscoveredPeer crate}
    (h : enrToDialable crate enr = some peer) :
    peer.enr = enr ∧ enrRelayShards crate.builder enr = some peer.shards ∧
      ∃ addr, peer.addrs = [addr] ∧ addr.getLast? = some (.p2p peer.peerId) := by
  simp only [enrToDialable, Option.bind_eq_bind, Option.bind_eq_some_iff, Option.pure_def,
    Option.some.injEq] at h
  obtain ⟨peerId, -, shards, hshards, ip, -, tcp, -, rfl⟩ := h
  exact ⟨rfl, hshards, _, rfl, rfl⟩

theorem Discoverer.bootstrap_cons (s : Discoverer crate) (enr : crate.Enr)
    (enrs : List crate.Enr) :
    s.bootstrap (enr :: enrs) = (((s.met (dialable [enr]) [enr]).1.bootstrap enrs).1,
      (s.met (dialable [enr]) [enr]).2 ++ ((s.met (dialable [enr]) [enr]).1.bootstrap enrs).2) := by
  rw [bootstrap, dialable, List.filterMap_cons]
  cases hdial : enrToDialable crate enr with
  | none =>
    rw [List.filterMap_nil, met_nil]
    rfl
  | some peer =>
    have htwice : remembered (rememberEnr crate.records s.book enr) [enr] =
        remembered s.book [enr] := pushNew_twice crate.nodeId peerBookCap s.book enr
    dsimp only
    rw [dialDiscovered_eq, (enrToDialable_some hdial).1, List.filterMap_nil, met, met, htwice]

theorem Discoverer.bootstrap_eq (s : Discoverer crate) (enrs : List crate.Enr) :
    s.bootstrap enrs = s.met (dialable enrs) enrs := by
  induction enrs generalizing s with
  | nil => exact (s.met_nil []).symm
  | cons enr enrs ih =>
    rw [bootstrap_cons, ih, ← met_append, ← dialable_append]
    rfl

theorem Discoverer.round_open (s : Discoverer crate) {r : Round crate} (h : r.isClosed = false) :
    s.round r = ⟨(s.met (dialable r.found) ((dialable r.found).map DiscoveredPeer.enr)).1,
      (s.met (dialable r.found) ((dialable r.found).map DiscoveredPeer.enr)).2, true⟩ := by
  rw [round, h, Round.discoverDialable, Round.found]
  cases r.discover with
  | error e => exact congrArg (fun x => Turn.mk x.1 x.2 true) (s.met_nil []).symm
  | ok enrs =>
    rw [← dialAll_eq]
    rfl

theorem Discoverer.run_round (s : Discoverer crate) (rounds : List (Round crate)) :
    ((run round s rounds).state, (run round s rounds).out) =
      s.met (dialable (foundBy rounds)) ((dialable (foundBy rounds)).map DiscoveredPeer.enr) := by
  induction rounds generalizing s with
  | nil => exact (s.met_nil []).symm
  | cons r rounds ih =>
    cases hclosed : r.isClosed with
    | true =>
      have hround : s.round r = ⟨s, [], false⟩ := if_pos hclosed
      rw [run_cons_of_stops (by rw [hround]), hround, foundBy, List.takeWhile_cons, hclosed]
      exact (s.met_nil []).symm
    | false =>
      have hfound : foundBy (r :: rounds) = r.found ++ foundBy rounds := by
        rw [foundBy, List.takeWhile_cons, hclosed]
        rfl
      have hrest := ih (s.met (dialable r.found) ((dialable r.found).map DiscoveredPeer.enr)).1
      rw [run_cons_of_goesOn (by rw [round_open s hclosed]), round_open s hclosed, hfound,
        dialable_append, List.map_append, met_append, ← hrest]

theorem discoveryLoop_eq (bootstrap : List crate.Enr) (rounds : List (Round crate))
    (sends : Nat) :
    ((discoveryLoop bootstrap rounds sends).state, (discoveryLoop bootstrap rounds sends).out) =
      Discoverer.met ⟨∅, [], sends⟩ (dialable (bootstrap ++ foundBy rounds))
        (bootstrap ++ (dialable (foundBy rounds)).map DiscoveredPeer.enr) := by
  rw [discoveryLoop, Discoverer.bootstrap_eq, dialable_append, Discoverer.met_append,
    ← Discoverer.run_round]

def dialsTo (peer : PeerId) (addrs : List Multiaddr) : Nat :=
  addrs.countP fun addr => addr.getLast? = some (.p2p peer)

theorem getLast_addrsOf_dialable {peers : List (DiscoveredPeer crate)} {enrs : List crate.Enr}
    (h : peers.Sublist (dialable enrs)) :
    (addrsOf peers).map List.getLast? = peers.map fun peer => some (.p2p peer.peerId) := by
  have hpeer : ∀ peer ∈ peers, peer.addrs.map List.getLast? = [some (.p2p peer.peerId)] := by
    intro peer hmem
    obtain ⟨enr, -, henr⟩ := List.mem_filterMap.mp (h.subset hmem)
    obtain ⟨-, -, addr, haddrs, hlast⟩ := enrToDialable_some henr
    rw [haddrs, List.map_singleton, hlast]
  rw [addrsOf, List.map_flatMap, List.map_eq_flatMap]
  exact List.flatMap_congr hpeer

theorem dialsTo_addrsOf {peers : List (DiscoveredPeer crate)} {enrs : List crate.Enr}
    (h : peers.Sublist (dialable enrs)) (peer : PeerId) :
    dialsTo peer (addrsOf peers) = (peers.map DiscoveredPeer.peerId).count peer := by
  have hcount : dialsTo peer (addrsOf peers) =
      ((addrsOf peers).map List.getLast?).countP fun last => last = some (.p2p peer) := by
    rw [List.countP_map]
    rfl
  rw [hcount, getLast_addrsOf_dialable h, List.countP_map, List.count, List.countP_map]
  refine List.countP_congr fun p _ => ?_
  simp [Protocol.p2p_inj]

theorem newPeers_sublist (known : Finset PeerId) (enrs : List crate.Enr) :
    (newPeers known (dialable enrs)).Sublist (dialable enrs) := fresh_sublist ..

theorem length_newPeers_le (known : Finset PeerId) (enrs : List crate.Enr) :
    (addrsOf (newPeers known (dialable enrs))).length ≤ enrs.length := by
  have haddrs := congrArg List.length (getLast_addrsOf_dialable (newPeers_sublist known enrs))
  rw [List.length_map, List.length_map] at haddrs
  rw [haddrs]
  exact (newPeers_sublist known enrs).length_le.trans (List.length_filterMap_le ..)

theorem dialsTo_newPeers (enrs : List crate.Enr) (peer : PeerId) :
    dialsTo peer (addrsOf (newPeers ∅ (dialable enrs))) =
      if ∃ p ∈ dialable enrs, p.peerId = peer then 1 else 0 := by
  rw [dialsTo_addrsOf (newPeers_sublist ∅ enrs)]
  refine (count_keys_fresh ∅ (dialable enrs) peer).trans (if_congr ?_ rfl rfl)
  rw [List.mem_map]
  exact and_iff_left (Finset.notMem_empty peer)

theorem dialsTo_discoveryLoop {bootstrap : List crate.Enr} {rounds : List (Round crate)}
    {sends : Nat} (h : (bootstrap ++ foundBy rounds).length ≤ sends) (peer : PeerId) :
    dialsTo peer (discoveryLoop bootstrap rounds sends).out =
      if ∃ p ∈ dialable (bootstrap ++ foundBy rounds), p.peerId = peer then 1 else 0 := by
  have hout := congrArg Prod.snd (discoveryLoop_eq bootstrap rounds sends)
  dsimp only [Discoverer.met] at hout
  rw [hout, List.take_of_length_le ((length_newPeers_le ..).trans h), dialsTo_newPeers]

/-- Where a dialed peer comes from: from a configured record, from a tree that a configured link
leads to, or from discv5, and then it is in the cluster. -/
def DialedFor (configured : List crate.Enr) (urls : List (String × TxtResolver))
    (rounds : List (Round crate)) (clusterId : UInt16) (p : DiscoveredPeer crate) : Prop :=
  p ∈ dialable configured ∨
    (∃ url ∈ urls, ∃ enrs, resolve crate.toDnsCrates url.1 url.2 = .ok enrs ∧ p ∈ dialable enrs) ∨
    p ∈ dialable (foundBy rounds) ∧ p.shards.clusterId = clusterId

theorem mem_dialable_resolveDnsBootstrap {system : Bool} {urls : List (String × TxtResolver)}
    {p : DiscoveredPeer crate} (h : p ∈ dialable (resolveDnsBootstrap crate system urls)) :
    ∃ url ∈ urls, ∃ enrs, resolve crate.toDnsCrates url.1 url.2 = .ok enrs ∧ p ∈ dialable enrs := by
  obtain ⟨enr, henr, hdial⟩ := List.mem_filterMap.mp h
  rw [resolveDnsBootstrap] at henr
  split at henr
  case isFalse => cases henr
  case isTrue =>
    obtain ⟨url, hurl, henr⟩ := List.mem_flatMap.mp henr
    cases hresolve : resolve crate.toDnsCrates url.1 url.2 with
    | error e =>
      rw [hresolve] at henr
      cases henr
    | ok enrs =>
      rw [hresolve] at henr
      exact ⟨url, hurl, enrs, hresolve, List.mem_filterMap.mpr ⟨enr, henr, hdial⟩⟩

theorem clusterId_of_found {clusterId : UInt16} {rounds : List (Round crate)}
    (hfound : ∀ r ∈ rounds, ∀ enr ∈ r.found, inCluster crate clusterId enr)
    {p : DiscoveredPeer crate} (hp : p ∈ dialable (foundBy rounds)) :
    p.shards.clusterId = clusterId := by
  obtain ⟨enr, henr, hdial⟩ := List.mem_filterMap.mp hp
  obtain ⟨r, hr, henr⟩ := List.mem_flatMap.mp henr
  have hcluster := hfound r ((List.takeWhile_prefix _).subset hr) enr henr
  rw [inCluster, (enrToDialable_some hdial).2.1] at hcluster
  exact of_decide_eq_true hcluster

/-- Whatever DNS answers and discv5 finds, a peer is dialed once at most, and once if the channel
takes all commands and a dialable record of the peer comes up. The book has all records that came
up, and every dialed peer is configured, in a configured tree or in the cluster of the node. -/
theorem discovery_dials_once (crate : DiscoveryCrate) (clusterId : UInt16)
    (configured : List crate.Enr) (system : Bool) (urls : List (String × TxtResolver))
    (rounds : List (Round crate)) (sends : Nat) (bootstrap : List crate.Enr)
    (hbootstrap : bootstrap = configured ++ resolveDnsBootstrap crate system urls)
    (hfound : ∀ r ∈ rounds, ∀ enr ∈ r.found, inCluster crate clusterId enr) :
    (discoveryLoop bootstrap rounds sends).state.book = bookAfter crate.records
      (bootstrap ++ (dialable (foundBy rounds)).map DiscoveredPeer.enr) ∧
    (discoveryLoop bootstrap rounds sends).out = (addrsOf (fresh DiscoveredPeer.peerId ∅
      (dialable (bootstrap ++ foundBy rounds)))).take sends ∧
    (∀ peer, dialsTo peer (discoveryLoop bootstrap rounds sends).out ≤ 1) ∧
    ((bootstrap ++ foundBy rounds).length ≤ sends → ∀ peer,
      dialsTo peer (discoveryLoop bootstrap rounds sends).out =
        if ∃ p ∈ dialable (bootstrap ++ foundBy rounds), p.peerId = peer then 1 else 0) ∧
    ∀ addr ∈ (discoveryLoop bootstrap rounds sends).out,
      ∃ p, addr ∈ p.addrs ∧ DialedFor configured urls rounds clusterId p := by
  obtain ⟨hstate, hout⟩ := Prod.ext_iff.mp (discoveryLoop_eq bootstrap rounds sends)
  dsimp only at hstate hout
  refine ⟨by rw [hstate]; rfl, hout, fun peer => ?_, dialsTo_discoveryLoop, fun addr haddr => ?_⟩
  · calc dialsTo peer (discoveryLoop bootstrap rounds sends).out
        ≤ dialsTo peer (addrsOf (newPeers ∅ (dialable (bootstrap ++ foundBy rounds)))) := by
          rw [hout]
          exact (List.take_sublist ..).countP_le
      _ ≤ 1 := by
          rw [dialsTo_newPeers]
          split <;> decide
  · rw [hout] at haddr
    obtain ⟨p, hp, hpaddr⟩ := List.mem_flatMap.mp (List.mem_of_mem_take haddr)
    have hp := (newPeers_sublist ..).subset hp
    rw [hbootstrap, dialable_append, dialable_append, List.mem_append, List.mem_append] at hp
    obtain (hp | hp) | hp := hp
    · exact ⟨p, hpaddr, .inl hp⟩
    · exact ⟨p, hpaddr, .inr (.inl (mem_dialable_resolveDnsBootstrap hp))⟩
    · exact ⟨p, hpaddr, .inr (.inr ⟨hp, clusterId_of_found hfound hp⟩)⟩

def SampleEnr.ofText (s : String) : Option SampleEnr :=
  [SampleEnr.first, .second].find? fun e => e.text = s

theorem SampleEnr.ofText_text (e : SampleEnr) : ofText e.text = some e := by
  cases e <;> decide +kernel

/- The records of the table and no others. A peer id is the multihash of the key. -/
def sampleNetwork : DiscoveryCrate where
  Enr := SampleEnr
  VerifyingKey := Unit
  Signature := Unit
  CombinedKey := Unit
  keccak256 _ := Vector.replicate 32 0
  toUppercase := String.toUpper
  fromSec1Bytes _ := none
  fromSlice _ := none
  verifyPrehash _ _ _ := false
  enrFromStr := SampleEnr.ofText
  nodeId := SampleEnr.nodeId
  rlp := SampleEnr.rlp
  toBase64 := SampleEnr.text
  publicKey _ := ("secp256k1", SampleEnr.first.publicKey)
  build _ _ := .error "no records are built"
  getDecodable _ name := if name = "rs" then some (.ok [0, 1, 1, 0, 0]) else none
  encodedKey := SampleEnr.publicKey
  secp256k1PeerId key := some ⟨[0, 37, 8, 2, 18, 33] ++ key⟩
  ip4 e := some e.ip4
  tcp4 _ := some 60000

theorem discovery_dials_once_sample :
    dialsTo ⟨[0, 37, 8, 2, 18, 33] ++ SampleEnr.second.publicKey⟩
      (@discoveryLoop sampleNetwork [SampleEnr.first]
        [⟨false, .ok [SampleEnr.second, .first, .second]⟩] 10).out = 1 :=
  ((discovery_dials_once sampleNetwork 1 [SampleEnr.first] true []
    [⟨false, .ok [SampleEnr.second, .first, .second]⟩] 10 _ rfl fun _ _ _ _ => rfl).2.2.2.1
    (by decide) ⟨[0, 37, 8, 2, 18, 33] ++ SampleEnr.second.publicKey⟩).trans
    (if_pos ⟨_, List.mem_filterMap.mpr ⟨SampleEnr.second, .tail _ (.head _), rfl⟩, rfl⟩)

end RsWaku
