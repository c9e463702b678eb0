import Mathlib.Algebra.Group.Action.Defs
import Mathlib.Algebra.Order.BigOperators.Group.List
import RsWaku.BaseN
import RsWaku.BoundedQueue
import RsWaku.Codecs
import RsWaku.Frames
import RsWaku.Text

/-! The records of peers that the node has learned, and how a peer-exchange request is answered
from them. -/
namespace RsWaku
open BaseN BoundedQueue Bytes Framing Protobuf Wire

structure EnrCrate where
  Enr : Type
  nodeId : Enr → List UInt8
  rlp : Enr → List UInt8
  toBase64 : Enr → String

/-- The text form of EIP-778 and its limit on the size of a record. -/
structure EnrCrate.Documented (crate : EnrCrate) : Prop where
  text : ∀ e, crate.toBase64 e = "enr:" ++ base64Url.encode (crate.rlp e)
  size : ∀ e, (crate.rlp e).length ≤ 300

def peerBookCap : Nat := 200

variable (crate : EnrCrate)

/-- A record whose node id is known is ignored, also if it is newer. -/
def rememberEnr (book : List crate.Enr) (enr : crate.Enr) : List crate.Enr :=
  pushNew crate.nodeId peerBookCap book enr

def bookAfter (calls : List crate.Enr) : List crate.Enr := calls.foldl (rememberEnr crate) []

def enrToBytes (enr : crate.Enr) : List UInt8 :=
  let s := crate.toBase64 enr
  let b64 := (Text.stripPrefix s "enr:").getD s
  match base64Url.decode (asBytes b64) with
  | .ok bytes => bytes
  | .error _ => []

def PeerExchangeRpc.requested (rpc : PeerExchangeRpc) : Option UInt64 := rpc.query

def PeerExchangeRpc.ofResponse (enrs : List (List UInt8)) : PeerExchangeRpc :=
  { response := some enrs }

def servePeerExchange (book : List crate.Enr) (request : PeerExchangeRpc) : PeerExchangeRpc :=
  let num := (request.requested.getD 0).toNat
  .ofResponse ((book.take num).map (enrToBytes crate))

variable {crate}

theorem enrToBytes_eq (h : crate.Documented) (enr : crate.Enr) :
    enrToBytes crate enr = crate.rlp enr := by
  have hstrip : Text.stripPrefix (crate.toBase64 enr) "enr:" =
      some (base64Url.encode (crate.rlp enr)) := Text.stripPrefix_eq_some.mpr (h.text enr)
  simp only [enrToBytes, hstrip, Option.getD_some, base64Url_lawful.decode_encode]

theorem length_peerInfo_le (enr : List UInt8) : (peerInfo.encode enr).length ≤ 20 + enr.length := by
  change (encodeFields (plain [] (fun b => ⟨1, .len b⟩) enr)).length ≤ _
  rw [length_plain]
  split
  · exact Nat.zero_le _
  · exact lenFieldSize_le 1 enr.length

theorem length_response_le {size : Nat} (enrs : List (List UInt8))
    (hsize : ∀ enr ∈ enrs, enr.length ≤ size) :
    (peerExchangeRpc.encode (.ofResponse enrs)).length ≤ 20 + enrs.length * (40 + size) := by
  have hbody : (peerExchangeResponse.encode enrs).length ≤ enrs.length * (40 + size) := by
    change (encodeFields (repeated (fun enr => ⟨1, .len (peerInfo.encode enr)⟩) enrs)).length ≤ _
    rw [length_repeated, ← smul_eq_mul]
    refine (List.sum_le_card_nsmul _ (40 + size) ?_).trans_eq (by rw [List.length_map])
    intro n hn
    obtain ⟨enr, henr, rfl⟩ := List.mem_map.mp hn
    have hfield := lenFieldSize_le 1 (peerInfo.encode enr).length
    have hinfo := length_peerInfo_le enr
    have henr := hsize enr henr
    omega
  change (encodeFields (optional (fun b => ⟨2, .len (peerExchangeResponse.encode b)⟩)
    (some enrs))).length ≤ _
  rw [length_optional, Option.map_some, Option.getD_some]
  exact (lenFieldSize_le 2 _).trans (Nat.add_le_add_left hbody 20)

def ReadBack (rpc : PeerExchangeRpc) : Prop :=
  (peerExchangeRpc.encode rpc).length ≤ peerExchangeLp.maxFrameLen ∧
    peerExchangeLp.readLp (peerExchangeLp.writeLp (peerExchangeRpc.encode rpc)) =
      .ok (peerExchangeRpc.encode rpc, []) ∧
    peerExchangeRpc.decode (peerExchangeRpc.encode rpc) = some rpc

theorem readBack_of_length {rpc : PeerExchangeRpc}
    (h : (peerExchangeRpc.encode rpc).length ≤ 1024 * 1024) : ReadBack rpc := by
  have hlen : (peerExchangeRpc.encode rpc).length < 2 ^ 64 := Nat.lt_of_le_of_lt h (by decide)
  refine ⟨h, ?_, peerExchangeRpc_decode_encode hlen⟩
  rw [peerExchangeLp, lpCopy_readLp_writeLp _ _ hlen, if_pos h]

theorem length_bookAfter_le (calls : List crate.Enr) :
    (bookAfter crate calls).length ≤ peerBookCap := by
  have hlast := foldl_pushNew crate.nodeId (by decide : 0 < peerBookCap) calls
  exact (congrArg List.length hlast).trans_le ((length_rtake ..).trans_le (Nat.min_le_left ..))

/-- The book holds the last 200 of the records that were inserted, in their order and with
different node ids; the response holds the first of them, as many as requested. -/
theorem peer_exchange_from_book (crate : EnrCrate) (hdoc : crate.Documented)
    (calls : List crate.Enr) (numPeers : UInt64) :
    (bookAfter crate calls).length ≤ peerBookCap ∧
      ((bookAfter crate calls).map crate.nodeId).Nodup ∧
      bookAfter crate calls = (admitted crate.nodeId peerBookCap calls).rtake peerBookCap ∧
      servePeerExchange crate (bookAfter crate calls) (.ofQuery numPeers) =
        .ofResponse (((bookAfter crate calls).take
          (min numPeers.toNat (bookAfter crate calls).length)).map crate.rlp) ∧
      ReadBack (servePeerExchange crate (bookAfter crate calls) (.ofQuery numPeers)) := by
  have hcap := length_bookAfter_le calls
  have hnodup : ((bookAfter crate calls).map crate.nodeId).Nodup :=
    nodup_foldl_pushNew crate.nodeId peerBookCap calls
  have hlast : bookAfter crate calls =
      (admitted crate.nodeId peerBookCap calls).rtake peerBookCap :=
    foldl_pushNew crate.nodeId (by decide) calls
  have hcarried : servePeerExchange crate (bookAfter crate calls) (.ofQuery numPeers) =
      .ofResponse (((bookAfter crate calls).take numPeers.toNat).map crate.rlp) :=
    congrArg PeerExchangeRpc.ofResponse
      (List.map_congr_left fun enr _ => enrToBytes_eq hdoc enr)
  refine ⟨hcap, hnodup, hlast, ?_, ?_⟩
  · rw [hcarried, List.take_eq_take_min]
  · rw [hcarried]
    refine readBack_of_length ((@length_response_le 300 _ ?_).trans ?_)
    · intro b hb
      obtain ⟨enr, -, rfl⟩ := List.mem_map.mp hb
      exact hdoc.size enr
    · rw [List.length_map, List.length_take]
      rw [peerBookCap] at hcap
      omega

/- The records of two nodes of cluster 1 with the secret keys of 32 bytes 9 and of 32 bytes 11. -/
inductive SampleEnr where
  | first
  | second
  deriving DecidableEq

def SampleEnr.publicKey : SampleEnr → List UInt8
  | .first => [2, 86, 179, 40, 179, 12, 139, 245, 131, 158, 36, 5, 135, 71, 135, 148, 8, 189, 179,
      98, 65, 220, 156, 46, 124, 97, 159, 170, 18, 178, 146, 9, 103]
  | .second => [2, 85, 44, 99, 11, 100, 181, 75, 245, 2, 16, 201, 226, 83, 211, 139, 212, 148, 156,
      114, 226, 40, 115, 80, 15, 98, 133, 194, 190, 222, 49, 42, 132]

def SampleEnr.nodeId : SampleEnr → List UInt8
  | .first => [60, 30, 245, 21, 86, 141, 202, 59, 112, 150, 58, 7, 88, 218, 153, 10, 143, 74, 58,
      108, 167, 203, 99, 21, 214, 138, 20, 1, 5, 145, 115, 82]
  | .second => [7, 218, 160, 75, 34, 126, 119, 12, 33, 173, 100, 225, 242, 136, 236, 175, 21, 121,
      14, 252, 172, 82, 137, 70, 150, 58, 109, 184, 195, 248, 33, 29]

def SampleEnr.signature : SampleEnr → List UInt8
  | .first => [148, 46, 234, 102, 151, 4, 147, 147, 212, 115, 88, 215, 15, 35, 42, 111, 215, 12,
      133, 185, 66, 146, 42, 4, 231, 157, 209, 190, 206, 40, 179, 176, 123, 1, 175, 56, 11, 32, 20,
      252, 11, 152, 117, 135, 66, 139, 190, 218, 67, 16, 95, 57, 149, 99, 18, 152, 77, 100, 69, 250,
      139, 213, 79, 216]
  | .second => [79, 229, 65, 135, 8, 252, 117, 125, 93, 195, 53, 127, 33, 244, 97, 80, 76, 77, 30,
      185, 2, 148, 111, 117, 207, 113, 143, 42, 53, 15, 125, 47, 108, 138, 108, 32, 177, 230, 72,
      55, 10, 67, 31, 172, 140, 110, 188, 115, 4, 239, 18, 208, 238, 126, 154, 209, 74, 122, 68, 93,
      214, 152, 84, 7]

def SampleEnr.ip4 : SampleEnr → Vector UInt8 4
  | .first => #v[10, 0, 0, 1]
  | .second => #v[10, 0, 0, 2]

/- The sequence number 1 and the entries `id`, `ip`, `rs`, `secp256k1` and `tcp`. -/
def SampleEnr.rlp (e : SampleEnr) : List UInt8 :=
  [0xf8, 141, 0xb8, 64] ++ e.signature ++ [1] ++
    [0x82, 0x69, 0x64, 0x82, 0x76, 0x34] ++
    [0x82, 0x69, 0x70, 0x84] ++ e.ip4.toList ++
    [0x82, 0x72, 0x73, 0x85, 0, 1, 1, 0, 0] ++
    [0x89, 0x73, 0x65, 0x63, 0x70, 0x32, 0x35, 0x36, 0x6b, 0x31, 0xa1] ++ e.publicKey ++
    [0x83, 0x74, 0x63, 0x70, 0x82, 0xea, 0x60]

def SampleEnr.text : SampleEnr → String
  | .first =>
    "enr:" ++ ("-I24QJQu6maXBJOT1HNY1w8jKm_XDIW5QpIqBOed0b7OKLOwewGvOAsgFPwLmHWHQou-2k" ++
      "MQXzmVYxKYTWRF-ovVT9gBgmlkgnY0gmlwhAoAAAGCcnOFAAEBAACJc2VjcDI1NmsxoQJW" ++
      "syizDIv1g54kBYdHh5QIvbNiQdycLnxhn6oSspIJZ4N0Y3CC6mA")
  | .second =>
    "enr:" ++ ("-I24QE_lQYcI_HV9XcM1fyH0YVBMTR65ApRvdc9xjyo1D30vbIpsILHmSDcKQx-sjG68cw" ++
      "TvEtDufprRSnpEXdaYVAcBgmlkgnY0gmlwhAoAAAKCcnOFAAEBAACJc2VjcDI1NmsxoQJV" ++
      "LGMLZLVL9QIQyeJT04vUlJxy4ihzUA9ihcK-3jEqhIN0Y3CC6mA")

def sampleEnrCrate : EnrCrate where
  Enr := SampleEnr
  nodeId := SampleEnr.nodeId
  rlp := SampleEnr.rlp
  toBase64 := SampleEnr.text

theorem sampleEnrCrate_documented : sampleEnrCrate.Documented where
  text e := by cases e <;> decide +kernel
  size e := by cases e <;> decide +kernel

theorem peer_exchange_from_book_sample :
    servePeerExchange sampleEnrCrate
      (bookAfter sampleEnrCrate [SampleEnr.first, .second, .first]) (.ofQuery 5) =
      .ofResponse [SampleEnr.first.rlp, SampleEnr.second.rlp] := by
  have hbook : bookAfter sampleEnrCrate [SampleEnr.first, .second, .first] =
      [SampleEnr.first, .second] := rfl
  have hserved := (peer_exchange_from_book sampleEnrCrate sampleEnrCrate_documented
    [SampleEnr.first, .second, .first] 5).2.2.2.1
  rw [hserved, hbook]
  rfl

end RsWaku
