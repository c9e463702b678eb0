import RsWaku.Codecs
import RsWaku.Frames
import RsWaku.ProtobufScalars
import RsWaku.Runtime

/-! The request-response protocols on the wire: the messages of each, its frames, and that what a
peer writes is what the other one reads. -/
namespace RsWaku
open Bytes Framing Protobuf Wire

def wakuMetadata : Schema WakuMetadata where
  default := ⟨none, []⟩
  fields m :=
    optional (fun c => ⟨1, .varint c.toNat⟩) m.clusterId ++
    packed 2 UInt32.toNat m.shards
  merge m f :=
    match f.tag, f.value with
    | 1, .varint v => some { m with clusterId := some (UInt32.ofNat v) }
    | 2, .varint v => some { m with shards := m.shards ++ [UInt32.ofNat v] }
    | 2, .len b => (unpack b).map fun vs => { m with shards := m.shards ++ vs.map UInt32.ofNat }
    | tag, _ => if tag ∈ [1, 2] then none else some m

def filterSubscribeRequest : Schema FilterSubscribeRequest where
  default := ⟨"", 0, none, []⟩
  fields r :=
    plain "" (fun t => ⟨1, .len (asBytes t)⟩) r.requestId ++
    plain 0 (fun n => ⟨2, .varint (signed n)⟩) r.filterSubscribeType ++
    optional (fun t => ⟨10, .len (asBytes t)⟩) r.pubsubTopic ++
    repeated (fun t => ⟨11, .len (asBytes t)⟩) r.contentTopics
  merge r f :=
    match f.tag, f.value with
    | 1, .len b => (utf8 b).map fun t => { r with requestId := t }
    | 2, .varint v => some { r with filterSubscribeType := unsigned v }
    | 10, .len b => (utf8 b).map fun t => { r with pubsubTopic := some t }
    | 11, .len b => (utf8 b).map fun t => { r with contentTopics := r.contentTopics ++ [t] }
    | tag, _ => if tag ∈ [1, 2, 10, 11] then none else some r

def filterSubscribeResponse : Schema FilterSubscribeResponse where
  default := ⟨"", 0, none⟩
  fields r :=
    plain "" (fun t => ⟨1, .len (asBytes t)⟩) r.requestId ++
    plain 0 (fun c => ⟨10, .varint c.toNat⟩) r.statusCode ++
    optional (fun t => ⟨11, .len (asBytes t)⟩) r.statusDesc
  merge r f :=
    match f.tag, f.value with
    | 1, .len b => (utf8 b).map fun t => { r with requestId := t }
    | 10, .varint v => some { r with statusCode := UInt32.ofNat v }
    | 11, .len b => (utf8 b).map fun t => { r with statusDesc := some t }
    | tag, _ => if tag ∈ [1, 10, 11] then none else some r

def filterPushResponse : Schema UInt32 where
  default := 0
  fields statusCode := plain 0 (fun c => ⟨10, .varint c.toNat⟩) statusCode
  merge statusCode f :=
    match f.tag, f.value with
    | 10, .varint v => some (UInt32.ofNat v)
    | tag, _ => if tag = 10 then none else some statusCode

def lightpushResponse : Schema LightpushResponse where
  default := {}
  fields r :=
    plain "" (fun t => ⟨1, .len (asBytes t)⟩) r.requestId ++
    plain 0 (fun c => ⟨10, .varint c.toNat⟩) r.statusCode ++
    optional (fun t => ⟨11, .len (asBytes t)⟩) r.statusDesc ++
    plain 0 (fun c => ⟨12, .varint c.toNat⟩) r.relayPeerCount
  merge r f :=
    match f.tag, f.value with
    | 1, .len b => (utf8 b).map fun t => { r with requestId := t }
    | 10, .varint v => some { r with statusCode := UInt32.ofNat v }
    | 11, .len b => (utf8 b).map fun t => { r with statusDesc := some t }
    | 12, .varint v => some { r with relayPeerCount := UInt32.ofNat v }
    | tag, _ => if tag ∈ [1, 10, 11, 12] then none else some r

def storeQueryRequest : Schema StoreQueryRequest where
  default := {}
  fields r :=
    plain "" (fun t => ⟨1, .len (asBytes t)⟩) r.requestId ++
    plain false (fun b => ⟨2, .varint b.toNat⟩) r.includeData ++
    optional (fun t => ⟨10, .len (asBytes t)⟩) r.pubsubTopic ++
    repeated (fun t => ⟨11, .len (asBytes t)⟩) r.contentTopics ++
    optional (fun t => ⟨12, .varint (zigzag t).toNat⟩) r.timeStart ++
    optional (fun t => ⟨13, .varint (zigzag t).toNat⟩) r.timeEnd ++
    repeated (fun h => ⟨20, .len h⟩) r.messageHashes ++
    optional (fun b => ⟨51, .len b⟩) r.paginationCursor ++
    plain false (fun b => ⟨52, .varint b.toNat⟩) r.paginationForward ++
    optional (fun n => ⟨53, .varint n.toNat⟩) r.paginationLimit
  merge r f :=
    match f.tag, f.value with
    | 1, .len b => (utf8 b).map fun t => { r with requestId := t }
    | 2, .varint v => some { r with includeData := v ≠ 0 }
    | 10, .len b => (utf8 b).map fun t => { r with pubsubTopic := some t }
    | 11, .len b => (utf8 b).map fun t => { r with contentTopics := r.contentTopics ++ [t] }
    | 12, .varint v => some { r with timeStart := some (unzigzag (UInt64.ofNat v)) }
    | 13, .varint v => some { r with timeEnd := some (unzigzag (UInt64.ofNat v)) }
    | 20, .len b => some { r with messageHashes := r.messageHashes ++ [b] }
    | 51, .len b => some { r with paginationCursor := some b }
    | 52, .varint v => some { r with paginationForward := v ≠ 0 }
    | 53, .varint v => some { r with paginationLimit := some (UInt64.ofNat v) }
    | tag, _ => if tag ∈ [1, 2, 10, 11, 12, 13, 20, 51, 52, 53] then none else some r

theorem wakuMetadata_decode_encode {m : WakuMetadata}
    (hlen : (wakuMetadata.encode m).length < 2 ^ 64) :
    wakuMetadata.decode (wakuMetadata.encode m) = some m := by
  refine Schema.decode_encode hlen ?_ ?_
  · simp only [wakuMetadata, List.forall_mem_append]
    refine ⟨written_optional ?_ _, written_packed (by decide) _ _⟩
    exact fun c => written_varint (by decide) (Nat.lt_trans c.toNat_lt (by decide))
  · refine Schema.Merges.append (b := ⟨m.clusterId, []⟩) ?_ ?_
    · refine merges_optional wakuMetadata (fun o => ⟨o, []⟩) fun c _ => ?_
      simp [wakuMetadata]
    · refine merges_packed wakuMetadata (fun shards => ⟨m.clusterId, shards⟩) ?_
      have hunpack : unpack (pack (m.shards.map UInt32.toNat)) =
          some (m.shards.map UInt32.toNat) := by
        refine unpack_pack fun v hv => ?_
        obtain ⟨shard, -, rfl⟩ := List.mem_map.mp hv
        exact Nat.lt_trans shard.toNat_lt (by decide)
      simp [wakuMetadata, hunpack, Function.comp_def]

theorem filterSubscribeRequest_decode_encode {r : FilterSubscribeRequest}
    (hlen : (filterSubscribeRequest.encode r).length < 2 ^ 64) :
    filterSubscribeRequest.decode (filterSubscribeRequest.encode r) = some r := by
  refine Schema.decode_encode hlen ?_ ?_
  · simp only [filterSubscribeRequest, List.forall_mem_append]
    refine ⟨⟨⟨written_plain ?_ _ _, written_plain ?_ _ _⟩, written_optional ?_ _⟩,
      written_repeated ?_ _⟩
    · exact fun t => written_len (by decide) _
    · exact fun n => written_varint (by decide) (UInt64.toNat_lt _)
    · exact fun t => written_len (by decide) _
    · exact fun t => written_len (by decide) _
  · refine Schema.Merges.append (b := ⟨r.requestId, r.filterSubscribeType, r.pubsubTopic, []⟩)
      (Schema.Merges.append (b := ⟨r.requestId, r.filterSubscribeType, none, []⟩)
      (Schema.Merges.append (b := ⟨r.requestId, 0, none, []⟩) ?_ ?_) ?_) ?_
    · refine merges_plain filterSubscribeRequest (fun t => ⟨t, 0, none, []⟩) ?_
      simp [filterSubscribeRequest, utf8_asBytes]
    · refine merges_plain filterSubscribeRequest (fun n => ⟨r.requestId, n, none, []⟩) ?_
      simp [filterSubscribeRequest, unsigned_signed]
    · refine merges_optional filterSubscribeRequest
        (fun o => ⟨r.requestId, r.filterSubscribeType, o, []⟩) fun t _ => ?_
      simp [filterSubscribeRequest, utf8_asBytes]
    · refine merges_repeated filterSubscribeRequest
        (fun ts => ⟨r.requestId, r.filterSubscribeType, r.pubsubTopic, ts⟩) fun t _ seen => ?_
      simp [filterSubscribeRequest, utf8_asBytes]

theorem filterSubscribeResponse_decode_encode {r : FilterSubscribeResponse}
    (hlen : (filterSubscribeResponse.encode r).length < 2 ^ 64) :
    filterSubscribeResponse.decode (filterSubscribeResponse.encode r) = some r := by
  refine Schema.decode_encode hlen ?_ ?_
  · simp only [filterSubscribeResponse, List.forall_mem_append]
    refine ⟨⟨written_plain ?_ _ _, written_plain ?_ _ _⟩, written_optional ?_ _⟩
    · exact fun t => written_len (by decide) _
    · exact fun c => written_varint (by decide) (Nat.lt_trans c.toNat_lt (by decide))
    · exact fun t => written_len (by decide) _
  · refine Schema.Merges.append (b := ⟨r.requestId, r.statusCode, none⟩)
      (Schema.Merges.append (b := ⟨r.requestId, 0, none⟩) ?_ ?_) ?_
    · refine merges_plain filterSubscribeResponse (fun t => ⟨t, 0, none⟩) ?_
      simp [filterSubscribeResponse, utf8_asBytes]
    · refine merges_plain filterSubscribeResponse (fun c => ⟨r.requestId, c, none⟩) ?_
      simp [filterSubscribeResponse]
    · refine merges_optional filterSubscribeResponse
        (fun o => ⟨r.requestId, r.statusCode, o⟩) fun t _ => ?_
      simp [filterSubscribeResponse, utf8_asBytes]

theorem filterPushResponse_decode_encode {statusCode : UInt32}
    (hlen : (filterPushResponse.encode statusCode).length < 2 ^ 64) :
    filterPushResponse.decode (filterPushResponse.encode statusCode) = some statusCode := by
  refine Schema.decode_encode hlen ?_ ?_
  · exact written_plain (fun c => written_varint (by decide)
      (Nat.lt_trans c.toNat_lt (by decide))) _ _
  · change filterPushResponse.Merges (plain 0 (fun c => ⟨10, .varint c.toNat⟩) statusCode) 0
      statusCode
    refine merges_plain filterPushResponse (fun c => c) ?_
    simp [filterPushResponse]

theorem lightpushResponse_decode_encode {r : LightpushResponse}
    (hlen : (lightpushResponse.encode r).length < 2 ^ 64) :
    lightpushResponse.decode (lightpushResponse.encode r) = some r := by
  refine Schema.decode_encode hlen ?_ ?_
  · simp only [lightpushResponse, List.forall_mem_append]
    refine ⟨⟨⟨written_plain ?_ _ _, written_plain ?_ _ _⟩, written_optional ?_ _⟩,
      written_plain ?_ _ _⟩
    · exact fun t => written_len (by decide) _
    · exact fun c => written_varint (by decide) (Nat.lt_trans c.toNat_lt (by decide))
    · exact fun t => written_len (by decide) _
    · exact fun c => written_varint (by decide) (Nat.lt_trans c.toNat_lt (by decide))
  · refine Schema.Merges.append (b := ⟨r.requestId, r.statusCode, r.statusDesc, 0⟩)
      (Schema.Merges.append (b := ⟨r.requestId, r.statusCode, none, 0⟩)
      (Schema.Merges.append (b := ⟨r.requestId, 0, none, 0⟩) ?_ ?_) ?_) ?_
    · refine merges_plain lightpushResponse (fun t => ⟨t, 0, none, 0⟩) ?_
      simp [lightpushResponse, utf8_asBytes]
    · refine merges_plain lightpushResponse (fun c => ⟨r.requestId, c, none, 0⟩) ?_
      simp [lightpushResponse]
    · refine merges_optional lightpushResponse
        (fun o => ⟨r.requestId, r.statusCode, o, 0⟩) fun t _ => ?_
      simp [lightpushResponse, utf8_asBytes]
    · refine merges_plain lightpushResponse
        (fun c => ⟨r.requestId, r.statusCode, r.statusDesc, c⟩) ?_
      simp [lightpushResponse]

theorem storeQueryRequest_decode_encode {r : StoreQueryRequest}
    (hlen : (storeQueryRequest.encode r).length < 2 ^ 64) :
    storeQueryRequest.decode (storeQueryRequest.encode r) = some r := by
  obtain ⟨id, data, topic, contents, start, stop, hashes, cursor, forward, limit⟩ := r
  refine Schema.decode_encode hlen ?_ ?_
  · simp only [storeQueryRequest, List.forall_mem_append]
    refine ⟨⟨⟨⟨⟨⟨⟨⟨⟨written_plain ?_ _ _, written_plain ?_ _ _⟩, written_optional ?_ _⟩,
      written_repeated ?_ _⟩, written_optional ?_ _⟩, written_optional ?_ _⟩,
      written_repeated ?_ _⟩, written_optional ?_ _⟩, written_plain ?_ _ _⟩,
      written_optional ?_ _⟩
    · exact fun t => written_len (by decide) _
    · exact fun b => written_varint (by decide) (Nat.lt_of_le_of_lt b.toNat_le (by decide))
    · exact fun t => written_len (by decide) _
    · exact fun t => written_len (by decide) _
    · exact fun t => written_varint (by decide) (UInt64.toNat_lt _)
    · exact fun t => written_varint (by decide) (UInt64.toNat_lt _)
    · exact fun h => written_len (by decide) _
    · exact fun b => written_len (by decide) _
    · exact fun b => written_varint (by decide) (Nat.lt_of_le_of_lt b.toNat_le (by decide))
    · exact fun n => written_varint (by decide) n.toNat_lt
  · refine Schema.Merges.append
      (b := ⟨id, data, topic, contents, start, stop, hashes, cursor, forward, none⟩)
      (Schema.Merges.append
      (b := ⟨id, data, topic, contents, start, stop, hashes, cursor, false, none⟩)
      (Schema.Merges.append
      (b := ⟨id, data, topic, contents, start, stop, hashes, none, false, none⟩)
      (Schema.Merges.append
      (b := ⟨id, data, topic, contents, start, stop, [], none, false, none⟩)
      (Schema.Merges.append
      (b := ⟨id, data, topic, contents, start, none, [], none, false, none⟩)
      (Schema.Merges.append
      (b := ⟨id, data, topic, contents, none, none, [], none, false, none⟩)
      (Schema.Merges.append
      (b := ⟨id, data, topic, [], none, none, [], none, false, none⟩)
      (Schema.Merges.append
      (b := ⟨id, data, none, [], none, none, [], none, false, none⟩)
      (Schema.Merges.append
      (b := ⟨id, false, none, [], none, none, [], none, false, none⟩)
      ?_ ?_) ?_) ?_) ?_) ?_) ?_) ?_) ?_) ?_
    · refine merges_plain storeQueryRequest
        (fun t => ⟨t, false, none, [], none, none, [], none, false, none⟩) ?_
      simp [storeQueryRequest, utf8_asBytes]
    · refine merges_plain storeQueryRequest
        (fun b => ⟨id, b, none, [], none, none, [], none, false, none⟩) ?_
      cases data <;> rfl
    · refine merges_optional storeQueryRequest
        (fun o => ⟨id, data, o, [], none, none, [], none, false, none⟩) fun t _ => ?_
      simp [storeQueryRequest, utf8_asBytes]
    · refine merges_repeated storeQueryRequest
        (fun ts => ⟨id, data, topic, ts, none, none, [], none, false, none⟩) fun t _ seen => ?_
      simp [storeQueryRequest, utf8_asBytes]
    · refine merges_optional storeQueryRequest
        (fun o => ⟨id, data, topic, contents, o, none, [], none, false, none⟩) fun t _ => ?_
      simp [storeQueryRequest, unzigzag_zigzag]
    · refine merges_optional storeQueryRequest
        (fun o => ⟨id, data, topic, contents, start, o, [], none, false, none⟩) fun t _ => ?_
      simp [storeQueryRequest, unzigzag_zigzag]
    · refine merges_repeated storeQueryRequest
        (fun hs => ⟨id, data, topic, contents, start, stop, hs, none, false, none⟩)
        fun h _ seen => ?_
      simp [storeQueryRequest]
    · refine merges_optional storeQueryRequest
        (fun o => ⟨id, data, topic, contents, start, stop, hashes, o, false, none⟩) fun b _ => ?_
      simp [storeQueryRequest]
    · refine merges_plain storeQueryRequest
        (fun b => ⟨id, data, topic, contents, start, stop, hashes, cursor, b, none⟩) ?_
      cases forward <;> rfl
    · refine merges_optional storeQueryRequest
        (fun o => ⟨id, data, topic, contents, start, stop, hashes, cursor, forward, o⟩)
        fun n _ => ?_
      simp [storeQueryRequest]

structure RequestResponse where
  Request : Type
  Response : Type
  lp : LpCopy
  request : Schema Request
  response : Schema Response

/-- A frame and the message in it. Of the error of prost only the kind is kept. -/
def readMessage {α : Type} (lp : LpCopy) (s : Schema α) (stream : List UInt8) : Read α :=
  match lp.readLp stream with
  | .error e => .error e
  | .ok (bytes, rest) =>
    match s.decode bytes with
    | some a => .ok (a, rest)
    | none => .error (.invalidData "failed to decode Protobuf message")

def writeMessage {α : Type} (lp : LpCopy) (s : Schema α) (a : α) : List UInt8 :=
  lp.writeLp (s.encode a)

namespace RequestResponse
variable (p : RequestResponse)

def readRequest : List UInt8 → Read p.Request := readMessage p.lp p.request

def readResponse : List UInt8 → Read p.Response := readMessage p.lp p.response

def writeRequest : p.Request → List UInt8 := writeMessage p.lp p.request

def writeResponse : p.Response → List UInt8 := writeMessage p.lp p.response

end RequestResponse

def metadataCodec : RequestResponse :=
  ⟨WakuMetadata, WakuMetadata, metadataLp, wakuMetadata, wakuMetadata⟩

def storeCodec (crates : Crates) : RequestResponse :=
  ⟨StoreQueryRequest, StoreQueryResponse, storeLp, storeQueryRequest, storeQueryResponse crates⟩

def lightpushCodec (crates : Crates) : RequestResponse :=
  ⟨LightpushRequest, LightpushResponse, lightpushLp, lightpushRequest crates, lightpushResponse⟩

def peerExchangeCodec : RequestResponse :=
  ⟨PeerExchangeRpc, PeerExchangeRpc, peerExchangeLp, peerExchangeRpc, peerExchangeRpc⟩

def subscribeCodec : RequestResponse :=
  ⟨FilterSubscribeRequest, FilterSubscribeResponse, filterLp, filterSubscribeRequest,
    filterSubscribeResponse⟩

def pushCodec (crates : Crates) : RequestResponse :=
  ⟨MessagePush, UInt32, filterLp, messagePush crates, filterPushResponse⟩

def behaviours (crates : Crates) : List RequestResponse :=
  [metadataCodec, storeCodec crates, lightpushCodec crates, peerExchangeCodec, subscribeCodec,
    pushCodec crates]

theorem sized_of_length {m : WakuMessage} (h : (Crates.standard.encode m).length < 2 ^ 64) :
    m.Sized := by
  have hfield {tag : Nat} {b : List UInt8} (hmem : ⟨tag, .len b⟩ ∈ m.toFields) :
      b.length < 2 ^ 64 := Nat.lt_of_le_of_lt (length_le_of_len_mem hmem) h
  refine ⟨?_, ?_, fun b hb => ?_, fun b hb => ?_⟩
  · by_cases hempty : m.payload = []
    · simp [hempty]
    · exact @hfield 1 _ (by simp [WakuMessage.toFields, hempty])
  · by_cases hempty : m.contentTopic = ""
    · rw [hempty]
      decide
    · exact @hfield 2 _ (by simp [WakuMessage.toFields, hempty])
  · exact @hfield 11 _ (by simp [WakuMessage.toFields, Option.mem_def.mp hb])
  · exact @hfield 21 _ (by simp [WakuMessage.toFields, Option.mem_def.mp hb])

/-- What prost gives for a WakuMessage of any length that it can write. -/
def Crates.ReadsMessages (crates : Crates) : Prop :=
  ∀ m, (crates.encode m).length < 2 ^ 64 → crates.decode (crates.encode m) = some m

theorem Crates.standard_readsMessages : Crates.standard.ReadsMessages :=
  fun m h => Crates.standard_decode_encode m (sized_of_length h)

section Lawful
variable {crates : Crates}

theorem lawful_messagePush (hcodec : crates.ReadsMessages) : (messagePush crates).Lawful := by
  intro push hlen
  refine messagePush_decode_encode (fun m hm => ?_) hlen
  refine hcodec m (Nat.lt_of_le_of_lt ?_ hlen)
  exact @length_le_of_len_mem _ 1 _ (by simp [messagePush, Protobuf.optional, Option.mem_def.mp hm])

theorem lawful_lightpushRequest (hcodec : crates.ReadsMessages) :
    (lightpushRequest crates).Lawful := by
  intro request hlen
  refine lightpushRequest_decode_encode (fun m hm => ?_) hlen
  refine hcodec m (Nat.lt_of_le_of_lt ?_ hlen)
  exact @length_le_of_len_mem _ 21 _ (by simp [lightpushRequest, Protobuf.optional,
    Option.mem_def.mp hm])

theorem lawful_storeQueryResponse (hcodec : crates.ReadsMessages) :
    (storeQueryResponse crates).Lawful := by
  intro response hlen
  refine storeQueryResponse_decode_encode (fun kv hkv m hm => ?_) hlen
  -- a message is inside of its entry, and the entry inside of the response
  have hentry : ((wakuMessageKeyValue crates).encode kv).length < 2 ^ 64 := by
    refine Nat.lt_of_le_of_lt (@length_le_of_len_mem _ 20 _ ?_) hlen
    simp only [storeQueryResponse, List.mem_append, repeated]
    exact .inl (.inr (List.mem_map_of_mem hkv))
  refine hcodec m (Nat.lt_of_le_of_lt ?_ hentry)
  exact @length_le_of_len_mem _ 2 _ (by simp [wakuMessageKeyValue, Protobuf.optional,
    Option.mem_def.mp hm])

theorem behaviours_lawful (hcodec : crates.ReadsMessages) {p : RequestResponse}
    (hp : p ∈ behaviours crates) : p.lp ∈ lpCopies ∧ p.request.Lawful ∧ p.response.Lawful := by
  simp only [behaviours, List.mem_cons, List.not_mem_nil, or_false] at hp
  obtain rfl | rfl | rfl | rfl | rfl | rfl := hp
  · exact ⟨by simp [metadataCodec, lpCopies], fun _ => wakuMetadata_decode_encode,
      fun _ => wakuMetadata_decode_encode⟩
  · exact ⟨by simp [storeCodec, lpCopies], fun _ => storeQueryRequest_decode_encode,
      lawful_storeQueryResponse hcodec⟩
  · exact ⟨by simp [lightpushCodec, lpCopies], lawful_lightpushRequest hcodec,
      fun _ => lightpushResponse_decode_encode⟩
  · exact ⟨by simp [peerExchangeCodec, lpCopies], fun _ => peerExchangeRpc_decode_encode,
      fun _ => peerExchangeRpc_decode_encode⟩
  · exact ⟨by simp [subscribeCodec, lpCopies], fun _ => filterSubscribeRequest_decode_encode,
      fun _ => filterSubscribeResponse_decode_encode⟩
  · exact ⟨by simp [pushCodec, lpCopies], lawful_messagePush hcodec,
      fun _ => filterPushResponse_decode_encode⟩

end Lawful

/-- What a reader makes of a message of `size` bytes that was written, and of the rest of the
stream: it is read back, a message that is longer than a frame may be is refused, and nothing is
read from a stream that was cut off. -/
structure ReadsBack {α : Type} (read : List UInt8 → Read α) (write : α → List UInt8)
    (size maxFrameLen : Nat) (a : α) : Prop where
  fits : size ≤ maxFrameLen → ∀ rest, read (write a ++ rest) = .ok (a, rest)
  tooLong : maxFrameLen < size → size < 2 ^ 64 → ∀ rest,
    ∃ text, read (write a ++ rest) = .error (.invalidData text)
  cutOff : size ≤ maxFrameLen → ∀ q, q <+: write a → q ≠ write a → ∃ e, read q = .error e

theorem readsBack {α : Type} {lp : LpCopy} (hlp : lp ∈ lpCopies) {s : Schema α} (hs : s.Lawful)
    (a : α) : ReadsBack (readMessage lp s) (writeMessage lp s) (s.encode a).length lp.maxFrameLen
      a := by
  obtain ⟨maxFrameLen, text, hmax, rfl⟩ := mem_lpCopies hlp
  have hread (hlen : (s.encode a).length < 2 ^ 64) (rest : List UInt8) :
      (lpCopy maxFrameLen text).readLp (writeMessage (lpCopy maxFrameLen text) s a ++ rest) =
        if (s.encode a).length ≤ maxFrameLen then .ok (s.encode a, rest)
        else .error (.invalidData text) := readLp_writeLp hlen rest
  refine ⟨fun hfits rest => ?_, fun hlong hlen rest => ⟨text, ?_⟩, fun hfits q hq hne => ?_⟩
  · change (s.encode a).length ≤ maxFrameLen at hfits
    have hlen := Nat.lt_of_le_of_lt hfits hmax
    rw [readMessage, hread hlen, if_pos hfits]
    simp only [hs a hlen]
  · change maxFrameLen < (s.encode a).length at hlong
    rw [readMessage, hread hlen, if_neg (Nat.not_le.mpr hlong)]
  · have hcut : (lpCopy maxFrameLen text).readLp q = .error .unexpectedEof :=
      readLp_prefix (Nat.lt_of_le_of_lt hfits hmax) hfits hq hne
    exact ⟨_, by rw [readMessage, hcut]⟩

/-- Whatever the protocol, a peer reads the request that the other one wrote, and the other one
the response, if they fit its frames; longer ones are refused as invalid data. -/
theorem codecs_read_back (crates : Crates) (hcodec : crates.ReadsMessages) (p : RequestResponse)
    (hp : p ∈ behaviours crates) :
    (∀ r, ReadsBack p.readRequest p.writeRequest (p.request.encode r).length p.lp.maxFrameLen r) ∧
      ∀ r, ReadsBack p.readResponse p.writeResponse (p.response.encode r).length
        p.lp.maxFrameLen r := by
  obtain ⟨hlp, hrequest, hresponse⟩ := behaviours_lawful hcodec hp
  exact ⟨readsBack hlp hrequest, readsBack hlp hresponse⟩

theorem codecs_read_back_push :
    (pushCodec Crates.standard).readRequest ((pushCodec Crates.standard).writeRequest
      ⟨some { payload := [1, 2], contentTopic := "/a/1/b/c" }, some "/waku/2/rs/1/0"⟩ ++ [7]) =
        .ok (⟨some { payload := [1, 2], contentTopic := "/a/1/b/c" }, some "/waku/2/rs/1/0"⟩,
          [7]) :=
  ((codecs_read_back Crates.standard Crates.standard_readsMessages (pushCodec Crates.standard)
    (by simp [behaviours])).1 _).fits (by decide +kernel) [7]

end RsWaku
