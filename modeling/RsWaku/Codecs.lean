import RsWaku.Protobuf
import RsWaku.Requests

/-! The protobuf messages of the lightpush, filter, store and peer-exchange protocols, and that
each is read back from its encoding. Nested Waku messages go through the codec of the crate. -/
namespace RsWaku
open Bytes Wire Protobuf
variable (crates : Crates)

def utf8 (b : List UInt8) : Option String := String.fromUTF8? ⟨b.toArray⟩

theorem utf8_asBytes (s : String) : utf8 (asBytes s) = some s := fromUTF8_asBytes s

/-- A second occurrence of a nested message is merged into the first, which for protobuf is
to decode the two encodings as one. -/
def mergeMessage (old : Option WakuMessage) (b : List UInt8) : Option WakuMessage :=
  crates.decode ((old.map crates.encode).getD [] ++ b)

def messagePush : Schema MessagePush where
  default := ⟨none, none⟩
  fields p :=
    optional (fun m => ⟨1, .len (crates.encode m)⟩) p.wakuMessage ++
    optional (fun t => ⟨2, .len (asBytes t)⟩) p.pubsubTopic
  merge p f :=
    match f.tag, f.value with
    | 1, .len b =>
      (mergeMessage crates p.wakuMessage b).map fun m => { p with wakuMessage := some m }
    | 2, .len b => (utf8 b).map fun t => { p with pubsubTopic := some t }
    | tag, _ => if tag ∈ [1, 2] then none else some p

def lightpushRequest : Schema LightpushRequest where
  default := {}
  fields r :=
    plain "" (fun t => ⟨1, .len (asBytes t)⟩) r.requestId ++
    plain "" (fun t => ⟨20, .len (asBytes t)⟩) r.pubsubTopic ++
    optional (fun m => ⟨21, .len (crates.encode m)⟩) r.message
  merge r f :=
    match f.tag, f.value with
    | 1, .len b => (utf8 b).map fun t => { r with requestId := t }
    | 20, .len b => (utf8 b).map fun t => { r with pubsubTopic := t }
    | 21, .len b => (mergeMessage crates r.message b).map fun m => { r with message := some m }
    | tag, _ => if tag ∈ [1, 20, 21] then none else some r

def wakuMessageKeyValue : Schema WakuMessageKeyValue where
  default := ⟨none, none, none⟩
  fields kv :=
    optional (fun b => ⟨1, .len b⟩) kv.messageHash ++
    optional (fun m => ⟨2, .len (crates.encode m)⟩) kv.message ++
    optional (fun t => ⟨3, .len (asBytes t)⟩) kv.pubsubTopic
  merge kv f :=
    match f.tag, f.value with
    | 1, .len b => some { kv with messageHash := some b }
    | 2, .len b => (mergeMessage crates kv.message b).map fun m => { kv with message := some m }
    | 3, .len b => (utf8 b).map fun t => { kv with pubsubTopic := some t }
    | tag, _ => if tag ∈ [1, 2, 3] then none else some kv

def storeQueryResponse : Schema StoreQueryResponse where
  default := ⟨"", none, none, [], none⟩
  fields r :=
    plain "" (fun t => ⟨1, .len (asBytes t)⟩) r.requestId ++
    optional (fun c => ⟨10, .varint c.toNat⟩) r.statusCode ++
    optional (fun t => ⟨11, .len (asBytes t)⟩) r.statusDesc ++
    repeated (fun kv => ⟨20, .len ((wakuMessageKeyValue crates).encode kv)⟩) r.messages ++
    optional (fun b => ⟨51, .len b⟩) r.paginationCursor
  merge r f :=
    match f.tag, f.value with
    | 1, .len b => (utf8 b).map fun t => { r with requestId := t }
    | 10, .varint v => some { r with statusCode := some (UInt32.ofNat v) }
    | 11, .len b => (utf8 b).map fun t => { r with statusDesc := some t }
    | 20, .len b =>
      ((wakuMessageKeyValue crates).decode b).map fun kv =>
        { r with messages := r.messages ++ [kv] }
    | 51, .len b => some { r with paginationCursor := some b }
    | tag, _ => if tag ∈ [1, 10, 11, 20, 51] then none else some r

def peerInfo : Schema (List UInt8) where
  default := []
  fields enr := plain [] (fun b => ⟨1, .len b⟩) enr
  merge enr f :=
    match f.tag, f.value with
    | 1, .len b => some b
    | tag, _ => if tag = 1 then none else some enr

def peerExchangeQuery : Schema UInt64 where
  default := 0
  fields numPeers := plain 0 (fun n => ⟨1, .varint n.toNat⟩) numPeers
  merge numPeers f :=
    match f.tag, f.value with
    | 1, .varint v => some (UInt64.ofNat v)
    | tag, _ => if tag = 1 then none else some numPeers

def peerExchangeResponse : Schema (List (List UInt8)) where
  default := []
  fields peerInfos := repeated (fun enr => ⟨1, .len (peerInfo.encode enr)⟩) peerInfos
  merge peerInfos f :=
    match f.tag, f.value with
    | 1, .len b => (peerInfo.decode b).map fun enr => peerInfos ++ [enr]
    | tag, _ => if tag = 1 then none else some peerInfos

def peerExchangeRpc : Schema PeerExchangeRpc where
  default := {}
  fields rpc :=
    optional (fun n => ⟨1, .len (peerExchangeQuery.encode n)⟩) rpc.query ++
    optional (fun enrs => ⟨2, .len (peerExchangeResponse.encode enrs)⟩) rpc.response
  merge rpc f :=
    match f.tag, f.value with
    | 1, .len b =>
      (peerExchangeQuery.mergeBytes (rpc.query.getD 0) b).map fun n => { rpc with query := some n }
    | 2, .len b =>
      (peerExchangeResponse.mergeBytes (rpc.response.getD []) b).map fun enrs =>
        { rpc with response := some enrs }
    | tag, _ => if tag ∈ [1, 2] then none else some rpc

variable {crates}

theorem mergeMessage_encode {m : WakuMessage} (h : crates.decode (crates.encode m) = some m) :
    mergeMessage crates none (crates.encode m) = some m := by
  rw [mergeMessage, Option.map_none, Option.getD_none, List.nil_append, h]

theorem messagePush_decode_encode {p : MessagePush}
    (hm : ∀ m ∈ p.wakuMessage, crates.decode (crates.encode m) = some m)
    (hlen : ((messagePush crates).encode p).length < 2 ^ 64) :
    (messagePush crates).decode ((messagePush crates).encode p) = some p := by
  refine Schema.decode_encode hlen ?_ ?_
  · simp only [messagePush, List.forall_mem_append]
    refine ⟨written_optional ?_ _, written_optional ?_ _⟩
    · exact fun m => written_len (by decide) _
    · exact fun t => written_len (by decide) _
  · refine Schema.Merges.append (b := ⟨p.wakuMessage, none⟩) ?_ ?_
    · refine merges_optional (messagePush crates) (fun o => ⟨o, none⟩) fun m h => ?_
      simp [messagePush, mergeMessage_encode (hm m h)]
    · refine merges_optional (messagePush crates) (fun o => ⟨p.wakuMessage, o⟩) fun t _ => ?_
      simp [messagePush, utf8_asBytes]

theorem lightpushRequest_decode_encode {r : LightpushRequest}
    (hm : ∀ m ∈ r.message, crates.decode (crates.encode m) = some m)
    (hlen : ((lightpushRequest crates).encode r).length < 2 ^ 64) :
    (lightpushRequest crates).decode ((lightpushRequest crates).encode r) = some r := by
  refine Schema.decode_encode hlen ?_ ?_
  · simp only [lightpushRequest, List.forall_mem_append]
    refine ⟨⟨written_plain ?_ _ _, written_plain ?_ _ _⟩, written_optional ?_ _⟩
    · exact fun t => written_len (by decide) _
    · exact fun t => written_len (by decide) _
    · exact fun m => written_len (by decide) _
  · refine Schema.Merges.append (b := ⟨r.requestId, r.pubsubTopic, none⟩)
      (Schema.Merges.append (b := ⟨r.requestId, "", none⟩) ?_ ?_) ?_
    · refine merges_plain (lightpushRequest crates) (fun t => ⟨t, "", none⟩) ?_
      simp [lightpushRequest, utf8_asBytes]
    · refine merges_plain (lightpushRequest crates) (fun t => ⟨r.requestId, t, none⟩) ?_
      simp [lightpushRequest, utf8_asBytes]
    · refine merges_optional (lightpushRequest crates)
        (fun o => ⟨r.requestId, r.pubsubTopic, o⟩) fun m h => ?_
      simp [lightpushRequest, mergeMessage_encode (hm m h)]

theorem wakuMessageKeyValue_decode_encode {kv : WakuMessageKeyValue}
    (hm : ∀ m ∈ kv.message, crates.decode (crates.encode m) = some m)
    (hlen : ((wakuMessageKeyValue crates).encode kv).length < 2 ^ 64) :
    (wakuMessageKeyValue crates).decode ((wakuMessageKeyValue crates).encode kv) = some kv := by
  refine Schema.decode_encode hlen ?_ ?_
  · simp only [wakuMessageKeyValue, List.forall_mem_append]
    refine ⟨⟨written_optional ?_ _, written_optional ?_ _⟩, written_optional ?_ _⟩
    · exact fun b => written_len (by decide) _
    · exact fun m => written_len (by decide) _
    · exact fun t => written_len (by decide) _
  · refine Schema.Merges.append (b := ⟨kv.messageHash, kv.message, none⟩)
      (Schema.Merges.append (b := ⟨kv.messageHash, none, none⟩) ?_ ?_) ?_
    · refine merges_optional (wakuMessageKeyValue crates) (fun o => ⟨o, none, none⟩) fun b _ => ?_
      simp [wakuMessageKeyValue]
    · refine merges_optional (wakuMessageKeyValue crates)
        (fun o => ⟨kv.messageHash, o, none⟩) fun m h => ?_
      simp [wakuMessageKeyValue, mergeMessage_encode (hm m h)]
    · refine merges_optional (wakuMessageKeyValue crates)
        (fun o => ⟨kv.messageHash, kv.message, o⟩) fun t _ => ?_
      simp [wakuMessageKeyValue, utf8_asBytes]

theorem storeQueryResponse_decode_encode {r : StoreQueryResponse}
    (hm : ∀ kv ∈ r.messages, ∀ m ∈ kv.message, crates.decode (crates.encode m) = some m)
    (hlen : ((storeQueryResponse crates).encode r).length < 2 ^ 64) :
    (storeQueryResponse crates).decode ((storeQueryResponse crates).encode r) = some r := by
  -- an entry is shorter than the response that holds it
  have hentry : ∀ kv ∈ r.messages, (wakuMessageKeyValue crates).decode
      ((wakuMessageKeyValue crates).encode kv) = some kv := by
    intro kv hkv
    refine wakuMessageKeyValue_decode_encode (hm kv hkv) (Nat.lt_of_le_of_lt ?_ hlen)
    refine @length_le_of_len_mem _ 20 _ ?_
    simp only [storeQueryResponse, List.mem_append, repeated]
    exact .inl (.inr (List.mem_map_of_mem hkv))
  refine Schema.decode_encode hlen ?_ ?_
  · simp only [storeQueryResponse, List.forall_mem_append]
    refine ⟨⟨⟨⟨written_plain ?_ _ _, written_optional ?_ _⟩, written_optional ?_ _⟩,
      written_repeated ?_ _⟩, written_optional ?_ _⟩
    · exact fun t => written_len (by decide) _
    · exact fun c => written_varint (by decide) (Nat.lt_trans c.toNat_lt (by decide))
    · exact fun t => written_len (by decide) _
    · exact fun kv => written_len (by decide) _
    · exact fun b => written_len (by decide) _
  · refine Schema.Merges.append
      (b := ⟨r.requestId, r.statusCode, r.statusDesc, r.messages, none⟩) (Schema.Merges.append
      (b := ⟨r.requestId, r.statusCode, r.statusDesc, [], none⟩) (Schema.Merges.append
      (b := ⟨r.requestId, r.statusCode, none, [], none⟩) (Schema.Merges.append
      (b := ⟨r.requestId, none, none, [], none⟩) ?_ ?_) ?_) ?_) ?_
    · refine merges_plain (storeQueryResponse crates) (fun t => ⟨t, none, none, [], none⟩) ?_
      simp [storeQueryResponse, utf8_asBytes]
    · refine merges_optional (storeQueryResponse crates)
        (fun o => ⟨r.requestId, o, none, [], none⟩) fun c _ => ?_
      simp [storeQueryResponse]
    · refine merges_optional (storeQueryResponse crates)
        (fun o => ⟨r.requestId, r.statusCode, o, [], none⟩) fun t _ => ?_
      simp [storeQueryResponse, utf8_asBytes]
    · refine merges_repeated (storeQueryResponse crates)
        (fun kvs => ⟨r.requestId, r.statusCode, r.statusDesc, kvs, none⟩)
        fun kv h seen => ?_
      simp [storeQueryResponse, hentry kv h]
    · refine merges_optional (storeQueryResponse crates)
        (fun o => ⟨r.requestId, r.statusCode, r.statusDesc, r.messages, o⟩) fun b _ => ?_
      simp [storeQueryResponse]

theorem peerInfo_decode_encode {enr : List UInt8} (hlen : (peerInfo.encode enr).length < 2 ^ 64) :
    peerInfo.decode (peerInfo.encode enr) = some enr := by
  refine Schema.decode_encode hlen ?_ ?_
  · exact written_plain (fun b => written_len (by decide) _) _ _
  · change peerInfo.Merges (plain [] (fun b => ⟨1, .len b⟩) enr) [] enr
    refine merges_plain peerInfo (fun b => b) ?_
    simp [peerInfo]

theorem peerExchangeQuery_decode_encode (numPeers : UInt64) :
    peerExchangeQuery.decode (peerExchangeQuery.encode numPeers) = some numPeers := by
  have hfields : peerExchangeQuery.fields numPeers =
    plain 0 (fun n => ⟨1, .varint n.toNat⟩) numPeers := rfl
  refine Schema.decode_encode ?_ ?_ ?_
  · rw [Schema.encode, hfields, plain]
    split
    · decide
    · have hkey := length_encodeVarint_le (1 * 8 + 0)
      have hvalue := length_encodeVarint_le numPeers.toNat
      simp only [encodeFields, encodeField, Value.encode, Value.wireType, List.flatMap_cons,
        List.flatMap_nil, List.append_nil, List.length_append]
      omega
  · exact written_plain (fun n => written_varint (by decide) n.toNat_lt) _ _
  · rw [hfields]
    refine merges_plain peerExchangeQuery (fun n => n) ?_
    simp [peerExchangeQuery]

theorem peerExchangeResponse_decode_encode {peerInfos : List (List UInt8)}
    (hlen : (peerExchangeResponse.encode peerInfos).length < 2 ^ 64) :
    peerExchangeResponse.decode (peerExchangeResponse.encode peerInfos) = some peerInfos := by
  have hinfo : ∀ enr ∈ peerInfos, peerInfo.decode (peerInfo.encode enr) = some enr := by
    intro enr henr
    refine peerInfo_decode_encode (Nat.lt_of_le_of_lt ?_ hlen)
    exact @length_le_of_len_mem _ 1 _ (List.mem_map_of_mem henr)
  refine Schema.decode_encode hlen ?_ ?_
  · exact written_repeated (fun enr => written_len (by decide) _) _
  · refine merges_repeated peerExchangeResponse (fun enrs => enrs) fun enr h seen => ?_
    simp [peerExchangeResponse, hinfo enr h]

theorem peerExchangeRpc_decode_encode {rpc : PeerExchangeRpc}
    (hlen : (peerExchangeRpc.encode rpc).length < 2 ^ 64) :
    peerExchangeRpc.decode (peerExchangeRpc.encode rpc) = some rpc := by
  have hresponse : ∀ enrs ∈ rpc.response,
      peerExchangeResponse.decode (peerExchangeResponse.encode enrs) = some enrs := by
    intro enrs henrs
    refine peerExchangeResponse_decode_encode (Nat.lt_of_le_of_lt ?_ hlen)
    refine @length_le_of_len_mem _ 2 _ (List.mem_append_right _ ?_)
    rw [Option.mem_def.mp henrs]
    exact List.mem_singleton.mpr rfl
  refine Schema.decode_encode hlen ?_ ?_
  · simp only [peerExchangeRpc, List.forall_mem_append]
    refine ⟨written_optional ?_ _, written_optional ?_ _⟩
    · exact fun n => written_len (by decide) _
    · exact fun enrs => written_len (by decide) _
  · refine Schema.Merges.append (b := ⟨rpc.query, none⟩) ?_ ?_
    · refine merges_optional peerExchangeRpc (fun o => ⟨o, none⟩) fun n _ => ?_
      have hn : peerExchangeQuery.mergeBytes 0 (peerExchangeQuery.encode n) = some n :=
        peerExchangeQuery_decode_encode n
      simp [peerExchangeRpc, hn]
    · refine merges_optional peerExchangeRpc (fun o => ⟨rpc.query, o⟩) fun enrs h => ?_
      have henrs : peerExchangeResponse.mergeBytes [] (peerExchangeResponse.encode enrs) =
        some enrs := hresponse enrs h
      simp [peerExchangeRpc, henrs]

end RsWaku
