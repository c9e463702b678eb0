import RsWaku.Pagination
import RsWaku.ProtocolCodecs
import RsWaku.RestMessages
import RsWaku.StoreFrames

/-! Two ways to the message store: the REST API with cursors in hex and messages in JSON, and the
store protocol with its frames. A client that walks through the pages of a query receives the same
rows over either. -/
namespace RsWaku
open BaseN Bytes Control Framing Keyset Protobuf Wire

structure StoreParams where
  pubsubTopic : Option String := none
  contentTopics : Option String := none
  startTime : Option Int64 := none
  endTime : Option Int64 := none
  pageSize : Option UInt64 := none
  ascending : Option Bool := none
  cursor : Option String := none
  includeData : Option Bool := none

structure StoreMessage where
  messageHash : String
  message : Option RestWakuMessage
  pubsubTopic : String
deriving DecidableEq

structure StoreResponse where
  messages : List StoreMessage
  paginationCursor : Option String
deriving DecidableEq

/-- The source writes these as `bad hex cursor: ..` and `cursor must be 32 bytes`. -/
inductive CursorError where
  | badHexCursor (e : HexError)
  | notThirtyTwoBytes
deriving DecidableEq

def parseHash (hexStr : String) : Except CursorError MessageHash := do
  let bytes ← (hexDecode (asBytes hexStr)).mapError .badHexCursor
  match MessageHash.ofBytes bytes with
  | some hash => .ok hash
  | none => .error .notThirtyTwoBytes

def StoreParams.toQuery (params : StoreParams) (cursor : Option MessageHash) : StoreQuery where
  pubsubTopic := params.pubsubTopic
  contentTopics := (params.contentTopics.map fun c => (Text.split c ',').map Text.trim).getD []
  timeStartNs := params.startTime
  timeEndNs := params.endTime
  messageHashes := []
  includeData := params.includeData.getD true
  pageSize := params.pageSize.getD 20
  forward := params.ascending.getD true
  cursor := cursor

def storedToJson (m : StoredMessage) : StoreMessage where
  messageHash := hexEncode m.hash.bytes
  message := m.message.map RestWakuMessage.fromMessage
  pubsubTopic := m.pubsubTopic

inductive StoreAnswer where
  | ok (response : StoreResponse)
  | badRequest (e : CursorError)
  | serviceUnavailable (text : String)
  | internalServerError (text : String)
deriving DecidableEq

def restStoreQuery (store : Option SqliteStore) (params : StoreParams) : StoreAnswer :=
  match store with
  | none => .serviceUnavailable "store not enabled"
  | some store =>
    match params.cursor.mapM parseHash with
    | .error e => .badRequest e
    | .ok cursor =>
      match store.query (params.toQuery cursor) with
      | .ok result =>
        .ok ⟨result.messages.map storedToJson,
          result.nextCursor.map fun hash => hexEncode hash.bytes⟩
      | .error e => .internalServerError e.toString

def restPage (params : StoreParams) (store : SqliteStore) (cursor : Option String) :
    Option (List StoreMessage × Option String) :=
  match restStoreQuery (some store) { params with cursor } with
  | .ok response => some (response.messages, response.paginationCursor)
  | _ => none

def askStore (crates : Crates) (store : SqliteStore) (req : StoreQueryRequest) :
    Except IoError StoreQueryResponse := do
  let (query, _) ← readMessage storeLp storeQueryRequest
    (writeMessage storeLp storeQueryRequest req)
  let (response, _) ← readMessage storeLp (storeQueryResponse crates)
    (writeMessage storeLp (storeQueryResponse crates) (serve store query))
  return response

def wirePage (crates : Crates) (req : StoreQueryRequest) (store : SqliteStore)
    (cursor : Option (List UInt8)) : Option (List WakuMessageKeyValue × Option (List UInt8)) :=
  match askStore crates store { req with paginationCursor := cursor } with
  | .ok response =>
    if response.statusCode = some 200 then some (response.messages, response.paginationCursor)
    else none
  | .error _ => none

abbrev Scheduled := List (List StoreOp) × SqliteStore

section Walks
variable (crates : Crates)

def Scheduled.next (s : Scheduled) : Scheduled := (s.1.tail, s.2.execAll crates (s.1.headD []))

def Scheduled.last (s : Scheduled) : SqliteStore := s.2.execAll crates s.1.flatten

def restWalk (params : StoreParams) (n : Nat) (s : Scheduled) : List StoreMessage × Bool :=
  pages (Scheduled.next crates) (fun s => restPage params s.2) n s none

def wireWalk (req : StoreQueryRequest) (n : Nat) (s : Scheduled) :
    List WakuMessageKeyValue × Bool :=
  pages (Scheduled.next crates) (fun s => wirePage crates req s.2) n s none

def storePage (q : StoreQuery) (s : Scheduled) (c : Option MessageHash) :
    Option (List StoredMessage × Option MessageHash) :=
  (s.2.query (q.resume c)).toOption.map fun page => (page.messages, page.nextCursor)

end Walks

variable {crates : Crates}

theorem walk_eq_pages (q : StoreQuery) (n : Nat) (s : Scheduled) (c : Option MessageHash) :
    pages (Scheduled.next crates) (storePage q) n s c =
      ((walk crates q n s.1 s.2 c).messages, (walk crates q n s.1 s.2 c).finished) := by
  induction n generalizing s c with
  | zero => rfl
  | succ n ih =>
    rw [pages, storePage, walk]
    cases s.2.query (q.resume c) with
    | error e => rfl
    | ok page =>
      obtain ⟨messages, next⟩ := page
      cases next with
      | none => rfl
      | some c' => simp only [Except.toOption, Option.map_some, ih, Scheduled.next]

theorem parseHash_hexEncode (hash : MessageHash) : parseHash (hexEncode hash.bytes) = .ok hash := by
  refine bind_eq_ok.mpr ⟨hash.bytes, ?_, ?_⟩
  · rw [hexDecode_hexEncode]
    rfl
  · rw [MessageHash.ofBytes_eq_some.mpr rfl]

theorem StoreParams.toQuery_resume (params : StoreParams) (cursor : Option String)
    (c : Option MessageHash) :
    { params with cursor }.toQuery c = (params.toQuery none).resume c := rfl

theorem mapM_parseHash (c : Option MessageHash) :
    (c.map fun hash => hexEncode hash.bytes).mapM parseHash = .ok c := by
  cases c with
  | none => rfl
  | some hash =>
    change some <$> parseHash (hexEncode hash.bytes) = _
    rw [parseHash_hexEncode]
    rfl

theorem restPage_eq (params : StoreParams) (s : Scheduled) (c : Option MessageHash) :
    restPage params s.2 (c.map fun hash => hexEncode hash.bytes) =
      (storePage (params.toQuery none) s c).map fun p =>
        (p.1.map storedToJson, p.2.map fun hash => hexEncode hash.bytes) := by
  simp only [storePage, restPage, restStoreQuery, mapM_parseHash, StoreParams.toQuery_resume]
  cases s.2.query ((params.toQuery none).resume c) <;> rfl

theorem length_encode_cursor (req : StoreQueryRequest) (c : Option MessageHash) :
    (storeQueryRequest.encode { req with paginationCursor := c.map MessageHash.bytes }).length ≤
      (storeQueryRequest.encode { req with paginationCursor := none }).length + 35 := by
  have hcursor : (encodeFields (Protobuf.optional (fun b : List UInt8 => ⟨51, .len b⟩)
      (c.map MessageHash.bytes))).length ≤ 35 := by
    rw [length_optional]
    cases c with
    | none => simp
    | some hash =>
      rw [Option.map_some, Option.map_some, Option.getD_some, hash.size]
      decide
  simp only [Schema.encode, storeQueryRequest, length_encodeFields_append]
  omega

theorem length_encode_serve_le {store : SqliteStore} {req : StoreQueryRequest} {size : Nat}
    (ha : store.Accepts (requestToQuery req)) (hlimit : req.limit < 2 ^ 63 - 1)
    (hsize : ∀ r ∈ store.rows, lenFieldSize 20 (r.entrySize crates req.includeData) ≤ size) :
    ((storeQueryResponse crates).encode (serve store req)).length ≤
      req.idSize + 42 + req.limit * size := by
  have hpage : store.pageRows (requestToQuery req) =
      (store.candidates (requestToQuery req)).take req.limit :=
    (store.pageRows_eq_take _ (Nat.lt_of_le_of_lt (Nat.le_max_left ..) hlimit)).1
  have hrows : ((store.pageRows (requestToQuery req)).map fun r =>
      lenFieldSize 20 (r.entrySize crates req.includeData)).sum ≤
        (store.pageRows (requestToQuery req)).length * size := by
    have hsum := List.sum_le_card_nsmul ((store.pageRows (requestToQuery req)).map fun r =>
      lenFieldSize 20 (r.entrySize crates req.includeData)) size ?_
    · rwa [List.length_map, smul_eq_mul] at hsum
    · intro x hx
      obtain ⟨r, hr, rfl⟩ := List.mem_map.mp hx
      exact hsize r (SqliteStore.pageRows_sound hr).1
  have hcount : (store.pageRows (requestToQuery req)).length * size ≤ req.limit * size := by
    refine Nat.mul_le_mul_right size ?_
    rw [hpage, List.length_take]
    exact Nat.min_le_left ..
  rw [length_encode_serve ha]
  split <;> omega

theorem askStore_eq (hcodec : (storeQueryResponse crates).Lawful) {store : SqliteStore}
    {req : StoreQueryRequest}
    (hrequest : (storeQueryRequest.encode req).length ≤ storeLp.maxFrameLen)
    (hresponse : ((storeQueryResponse crates).encode (serve store req)).length ≤
      storeLp.maxFrameLen) : askStore crates store req = .ok (serve store req) := by
  have hlp : storeLp ∈ lpCopies := by simp [lpCopies]
  have hasked := (readsBack hlp (fun _ => storeQueryRequest_decode_encode) req).fits hrequest []
  have hserved := (readsBack hlp hcodec (serve store req)).fits hresponse []
  rw [List.append_nil] at hasked hserved
  exact bind_eq_ok.mpr ⟨_, hasked, bind_eq_ok.mpr ⟨_, hserved, rfl⟩⟩

theorem requestToQuery_resume (req : StoreQueryRequest) (c : Option MessageHash) :
    requestToQuery { req with paginationCursor := c.map MessageHash.bytes } =
      (requestToQuery { req with paginationCursor := none }).resume c := by
  have hcursor : (c.map MessageHash.bytes).bind MessageHash.ofBytes = c := by
    cases c with
    | none => rfl
    | some hash => exact MessageHash.ofBytes_eq_some.mpr rfl
  exact congrArg (requestToQuery { req with paginationCursor := none }).resume hcursor

/-- SQLite prepares the statements, and the frames have room for a request with a cursor and for as
many rows as are asked for. -/
structure FitsFrames (crates : Crates) (req : StoreQueryRequest) (size : Nat) (s : Scheduled) :
    Prop where
  puts : OnlyPuts s.1
  boundVariables : (requestToQuery { req with paginationCursor := none }).boundVariables + 3 ≤
    s.2.maxVariables
  request : (storeQueryRequest.encode { req with paginationCursor := none }).length + 35 ≤
    storeLp.maxFrameLen
  limit : req.limit < 2 ^ 63 - 1
  response : req.idSize + 42 + req.limit * size ≤ storeLp.maxFrameLen
  entries : ∀ r ∈ (s.last crates).rows,
    lenFieldSize 20 (r.entrySize crates req.includeData) ≤ size

theorem FitsFrames.next {req : StoreQueryRequest} {size : Nat} {s : Scheduled}
    (h : FitsFrames crates req size s) : FitsFrames crates req size (s.next crates) := by
  refine ⟨schedule_tail h.puts, ?_, h.request, h.limit, h.response, ?_⟩
  · rw [Scheduled.next, SqliteStore.maxVariables_execAll]
    exact h.boundVariables
  · rw [Scheduled.last, Scheduled.next, execAll_schedule]
    exact h.entries

theorem wirePage_eq (hcodec : (storeQueryResponse crates).Lawful) {req : StoreQueryRequest}
    {size : Nat} {s : Scheduled} (h : FitsFrames crates req size s) (c : Option MessageHash) :
    wirePage crates req s.2 (c.map MessageHash.bytes) =
      (storePage (requestToQuery { req with paginationCursor := none }) s c).map fun p =>
        (p.1.map storedToKeyValue, p.2.map MessageHash.bytes) := by
  have haccepts : s.2.Accepts
      ((requestToQuery { req with paginationCursor := none }).resume c) :=
    SqliteStore.accepts_resume h.boundVariables c
  have hasked : askStore crates s.2 { req with paginationCursor := c.map MessageHash.bytes } =
      .ok (serve s.2 { req with paginationCursor := c.map MessageHash.bytes }) := by
    have hrows : ∀ r ∈ s.2.rows, lenFieldSize 20 (r.entrySize crates req.includeData) ≤ size :=
      fun r hr => h.entries r (SqliteStore.mem_execAll_of_puts hr _ h.puts.flatten)
    have hlength := @length_encode_serve_le crates s.2
      { req with paginationCursor := c.map MessageHash.bytes } size
      (by rwa [requestToQuery_resume]) h.limit hrows
    exact askStore_eq hcodec ((length_encode_cursor req c).trans h.request)
      (hlength.trans h.response)
  obtain ⟨messages, next, hq, -, -⟩ := SqliteStore.query_ok haccepts
  simp only [wirePage, hasked, serve, requestToQuery_resume, storePage, hq]
  rfl

def Row.json (includeData : Bool) (r : Row) : StoreMessage where
  messageHash := hexEncode r.messageHash
  message := if includeData then some (.fromMessage (rowToMessage r)) else none
  pubsubTopic := r.pubsubTopic

def Row.keyValue (includeData : Bool) (r : Row) : WakuMessageKeyValue where
  messageHash := some r.messageHash
  message := if includeData then some (rowToMessage r) else none
  pubsubTopic := some r.pubsubTopic

theorem Delivers.json {includeData : Bool} {rows : List Row} {messages : List StoredMessage}
    (h : Delivers includeData rows messages) :
    messages.map storedToJson = rows.map (Row.json includeData) := by
  refine h.map_eq fun r _ m hm => ?_
  obtain ⟨hhash, htopic, hmessage⟩ := rowToStored_spec hm
  rw [storedToJson, hhash, htopic, hmessage, Row.json]
  cases includeData <;> rfl

theorem Delivers.keyValues {includeData : Bool} {rows : List Row} {messages : List StoredMessage}
    (h : Delivers includeData rows messages) :
    messages.map storedToKeyValue = rows.map (Row.keyValue includeData) := by
  refine h.map_eq fun r _ m hm => ?_
  obtain ⟨hhash, htopic, hmessage⟩ := rowToStored_spec hm
  rw [storedToKeyValue, hhash, htopic, hmessage, Row.keyValue]

theorem restWalk_eq (params : StoreParams) (n : Nat) (s : Scheduled) :
    restWalk crates params n s =
      ((walk crates (params.toQuery none) n s.1 s.2 none).messages.map storedToJson,
        (walk crates (params.toQuery none) n s.1 s.2 none).finished) := by
  have hmap := @pages_map _ _ _ _ _ (Scheduled.next crates) _ _ _ _ (fun _ => True)
    (fun _ _ => trivial) (fun s c _ => restPage_eq params s c) n s none trivial
  rw [walk_eq_pages] at hmap
  exact hmap

theorem wireWalk_eq (hcodec : (storeQueryResponse crates).Lawful) {req : StoreQueryRequest}
    {size : Nat} (n : Nat) {s : Scheduled} (h : FitsFrames crates req size s) :
    wireWalk crates req n s =
      ((walk crates (requestToQuery { req with paginationCursor := none }) n s.1 s.2
          none).messages.map storedToKeyValue,
        (walk crates (requestToQuery { req with paginationCursor := none }) n s.1 s.2
          none).finished) := by
  have hmap := pages_map (fun _ hs => FitsFrames.next hs) (fun _ c hs => wirePage_eq hcodec hs c)
    n s none h
  rw [walk_eq_pages] at hmap
  exact hmap

theorem walk_rows (q : StoreQuery) (hsize : q.pageSize.toNat < 2 ^ 63 - 1) {n : Nat} {s : Scheduled}
    (hput : OnlyPuts s.1) (hvariables : q.boundVariables + 3 ≤ s.2.maxVariables)
    (hn : (s.last crates).rows.length < n) :
    (walk crates q n s.1 s.2 none).finished = true ∧
      ∃ rows, Delivers q.includeData rows (walk crates q n s.1 s.2 none).messages ∧
        Ordered Row.key q.forward rows ∧ (∀ r ∈ rows, q.Filters r ∧ r ∈ (s.last crates).rows) ∧
        ∀ r ∈ s.2.rows, q.Filters r → r ∈ rows := by
  have hstart : Resolves s.2 none none := .inl ⟨rfl, rfl⟩
  have hfinished : (walk crates q n s.1 s.2 none).finished = true :=
    walk_finishes n s.1 s.2 none none hput hvariables hstart
      (Nat.lt_of_le_of_lt (List.length_filter_le _ _) hn)
  obtain ⟨rows, hdelivers, hordered, hsound, hall⟩ :=
    @walk_grows crates q hsize n s.1 s.2 none none hput hstart
  exact ⟨hfinished, rows, hdelivers, hordered,
    fun r hr => ⟨(hsound r hr).1, (hsound r hr).2.2⟩,
    fun r hr hfilters => hall hfinished r hr hfilters (after_none _ _)⟩

def sampleHistory : Scheduled := ([[.put "/waku/2/rs/1/0" (sampleMessage 15) 0]], sampleStore)

def sampleHistoryRequest : StoreQueryRequest :=
  { includeData := true, paginationForward := true, paginationLimit := some 2 }

theorem sampleHistory_fits : FitsFrames Crates.standard sampleHistoryRequest 200 sampleHistory where
  puts := by
    intro ops hops op hop
    cases List.mem_singleton.mp hops
    cases List.mem_singleton.mp hop
    trivial
  boundVariables := by decide +kernel
  request := by decide +kernel
  limit := by decide
  response := by decide +kernel
  entries := by decide +kernel

end RsWaku
