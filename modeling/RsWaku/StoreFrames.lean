import Mathlib.Algebra.Group.Action.Defs
import Mathlib.Algebra.Order.BigOperators.Group.List
import RsWaku.Codecs
import RsWaku.Frames

/-! The size of a store response on the wire, and when the client can read its frame. -/
namespace RsWaku
open Bytes Framing Protobuf Wire
variable (crates : Crates)

def Row.entrySize (includeData : Bool) (r : Row) : Nat :=
  lenFieldSize 1 32 +
    (if includeData then lenFieldSize 2 (crates.encode (rowToMessage r)).length else 0) +
    lenFieldSize 3 (asBytes r.pubsubTopic).length

def StoreQueryRequest.idSize (req : StoreQueryRequest) : Nat :=
  if req.requestId = "" then 0 else lenFieldSize 1 (asBytes req.requestId).length

def StoreQueryRequest.limit (req : StoreQueryRequest) : Nat :=
  max (req.paginationLimit.getD 20).toNat 1

/-- The rows that answer a request. At the greatest limit the row fetched on top of it wraps the
count to zero. -/
def SqliteStore.answerRows (store : SqliteStore) (req : StoreQueryRequest) : List Row :=
  if req.limit = 2 ^ 64 - 1 then []
  else (store.candidates (requestToQuery req)).take req.limit

def SqliteStore.SendsCursor (store : SqliteStore) (req : StoreQueryRequest) : Prop :=
  store.answerRows req ≠ [] ∧
    (req.limit < (store.candidates (requestToQuery req)).length ∨ 2 ^ 63 ≤ req.limit)

instance (store : SqliteStore) (req : StoreQueryRequest) : Decidable (store.SendsCursor req) :=
  inferInstanceAs (Decidable (store.answerRows req ≠ [] ∧
    (req.limit < (store.candidates (requestToQuery req)).length ∨ 2 ^ 63 ≤ req.limit)))

variable {crates}

theorem length_encode_entry {includeData : Bool} {r : Row} {m : StoredMessage}
    (hsize : r.messageHash.length = 32) (h : rowToStored includeData r = .ok m) :
    ((wakuMessageKeyValue crates).encode (storedToKeyValue m)).length =
      r.entrySize crates includeData := by
  obtain ⟨hhash, htopic, hmessage⟩ := rowToStored_spec h
  simp only [Schema.encode, wakuMessageKeyValue, storedToKeyValue, length_encodeFields_append,
    length_optional, hhash, htopic, hmessage, hsize, Option.map_some, Option.getD_some,
    Row.entrySize]
  cases includeData <;> rfl

theorem length_encode_entries {includeData : Bool} {rows : List Row}
    {messages : List StoredMessage} (hsize : ∀ r ∈ rows, r.messageHash.length = 32)
    (h : Delivers includeData rows messages) :
    ((messages.map storedToKeyValue).map fun kv =>
      lenFieldSize 20 ((wakuMessageKeyValue crates).encode kv).length).sum =
      (rows.map fun r => lenFieldSize 20 (r.entrySize crates includeData)).sum := by
  rw [List.map_map]
  refine congrArg List.sum (h.map_eq fun r hr m hm => ?_)
  exact congrArg (lenFieldSize 20) (length_encode_entry (hsize r hr) hm)

theorem length_cursor {includeData more : Bool} {rows : List Row} {messages : List StoredMessage}
    (h : Delivers includeData rows messages) :
    (((if more then messages.getLast?.map (·.hash) else none).map MessageHash.bytes).map
      fun b => lenFieldSize 51 b.length).getD 0 = if more ∧ rows ≠ [] then 35 else 0 := by
  cases more with
  | false => simp
  | true =>
    have hempty : rows = [] ↔ messages = [] := by
      rw [← List.length_eq_zero_iff, ← h.length, List.length_eq_zero_iff]
    cases hlast : messages.getLast? with
    | none => simp [hempty, List.getLast?_eq_none_iff.mp hlast]
    | some m =>
      have hne : rows ≠ [] := fun hnil => by simp [hempty.mp hnil] at hlast
      have hcursor : lenFieldSize 51 32 = 35 := by decide
      simp [hne, m.hash.size, hcursor]

theorem length_encode_serve {store : SqliteStore} {req : StoreQueryRequest}
    (ha : store.Accepts (requestToQuery req)) :
    ((storeQueryResponse crates).encode (serve store req)).length = req.idSize + 7 +
      ((store.pageRows (requestToQuery req)).map fun r =>
        lenFieldSize 20 (r.entrySize crates req.includeData)).sum +
      if store.hasMore (requestToQuery req) ∧ store.pageRows (requestToQuery req) ≠ [] then 35
      else 0 := by
  obtain ⟨messages, hd, hq⟩ := SqliteStore.query_eq ha
  have hsize : ∀ r ∈ store.pageRows (requestToQuery req), r.messageHash.length = 32 :=
    fun r hr => store.hash_size r
      (List.mem_of_mem_filter ((store.page (requestToQuery req)).sound r hr).1)
  have hid : (encodeFields (plain "" (fun t => ⟨1, .len (asBytes t)⟩) req.requestId)).length =
      req.idSize := length_plain "" req.requestId
  have hcode : (encodeFields (optional (fun c : UInt32 => ⟨10, .varint c.toNat⟩) (some 200))).length
      = 3 := by decide
  have hdesc : lenFieldSize 11 (asBytes "OK").length = 4 := by decide
  have hentries := @length_encode_entries crates _ _ _ hsize hd
  have hcursor := @length_cursor _ (store.hasMore (requestToQuery req)) _ _ hd
  rw [Schema.encode]
  simp only [serve, hq, storeQueryResponse, length_encodeFields_append, hid, hcode]
  rw [length_optional, length_repeated, length_optional, hentries, hcursor, Option.map_some,
    Option.getD_some, hdesc]
  rfl

theorem length_encode_refused {store : SqliteStore} {req : StoreQueryRequest}
    (h : ¬store.Accepts (requestToQuery req)) :
    ((storeQueryResponse crates).encode (serve store req)).length = req.idSize + 83 := by
  have hid : (encodeFields (plain "" (fun t => ⟨1, .len (asBytes t)⟩) req.requestId)).length =
      req.idSize := length_plain "" req.requestId
  have hcode : (encodeFields (optional (fun c : UInt32 => ⟨10, .varint c.toNat⟩) (some 500))).length
      = 3 := by decide
  have hdesc : lenFieldSize 11 (asBytes tooManyVariables.toString).length = 80 := by
    decide +kernel
  rw [serve_refused h, Schema.encode]
  simp only [storeQueryResponse, length_encodeFields_append, hid, hcode]
  rw [length_optional, length_repeated, length_optional, Option.map_some, Option.getD_some, hdesc]
  rfl

theorem pageRows_eq_answerRows (store : SqliteStore) (req : StoreQueryRequest) :
    store.pageRows (requestToQuery req) = store.answerRows req := by
  have hlimit : req.limit = max (requestToQuery req).pageSize.toNat 1 := rfl
  have hu := (requestToQuery req).pageSize.toNat_lt
  rw [SqliteStore.answerRows, hlimit]
  by_cases hmax : (requestToQuery req).pageSize.toNat = 2 ^ 64 - 1
  · rw [store.pageRows_max_size _ hmax, if_pos (by omega)]
  · rw [store.pageRows_take _ hmax, if_neg (by omega)]

theorem hasMore_iff_sendsCursor (store : SqliteStore) (req : StoreQueryRequest)
    (hlen : (store.answerRows req).length < 2 ^ 63 - 1) :
    (store.hasMore (requestToQuery req) ∧ store.pageRows (requestToQuery req) ≠ []) ↔
      store.SendsCursor req := by
  have hlimit : req.limit = max (requestToQuery req).pageSize.toNat 1 := rfl
  rw [pageRows_eq_answerRows, SqliteStore.SendsCursor, and_comm]
  refine and_congr_right fun hne => ?_
  have hu := (requestToQuery req).pageSize.toNat_lt
  have hmax : req.limit ≠ 2 ^ 64 - 1 := fun hmax => hne (if_pos hmax)
  rw [SqliteStore.answerRows, if_neg hmax, List.length_take] at hlen
  by_cases hsmall : req.limit < 2 ^ 63 - 1
  · rw [(store.pageRows_eq_take _ (by omega)).2, ← hlimit]
    omega
  · rw [store.hasMore_wrapped _ (by omega) (by omega), Int.bmod_def, Int.bmod_def]
    omega

theorem card_mul_le_sum_entries {size : Nat} {includeData : Bool} {rows : List Row}
    (h : ∀ r ∈ rows, size ≤ lenFieldSize 20 (r.entrySize crates includeData)) :
    rows.length * size ≤
      (rows.map fun r => lenFieldSize 20 (r.entrySize crates includeData)).sum := by
  have hsum := List.card_nsmul_le_sum
    (rows.map fun r => lenFieldSize 20 (r.entrySize crates includeData)) size (by simpa using h)
  rwa [List.length_map, smul_eq_mul] at hsum

/-- The client reads the frame of the response exactly if the rows that the request selects, cut at
its limit, leave room in a frame of 100 MiB, or the error if SQLite refuses the statement. -/
theorem store_response_fits_iff (crates : Crates) (store : SqliteStore) (req : StoreQueryRequest) :
    (((storeQueryResponse crates).encode (serve store req)).length ≤ storeLp.maxFrameLen ∧
      storeLp.readLp (storeLp.writeLp ((storeQueryResponse crates).encode (serve store req))) =
        .ok ((storeQueryResponse crates).encode (serve store req), [])) ↔
      if store.Accepts (requestToQuery req) then
        req.idSize + 7 + ((store.answerRows req).map fun r =>
          lenFieldSize 20 (r.entrySize crates req.includeData)).sum +
          (if store.SendsCursor req then 35 else 0) ≤ 100 * 1024 * 1024
      else req.idSize + 83 ≤ 100 * 1024 * 1024 := by
  have hread (h : ((storeQueryResponse crates).encode (serve store req)).length ≤
      100 * 1024 * 1024) :
      storeLp.readLp (storeLp.writeLp ((storeQueryResponse crates).encode (serve store req))) =
        .ok ((storeQueryResponse crates).encode (serve store req), []) := by
    rw [storeLp, lpCopy_readLp_writeLp _ _ (Nat.lt_of_le_of_lt h (by decide)), if_pos h]
  by_cases ha : store.Accepts (requestToQuery req)
  case neg =>
    rw [if_neg ha, ← length_encode_refused ha]
    exact ⟨And.left, fun h => ⟨h, hread h⟩⟩
  rw [if_pos ha]
  have hlength := @length_encode_serve crates store req ha
  have hentries : (store.answerRows req).length * 1 ≤ ((store.answerRows req).map fun r =>
      lenFieldSize 20 (r.entrySize crates req.includeData)).sum :=
    card_mul_le_sum_entries fun r _ => by
      have hle := le_lenFieldSize 20 (r.entrySize crates req.includeData)
      omega
  by_cases hrows : (store.answerRows req).length < 2 ^ 63 - 1
  · simp only [hasMore_iff_sendsCursor store req hrows] at hlength
    rw [pageRows_eq_answerRows] at hlength
    rw [← hlength]
    exact ⟨And.left, fun h => ⟨h, hread h⟩⟩
  · -- so many rows exceed the frame, whether a cursor is sent or not
    rw [pageRows_eq_answerRows] at hlength
    have hmax : storeLp.maxFrameLen = 100 * 1024 * 1024 := rfl
    constructor
    · intro h
      have hfits := h.1
      omega
    · intro h
      omega

/- A request whose id fills a frame: the response repeats it and adds its status. -/
def longIdRequest : StoreQueryRequest where
  requestId := String.ofList (List.replicate 104857590 'a')
  includeData := true

theorem asBytes_replicate_length (n : Nat) :
    (asBytes (String.ofList (List.replicate n 'a'))).length = n := by
  have ha : (String.utf8EncodeChar 'a').length = 1 := by decide
  rw [asBytes_ofList, List.length_flatMap, List.map_replicate, List.sum_replicate, ha, smul_eq_mul,
    Nat.mul_one]

theorem longIdRequest_idSize : longIdRequest.idSize = 104857595 := by
  have hlength : (asBytes longIdRequest.requestId).length = 104857590 :=
    asBytes_replicate_length 104857590
  have hne : longIdRequest.requestId ≠ "" := by
    intro h
    rw [h] at hlength
    cases hlength
  rw [StoreQueryRequest.idSize, if_neg hne, hlength]
  decide +kernel

theorem store_response_long_id :
    storeLp.maxFrameLen <
      ((storeQueryResponse Crates.standard).encode (serve SqliteStore.empty longIdRequest)).length ∧
    storeLp.readLp (storeLp.writeLp
      ((storeQueryResponse Crates.standard).encode (serve SqliteStore.empty longIdRequest))) =
      .error (.invalidData "store frame exceeds maximum length") := by
  have hnone : SqliteStore.empty.pageRows (requestToQuery longIdRequest) = [] := by
    obtain ⟨n, hn⟩ := SqliteStore.empty.pageRows_prefix (requestToQuery longIdRequest)
    rw [hn]
    exact List.take_nil
  have haccepts : SqliteStore.empty.Accepts (requestToQuery longIdRequest) :=
    (by decide : 1 ≤ 32766)
  have hlength := @length_encode_serve Crates.standard SqliteStore.empty longIdRequest haccepts
  rw [hnone, longIdRequest_idSize, List.map_nil, List.sum_nil] at hlength
  simp only [ne_eq, not_true_eq_false, and_false, if_false] at hlength
  have hmax : storeLp.maxFrameLen = 100 * 1024 * 1024 := rfl
  constructor
  · omega
  · rw [storeLp, lpCopy_readLp_writeLp _ _ (by omega), if_neg (by omega)]

def wholePage : StoreQueryRequest := { includeData := true, paginationLimit := some 100 }

theorem candidates_wholePage (store : SqliteStore) :
    (store.candidates (requestToQuery wholePage)).Perm store.rows := by
  refine (Keyset.listing_perm _ _).trans (List.Perm.of_eq (List.filter_eq_self.mpr ?_))
  intro r _
  simp [requestToQuery, wholePage, StoreQuery.Filters, KeysetClause, SqliteStore.cursorKey,
    InTimeRange]

/-- A hundred messages of almost 1 MiB do not fit a frame either, and no limit stops a client
from asking for them. -/
theorem hundred_messages_exceed_frame {store : SqliteStore} (hmany : 100 ≤ store.rows.length)
    (hlarge : ∀ r ∈ store.rows, 1024 * 1024 - 40 ≤ (crates.encode (rowToMessage r)).length) :
    storeLp.maxFrameLen <
      ((storeQueryResponse crates).encode (serve store wholePage)).length := by
  have hrows : store.answerRows wholePage =
      (store.candidates (requestToQuery wholePage)).take 100 := rfl
  have hcount : (store.answerRows wholePage).length = 100 := by
    rw [hrows, List.length_take, (candidates_wholePage store).length_eq]
    omega
  have hentry : ∀ r ∈ store.answerRows wholePage,
      1024 * 1024 ≤ lenFieldSize 20 (r.entrySize crates wholePage.includeData) := by
    intro r hr
    have hr := (candidates_wholePage store).mem_iff.mp (List.mem_of_mem_take (hrows ▸ hr))
    have hmessage := le_lenFieldSize 2 (crates.encode (rowToMessage r)).length
    have hhash := le_lenFieldSize 1 32
    have htopic := le_lenFieldSize 3 (asBytes r.pubsubTopic).length
    have hfield := le_lenFieldSize 20 (r.entrySize crates wholePage.includeData)
    have hsize : r.entrySize crates wholePage.includeData = lenFieldSize 1 32 +
      lenFieldSize 2 (crates.encode (rowToMessage r)).length +
      lenFieldSize 3 (asBytes r.pubsubTopic).length := rfl
    have hr := hlarge r hr
    omega
  have hsum := card_mul_le_sum_entries hentry
  have haccepts : store.Accepts (requestToQuery wholePage) :=
    (by decide : 1 ≤ 11).trans store.put_variables
  have hlength := @length_encode_serve crates store wholePage haccepts
  rw [pageRows_eq_answerRows] at hlength
  have hmax : storeLp.maxFrameLen = 100 * 1024 * 1024 := rfl
  omega

end RsWaku
