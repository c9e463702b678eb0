import RsWaku.StorePages

/-! The store-query protocol: the wire request, its translation into a store query and the
response, and when the response honours the hashes that the request names. -/
namespace RsWaku
open Keyset

structure StoreQueryRequest where
  requestId : String := ""
  includeData : Bool := false
  pubsubTopic : Option String := none
  contentTopics : List String := []
  timeStart : Option Int64 := none
  timeEnd : Option Int64 := none
  messageHashes : List (List UInt8) := []
  paginationCursor : Option (List UInt8) := none
  paginationForward : Bool := false
  paginationLimit : Option UInt64 := none

structure WakuMessageKeyValue where
  messageHash : Option (List UInt8)
  message : Option WakuMessage
  pubsubTopic : Option String

structure StoreQueryResponse where
  requestId : String
  statusCode : Option UInt32
  statusDesc : Option String
  messages : List WakuMessageKeyValue
  paginationCursor : Option (List UInt8)

/-- Hashes and cursors that are not 32 bytes long are dropped. -/
def requestToQuery (req : StoreQueryRequest) : StoreQuery where
  pubsubTopic := req.pubsubTopic
  contentTopics := req.contentTopics
  timeStartNs := req.timeStart
  timeEndNs := req.timeEnd
  messageHashes := req.messageHashes.filterMap MessageHash.ofBytes
  includeData := req.includeData
  pageSize := req.paginationLimit.getD 20
  forward := req.paginationForward
  cursor := req.paginationCursor.bind MessageHash.ofBytes

def StoreError.toString : StoreError → String
  | .db message => "database error: " ++ message
  | .corrupt message => "corrupt stored row: " ++ message

def storedToKeyValue (m : StoredMessage) : WakuMessageKeyValue where
  messageHash := some m.hash.bytes
  message := m.message
  pubsubTopic := some m.pubsubTopic

def serve (store : SqliteStore) (req : StoreQueryRequest) : StoreQueryResponse :=
  match store.query (requestToQuery req) with
  | .ok result =>
    { requestId := req.requestId
      statusCode := some 200
      statusDesc := some "OK"
      messages := result.messages.map storedToKeyValue
      paginationCursor := result.nextCursor.map MessageHash.bytes }
  | .error e =>
    { requestId := req.requestId
      statusCode := some 500
      statusDesc := some e.toString
      messages := []
      paginationCursor := none }

def StoreQueryRequest.OtherFilters (req : StoreQueryRequest) (r : Row) : Prop :=
  (∀ pt ∈ req.pubsubTopic, r.pubsubTopic = pt) ∧
  (req.contentTopics ≠ [] → r.contentTopic ∈ req.contentTopics) ∧
  InTimeRange req.timeStart req.timeEnd r.sortTime

instance (req : StoreQueryRequest) : DecidablePred req.OtherFilters := fun r =>
  inferInstanceAs (Decidable
    ((∀ pt ∈ req.pubsubTopic, r.pubsubTopic = pt) ∧
    (req.contentTopics ≠ [] → r.contentTopic ∈ req.contentTopics) ∧
    InTimeRange req.timeStart req.timeEnd r.sortTime))

/-- Every message of a 200 response belongs to a stored row whose hash the request lists
byte for byte, if it lists any, and which passes the request's other filters. -/
def HonoursFilters (store : SqliteStore) (req : StoreQueryRequest) (res : StoreQueryResponse) :
    Prop :=
  res.statusCode = some 200 → ∀ kv ∈ res.messages, ∃ r ∈ store.rows,
    kv.messageHash = some r.messageHash ∧ kv.pubsubTopic = some r.pubsubTopic ∧
    (req.messageHashes ≠ [] → r.messageHash ∈ req.messageHashes) ∧ req.OtherFilters r

instance (store : SqliteStore) (req : StoreQueryRequest) (res : StoreQueryResponse) :
    Decidable (HonoursFilters store req res) :=
  inferInstanceAs (Decidable (res.statusCode = some 200 → ∀ kv ∈ res.messages, ∃ r ∈ store.rows,
    kv.messageHash = some r.messageHash ∧ kv.pubsubTopic = some r.pubsubTopic ∧
    (req.messageHashes ≠ [] → r.messageHash ∈ req.messageHashes) ∧ req.OtherFilters r))

def PastCursor (store : SqliteStore) (req : StoreQueryRequest) (r : Row) : Prop :=
  ∀ z ∈ store.rows, req.paginationCursor = some z.messageHash →
    Before req.paginationForward z.key r.key

theorem mem_requestToQuery_hashes (req : StoreQueryRequest) (b : List UInt8) :
    b ∈ (requestToQuery req).messageHashes.map MessageHash.bytes ↔
      b ∈ req.messageHashes ∧ b.length = 32 := by
  simp only [requestToQuery, List.mem_map, List.mem_filterMap, MessageHash.ofBytes_eq_some]
  constructor
  · intro hb
    obtain ⟨h, ⟨b', hb', rfl⟩, rfl⟩ := hb
    exact ⟨hb', h.size⟩
  · intro hb
    exact ⟨⟨b, hb.2⟩, ⟨b, hb.1, rfl⟩, rfl⟩

theorem requestToQuery_hashes_ne_nil (req : StoreQueryRequest) :
    (requestToQuery req).messageHashes ≠ [] ↔ ∃ h ∈ req.messageHashes, h.length = 32 := by
  constructor
  · intro hne
    obtain ⟨h, hh⟩ := List.exists_mem_of_ne_nil _ hne
    exact ⟨h.bytes, (mem_requestToQuery_hashes req h.bytes).mp (List.mem_map_of_mem hh)⟩
  · intro hex
    obtain ⟨b, hb⟩ := hex
    obtain ⟨h, hh, -⟩ := List.mem_map.mp ((mem_requestToQuery_hashes req b).mpr hb)
    exact List.ne_nil_of_mem hh

theorem requestToQuery_filters (req : StoreQueryRequest) (r : Row) :
    (requestToQuery req).Filters r ↔ req.OtherFilters r ∧
      ((∃ h ∈ req.messageHashes, h.length = 32) →
        r.messageHash ∈ req.messageHashes ∧ r.messageHash.length = 32) := by
  simp only [StoreQuery.Filters, requestToQuery_hashes_ne_nil, mem_requestToQuery_hashes]
  simp only [requestToQuery, StoreQueryRequest.OtherFilters]
  tauto

theorem pastCursor_iff (store : SqliteStore) (req : StoreQueryRequest) (r : Row) :
    PastCursor store req r ↔
      After Row.key req.paginationForward ((store.cursorKey (requestToQuery req)).map toLex) r := by
  by_cases hz : ∃ z ∈ store.rows, req.paginationCursor = some z.messageHash
  · obtain ⟨z, hz, hc⟩ := hz
    have hq : (requestToQuery req).cursor = some ⟨z.messageHash, store.hash_size z hz⟩ := by
      simp [requestToQuery, hc, MessageHash.ofBytes_eq_some]
    rw [store.cursorKey_mem _ hq hz rfl]
    constructor
    · intro h k hk
      cases hk
      exact h z hz hc
    · intro h z' hz' hc'
      have heq : z' = z := store.row_ext hz' hz (Option.some.inj (hc'.symm.trans hc))
      exact heq ▸ h z.key rfl
  · have hq : ∀ h ∈ (requestToQuery req).cursor, ∀ z ∈ store.rows, z.messageHash ≠ h.bytes := by
      intro h hh z hz' heq
      obtain ⟨b, hb, hbh⟩ := Option.bind_eq_some_iff.mp hh
      rw [MessageHash.ofBytes_eq_some] at hbh
      exact hz ⟨z, hz', by rw [hb, heq, hbh]⟩
    rw [store.cursorKey_missing _ hq]
    constructor
    · intro h k hk
      cases hk
    · intro h z hz' hc
      exact absurd ⟨z, hz', hc⟩ hz

theorem serve_spec {store : SqliteStore} {req : StoreQueryRequest}
    (h : store.Accepts (requestToQuery req)) :
    ∃ messages, Delivers req.includeData (store.pageRows (requestToQuery req)) messages ∧
      (serve store req).statusCode = some 200 ∧
      (serve store req).messages = messages.map storedToKeyValue := by
  obtain ⟨messages, next, hq, hd, -⟩ := SqliteStore.query_ok h
  refine ⟨messages, hd, ?_, ?_⟩
  · simp only [serve, hq]
  · simp only [serve, hq]

theorem serve_refused {store : SqliteStore} {req : StoreQueryRequest}
    (h : ¬store.Accepts (requestToQuery req)) :
    serve store req = ⟨req.requestId, some 500, some tooManyVariables.toString, [], none⟩ := by
  simp only [serve, SqliteStore.query_refused h]

theorem serve_status (store : SqliteStore) (req : StoreQueryRequest) :
    (serve store req).statusCode =
      some (if store.Accepts (requestToQuery req) then 200 else 500) := by
  by_cases h : store.Accepts (requestToQuery req)
  · obtain ⟨_, -, hstatus, -⟩ := serve_spec h
    rw [hstatus, if_pos h]
  · rw [serve_refused h, if_neg h]

theorem mem_serve_messages {store : SqliteStore} {req : StoreQueryRequest}
    {kv : WakuMessageKeyValue} (h : kv ∈ (serve store req).messages) :
    ∃ r ∈ store.pageRows (requestToQuery req), kv.messageHash = some r.messageHash ∧
      kv.pubsubTopic = some r.pubsubTopic ∧
      kv.message = if req.includeData then some (rowToMessage r) else none := by
  by_cases ha : store.Accepts (requestToQuery req)
  case neg =>
    rw [serve_refused ha] at h
    cases h
  obtain ⟨messages, hd, -, hm⟩ := serve_spec ha
  rw [hm] at h
  obtain ⟨m, hmem, rfl⟩ := List.mem_map.mp h
  obtain ⟨r, hr, hrm⟩ := hd.mem hmem
  obtain ⟨hhash, htopic, hmessage⟩ := rowToStored_spec hrm
  exact ⟨r, hr, by simp [storedToKeyValue, hhash], by simp [storedToKeyValue, htopic], hmessage⟩

theorem serve_messages_ne_nil {store : SqliteStore} {req : StoreQueryRequest}
    (ha : store.Accepts (requestToQuery req)) (h : store.pageRows (requestToQuery req) ≠ []) :
    (serve store req).messages ≠ [] := by
  obtain ⟨messages, hd, -, hm⟩ := serve_spec ha
  rw [hm, ← List.length_pos_iff, List.length_map, hd.length]
  exact List.length_pos_iff.mpr h

theorem paginationLimit_max_iff (req : StoreQueryRequest) :
    (requestToQuery req).pageSize.toNat = 2 ^ 64 - 1 ↔
      req.paginationLimit = some 18446744073709551615 := by
  cases h : req.paginationLimit with
  | none =>
    simp only [requestToQuery, h, Option.getD_none, reduceCtorEq, iff_false]
    decide
  | some n =>
    simp only [requestToQuery, h, Option.getD_some, Option.some.injEq, ← UInt64.toNat_inj]
    rfl

/-- The response honours the filters unless hashes are requested, each of them malformed, SQLite
prepares the statement and the page that the other filters select is not empty. -/
theorem serve_honoursFilters_iff (store : SqliteStore) (req : StoreQueryRequest) :
    HonoursFilters store req (serve store req) ↔
      req.messageHashes = [] ∨ (∃ h ∈ req.messageHashes, h.length = 32) ∨
      req.paginationLimit = some 18446744073709551615 ∨
      ¬store.Accepts (requestToQuery req) ∨
      ∀ r ∈ store.rows, req.OtherFilters r → ¬PastCursor store req r := by
  constructor
  · intro hh
    by_contra hcon
    simp only [not_or, not_forall, not_not] at hcon
    obtain ⟨hne, hbad, hlimit, haccepts, r, hr, hother, hpast⟩ := hcon
    -- without a well-formed hash the query has no hash filter, so r is a candidate
    have hcand : r ∈ store.candidates (requestToQuery req) := by
      rw [store.mem_candidates]
      have hfilters : (requestToQuery req).Filters r :=
        (requestToQuery_filters req r).mpr ⟨hother, fun h => absurd h hbad⟩
      exact ⟨SqliteStore.mem_filtered.mpr ⟨hr, hfilters⟩, (pastCursor_iff store req r).mp hpast⟩
    have hpage := store.pageRows_ne_nil _ (mt (paginationLimit_max_iff req).mp hlimit)
      (List.ne_nil_of_mem hcand)
    obtain ⟨kv, hkv⟩ := List.exists_mem_of_ne_nil _ (serve_messages_ne_nil haccepts hpage)
    obtain ⟨_, -, hstatus, -⟩ := serve_spec haccepts
    obtain ⟨r', hr', -, -, hin, -⟩ := hh hstatus kv hkv
    exact hbad ⟨r'.messageHash, hin hne, store.hash_size r' hr'⟩
  · intro hcond _ kv hkv
    obtain ⟨r, hpage, hhash, htopic, -⟩ := mem_serve_messages hkv
    obtain ⟨hrow, hafter⟩ := (store.page (requestToQuery req)).sound r hpage
    obtain ⟨hr, hfilters⟩ := SqliteStore.mem_filtered.mp hrow
    rw [requestToQuery_filters] at hfilters
    refine ⟨r, hr, hhash, htopic, fun hne => ?_, hfilters.1⟩
    obtain hnil | hgood | hlimit | hrefused | hnone := hcond
    · exact absurd hnil hne
    · exact (hfilters.2 hgood).1
    · rw [store.pageRows_max_size _ ((paginationLimit_max_iff req).mpr hlimit)] at hpage
      cases hpage
    · rw [serve_refused hrefused] at hkv
      cases hkv
    · exact absurd ((pastCursor_iff store req r).mpr hafter) (hnone r hr hfilters.1)

theorem serve_malformed_hash :
    ¬HonoursFilters
      (SqliteStore.empty.put Crates.standard "/waku/2/rs/1/0"
        { contentTopic := "/app/1/x/proto" } 0)
      { messageHashes := [[1, 2, 3]] }
      (serve
        (SqliteStore.empty.put Crates.standard "/waku/2/rs/1/0"
          { contentTopic := "/app/1/x/proto" } 0)
        { messageHashes := [[1, 2, 3]] }) := by
  decide +kernel

end RsWaku
