import RsWaku.Sqlite

/-! Every answer of the paginated query is a page of the rows that pass the filters,
in the sense of the keyset library, with the casts of the page size made explicit. -/
namespace RsWaku
open Keyset

theorem keysetClause_iff (forward : Bool) (cursorKey : Option (Int64 × List UInt8)) (r : Row) :
    KeysetClause forward cursorKey r ↔ After Row.key forward (cursorKey.map toLex) r := by
  cases cursorKey with
  | none => simp [KeysetClause]
  | some k =>
    cases forward with
    | false => simp [KeysetClause, Before, Row.key, Prod.Lex.lt_iff]
    | true => simp [KeysetClause, Before, Row.key, Prod.Lex.lt_iff, eq_comm]

theorem SqliteStore.row_ext (s : SqliteStore) {a b : Row} (ha : a ∈ s.rows) (hb : b ∈ s.rows)
    (h : a.messageHash = b.messageHash) : a = b :=
  List.inj_on_of_nodup_map s.primary_key ha hb h

theorem SqliteStore.keys_nodup (s : SqliteStore) : (s.rows.map Row.key).Nodup := by
  refine List.Nodup.map_on ?_ s.primary_key.of_map
  intro a ha b hb h
  exact s.row_ext ha hb (congrArg (fun k => (ofLex k).2) h)

theorem SqliteStore.find_eq_some (s : SqliteStore) {z : Row} {h : MessageHash} (hz : z ∈ s.rows)
    (hh : z.messageHash = h.bytes) : s.find h = some z := by
  cases hf : s.find h with
  | none =>
    have := List.find?_eq_none.mp hf z hz
    simp [hh] at this
  | some y =>
    have hy : y.messageHash = h.bytes := by simpa using List.find?_some hf
    rw [s.row_ext (List.mem_of_find?_eq_some hf) hz (hy.trans hh.symm)]

theorem SqliteStore.find_eq_none (s : SqliteStore) {h : MessageHash} :
    s.find h = none ↔ ∀ r ∈ s.rows, r.messageHash ≠ h.bytes := by
  simp [SqliteStore.find, List.find?_eq_none]

def Delivers (includeData : Bool) (rows : List Row) (messages : List StoredMessage) : Prop :=
  rows.mapM (rowToStored includeData) = .ok messages

theorem Delivers.nil (includeData : Bool) : Delivers includeData [] [] := rfl

theorem Delivers.append {includeData : Bool} {rows rows' : List Row}
    {messages messages' : List StoredMessage} (h : Delivers includeData rows messages)
    (h' : Delivers includeData rows' messages') :
    Delivers includeData (rows ++ rows') (messages ++ messages') := by
  simp only [Delivers] at h h' ⊢
  rw [List.mapM_append, h, h']
  rfl

theorem rowToStored_ok (includeData : Bool) (r : Row) (h : r.messageHash.length = 32) :
    ∃ m, rowToStored includeData r = .ok m := by
  simp only [rowToStored, rowToHash, MessageHash.ofBytes, dif_pos h]
  exact ⟨_, rfl⟩

theorem Delivers.exists (includeData : Bool) (rows : List Row)
    (h : ∀ r ∈ rows, r.messageHash.length = 32) :
    ∃ messages, Delivers includeData rows messages := by
  induction rows with
  | nil => exact ⟨[], Delivers.nil includeData⟩
  | cons r rows ih =>
    obtain ⟨m, hm⟩ := rowToStored_ok includeData r (h r (by simp))
    obtain ⟨messages, hms⟩ := ih fun x hx => h x (List.mem_cons_of_mem r hx)
    refine ⟨m :: messages, ?_⟩
    simp only [Delivers] at hms ⊢
    rw [List.mapM_cons, hm, hms]
    rfl

theorem rowToStored_spec {includeData : Bool} {r : Row} {m : StoredMessage}
    (h : rowToStored includeData r = .ok m) :
    m.hash.bytes = r.messageHash ∧ m.pubsubTopic = r.pubsubTopic ∧
      m.message = if includeData then some (rowToMessage r) else none := by
  cases ho : MessageHash.ofBytes r.messageHash with
  | none => simp [rowToStored, rowToHash, ho, bind, Except.bind] at h
  | some g =>
    simp only [rowToStored, rowToHash, ho, bind, Except.bind, pure, Except.pure] at h
    cases h
    exact ⟨MessageHash.ofBytes_eq_some.mp ho, rfl, rfl⟩

theorem Delivers.cons_inv {includeData : Bool} {r : Row} {rows : List Row}
    {messages : List StoredMessage} (h : Delivers includeData (r :: rows) messages) :
    ∃ m rest, rowToStored includeData r = .ok m ∧ Delivers includeData rows rest ∧
      messages = m :: rest := by
  simp only [Delivers, List.mapM_cons, bind, Except.bind] at h
  cases hm : rowToStored includeData r with
  | error e => simp [hm] at h
  | ok m =>
    cases hms : rows.mapM (rowToStored includeData) with
    | error e => simp [hm, hms] at h
    | ok rest =>
      simp only [hm, hms, pure, Except.pure, Except.ok.injEq] at h
      exact ⟨m, rest, rfl, hms, h.symm⟩

theorem Delivers.map_eq {β : Type} {includeData : Bool} {rows : List Row}
    {messages : List StoredMessage} {f : StoredMessage → β} {g : Row → β}
    (h : Delivers includeData rows messages)
    (hfg : ∀ r ∈ rows, ∀ m, rowToStored includeData r = .ok m → f m = g r) :
    messages.map f = rows.map g := by
  induction rows generalizing messages with
  | nil =>
    cases h
    rfl
  | cons r rows ih =>
    obtain ⟨m, rest, hm, hrest, rfl⟩ := h.cons_inv
    have htail := ih hrest fun x hx => hfg x (List.mem_cons_of_mem r hx)
    rw [List.map_cons, List.map_cons, hfg r (by simp) m hm, htail]

theorem Delivers.hashes {includeData : Bool} {rows : List Row} {messages : List StoredMessage}
    (h : Delivers includeData rows messages) :
    messages.map (·.hash.bytes) = rows.map Row.messageHash :=
  h.map_eq fun _ _ _ hm => (rowToStored_spec hm).1

theorem Delivers.length {includeData : Bool} {rows : List Row} {messages : List StoredMessage}
    (h : Delivers includeData rows messages) : messages.length = rows.length := by
  have hlen := congrArg List.length h.hashes
  rwa [List.length_map, List.length_map] at hlen

theorem Delivers.mem {includeData : Bool} {rows : List Row} {messages : List StoredMessage}
    (h : Delivers includeData rows messages) {m : StoredMessage} (hm : m ∈ messages) :
    ∃ r ∈ rows, rowToStored includeData r = .ok m := by
  induction rows generalizing messages with
  | nil =>
    cases h
    cases hm
  | cons r rows ih =>
    obtain ⟨m', rest, hm', hrest, rfl⟩ := h.cons_inv
    obtain rfl | hmem := List.mem_cons.mp hm
    · exact ⟨r, by simp, hm'⟩
    · obtain ⟨r', hr', he⟩ := ih hrest hmem
      exact ⟨r', List.mem_cons_of_mem r hr', he⟩

theorem limit_toNat (q : StoreQuery) : q.limit.toUInt64.toNat = max q.pageSize.toNat 1 := by
  change (if q.pageSize ≤ 1 then 1 else q.pageSize).toNat = _
  by_cases h : q.pageSize ≤ 1
  · have h' : q.pageSize.toNat ≤ 1 := UInt64.le_iff_toNat_le.mp h
    rw [if_pos h, max_eq_right h']
    rfl
  · have h' : ¬q.pageSize.toNat ≤ 1 := fun h' => h (UInt64.le_iff_toNat_le.mpr h')
    rw [if_neg h, max_eq_left (by omega)]

theorem limit_toInt (q : StoreQuery) :
    q.limit.toInt = Int.bmod (max q.pageSize.toNat 1 : Nat) (2 ^ 64) := by
  rw [← limit_toNat]
  exact Bytes.toInt_toInt64 _

/-- From 2^63-1 on the wrapped LIMIT is negative and all rows are fetched, so the page is cut
after `max(page_size, 1)` rows; only for 2^64-1 the wrapped LIMIT is zero. -/
theorem SqliteStore.pageRows_take (s : SqliteStore) (q : StoreQuery)
    (h : q.pageSize.toNat ≠ 2 ^ 64 - 1) :
    s.pageRows q = (s.candidates q).take (max q.pageSize.toNat 1) := by
  have hl := limit_toInt q
  have hu := q.pageSize.toNat_lt
  set n := max q.pageSize.toNat 1 with hn
  have hsum : (q.limit + 1).toInt = Int.bmod (n + 1) (2 ^ 64) := by
    rw [Int64.toInt_add, hl, Int64.toInt_one, Int.bmod_add_bmod]
  rw [SqliteStore.pageRows, limit_toNat, ← hn, SqliteStore.fetchAll, sqlLimit]
  by_cases hneg : q.limit + 1 < 0
  · rw [if_pos hneg, min_comm, ← List.take_eq_take_min]
  · have hfetch : (q.limit + 1).toInt = n + 1 := by
      rw [Bytes.lt_zero_iff, hsum] at hneg
      rw [hsum]
      rw [Int.bmod_def] at hneg ⊢
      omega
    rw [if_neg hneg, hfetch, min_comm, ← List.take_eq_take_min, List.take_take]
    congr 1
    omega

theorem SqliteStore.hasMore_iff (s : SqliteStore) (q : StoreQuery) :
    s.hasMore q = true ↔ q.limit.toInt < Int.bmod (s.fetchAll q).length (2 ^ 64) := by
  have hsize : Int64.size = 2 ^ 64 := rfl
  rw [SqliteStore.hasMore, decide_eq_true_eq, Int64.lt_iff_toInt_lt, Int64.toInt_ofNat', hsize]

theorem SqliteStore.pageRows_eq_take (s : SqliteStore) (q : StoreQuery)
    (h : q.pageSize.toNat < 2 ^ 63 - 1) :
    s.pageRows q = (s.candidates q).take (max q.pageSize.toNat 1) ∧
      (s.hasMore q = true ↔ max q.pageSize.toNat 1 < (s.candidates q).length) := by
  have hl := limit_toInt q
  refine ⟨s.pageRows_take q (by omega), ?_⟩
  set n := max q.pageSize.toNat 1 with hn
  have hlt : n < 2 ^ 63 - 1 := by omega
  rw [Int.bmod_eq_of_le (by omega) (by omega)] at hl
  have hl1 : (q.limit + 1).toInt = n + 1 := by
    rw [Int64.toInt_add, hl, Int64.toInt_one, Int.bmod_eq_of_le (by omega) (by omega)]
  have hlen : (s.fetchAll q).length = min (n + 1) (s.candidates q).length := by
    rw [SqliteStore.fetchAll, sqlLimit, if_neg (by rw [Bytes.lt_zero_iff]; omega), hl1,
      List.length_take]
    rfl
  rw [s.hasMore_iff, hl, hlen, Int.bmod_eq_of_le (by omega) (by omega)]
  omega

/-- From there on all rows are fetched, and their number is compared with the limit after both
were cast. -/
theorem SqliteStore.hasMore_wrapped (s : SqliteStore) (q : StoreQuery)
    (hbig : 2 ^ 63 - 1 ≤ q.pageSize.toNat) (hmax : q.pageSize.toNat ≠ 2 ^ 64 - 1) :
    s.hasMore q = true ↔ Int.bmod q.pageSize.toNat (2 ^ 64) <
      Int.bmod (s.candidates q).length (2 ^ 64) := by
  have hu := q.pageSize.toNat_lt
  have hl := limit_toInt q
  rw [max_eq_left (by omega)] at hl
  have hneg : q.limit + 1 < 0 := by
    rw [Bytes.lt_zero_iff, Int64.toInt_add, hl, Int64.toInt_one, Int.bmod_add_bmod, Int.bmod_def]
    omega
  have hfetch : s.fetchAll q = s.candidates q := by
    rw [SqliteStore.fetchAll, sqlLimit, if_pos hneg]
  rw [s.hasMore_iff, hl, hfetch]

theorem SqliteStore.pageRows_prefix (s : SqliteStore) (q : StoreQuery) :
    ∃ n, s.pageRows q = (s.candidates q).take n := by
  rw [SqliteStore.pageRows, SqliteStore.fetchAll, sqlLimit]
  by_cases h : q.limit + 1 < 0
  · exact ⟨_, by rw [if_pos h]⟩
  · exact ⟨_, by rw [if_neg h, List.take_take]⟩

theorem SqliteStore.pageRows_ne_nil (s : SqliteStore) (q : StoreQuery)
    (h : q.pageSize.toNat ≠ 2 ^ 64 - 1) (hc : s.candidates q ≠ []) : s.pageRows q ≠ [] := by
  have hlen : 0 < (s.candidates q).length := List.length_pos_iff.mpr hc
  apply List.length_pos_iff.mp
  rw [s.pageRows_take q h, List.length_take]
  omega

theorem SqliteStore.pageRows_max_size (s : SqliteStore) (q : StoreQuery)
    (h : q.pageSize.toNat = 2 ^ 64 - 1) : s.pageRows q = [] := by
  have hl : (q.limit + 1).toInt = 0 := by
    rw [Int64.toInt_add, Int64.toInt_one, limit_toInt, h, Int.bmod_def, Int.bmod_def]
    split <;> split <;> omega
  have hf : s.fetchAll q = [] := by
    rw [SqliteStore.fetchAll, sqlLimit, if_neg (by rw [Bytes.lt_zero_iff]; omega), hl]
    rfl
  rw [SqliteStore.pageRows, hf]
  rfl

def SqliteStore.nextRow (s : SqliteStore) (q : StoreQuery) : Option Row :=
  if s.hasMore q then (s.pageRows q).getLast? else none

theorem SqliteStore.mem_filtered {s : SqliteStore} {q : StoreQuery} {r : Row} :
    r ∈ s.rows.filter (fun r => q.Filters r) ↔ r ∈ s.rows ∧ q.Filters r := by
  simp

theorem SqliteStore.mem_candidates (s : SqliteStore) (q : StoreQuery) (r : Row) :
    r ∈ s.candidates q ↔ r ∈ s.rows.filter (fun r => q.Filters r) ∧
      After Row.key q.forward ((s.cursorKey q).map toLex) r := by
  simp [SqliteStore.candidates, keysetClause_iff, and_assoc]

theorem SqliteStore.candidates_ordered (s : SqliteStore) (q : StoreQuery) :
    Ordered Row.key q.forward (s.candidates q) :=
  listing_ordered _ _ (List.Nodup.sublist (List.filter_sublist.map _) s.keys_nodup)

theorem SqliteStore.page (s : SqliteStore) (q : StoreQuery) :
    Page Row.key q.forward (s.rows.filter fun r => q.Filters r) ((s.cursorKey q).map toLex)
      (s.pageRows q) ((s.nextRow q).map Row.key) := by
  obtain ⟨n, hn⟩ := s.pageRows_prefix q
  have hlast : ∀ k ∈ (s.nextRow q).map Row.key,
      ∃ z, (s.pageRows q).getLast? = some z ∧ z.key = k := by
    intro k hk
    obtain ⟨z, hz, rfl⟩ := Option.map_eq_some_iff.mp hk
    unfold SqliteStore.nextRow at hz
    split at hz
    · exact ⟨z, hz, rfl⟩
    · cases hz
  rw [hn] at hlast ⊢
  exact Page.of_take _ n (s.candidates_ordered q) (s.mem_candidates q) hlast

theorem SqliteStore.query_refused {s : SqliteStore} {q : StoreQuery} (h : ¬s.Accepts q) :
    s.query q = .error tooManyVariables := by
  delta SqliteStore.query
  exact if_neg h

theorem SqliteStore.query_eq {s : SqliteStore} {q : StoreQuery} (h : s.Accepts q) :
    ∃ messages, Delivers q.includeData (s.pageRows q) messages ∧
      s.query q =
        .ok ⟨messages, if s.hasMore q then messages.getLast?.map (·.hash) else none⟩ := by
  have hsize : ∀ r ∈ s.pageRows q, r.messageHash.length = 32 := by
    intro r hr
    exact s.hash_size r (List.mem_of_mem_filter ((s.page q).sound r hr).1)
  obtain ⟨messages, hd⟩ := Delivers.exists q.includeData (s.pageRows q) hsize
  refine ⟨messages, hd, ?_⟩
  simp only [Delivers] at hd
  delta SqliteStore.query
  rw [if_pos h, hd]
  rfl

theorem SqliteStore.query_ok {s : SqliteStore} {q : StoreQuery} (h : s.Accepts q) :
    ∃ messages next, s.query q = .ok ⟨messages, next⟩ ∧
      Delivers q.includeData (s.pageRows q) messages ∧
      next.map MessageHash.bytes = (s.nextRow q).map Row.messageHash := by
  obtain ⟨messages, hd, hq⟩ := SqliteStore.query_eq h
  refine ⟨messages, _, hq, hd, ?_⟩
  have hlast := congrArg List.getLast? hd.hashes
  rw [List.getLast?_map, List.getLast?_map] at hlast
  unfold SqliteStore.nextRow
  split
  · rw [← hlast, Option.map_map]
    rfl
  · rfl

def StoreQuery.resume (q : StoreQuery) (c : Option MessageHash) : StoreQuery :=
  { q with cursor := c }

@[simp] theorem StoreQuery.resume_filters (q : StoreQuery) (c : Option MessageHash) (r : Row) :
    (q.resume c).Filters r ↔ q.Filters r := Iff.rfl

theorem SqliteStore.cursorKey_mem (s : SqliteStore) (q : StoreQuery) {z : Row} {h : MessageHash}
    (hc : q.cursor = some h) (hz : z ∈ s.rows) (hh : z.messageHash = h.bytes) :
    (s.cursorKey q).map toLex = some z.key := by
  simp [SqliteStore.cursorKey, hc, SqliteStore.cursorSortTime, s.find_eq_some hz hh, Row.key, hh]

theorem SqliteStore.cursorKey_missing (s : SqliteStore) (q : StoreQuery)
    (hh : ∀ h ∈ q.cursor, ∀ r ∈ s.rows, r.messageHash ≠ h.bytes) : s.cursorKey q = none := by
  cases hc : q.cursor with
  | none => simp [SqliteStore.cursorKey, hc]
  | some h =>
    simp [SqliteStore.cursorKey, hc, SqliteStore.cursorSortTime, s.find_eq_none.mpr (hh h hc)]

theorem SqliteStore.cursorKey_resume_missing (s : SqliteStore) (q : StoreQuery) {h : MessageHash}
    (hh : ∀ r ∈ s.rows, r.messageHash ≠ h.bytes) : s.cursorKey (q.resume (some h)) = none := by
  apply s.cursorKey_missing
  intro g hg
  cases hg
  exact hh

theorem SqliteStore.accepts_resume {s : SqliteStore} {q : StoreQuery}
    (h : q.boundVariables + 3 ≤ s.maxVariables) (c : Option MessageHash) :
    s.Accepts (q.resume c) := by
  have hkey : (s.cursorKey (q.resume c)).toList.length ≤ 1 := by
    cases s.cursorKey (q.resume c) <;> simp
  change q.boundVariables + 3 * (s.cursorKey (q.resume c)).toList.length ≤ s.maxVariables
  omega

/-- The answer holds the first `max(page_size, 1)` of the rows that match after the cursor, or all
if there are fewer, and names the last one as the next cursor exactly if rows remain. -/
def PageContract (s : SqliteStore) (q : StoreQuery) : Prop :=
  ∃ result, s.query q = .ok result ∧
    Delivers q.includeData ((s.candidates q).take (max q.pageSize.toNat 1)) result.messages ∧
    (result.nextCursor = if result.messages.length < (s.candidates q).length
      then result.messages.getLast?.map (·.hash) else none) ∧
    (s.candidates q ≠ [] → result.messages ≠ [])

theorem PageContract.accepts {s : SqliteStore} {q : StoreQuery} (h : PageContract s q) :
    s.Accepts q := by
  by_contra hrefused
  obtain ⟨result, hq, -⟩ := h
  cases (SqliteStore.query_refused hrefused).symm.trans hq

theorem pageContract_iff_hasMore {s : SqliteStore} {q : StoreQuery} (ha : s.Accepts q)
    (hmax : q.pageSize.toNat ≠ 2 ^ 64 - 1) (hc : s.candidates q ≠ []) :
    PageContract s q ↔
      (s.hasMore q = true ↔ max q.pageSize.toNat 1 < (s.candidates q).length) := by
  obtain ⟨messages, hd, hq⟩ := SqliteStore.query_eq ha
  rw [s.pageRows_take q hmax] at hd
  have hpos := List.length_pos_iff.mpr hc
  have hlen := hd.length
  rw [List.length_take] at hlen
  have hne : messages ≠ [] := List.length_pos_iff.mp (by omega)
  have hremain : messages.length < (s.candidates q).length ↔
      max q.pageSize.toNat 1 < (s.candidates q).length := by omega
  constructor
  · rintro ⟨result, hq', -, hnext, -⟩
    cases hq'.symm.trans hq
    rw [← hremain]
    by_contra hwrong
    -- one of the two sides has a cursor and the other has none
    by_cases hmore : s.hasMore q = true
    · have hall : ¬messages.length < (s.candidates q).length :=
        fun h => hwrong (iff_of_true hmore h)
      rw [if_pos hmore, if_neg hall, Option.map_eq_none_iff, List.getLast?_eq_none_iff] at hnext
      exact hne hnext
    · have hsome : messages.length < (s.candidates q).length :=
        Classical.not_not.mp fun h => hwrong (iff_of_false hmore h)
      rw [if_neg hmore, if_pos hsome, eq_comm, Option.map_eq_none_iff,
        List.getLast?_eq_none_iff] at hnext
      exact hne hnext
  · intro hmore
    refine ⟨_, hq, hd, ?_, fun _ => hne⟩
    simp only [hmore.trans hremain.symm]

theorem pageContract_of_no_candidates {s : SqliteStore} {q : StoreQuery} (ha : s.Accepts q)
    (hc : s.candidates q = []) : PageContract s q := by
  obtain ⟨messages, hd, hq⟩ := SqliteStore.query_eq ha
  obtain ⟨n, hn⟩ := s.pageRows_prefix q
  rw [hn, hc, List.take_nil] at hd
  cases hd
  refine ⟨_, hq, ?_, ?_, fun hne => absurd hc hne⟩
  · rw [hc, List.take_nil]
    exact Delivers.nil _
  · simp [hc]

theorem not_pageContract_max_size {s : SqliteStore} {q : StoreQuery}
    (hmax : q.pageSize.toNat = 2 ^ 64 - 1) (hc : s.candidates q ≠ []) : ¬PageContract s q := by
  intro hcontract
  obtain ⟨messages, hd, hq'⟩ := SqliteStore.query_eq hcontract.accepts
  obtain ⟨result, hq, -, -, hne⟩ := hcontract
  rw [s.pageRows_max_size q hmax] at hd
  cases hd
  cases hq.symm.trans hq'
  exact hne hc rfl

/-- The page sizes that suit n matching rows. With fewer than 2^63 rows these are the ones below
2^63; with more, the wrapped number of rows may happen to compare with the wrapped limit as the
two numbers do. -/
def PageSizeFits (pageSize n : Nat) : Prop :=
  n = 0 ∨ pageSize < 2 ^ 63 - 1 ∨ (pageSize = 2 ^ 63 - 1 ∧ n < 2 ^ 63) ∨
    (2 ^ 63 ≤ pageSize ∧ pageSize < 2 ^ 64 - 1 ∧ 2 ^ 63 ≤ n ∧
      (n < 2 ^ 64 ∨ n % 2 ^ 64 < 2 ^ 63 ∨ pageSize < n % 2 ^ 64))

/-- The page contract holds for exactly the statements that SQLite prepares and the page sizes that
suit the rows matching after the cursor. -/
theorem page_contract_iff (s : SqliteStore) (q : StoreQuery) :
    PageContract s q ↔
      s.Accepts q ∧ PageSizeFits q.pageSize.toNat (s.candidates q).length := by
  by_cases ha : s.Accepts q
  case neg => exact iff_of_false (fun h => ha h.accepts) fun h => ha h.1
  rw [and_iff_right ha]
  have hu := q.pageSize.toNat_lt
  by_cases hc : s.candidates q = []
  · exact iff_of_true (pageContract_of_no_candidates ha hc)
      (.inl (List.length_eq_zero_iff.mpr hc))
  have hpos := List.length_pos_iff.mpr hc
  unfold PageSizeFits
  by_cases hmax : q.pageSize.toNat = 2 ^ 64 - 1
  · exact iff_of_false (not_pageContract_max_size hmax hc) (by omega)
  rw [pageContract_iff_hasMore ha hmax hc]
  by_cases hsmall : q.pageSize.toNat < 2 ^ 63 - 1
  · exact iff_of_true (s.pageRows_eq_take q hsmall).2 (.inr (.inl hsmall))
  · rw [s.hasMore_wrapped q (by omega) hmax, Int.bmod_def, Int.bmod_def]
    omega

theorem page_contract_max_size :
    ¬PageContract (SqliteStore.empty.put Crates.standard "/waku/2/rs/1/0" {} 0)
      { pageSize := 18446744073709551615 } :=
  not_pageContract_max_size (by decide) (by decide +kernel)

end RsWaku
