import RsWaku.Pagination

/-! The store as a function of its history: which put a row goes back to, and that lookup,
existence check and query by hash see the same rows. -/
namespace RsWaku
open Keyset Runs
variable {crates : Crates}

theorem rowToMessage_putRow (t : String) (m : WakuMessage) (r : Int64) :
    rowToMessage (putRow crates t m r) = m := by
  obtain ⟨payload, contentTopic, version, timestamp, metadata, proof, ephemeral⟩ := m
  have hephemeral : ∀ b : Bool, ((if b then 1 else 0 : Int64) != 0) = b := by decide
  simp [rowToMessage, putRow, Option.map_map, Function.comp_def, hephemeral]

theorem SqliteStore.mem_exec {s : SqliteStore} {op : StoreOp} {r : Row}
    (hr : r ∈ (s.exec crates op).rows) :
    r ∈ s.rows ∨ ∃ t m time, op = .put t m time ∧ r = putRow crates t m time := by
  cases op with
  | put t m time =>
    rw [SqliteStore.exec, SqliteStore.rows_put] at hr
    split at hr
    · exact .inl hr
    · obtain rfl | hr := List.mem_cons.mp hr
      · exact .inr ⟨t, m, time, rfl, rfl⟩
      · exact .inl hr
  | deleteOlderThan cutoffNs => exact .inl (List.mem_of_mem_filter hr)
  | enforceCapacity max => exact .inl (List.mem_of_mem_filter hr)

theorem SqliteStore.mem_execAll {ops : List StoreOp} {r : Row}
    (hr : r ∈ (SqliteStore.empty.execAll crates ops).rows) :
    ∃ t m time, .put t m time ∈ ops ∧ r = putRow crates t m time := by
  induction ops using List.reverseRecOn with
  | nil => cases hr
  | append_singleton ops op ih =>
    rw [SqliteStore.execAll, List.foldl_append, List.foldl_cons, List.foldl_nil] at hr
    obtain hold | ⟨t, m, time, rfl, rfl⟩ := SqliteStore.mem_exec hr
    · obtain ⟨t, m, time, hput, hrow⟩ := ih hold
      exact ⟨t, m, time, List.mem_append_left _ hput, hrow⟩
    · exact ⟨t, m, time, by simp, rfl⟩

def history (crates : Crates) : SqliteStore → List StoreOp → List (SqliteStore × StoreOp)
  | _, [] => []
  | s, op :: ops => (s, op) :: history crates (s.exec crates op) ops

theorem history_snoc (s : SqliteStore) (ops : List StoreOp) (op : StoreOp) :
    history crates s (ops ++ [op]) = history crates s ops ++ [(s.execAll crates ops, op)] := by
  induction ops generalizing s with
  | nil => rfl
  | cons o ops ih =>
    rw [List.cons_append, history, ih, history]
    rfl

def deletes (crates : Crates) (h : MessageHash) (step : SqliteStore × StoreOp) : Bool :=
  (step.1.find h).isSome && ((step.1.exec crates step.2).find h).isNone

def StoreOp.putOf (crates : Crates) (h : MessageHash) :
    StoreOp → Option (String × WakuMessage × Int64)
  | .put t m r => if deterministicHash crates t m = h then some (t, m, r) else none
  | _ => none

def firstPut (crates : Crates) (h : MessageHash) (ops : List StoreOp) :
    Option (String × WakuMessage × Int64) :=
  (sinceLast (deletes crates h) (history crates .empty ops)).findSome? fun step =>
    step.2.putOf crates h

theorem firstPut_snoc (h : MessageHash) (ops : List StoreOp) (op : StoreOp) :
    firstPut crates h (ops ++ [op]) =
      if deletes crates h (SqliteStore.empty.execAll crates ops, op) then none
      else (firstPut crates h ops).or (op.putOf crates h) := by
  rw [firstPut, history_snoc, sinceLast_snoc]
  split
  · rfl
  · simp [firstPut, List.findSome?_append]

theorem SqliteStore.find_put (s : SqliteStore) (t : String) (m : WakuMessage) (r : Int64)
    (h : MessageHash) : (s.put crates t m r).find h =
      (s.find h).or
        (if deterministicHash crates t m = h then some (putRow crates t m r) else none) := by
  have hbytes : (putRow crates t m r).messageHash = h.bytes ↔ deterministicHash crates t m = h :=
    ⟨MessageHash.bytes_inj, congrArg MessageHash.bytes⟩
  rw [SqliteStore.find, SqliteStore.rows_put]
  split
  case isTrue hold =>
    -- the hash is in the table, so an entry for it is found already
    split
    case isTrue hh =>
      obtain ⟨z, hz, hzh⟩ := List.mem_map.mp hold
      rw [s.find_eq_some hz (hzh.trans (hbytes.mpr hh)), Option.some_or]
      exact s.find_eq_some hz (hzh.trans (hbytes.mpr hh))
    case isFalse =>
      rw [Option.or_none]
      rfl
  case isFalse hnew =>
    split
    case isTrue hh =>
      have hnone : s.find h = none := by
        rw [SqliteStore.find_eq_none]
        intro z hz hzh
        exact hnew (List.mem_map.mpr ⟨z, hz, hzh.trans (hbytes.mpr hh).symm⟩)
      rw [hnone, Option.none_or]
      exact List.find?_cons_of_pos (by simpa using hbytes.mpr hh)
    case isFalse hh =>
      rw [Option.or_none]
      exact List.find?_cons_of_neg (by simpa using mt hbytes.mp hh)

theorem SqliteStore.find_delete (s : SqliteStore) (p : Row → Bool) (h : MessageHash) :
    (s.delete p).1.find h = s.find h ∨ (s.delete p).1.find h = none := by
  cases hf : (s.delete p).1.find h with
  | none => exact Or.inr rfl
  | some r =>
    have hmem : r ∈ s.rows := List.mem_of_mem_filter (List.mem_of_find?_eq_some hf)
    exact Or.inl (s.find_eq_some hmem (by simpa using List.find?_some hf)).symm

theorem SqliteStore.find_exec (s : SqliteStore) (op : StoreOp) (h : MessageHash) :
    (s.exec crates op).find h =
      if deletes crates h (s, op) then none
      else (s.find h).or ((op.putOf crates h).map fun p => putRow crates p.1 p.2.1 p.2.2) := by
  have hdelete : ∀ p, (s.delete p).1.find h =
      if (s.find h).isSome && ((s.delete p).1.find h).isNone then none else s.find h := by
    intro p
    cases hs : s.find h with
    | none =>
      obtain hkeep | hgone := s.find_delete p h
      · exact hkeep.trans hs
      · exact hgone
    | some r =>
      obtain hkeep | hgone := s.find_delete p h
      · rw [hkeep, hs]
        rfl
      · rw [hgone]
        rfl
  cases op with
  | put t m r =>
    have hkept : deletes crates h (s, .put t m r) = false := by
      rw [deletes, SqliteStore.exec, SqliteStore.find_put]
      cases s.find h with
      | none => rfl
      | some z => rfl
    rw [hkept, SqliteStore.exec, SqliteStore.find_put, StoreOp.putOf, apply_ite (Option.map _)]
    rfl
  | deleteOlderThan cutoffNs =>
    change _ = if _ then none else (s.find h).or none
    rw [Option.or_none]
    exact hdelete _
  | enforceCapacity max =>
    change _ = if _ then none else (s.find h).or none
    rw [Option.or_none]
    exact hdelete _

/-- Induction over the operations: the row of a hash is that of its first put. -/
theorem find_after (ops : List StoreOp) (h : MessageHash) :
    (SqliteStore.empty.execAll crates ops).find h =
      (firstPut crates h ops).map fun p => putRow crates p.1 p.2.1 p.2.2 := by
  induction ops using List.reverseRecOn with
  | nil => rfl
  | append_singleton ops op ih =>
    rw [firstPut_snoc, SqliteStore.execAll, List.foldl_append, List.foldl_cons, List.foldl_nil,
      SqliteStore.find_exec, ← SqliteStore.execAll, ih]
    split
    · rfl
    · rw [Option.map_or]

theorem SqliteStore.get_isSome_iff (s : SqliteStore) (h : MessageHash) :
    (s.get h).isSome ↔ h.bytes ∈ s.rows.map Row.messageHash := by
  rw [SqliteStore.get, Option.isSome_map, SqliteStore.find, List.find?_isSome, List.mem_map]
  simp

theorem mapM_rowToHash (rows : List Row) (hsize : ∀ r ∈ rows, r.messageHash.length = 32) :
    ∃ hashes : List MessageHash, rows.mapM rowToHash = .ok hashes ∧
      hashes.map MessageHash.bytes = rows.map Row.messageHash := by
  induction rows with
  | nil => exact ⟨[], rfl, rfl⟩
  | cons r rows ih =>
    obtain ⟨hashes, hok, hmap⟩ := ih fun x hx => hsize x (List.mem_cons_of_mem r hx)
    have hr : rowToHash r = .ok ⟨r.messageHash, hsize r List.mem_cons_self⟩ := by
      rw [rowToHash, MessageHash.ofBytes, dif_pos]
    refine ⟨⟨r.messageHash, hsize r List.mem_cons_self⟩ :: hashes, ?_, ?_⟩
    · rw [List.mapM_cons, hr, hok]
      rfl
    · rw [List.map_cons, List.map_cons, hmap]

theorem mem_bytes_iff {hashes : List MessageHash} {h : MessageHash} :
    h.bytes ∈ hashes.map MessageHash.bytes ↔ h ∈ hashes :=
  List.mem_map_of_injective fun _ _ => MessageHash.bytes_inj

theorem SqliteStore.mem_found_iff (s : SqliteStore) {hashes found : List MessageHash}
    {rows : List Row} (hfound : found.map MessageHash.bytes = rows.map Row.messageHash)
    (hrows : ∀ r, r ∈ rows ↔ r ∈ s.rows ∧ r.messageHash ∈ hashes.map MessageHash.bytes)
    (h : MessageHash) : h ∈ found ↔ h ∈ hashes ∧ (s.get h).isSome := by
  rw [← mem_bytes_iff, hfound, s.get_isSome_iff, ← @mem_bytes_iff hashes]
  constructor
  · intro hmem
    obtain ⟨r, hr, hh⟩ := List.mem_map.mp hmem
    obtain ⟨hrow, hin⟩ := (hrows r).mp hr
    rw [← hh]
    exact ⟨hin, List.mem_map_of_mem hrow⟩
  · intro ⟨hin, hmem⟩
    obtain ⟨r, hrow, hh⟩ := List.mem_map.mp hmem
    rw [← hh] at hin ⊢
    exact List.mem_map_of_mem ((hrows r).mpr ⟨hrow, hin⟩)

theorem SqliteStore.exists_spec (s : SqliteStore) {hashes : List MessageHash}
    (hlen : hashes.length ≤ s.maxVariables) :
    ∃ found, s.exists hashes = .ok found ∧
      ∀ h, h ∈ found ↔ h ∈ hashes ∧ (s.get h).isSome := by
  cases hashes with
  | nil => exact ⟨[], rfl, by simp⟩
  | cons g hashes =>
    obtain ⟨found, hok, hfound⟩ := mapM_rowToHash
      (s.rows.filter fun r => r.messageHash ∈ (g :: hashes).map MessageHash.bytes)
      fun r hr => s.hash_size r (List.mem_of_mem_filter hr)
    refine ⟨found, ?_, s.mem_found_iff hfound fun r => by simp⟩
    rw [SqliteStore.exists, if_neg (by simp), if_neg (Nat.not_lt.mpr hlen)]
    exact hok

theorem SqliteStore.exists_refused {s : SqliteStore} {hashes : List MessageHash}
    (hlen : s.maxVariables < hashes.length) : s.exists hashes = .error tooManyVariables := by
  have hne : ¬hashes.isEmpty := by
    rw [List.isEmpty_iff_length_eq_zero]
    omega
  rw [SqliteStore.exists, if_neg hne, if_pos hlen]

def StoreQuery.byHash (hashes : List MessageHash) (includeData forward : Bool) (pageSize : UInt64) :
    StoreQuery :=
  { messageHashes := hashes, includeData, forward, pageSize }

theorem SqliteStore.accepts_byHash {s : SqliteStore} {hashes : List MessageHash}
    {includeData forward : Bool} {pageSize : UInt64} :
    s.Accepts (.byHash hashes includeData forward pageSize) ↔
      hashes.length + 1 ≤ s.maxVariables := by
  simp [SqliteStore.Accepts, StoreQuery.boundVariables, StoreQuery.byHash, SqliteStore.cursorKey]

theorem SqliteStore.mem_candidates_byHash (s : SqliteStore) {hashes : List MessageHash}
    (hne : hashes ≠ []) (includeData forward : Bool) (pageSize : UInt64) (r : Row) :
    r ∈ s.candidates (.byHash hashes includeData forward pageSize) ↔
      r ∈ s.rows ∧ r.messageHash ∈ hashes.map MessageHash.bytes := by
  rw [s.mem_candidates, SqliteStore.mem_filtered]
  simp [StoreQuery.Filters, StoreQuery.byHash, InTimeRange, SqliteStore.cursorKey, hne]

theorem SqliteStore.query_byHash (s : SqliteStore) {hashes : List MessageHash} (hne : hashes ≠ [])
    (includeData forward : Bool) (pageSize : UInt64) (hlen : hashes.length + 1 ≤ s.maxVariables)
    (hmax : pageSize.toNat ≠ 2 ^ 64 - 1) (hfit : hashes.length ≤ max pageSize.toNat 1) :
    ∃ result, s.query (.byHash hashes includeData forward pageSize) = .ok result ∧
      ∀ h, h ∈ result.messages.map (·.hash) ↔ h ∈ hashes ∧ (s.get h).isSome := by
  set q := StoreQuery.byHash hashes includeData forward pageSize
  obtain ⟨messages, next, hok, hdelivers, -⟩ :=
    SqliteStore.query_ok (SqliteStore.accepts_byHash.mpr hlen : s.Accepts q)
  have hnodup : ((s.candidates q).map Row.messageHash).Nodup :=
    hashes_nodup s (s.candidates_ordered q) fun r hr =>
      ((s.mem_candidates_byHash hne includeData forward pageSize r).mp hr).1
  have hsub : (s.candidates q).map Row.messageHash ⊆ hashes.map MessageHash.bytes := by
    intro b hb
    obtain ⟨r, hr, rfl⟩ := List.mem_map.mp hb
    exact ((s.mem_candidates_byHash hne includeData forward pageSize r).mp hr).2
  have hcount := (List.subperm_of_subset hnodup hsub).length_le
  rw [List.length_map, List.length_map] at hcount
  have hpage : s.pageRows q = s.candidates q := by
    rw [s.pageRows_take q hmax]
    exact List.take_of_length_le (hcount.trans hfit)
  have hhashes : (messages.map (·.hash)).map MessageHash.bytes =
      (s.candidates q).map Row.messageHash := by
    rw [List.map_map, ← hpage]
    exact hdelivers.hashes
  exact ⟨_, hok, s.mem_found_iff hhashes
    (s.mem_candidates_byHash hne includeData forward pageSize)⟩

/-- Every state of the store: one row per hash, which is the row of the first put since the
hash was last deleted and reads back as its message. Lookup, existence check and a query by hash
that fits on a page find the same hashes, up to the 32766 variables of a statement; lists that are
longer are refused. -/
theorem store_integrity (crates : Crates) (ops : List StoreOp) :
    let s := SqliteStore.empty.execAll crates ops
    (s.rows.map Row.messageHash).Nodup ∧
    (∀ r ∈ s.rows, ∃ h m receiverTimeNs, r.messageHash = MessageHash.bytes h ∧
      deterministicHash crates r.pubsubTopic (rowToMessage r) = h ∧
      firstPut crates h ops = some (r.pubsubTopic, m, receiverTimeNs) ∧
      rowToMessage r = m ∧ r.sortTime = m.timestamp.getD receiverTimeNs) ∧
    (∀ h, (s.get h).isSome ↔ h.bytes ∈ s.rows.map Row.messageHash) ∧
    (∀ hashes, if hashes.length ≤ 32766 then
        ∃ found, s.exists hashes = .ok found ∧ ∀ h, h ∈ found ↔ h ∈ hashes ∧ (s.get h).isSome
      else s.exists hashes = .error tooManyVariables) ∧
    ∀ hashes includeData forward pageSize,
      if hashes.length < 32766 then
        hashes ≠ [] → pageSize.toNat ≠ 2 ^ 64 - 1 → hashes.length ≤ max pageSize.toNat 1 →
        ∃ result, s.query (.byHash hashes includeData forward pageSize) = .ok result ∧
          ∀ h, h ∈ result.messages.map (·.hash) ↔ h ∈ hashes ∧ (s.get h).isSome
      else s.query (.byHash hashes includeData forward pageSize) = .error tooManyVariables := by
  intro s
  have hlimit : s.maxVariables = 32766 := SqliteStore.maxVariables_execAll .empty ops
  refine ⟨s.primary_key, ?_, s.get_isSome_iff, ?_, ?_⟩
  · intro r hr
    set h : MessageHash := ⟨r.messageHash, s.hash_size r hr⟩
    have hfind : s.find h = some r := s.find_eq_some hr rfl
    rw [find_after] at hfind
    obtain ⟨⟨t, m, time⟩, hput, hrow⟩ := Option.map_eq_some_iff.mp hfind
    have hmessage : rowToMessage r = m := by
      rw [← hrow]
      exact rowToMessage_putRow t m time
    have htopic : r.pubsubTopic = t := by rw [← hrow]; rfl
    refine ⟨h, m, time, rfl, ?_, ?_, hmessage, ?_⟩
    · apply MessageHash.bytes_inj
      rw [hmessage, htopic]
      exact congrArg Row.messageHash hrow
    · rw [htopic]
      exact hput
    · rw [← hrow]
      rfl
  · intro hashes
    split
    case isTrue hlen => exact s.exists_spec (hlen.trans_eq hlimit.symm)
    case isFalse hlen => exact SqliteStore.exists_refused (by omega)
  · intro hashes includeData forward pageSize
    split
    case isTrue hlen =>
      intro hne hmax hfit
      exact s.query_byHash hne includeData forward pageSize (by omega) hmax hfit
    case isFalse hlen =>
      refine SqliteStore.query_refused fun haccepts => hlen ?_
      have hfits := SqliteStore.accepts_byHash.mp haccepts
      omega

/- A hash that is put with two versions of its message, deleted, and put again. -/
def sampleOps : List StoreOp :=
  [.put "/waku/2/rs/1/0" (sampleMessage 10) 0,
    .put "/waku/2/rs/1/0" { sampleMessage 10 with version := some 1 } 3,
    .put "/waku/2/rs/1/0" (sampleMessage 20) 0,
    .deleteOlderThan 15,
    .put "/waku/2/rs/1/0" { sampleMessage 10 with version := some 2 } 4]

theorem store_integrity_sample :
    let s := SqliteStore.empty.execAll Crates.standard sampleOps
    let h := deterministicHash Crates.standard "/waku/2/rs/1/0" (sampleMessage 10)
    s.get h = some { sampleMessage 10 with version := some 2 } ∧
    ∃ result, s.query (.byHash [h] false true 20) = .ok result ∧
      h ∈ result.messages.map (·.hash) := by
  intro s h
  have hget : s.get h = some { sampleMessage 10 with version := some 2 } := by decide +kernel
  obtain ⟨-, -, -, -, hquery⟩ := store_integrity Crates.standard sampleOps
  obtain ⟨result, hok, hmem⟩ := hquery [h] false true 20 (by simp) (by decide) (by decide)
  exact ⟨hget, result, hok, (hmem h).mpr ⟨by simp, by rw [hget]; rfl⟩⟩

end RsWaku
