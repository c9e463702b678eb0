import RsWaku.StorePages

/-! The two retention policies. Each keeps an upper set of `(sort_time, message_hash)`: one the
rows from a cutoff on, the other the rows with few rows above them. -/
namespace RsWaku
open Keyset

theorem SqliteStore.ext_rows {s t : SqliteStore} (h : s.rows = t.rows)
    (hlimit : s.maxVariables = t.maxVariables) : s = t := by
  cases s
  cases t
  cases h
  cases hlimit
  rfl

theorem SqliteStore.delete_count (s : SqliteStore) (p : Row → Bool) :
    (s.delete p).2 = UInt64.ofNat (s.rows.length - (s.delete p).1.rows.length) := by
  have hlen : s.rows.length = s.rows.countP p + s.rows.countP fun r => !p r := by
    rw [s.rows.length_eq_countP_add_countP p]
    congr 2
    funext r
    cases p r <;> rfl
  have hleft : (s.delete p).1.rows.length = s.rows.countP fun r => !p r :=
    List.countP_eq_length_filter.symm
  rw [hleft, hlen, Nat.add_sub_cancel]
  rfl

theorem SqliteStore.delete_nothing {s : SqliteStore} {p : Row → Bool}
    (h : ∀ r ∈ s.rows, p r = false) : s.delete p = (s, 0) := by
  have hrows : (s.delete p).1 = s :=
    SqliteStore.ext_rows (List.filter_eq_self.mpr fun r hr => by simp [h r hr]) rfl
  refine Prod.ext hrows ?_
  rw [s.delete_count, hrows, Nat.sub_self]
  rfl

/-- How many rows `enforce_capacity` skips: a maximum from 2^63 on is cast to a negative offset. -/
def capacityOffset (max : UInt64) : Nat := if max.toNat < 2 ^ 63 then max.toNat else 0

theorem sqlOffset_capacity {α : Type*} (max : UInt64) (l : List α) :
    sqlOffset max.toInt64 l = l.drop (capacityOffset max) := by
  have hmax := max.toNat_lt
  have hoffset : max.toInt64.toInt.toNat = capacityOffset max := by
    rw [Bytes.toInt_toInt64, capacityOffset]
    by_cases hlt : max.toNat < 2 ^ 63
    · rw [if_pos hlt, Int.bmod_eq_of_le (by omega) (by omega), Int.toNat_natCast]
    · rw [if_neg hlt, Int.bmod_def]
      omega
  rw [sqlOffset, hoffset]

theorem SqliteStore.doomed_iff (s : SqliteStore) (max : UInt64) {r : Row} (hr : r ∈ s.rows) :
    r.messageHash ∈ (sqlOffset max.toInt64 (listing Row.key false s.rows)).map Row.messageHash ↔
      capacityOffset max ≤ rank Row.key false s.rows r := by
  rw [sqlOffset_capacity, ← mem_listing_drop s.keys_nodup hr, List.mem_map]
  constructor
  · intro ⟨e, he, heq⟩
    rwa [s.row_ext (mem_listing.mp (List.mem_of_mem_drop he)) hr heq] at he
  · intro hmem
    exact ⟨r, hmem, rfl⟩

theorem SqliteStore.rows_deleteOlderThan (s : SqliteStore) (cutoffNs : Int64) :
    (s.deleteOlderThan cutoffNs).1.rows = s.rows.filter fun r => cutoffNs ≤ r.sortTime := by
  apply List.filter_congr
  intro r _
  rw [← decide_not, decide_eq_decide, not_lt]

theorem SqliteStore.rows_enforceCapacity (s : SqliteStore) (max : UInt64) :
    (s.enforceCapacity max).1.rows =
      s.rows.filter fun r => rank Row.key false s.rows r < capacityOffset max := by
  apply List.filter_congr
  intro r hr
  rw [← decide_not, decide_eq_decide, s.doomed_iff max hr, Nat.not_le]

theorem SqliteStore.mem_deleteOlderThan {s : SqliteStore} {cutoffNs : Int64} {r : Row} :
    r ∈ (s.deleteOlderThan cutoffNs).1.rows ↔ r ∈ s.rows ∧ cutoffNs ≤ r.sortTime := by
  rw [s.rows_deleteOlderThan, List.mem_filter, decide_eq_true_eq]

theorem SqliteStore.mem_enforceCapacity {s : SqliteStore} {max : UInt64} {r : Row} :
    r ∈ (s.enforceCapacity max).1.rows ↔
      r ∈ s.rows ∧ rank Row.key false s.rows r < capacityOffset max := by
  rw [s.rows_enforceCapacity, List.mem_filter, decide_eq_true_eq]

theorem SqliteStore.deleteOlderThan_shrinks (s : SqliteStore) (cutoffNs : Int64) :
    Shrinks Row.key s.rows (s.deleteOlderThan cutoffNs).1.rows := by
  refine ⟨fun r hr => (SqliteStore.mem_deleteOlderThan.mp hr).1, fun d hd hdn r hr => ?_⟩
  have hnew := (SqliteStore.mem_deleteOlderThan.mp hr).2
  have hold : d.sortTime < cutoffNs := by
    by_contra hge
    exact hdn (SqliteStore.mem_deleteOlderThan.mpr ⟨hd, not_lt.mp hge⟩)
  exact Prod.Lex.toLex_lt_toLex.mpr (Or.inl (lt_of_lt_of_le hold hnew))

theorem SqliteStore.enforceCapacity_shrinks (s : SqliteStore) (max : UInt64) :
    Shrinks Row.key s.rows (s.enforceCapacity max).1.rows := by
  refine ⟨fun r hr => (SqliteStore.mem_enforceCapacity.mp hr).1, fun d hd hdn r hr => ?_⟩
  have hkept := (SqliteStore.mem_enforceCapacity.mp hr).2
  by_contra hle
  have hmono : rank Row.key false s.rows d ≤ rank Row.key false s.rows r := rank_mono hle
  exact hdn (SqliteStore.mem_enforceCapacity.mpr ⟨hd, Nat.lt_of_le_of_lt hmono hkept⟩)

/-- Capacity retention keeps the newest rows unless the maximum is 2^63 or more: cast to a
negative offset, it deletes the whole table. -/
theorem enforce_capacity_iff (s : SqliteStore) (max : UInt64) :
    ((s.enforceCapacity max).1.rows.length = min s.rows.length max.toNat ∧
      (∀ r ∈ (s.enforceCapacity max).1.rows, ∀ d ∈ s.rows,
        d ∉ (s.enforceCapacity max).1.rows → d.key < r.key) ∧
      (s.enforceCapacity max).1.rows.Sublist s.rows ∧
      (s.enforceCapacity max).2 =
        UInt64.ofNat (s.rows.length - (s.enforceCapacity max).1.rows.length)) ↔
    max.toNat < 2 ^ 63 ∨ s.rows = [] := by
  have hleft : (s.enforceCapacity max).1.rows.length = min s.rows.length (capacityOffset max) := by
    rw [s.rows_enforceCapacity, length_filter_rank s.keys_nodup]
  constructor
  · intro ⟨hlen, _⟩
    by_contra hcon
    obtain ⟨hbig, hrows⟩ := not_or.mp hcon
    have hpos := List.length_pos_iff.mpr hrows
    rw [hleft, capacityOffset, if_neg hbig] at hlen
    omega
  · intro hcond
    refine ⟨?_, ?_, ?_, s.delete_count _⟩
    · rw [hleft]
      obtain hsmall | hnil := hcond
      · rw [capacityOffset, if_pos hsmall]
      · rw [hnil, List.length_nil, Nat.zero_min, Nat.zero_min]
    · intro r hr d hd hdn
      exact (s.enforceCapacity_shrinks max).2 d hd hdn r hr
    · rw [s.rows_enforceCapacity]
      exact List.filter_sublist

theorem enforce_capacity_deletes_all :
    ((SqliteStore.empty.put Crates.standard "/waku/2/rs/1/0" {} 0).enforceCapacity
      18446744073709551615).1.rows.length ≠
    min (SqliteStore.empty.put Crates.standard "/waku/2/rs/1/0" {} 0).rows.length
      (18446744073709551615 : UInt64).toNat := by
  decide +kernel

theorem SqliteStore.deleteOlderThan_eq_self {s : SqliteStore} {cutoffNs : Int64}
    (h : ∀ r ∈ s.rows, cutoffNs ≤ r.sortTime) : s.deleteOlderThan cutoffNs = (s, 0) := by
  apply SqliteStore.delete_nothing
  intro r hr
  exact decide_eq_false (not_lt.mpr (h r hr))

theorem SqliteStore.enforceCapacity_eq_self {s : SqliteStore} {max : UInt64}
    (h : ∀ r ∈ s.rows, rank Row.key false s.rows r < capacityOffset max) :
    s.enforceCapacity max = (s, 0) := by
  apply SqliteStore.delete_nothing
  intro r hr
  exact decide_eq_false (mt (s.doomed_iff max hr).mp (Nat.not_le.mpr (h r hr)))

theorem SqliteStore.rank_deleteOlderThan {s : SqliteStore} {cutoffNs : Int64} {r : Row}
    (hr : cutoffNs ≤ r.sortTime) :
    rank Row.key false (s.rows.filter fun x => cutoffNs ≤ x.sortTime) r =
      rank Row.key false s.rows r := by
  apply rank_filter
  intro x _ hx
  have hle : r.sortTime ≤ x.sortTime := by
    obtain hlt | ⟨heq, -⟩ := Prod.Lex.toLex_lt_toLex.mp hx
    · exact hlt.le
    · exact heq.le
  exact decide_eq_true (le_trans hr hle)

theorem SqliteStore.retention_commute (s : SqliteStore) (cutoffNs : Int64) (max : UInt64) :
    ((s.deleteOlderThan cutoffNs).1.enforceCapacity max).1 =
      ((s.enforceCapacity max).1.deleteOlderThan cutoffNs).1 := by
  refine SqliteStore.ext_rows ?_ rfl
  rw [SqliteStore.rows_enforceCapacity, SqliteStore.rows_deleteOlderThan,
    SqliteStore.rows_deleteOlderThan, SqliteStore.rows_enforceCapacity, List.filter_filter,
    List.filter_filter]
  apply List.filter_congr
  intro r _
  by_cases hr : cutoffNs ≤ r.sortTime
  · rw [SqliteStore.rank_deleteOlderThan hr, Bool.and_comm]
  · simp [hr]

/-- The two policies commute, and a second run of both, in either order, deletes nothing. -/
theorem retention_policies_commute (s : SqliteStore) (cutoffNs : Int64) (max : UInt64) :
    let t := ((s.deleteOlderThan cutoffNs).1.enforceCapacity max).1
    t = ((s.enforceCapacity max).1.deleteOlderThan cutoffNs).1 ∧
      t.deleteOlderThan cutoffNs = (t, 0) ∧ t.enforceCapacity max = (t, 0) := by
  intro t
  have hcommute : t = ((s.enforceCapacity max).1.deleteOlderThan cutoffNs).1 :=
    s.retention_commute cutoffNs max
  refine ⟨hcommute, SqliteStore.deleteOlderThan_eq_self fun r hr => ?_,
    SqliteStore.enforceCapacity_eq_self fun r hr => ?_⟩
  · exact (SqliteStore.mem_deleteOlderThan.mp (hcommute ▸ hr)).2
  · obtain ⟨-, hrank⟩ := SqliteStore.mem_enforceCapacity.mp hr
    have hsub : t.rows.Sublist (s.deleteOlderThan cutoffNs).1.rows := by
      rw [SqliteStore.rows_enforceCapacity]
      exact List.filter_sublist
    exact Nat.lt_of_le_of_lt (rank_sublist hsub r) hrank

end RsWaku
