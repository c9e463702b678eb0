import RsWaku.Runs
import RsWaku.StorePages

/-! A client that walks through the pages of one query while the store changes between
the fetches, and what it receives when the store only grows. -/
namespace RsWaku
open Keyset

inductive StoreOp where
  | put (pubsubTopic : String) (msg : WakuMessage) (receiverTimeNs : Int64)
  | deleteOlderThan (cutoffNs : Int64)
  | enforceCapacity (max : UInt64)

def StoreOp.IsPut : StoreOp → Prop
  | .put _ _ _ => True
  | _ => False

def SqliteStore.exec (crates : Crates) (s : SqliteStore) : StoreOp → SqliteStore
  | .put pubsubTopic msg receiverTimeNs => s.put crates pubsubTopic msg receiverTimeNs
  | .deleteOlderThan cutoffNs => (s.deleteOlderThan cutoffNs).1
  | .enforceCapacity max => (s.enforceCapacity max).1

def SqliteStore.execAll (crates : Crates) (s : SqliteStore) (ops : List StoreOp) : SqliteStore :=
  ops.foldl (SqliteStore.exec crates) s

structure Walk where
  messages : List StoredMessage
  finished : Bool

/-- Fetch a page, let the next batch of the schedule run, and pass the returned cursor back
until it is absent, for at most n fetches. An exhausted schedule runs nothing more. -/
def walk (crates : Crates) (q : StoreQuery) :
    Nat → List (List StoreOp) → SqliteStore → Option MessageHash → Walk
  | 0, _, _, _ => ⟨[], false⟩
  | n+1, sched, s, c =>
    match s.query (q.resume c) with
    | .error _ => ⟨[], false⟩
    | .ok page =>
      match page.nextCursor with
      | none => ⟨page.messages, true⟩
      | some c' =>
        let rest := walk crates q n sched.tail (s.execAll crates (sched.headD [])) (some c')
        ⟨page.messages ++ rest.messages, rest.finished⟩

variable {crates : Crates} {q : StoreQuery}

theorem walk_succ (n : Nat) (sched : List (List StoreOp)) (s : SqliteStore)
    (c : Option MessageHash) :
    (¬s.Accepts (q.resume c) ∧ s.query (q.resume c) = .error tooManyVariables ∧
      walk crates q (n+1) sched s c = ⟨[], false⟩) ∨
    s.Accepts (q.resume c) ∧
    ∃ messages, Delivers q.includeData (s.pageRows (q.resume c)) messages ∧
      ((s.nextRow (q.resume c) = none ∧ s.query (q.resume c) = .ok ⟨messages, none⟩ ∧
          walk crates q (n+1) sched s c = ⟨messages, true⟩) ∨
        ∃ z h, s.nextRow (q.resume c) = some z ∧ z.messageHash = h.bytes ∧
          s.query (q.resume c) = .ok ⟨messages, some h⟩ ∧
          walk crates q (n+1) sched s c =
            ⟨messages ++ (walk crates q n sched.tail (s.execAll crates (sched.headD []))
                (some h)).messages,
              (walk crates q n sched.tail (s.execAll crates (sched.headD []))
                (some h)).finished⟩) := by
  by_cases ha : s.Accepts (q.resume c)
  case neg =>
    have hq := SqliteStore.query_refused ha
    exact .inl ⟨ha, hq, by simp [walk, hq]⟩
  obtain ⟨messages, next, hq, hd, hn⟩ := SqliteStore.query_ok ha
  refine .inr ⟨ha, messages, hd, ?_⟩
  cases next with
  | none =>
    refine Or.inl ⟨Option.map_eq_none_iff.mp hn.symm, hq, ?_⟩
    simp [walk, hq]
  | some h =>
    obtain ⟨z, hz, hzh⟩ := Option.map_eq_some_iff.mp hn.symm
    exact Or.inr ⟨z, h, hz, hzh, hq, by simp [walk, hq]⟩

def Resolves (s : SqliteStore) (c : Option MessageHash) (k : Option (Int64 ×ₗ List UInt8)) : Prop :=
  (c = none ∧ k = none) ∨
    ∃ h z, c = some h ∧ k = some z.key ∧ z ∈ s.rows ∧ z.messageHash = h.bytes

theorem Resolves.cursorKey {s : SqliteStore} {c : Option MessageHash}
    {k : Option (Int64 ×ₗ List UInt8)} (h : Resolves s c k) :
    (s.cursorKey (q.resume c)).map toLex = k := by
  obtain ⟨rfl, rfl⟩ | ⟨g, z, rfl, rfl, hz, hg⟩ := h
  · rfl
  · exact s.cursorKey_mem (q.resume _) rfl hz hg

theorem SqliteStore.nextRow_mem {s : SqliteStore} {q : StoreQuery} {z : Row}
    (h : s.nextRow q = some z) : z ∈ s.pageRows q := by
  unfold SqliteStore.nextRow at h
  split at h
  · exact List.mem_of_getLast? h
  · cases h

theorem SqliteStore.pageRows_sound {s : SqliteStore} {q : StoreQuery} {r : Row}
    (h : r ∈ s.pageRows q) : r ∈ s.rows ∧ q.Filters r :=
  SqliteStore.mem_filtered.mp ((s.page q).sound r h).1

theorem SqliteStore.mem_put {s : SqliteStore} {r : Row} (h : r ∈ s.rows) (pubsubTopic : String)
    (msg : WakuMessage) (receiverTimeNs : Int64) :
    r ∈ (s.put crates pubsubTopic msg receiverTimeNs).rows := by
  rw [SqliteStore.rows_put]
  split
  · exact h
  · exact List.mem_cons_of_mem _ h

theorem SqliteStore.mem_execAll_of_puts {s : SqliteStore} {r : Row} (h : r ∈ s.rows)
    (ops : List StoreOp) (hops : ∀ op ∈ ops, op.IsPut) : r ∈ (s.execAll crates ops).rows := by
  have hop : ∀ op ∈ ops, ∀ s : SqliteStore, r ∈ s.rows → r ∈ (s.exec crates op).rows := by
    intro op hop s hr
    cases op with
    | put pubsubTopic msg receiverTimeNs => exact s.mem_put hr pubsubTopic msg receiverTimeNs
    | deleteOlderThan cutoffNs => exact False.elim (hops _ hop)
    | enforceCapacity max => exact False.elim (hops _ hop)
  exact Runs.related_of_steps (fun a b : SqliteStore => r ∈ a.rows → r ∈ b.rows)
    (fun _ hr => hr) (fun _ _ _ hab hbc hr => hbc (hab hr)) hop h

theorem SqliteStore.maxVariables_execAll (s : SqliteStore) (ops : List StoreOp) :
    (s.execAll crates ops).maxVariables = s.maxVariables := by
  have hop : ∀ op ∈ ops, ∀ s : SqliteStore, (s.exec crates op).maxVariables = s.maxVariables := by
    intro op _ s
    cases op with
    | put pubsubTopic msg receiverTimeNs =>
      rw [SqliteStore.exec, SqliteStore.put]
      split <;> rfl
    | deleteOlderThan cutoffNs => rfl
    | enforceCapacity max => rfl
  exact Runs.related_of_steps (fun a b : SqliteStore => b.maxVariables = a.maxVariables)
    (fun _ => rfl) (fun _ _ _ hab hbc => hbc.trans hab) hop

theorem execAll_schedule (s : SqliteStore) (sched : List (List StoreOp)) :
    (s.execAll crates (sched.headD [])).execAll crates sched.tail.flatten =
      s.execAll crates sched.flatten := by
  cases sched with
  | nil => rfl
  | cons ops sched => simp [SqliteStore.execAll]

def OnlyPuts (sched : List (List StoreOp)) : Prop := ∀ ops ∈ sched, ∀ op ∈ ops, op.IsPut

theorem schedule_head {P : StoreOp → Prop} {sched : List (List StoreOp)}
    (h : ∀ ops ∈ sched, ∀ op ∈ ops, P op) : ∀ op ∈ sched.headD [], P op := by
  cases sched with
  | nil => simp
  | cons ops sched => exact h ops (by simp)

theorem schedule_tail {P : StoreOp → Prop} {sched : List (List StoreOp)}
    (h : ∀ ops ∈ sched, ∀ op ∈ ops, P op) : ∀ ops ∈ sched.tail, ∀ op ∈ ops, P op :=
  fun ops hops => h ops (List.mem_of_mem_tail hops)

theorem OnlyPuts.flatten {sched : List (List StoreOp)} (h : OnlyPuts sched) :
    ∀ op ∈ sched.flatten, op.IsPut := by
  intro op hop
  obtain ⟨ops, hops, ho⟩ := List.mem_flatten.mp hop
  exact h ops hops op ho

theorem SqliteStore.mem_after_schedule {s : SqliteStore} {r : Row} (h : r ∈ s.rows)
    {sched : List (List StoreOp)} (hput : OnlyPuts sched) :
    r ∈ (s.execAll crates (sched.headD [])).rows :=
  SqliteStore.mem_execAll_of_puts h _ (schedule_head hput)

theorem SqliteStore.pageRows_complete {s : SqliteStore} (hsize : q.pageSize.toNat < 2 ^ 63 - 1)
    {c : Option MessageHash} (hn : s.nextRow (q.resume c) = none) :
    s.pageRows (q.resume c) = s.candidates (q.resume c) := by
  obtain ⟨htake, hmore⟩ := s.pageRows_eq_take (q.resume c) hsize
  have hmin : 1 ≤ max (q.resume c).pageSize.toNat 1 := Nat.le_max_right _ _
  unfold SqliteStore.nextRow at hn
  split at hn
  · rename_i hm
    have hlt := hmore.mp hm
    rw [List.getLast?_eq_none_iff, htake, List.take_eq_nil_iff] at hn
    obtain h0 | h0 := hn
    · omega
    · simp [h0] at hlt
  · rename_i hm
    rw [htake, List.take_of_length_le (by rw [hmore] at hm; omega)]

/-- Induction over the fetches of a walk through a growing store. The cursor row stays in
the table, so each page continues strictly after the last one. -/
theorem walk_grows (hsize : q.pageSize.toNat < 2 ^ 63 - 1) (n : Nat)
    (sched : List (List StoreOp)) (s : SqliteStore) (c : Option MessageHash)
    (k : Option (Int64 ×ₗ List UInt8)) (hput : OnlyPuts sched) (hk : Resolves s c k) :
    ∃ rows, Delivers q.includeData rows (walk crates q n sched s c).messages ∧
      Ordered Row.key q.forward rows ∧
      (∀ r ∈ rows, q.Filters r ∧ After Row.key q.forward k r ∧
        r ∈ (s.execAll crates sched.flatten).rows) ∧
      ((walk crates q n sched s c).finished = true →
        ∀ r ∈ s.rows, q.Filters r → After Row.key q.forward k r → r ∈ rows) := by
  induction n generalizing sched s c k with
  | zero => exact ⟨[], Delivers.nil _, List.Pairwise.nil, by simp, by simp [walk]⟩
  | succ n ih =>
    obtain ⟨-, -, hw⟩ | ⟨-, messages, hd, hcase⟩ := @walk_succ crates q n sched s c
    · rw [hw]
      exact ⟨[], Delivers.nil _, List.Pairwise.nil, by simp, by simp⟩
    have hpage := s.page (q.resume c)
    rw [hk.cursorKey] at hpage
    have hfirst : ∀ r ∈ s.pageRows (q.resume c), q.Filters r ∧ After Row.key q.forward k r ∧
        r ∈ (s.execAll crates sched.flatten).rows := by
      intro r hr
      obtain ⟨hmem, hfil⟩ := SqliteStore.pageRows_sound hr
      exact ⟨hfil, (hpage.sound r hr).2, SqliteStore.mem_execAll_of_puts hmem _ hput.flatten⟩
    obtain ⟨hnone, _, hw⟩ | ⟨z, h, hz, hzh, _, hw⟩ := hcase
    · refine ⟨s.pageRows (q.resume c), by rw [hw]; exact hd, hpage.ordered, hfirst, ?_⟩
      intro _ r hr hfil haft
      rw [SqliteStore.pageRows_complete hsize hnone, s.mem_candidates, hk.cursorKey]
      exact ⟨SqliteStore.mem_filtered.mpr ⟨hr, hfil⟩, haft⟩
    · rw [hz] at hpage
      have hzmem := (SqliteStore.pageRows_sound (SqliteStore.nextRow_mem hz)).1
      obtain ⟨rest, hdr, hor, hrest, hcov⟩ := ih sched.tail (s.execAll crates (sched.headD []))
        (some h) (some z.key) (schedule_tail hput)
        (Or.inr ⟨h, z, rfl, rfl, SqliteStore.mem_after_schedule hzmem hput, hzh⟩)
      refine ⟨s.pageRows (q.resume c) ++ rest, by rw [hw]; exact hd.append hdr,
        hpage.ordered_append hor fun r hr => (hrest r hr).2.1, ?_, ?_⟩
      · intro r hr
        obtain hr | hr := List.mem_append.mp hr
        · exact hfirst r hr
        · obtain ⟨hfil, haft, hmem⟩ := hrest r hr
          rw [execAll_schedule] at hmem
          exact ⟨hfil, hpage.after_of_next haft, hmem⟩
      · intro hfin r hr hfil haft
        rw [hw] at hfin
        by_cases hb : Before q.forward z.key r.key
        · exact List.mem_append_right _ (hcov hfin r
            (SqliteStore.mem_after_schedule hr hput) hfil ((after_some _ _ _).mpr hb))
        · exact List.mem_append_left _ (hpage.covers z.key rfl r
            (SqliteStore.mem_filtered.mpr ⟨hr, hfil⟩) haft hb)

theorem walk_finishes (n : Nat) (sched : List (List StoreOp)) (s : SqliteStore)
    (c : Option MessageHash) (k : Option (Int64 ×ₗ List UInt8)) (hput : OnlyPuts sched)
    (hvariables : q.boundVariables + 3 ≤ s.maxVariables) (hk : Resolves s c k)
    (hn : ((s.execAll crates sched.flatten).rows.filter
      fun r => After Row.key q.forward k r).length < n) :
    (walk crates q n sched s c).finished = true := by
  induction n generalizing sched s c k with
  | zero => omega
  | succ n ih =>
    obtain ⟨hrefused, -⟩ | ⟨-, messages, hd, hcase⟩ := @walk_succ crates q n sched s c
    · exact absurd (SqliteStore.accepts_resume hvariables c) hrefused
    obtain ⟨_, _, hw⟩ | ⟨z, h, hz, hzh, _, hw⟩ := hcase
    · rw [hw]
    · have hpage := s.page (q.resume c)
      rw [hk.cursorKey, hz] at hpage
      have hzmem := (SqliteStore.pageRows_sound (SqliteStore.nextRow_mem hz)).1
      have hlt := hpage.remaining_lt (s.execAll crates sched.flatten).rows fun r hr =>
        SqliteStore.mem_execAll_of_puts (SqliteStore.pageRows_sound hr).1 _ hput.flatten
      rw [hw]
      refine ih sched.tail (s.execAll crates (sched.headD [])) (some h) (some z.key)
        (schedule_tail hput) (by rwa [SqliteStore.maxVariables_execAll])
        (Or.inr ⟨h, z, rfl, rfl, SqliteStore.mem_after_schedule hzmem hput, hzh⟩) ?_
      rw [execAll_schedule]
      exact Nat.lt_of_lt_of_le hlt (Nat.le_of_lt_succ hn)

theorem hashes_nodup (table : SqliteStore) {forward : Bool} {rows : List Row}
    (ho : Ordered Row.key forward rows) (hm : ∀ r ∈ rows, r ∈ table.rows) :
    (rows.map Row.messageHash).Nodup := by
  refine List.Nodup.map_on ?_ ho.nodup_keys.of_map
  intro a ha b hb h
  exact table.row_ext (hm a ha) (hm b hb) h

theorem Delivers.nodup_iff {includeData : Bool} {rows : List Row} {messages : List StoredMessage}
    (h : Delivers includeData rows messages) :
    (messages.map (·.hash)).Nodup ↔ (rows.map Row.messageHash).Nodup := by
  have hinj : Function.Injective MessageHash.bytes := fun _ _ => MessageHash.bytes_inj
  rw [← h.hashes, ← List.nodup_map_iff hinj, List.map_map]
  rfl

/-- A walk from the first page, with any puts between the fetches, delivers rows in strict order of
`(sort_time, message_hash)`, all of which pass the filters. It ends if SQLite prepares its
statements, and once it has ended every row that was there at the start and passes the filters is
delivered exactly once; without puts the walk is then the sorted filtered table. -/
theorem walk_with_puts_exact (crates : Crates) (q : StoreQuery) (s : SqliteStore)
    (sched : List (List StoreOp)) (n : Nat) (hput : OnlyPuts sched)
    (hsize : q.pageSize.toNat < 2 ^ 63 - 1)
    (hn : (s.execAll crates sched.flatten).rows.length < n) :
    (q.boundVariables + 3 ≤ s.maxVariables → (walk crates q n sched s none).finished = true) ∧
    ((walk crates q n sched s none).messages.map (·.hash)).Nodup ∧
    ((walk crates q n sched s none).finished = true → ∀ r ∈ s.rows, q.Filters r →
      ((walk crates q n sched s none).messages.map (·.hash.bytes)).count r.messageHash = 1) ∧
    ∃ rows, Delivers q.includeData rows (walk crates q n sched s none).messages ∧
      Ordered Row.key q.forward rows ∧
      (∀ r ∈ rows, q.Filters r ∧ r ∈ (s.execAll crates sched.flatten).rows) ∧
      ((walk crates q n sched s none).finished = true → sched.flatten = [] →
        rows = listing Row.key q.forward (s.rows.filter fun r => q.Filters r)) := by
  have hk : Resolves s none none := Or.inl ⟨rfl, rfl⟩
  obtain ⟨rows, hd, ho, hsound, hcov⟩ := @walk_grows crates q hsize n sched s none none hput hk
  have hnd : (rows.map Row.messageHash).Nodup := hashes_nodup _ ho fun r hr => (hsound r hr).2.2
  refine ⟨fun hvariables => ?_, hd.nodup_iff.mpr hnd, fun hfin r hr hfil => ?_, rows, hd, ho,
    fun r hr => ⟨(hsound r hr).1, (hsound r hr).2.2⟩, fun hfin hnil => ?_⟩
  · exact walk_finishes n sched s none none hput hvariables hk
      (Nat.lt_of_le_of_lt (List.length_filter_le _ _) hn)
  · rw [hd.hashes]
    exact List.count_eq_one_of_mem hnd
      (List.mem_map_of_mem (hcov hfin r hr hfil (after_none _ _)))
  · have hl : Ordered Row.key q.forward (listing Row.key q.forward
        (s.rows.filter fun r => q.Filters r)) :=
      listing_ordered _ _ (List.Nodup.sublist (List.filter_sublist.map _) s.keys_nodup)
    apply ho.eq_of_mem_iff hl
    intro r
    rw [mem_listing, SqliteStore.mem_filtered]
    constructor
    · intro hr
      obtain ⟨hfil, _, hmem⟩ := hsound r hr
      rw [hnil] at hmem
      exact ⟨hmem, hfil⟩
    · intro hr
      exact hcov hfin r hr.1 hr.2 (after_none _ _)

def sampleMessage (timestamp : Int64) : WakuMessage :=
  { payload := [1], contentTopic := "/app/1/x/proto", timestamp := some timestamp }

def sampleStore : SqliteStore :=
  ((SqliteStore.empty.put Crates.standard "/waku/2/rs/1/0" (sampleMessage 10) 0).put
    Crates.standard "/waku/2/rs/1/0" (sampleMessage 20) 0).put
    Crates.standard "/waku/2/rs/1/0" (sampleMessage 30) 0

/- A message older than the cursor arrives after the first page. -/
theorem walk_with_puts_sample :
    (walk Crates.standard { pageSize := 2 } 5 [[.put "/waku/2/rs/1/0" (sampleMessage 15) 0]]
      sampleStore none).finished = true ∧
    ((walk Crates.standard { pageSize := 2 } 5 [[.put "/waku/2/rs/1/0" (sampleMessage 15) 0]]
      sampleStore none).messages.map (·.hash)).Nodup := by
  have hput : OnlyPuts [[.put "/waku/2/rs/1/0" (sampleMessage 15) 0]] := by
    intro ops hops op hop
    cases List.mem_singleton.mp hops
    cases List.mem_singleton.mp hop
    trivial
  have h := walk_with_puts_exact Crates.standard { pageSize := 2 } sampleStore
    [[.put "/waku/2/rs/1/0" (sampleMessage 15) 0]] 5 hput (by decide) (by decide +kernel)
  exact ⟨h.1 (by decide +kernel), h.2.1⟩

end RsWaku
