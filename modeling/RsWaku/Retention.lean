import RsWaku.Pagination
import RsWaku.RetentionPolicies

/-! Walks through a store that retention shrinks between the fetches. Both policies delete
a lower set of `(sort_time, message_hash)`; a cursor whose row is gone restarts the query. -/
namespace RsWaku
open Keyset

def StoreOp.IsRetention : StoreOp → Prop
  | .put _ _ _ => False
  | _ => True

theorem SqliteStore.execAll_shrinks (crates : Crates) (s : SqliteStore) (ops : List StoreOp)
    (h : ∀ op ∈ ops, op.IsRetention) : Shrinks Row.key s.rows (s.execAll crates ops).rows := by
  have hop : ∀ op ∈ ops, ∀ s : SqliteStore, Shrinks Row.key s.rows (s.exec crates op).rows := by
    intro op hop s
    cases op with
    | put pubsubTopic msg receiverTimeNs => exact False.elim (h _ hop)
    | deleteOlderThan cutoffNs => exact s.deleteOlderThan_shrinks cutoffNs
    | enforceCapacity max => exact s.enforceCapacity_shrinks max
  exact Runs.related_of_steps (fun a b : SqliteStore => Shrinks Row.key a.rows b.rows)
    (fun a => Shrinks.refl a.rows) (fun _ _ _ hab hbc => hab.trans hbc) hop

def OnlyRetention (sched : List (List StoreOp)) : Prop := ∀ ops ∈ sched, ∀ op ∈ ops, op.IsRetention

def EveryFetch (crates : Crates) (q : StoreQuery) (P : SqliteStore → Option MessageHash → Prop) :
    Nat → List (List StoreOp) → SqliteStore → Option MessageHash → Prop
  | 0, _, _, _ => True
  | n+1, sched, s, c => P s c ∧
    match s.query (q.resume c) with
    | .error _ => True
    | .ok page =>
      match page.nextCursor with
      | none => True
      | some c' =>
        EveryFetch crates q P n sched.tail (s.execAll crates (sched.headD [])) (some c')

/-- The walk goes forward, or the row of the cursor is still stored, or no stored row
passes the filters. -/
def Resumable (q : StoreQuery) (s : SqliteStore) (c : Option MessageHash) : Prop :=
  q.forward = true ∨ (∀ h ∈ c, ∃ r ∈ s.rows, r.messageHash = h.bytes) ∨ ∀ r ∈ s.rows, ¬q.Filters r

variable {crates : Crates} {q : StoreQuery}

theorem SqliteStore.pageSize_of_nextRow {s : SqliteStore} {z : Row} (h : s.nextRow q = some z) :
    q.pageSize.toNat ≠ 2 ^ 64 - 1 := by
  intro hsize
  have hmem := SqliteStore.nextRow_mem h
  rw [s.pageRows_max_size q hsize] at hmem
  cases hmem

theorem hash_missing {s₀ s : SqliteStore} (hs : Shrinks Row.key s₀.rows s.rows) {z : Row}
    {h : MessageHash} (hz : z ∈ s₀.rows) (hzh : z.messageHash = h.bytes) (hgone : z ∉ s.rows) :
    ∀ r ∈ s.rows, r.messageHash ≠ h.bytes := by
  intro r hr heq
  rw [s₀.row_ext (hs.1 r hr) hz (heq.trans hzh.symm)] at hr
  exact hgone hr

theorem page_after_retention {s₀ s : SqliteStore} (hs : Shrinks Row.key s₀.rows s.rows) {z : Row}
    {h : MessageHash} (hz : z ∈ s₀.rows) (hzh : z.messageHash = h.bytes)
    (hr : Resumable q s (some h)) :
    Page Row.key q.forward (s.rows.filter fun r => q.Filters r) (some z.key)
      (s.pageRows (q.resume (some h))) ((s.nextRow (q.resume (some h))).map Row.key) := by
  have hpage := s.page (q.resume (some h))
  by_cases hmem : z ∈ s.rows
  · rw [s.cursorKey_mem (q.resume _) rfl hmem hzh] at hpage
    exact hpage
  · have hmiss := hash_missing hs hz hzh hmem
    rw [s.cursorKey_resume_missing q hmiss] at hpage
    apply hpage.restart
    intro r hrow
    obtain ⟨hrs, hfil⟩ := SqliteStore.pageRows_sound hrow
    obtain hf | hstored | hnone := hr
    · have hlt := hs.2 z hz hmem r hrs
      simpa [StoreQuery.resume, hf, Before] using hlt
    · obtain ⟨r', hr', he⟩ := hstored h rfl
      exact absurd he (hmiss r' hr')
    · exact absurd hfil (hnone r hrs)

theorem everyFetch_succ {P : SqliteStore → Option MessageHash → Prop} {n : Nat}
    {sched : List (List StoreOp)} {s : SqliteStore} {c : Option MessageHash}
    {messages : List StoredMessage} {h : MessageHash}
    (hq : s.query (q.resume c) = .ok ⟨messages, some h⟩) :
    EveryFetch crates q P (n+1) sched s c ↔ P s c ∧
      EveryFetch crates q P n sched.tail (s.execAll crates (sched.headD [])) (some h) := by
  simp [EveryFetch, hq]

/-- Induction over the fetches: resumable fetches deliver strictly after the cursor row,
which the older table s₀ still held. -/
theorem walk_ordered_of_resumable (n : Nat) (sched : List (List StoreOp)) (s₀ s : SqliteStore)
    (z : Row) (h : MessageHash) (hret : OnlyRetention sched)
    (hs : Shrinks Row.key s₀.rows s.rows) (hz : z ∈ s₀.rows) (hzh : z.messageHash = h.bytes)
    (hev : EveryFetch crates q (Resumable q) n sched s (some h)) :
    ∃ rows, Delivers q.includeData rows (walk crates q n sched s (some h)).messages ∧
      Ordered Row.key q.forward rows ∧
      ∀ r ∈ rows, After Row.key q.forward (some z.key) r ∧ r ∈ s.rows := by
  induction n generalizing sched s₀ s z h with
  | zero => exact ⟨[], Delivers.nil _, List.Pairwise.nil, by simp⟩
  | succ n ih =>
    obtain ⟨-, -, hw⟩ | ⟨-, messages, hd, hcase⟩ := @walk_succ crates q n sched s (some h)
    · rw [hw]
      exact ⟨[], Delivers.nil _, List.Pairwise.nil, by simp⟩
    have hpage := page_after_retention hs hz hzh hev.1
    have hfirst : ∀ r ∈ s.pageRows (q.resume (some h)),
        After Row.key q.forward (some z.key) r ∧ r ∈ s.rows := fun r hr =>
      ⟨(hpage.sound r hr).2, (SqliteStore.pageRows_sound hr).1⟩
    obtain ⟨_, _, hw⟩ | ⟨y, g, hy, hyg, hq, hw⟩ := hcase
    · exact ⟨_, by rw [hw]; exact hd, hpage.ordered, hfirst⟩
    · rw [hy] at hpage
      have hshrink := s.execAll_shrinks crates _ (schedule_head hret)
      have hyrow := (SqliteStore.pageRows_sound (SqliteStore.nextRow_mem hy)).1
      obtain ⟨rest, hdr, hor, hrest⟩ := ih sched.tail s (s.execAll crates (sched.headD [])) y g
        (schedule_tail hret) hshrink hyrow hyg ((everyFetch_succ hq).mp hev).2
      refine ⟨_ ++ rest, by rw [hw]; exact hd.append hdr,
        hpage.ordered_append hor fun r hr => (hrest r hr).1, ?_⟩
      intro r hr
      obtain hr | hr := List.mem_append.mp hr
      · exact hfirst r hr
      · obtain ⟨haft, hmem⟩ := hrest r hr
        exact ⟨hpage.after_of_next haft, hshrink.1 r hmem⟩

theorem repeats_of_not_resumable {s₀ s : SqliteStore} (hs : Shrinks Row.key s₀.rows s.rows)
    {z : Row} {h : MessageHash} (hz : z ∈ s₀.rows) (hzh : z.messageHash = h.bytes)
    (hsize : q.pageSize.toNat ≠ 2 ^ 64 - 1) (hnot : ¬Resumable q s (some h)) :
    ∃ y ∈ s.pageRows (q.resume (some h)), ¬After Row.key q.forward (some z.key) y := by
  simp only [Resumable, not_or, not_forall, not_not] at hnot
  obtain ⟨hback, ⟨g, hg, hmiss⟩, r, hr, hfil⟩ := hnot
  cases hg
  have hgone : z ∉ s.rows := fun hmem => hmiss ⟨z, hmem, hzh⟩
  have hmissing := hash_missing hs hz hzh hgone
  have hcand : r ∈ s.candidates (q.resume (some h)) := by
    rw [s.mem_candidates, s.cursorKey_resume_missing q hmissing]
    exact ⟨SqliteStore.mem_filtered.mpr ⟨hr, hfil⟩, after_none _ _⟩
  obtain ⟨y, hy⟩ := List.exists_mem_of_ne_nil _
    (s.pageRows_ne_nil (q.resume (some h)) hsize (List.ne_nil_of_mem hcand))
  refine ⟨y, hy, ?_⟩
  have hlt := hs.2 z hz hgone y (SqliteStore.pageRows_sound hy).1
  simpa [hback, Before] using hlt.le

theorem stored_of_refused {s : SqliteStore} {h : MessageHash}
    (hvariables : q.boundVariables ≤ s.maxVariables) (hrefused : ¬s.Accepts (q.resume (some h))) :
    ∃ r ∈ s.rows, r.messageHash = h.bytes := by
  by_contra hmissing
  refine hrefused ?_
  rw [SqliteStore.Accepts, s.cursorKey_resume_missing q fun r hr heq => hmissing ⟨r, hr, heq⟩]
  exact hvariables

/-- Induction over the fetches: D holds every stored matching row that the walk went past,
so a fetch that starts over would deliver one of them again. -/
theorem resumable_of_nodup (n : Nat) (sched : List (List StoreOp)) (s₀ s : SqliteStore)
    (z : Row) (h : MessageHash) (D : List Row) (hret : OnlyRetention sched)
    (hs : Shrinks Row.key s₀.rows s.rows) (hz : z ∈ s₀.rows) (hzh : z.messageHash = h.bytes)
    (hsize : q.pageSize.toNat ≠ 2 ^ 64 - 1) (hvariables : q.boundVariables ≤ s.maxVariables)
    (hD : ∀ r ∈ s.rows, q.Filters r → ¬After Row.key q.forward (some z.key) r → r ∈ D)
    (hnd : (D.map Row.messageHash ++
      (walk crates q n sched s (some h)).messages.map (·.hash.bytes)).Nodup) :
    EveryFetch crates q (Resumable q) n sched s (some h) := by
  induction n generalizing sched s₀ s z h D with
  | zero => trivial
  | succ n ih =>
    obtain ⟨hrefused, hq, -⟩ | ⟨-, messages, hd, hcase⟩ := @walk_succ crates q n sched s (some h)
    · have hstored : Resumable q s (some h) := .inr (.inl fun g hg => by
        cases hg
        exact stored_of_refused hvariables hrefused)
      simp [EveryFetch, hq, hstored]
    have hpages : ∃ rest, (walk crates q (n+1) sched s (some h)).messages.map (·.hash.bytes) =
        (s.pageRows (q.resume (some h))).map Row.messageHash ++ rest := by
      rw [← hd.hashes]
      obtain ⟨_, _, hw⟩ | ⟨_, _, _, _, _, hw⟩ := hcase
      · exact ⟨[], by rw [hw, List.append_nil]⟩
      · exact ⟨_, by rw [hw, List.map_append]⟩
    have hres : Resumable q s (some h) := by
      by_contra hnot
      obtain ⟨y, hy, hpast⟩ := repeats_of_not_resumable hs hz hzh hsize hnot
      obtain ⟨hys, hfil⟩ := SqliteStore.pageRows_sound hy
      obtain ⟨rest, hrest⟩ := hpages
      rw [hrest] at hnd
      exact (List.nodup_append.mp hnd).2.2 y.messageHash
        (List.mem_map_of_mem (hD y hys hfil hpast)) y.messageHash
        (List.mem_append_left _ (List.mem_map_of_mem hy)) rfl
    have hpage := page_after_retention hs hz hzh hres
    obtain ⟨_, hq, _⟩ | ⟨y, g, hy, hyg, hq, hw⟩ := hcase
    · simp [EveryFetch, hq, hres]
    · rw [hy] at hpage
      have hshrink := s.execAll_shrinks crates _ (schedule_head hret)
      have hyrow := (SqliteStore.pageRows_sound (SqliteStore.nextRow_mem hy)).1
      refine (everyFetch_succ hq).mpr ⟨hres, ?_⟩
      refine ih sched.tail s (s.execAll crates (sched.headD [])) y g
        (D ++ s.pageRows (q.resume (some h))) (schedule_tail hret) hshrink hyrow hyg
        (by rwa [SqliteStore.maxVariables_execAll]) ?_ ?_
      · intro r hr hfil hpast
        have hrs := hshrink.1 r hr
        by_cases haft : After Row.key q.forward (some z.key) r
        · exact List.mem_append_right D (hpage.covers y.key rfl r
            (SqliteStore.mem_filtered.mpr ⟨hrs, hfil⟩) haft
            (fun hb => hpast ((after_some _ _ _).mpr hb)))
        · exact List.mem_append_left _ (hD r hrs hfil haft)
      · rw [hw, List.map_append, hd.hashes, ← List.append_assoc, ← List.map_append] at hnd
        exact hnd

theorem everyFetch_of_forall {P : SqliteStore → Option MessageHash → Prop} (h : ∀ s c, P s c)
    (n : Nat) (sched : List (List StoreOp)) (s : SqliteStore) (c : Option MessageHash) :
    EveryFetch crates q P n sched s c := by
  induction n generalizing sched s c with
  | zero => trivial
  | succ n ih =>
    refine ⟨h s c, ?_⟩
    split
    · trivial
    · split
      · trivial
      · exact ih _ _ _

/-- A walk through a store that only the two retention policies change delivers no hash
twice exactly when each of its fetches can resume. -/
theorem retention_walk_nodup_iff (crates : Crates) (q : StoreQuery) (s : SqliteStore)
    (sched : List (List StoreOp)) (n : Nat) (hret : OnlyRetention sched) :
    ((walk crates q n sched s none).messages.map (·.hash)).Nodup ↔
      EveryFetch crates q (Resumable q) n sched s none := by
  have hstart : Resumable q s none := Or.inr (Or.inl (by simp))
  cases n with
  | zero => simp [walk, EveryFetch]
  | succ n =>
    obtain ⟨-, hq, hw⟩ | ⟨haccepts, messages, hd, hcase⟩ := @walk_succ crates q n sched s none
    · simp [EveryFetch, hq, hstart, hw]
    have hpage := s.page (q.resume none)
    have hmem : ∀ r ∈ s.pageRows (q.resume none), r ∈ s.rows := fun r hr =>
      (SqliteStore.pageRows_sound hr).1
    obtain ⟨_, hq, hw⟩ | ⟨z, h, hz, hzh, hq, hw⟩ := hcase
    · simp only [EveryFetch, hq, hstart, hw, true_and, iff_true]
      exact hd.nodup_iff.mpr (hashes_nodup s hpage.ordered hmem)
    · rw [hz] at hpage
      have hshrink := s.execAll_shrinks crates _ (schedule_head hret)
      have hzrow := hmem z (SqliteStore.nextRow_mem hz)
      have hsize := SqliteStore.pageSize_of_nextRow hz
      have hvariables : q.boundVariables ≤ (s.execAll crates (sched.headD [])).maxVariables := by
        rw [SqliteStore.maxVariables_execAll]
        exact haccepts
      rw [everyFetch_succ hq]
      constructor
      · intro hnd
        refine ⟨hstart, resumable_of_nodup n sched.tail s _ z h (s.pageRows (q.resume none))
          (schedule_tail hret) hshrink hzrow hzh hsize hvariables ?_ ?_⟩
        · intro r hr hfil hpast
          exact hpage.covers z.key rfl r
            (SqliteStore.mem_filtered.mpr ⟨hshrink.1 r hr, hfil⟩) (after_none _ _)
            (fun hb => hpast ((after_some _ _ _).mpr hb))
        · rw [hw, ← List.nodup_map_iff (fun _ _ => MessageHash.bytes_inj), List.map_map] at hnd
          rw [← hd.hashes, ← List.map_append]
          exact hnd
      · intro hev
        obtain ⟨rest, hdr, hor, hrest⟩ := walk_ordered_of_resumable n sched.tail s _ z h
          (schedule_tail hret) hshrink hzrow hzh hev.2
        rw [hw]
        refine (hd.append hdr).nodup_iff.mpr (hashes_nodup s
          (hpage.ordered_append hor fun r hr => (hrest r hr).1) fun r hr => ?_)
        obtain hr | hr := List.mem_append.mp hr
        · exact hmem r hr
        · exact hshrink.1 r (hrest r hr).2

theorem retention_walk_forward_sample :
    OnlyRetention [[.deleteOlderThan 25]] ∧
      ((walk Crates.standard { pageSize := 2 } 3 [[.deleteOlderThan 25]] sampleStore
        none).messages.map (·.hash)).Nodup := by
  have hret : OnlyRetention [[.deleteOlderThan 25]] := by
    intro ops hops op hop
    cases List.mem_singleton.mp hops
    cases List.mem_singleton.mp hop
    trivial
  exact ⟨hret, (retention_walk_nodup_iff _ _ _ _ _ hret).mpr
    (everyFetch_of_forall (fun _ _ => Or.inl rfl) _ _ _ _)⟩

/-- Backward, the deleted cursor row makes the server start over with the newest row,
which the client already has. -/
theorem retention_walk_backward_repeats :
    ¬((walk Crates.standard { pageSize := 2, forward := false } 3 [[.deleteOlderThan 25]]
        sampleStore none).messages.map (·.hash)).Nodup := by
  decide +kernel

end RsWaku
