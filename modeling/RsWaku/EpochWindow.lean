import RsWaku.RateLimit

/-! The epoch window of the inbound validator. Entries of epochs before the window are never
read again, so forgetting them changes no verdict; the validator itself forgets none of them. -/
namespace RsWaku
variable {Fr Zk : Type*} {zk : Zerokit Fr Zk}

inductive ValidatorEvent (Fr Zk : Type*) where
  | call (c : InboundCall Fr Zk)
  | prune (epoch nowSecs : UInt64)

def ValidatorEvent.nowSecs : ValidatorEvent Fr Zk → UInt64
  | .call c => c.nowSecs
  | .prune _ nowSecs => nowSecs

def ValidatorEvent.call? : ValidatorEvent Fr Zk → Option (InboundCall Fr Zk)
  | .call c => some c
  | .prune _ _ => none

def RlnValidator.prune (zk : Zerokit Fr Zk) (v : RlnValidator Fr) (epoch : UInt64) :
    RlnValidator Fr :=
  { v with log := v.log.forgetEpoch zk (v.relay.externalNullifier zk epoch) }

def RlnValidator.AgedOut (v : RlnValidator Fr) (epoch nowSecs : UInt64) : Prop :=
  1 ≤ v.epochAt nowSecs ∧ epoch < v.epochAt nowSecs - 1

instance (v : RlnValidator Fr) (epoch nowSecs : UInt64) : Decidable (v.AgedOut epoch nowSecs) :=
  inferInstanceAs (Decidable (_ ∧ _))

theorem RlnValidator.epochAt_mono (v : RlnValidator Fr) {t u : UInt64} (h : t ≤ u) :
    (v.epochAt t).toNat ≤ (v.epochAt u).toNat := by
  rw [RlnValidator.epochAt, RlnValidator.epochAt, UInt64.toNat_div, UInt64.toNat_div]
  exact Nat.div_le_div_right (UInt64.le_iff_toNat_le.mp h)

theorem RlnValidator.InWindow.epoch {v : RlnValidator Fr} {p : RlnProof Fr Zk} {now : UInt64}
    (h : v.InWindow zk p now) : ∃ e : UInt64, (v.epochAt now).toNat ≤ e.toNat + 1 ∧
      p.externalNullifier = v.relay.externalNullifier zk e := by
  obtain hcur | ⟨hpos, hprev⟩ := h
  · exact ⟨_, Nat.le_succ _, hcur⟩
  · refine ⟨_, ?_, hprev⟩
    have hone : (1 : UInt64) ≤ v.epochAt now := by
      rw [UInt64.le_iff_toNat_le]
      exact UInt64.lt_iff_toNat_lt.mp hpos
    rw [UInt64.toNat_sub_of_le _ _ hone, UInt64.toNat_one]
    omega

theorem RlnValidator.accepts_congr {v w : RlnValidator Fr} (hrelay : v.relay = w.relay)
    (hsize : v.epochSizeSecs = w.epochSizeSecs) (p : RlnProof Fr Zk) (signal : List UInt8)
    (now : UInt64) : v.Accepts zk p signal now ↔ w.Accepts zk p signal now := by
  simp only [RlnValidator.Accepts, RlnValidator.InWindow, RlnValidator.epochAt, hrelay, hsize]

/-- Two validators of one relay whose logs agree on the epochs of the window and after it. -/
structure RlnValidator.AgreeFrom (zk : Zerokit Fr Zk) (v w : RlnValidator Fr) (now : UInt64) :
    Prop where
  relay : v.relay = w.relay
  epochSize : v.epochSizeSecs = w.epochSizeSecs
  firstShare : ∀ e : UInt64, (w.epochAt now).toNat ≤ e.toNat + 1 → ∀ nullifierKey,
    v.log.firstShare (zk.frToBytesLe (w.relay.externalNullifier zk e)) nullifierKey =
      w.log.firstShare (zk.frToBytesLe (w.relay.externalNullifier zk e)) nullifierKey

variable {v w : RlnValidator Fr} {now : UInt64}

theorem RlnValidator.AgreeFrom.mono (h : v.AgreeFrom zk w now) {t : UInt64} (ht : now ≤ t) :
    v.AgreeFrom zk w t where
  relay := h.relay
  epochSize := h.epochSize
  firstShare e he := h.firstShare e ((w.epochAt_mono ht).trans he)

theorem RlnValidator.AgreeFrom.prune (hbytes : Function.Injective zk.frToBytesLe)
    (hext : Function.Injective (w.relay.externalNullifier zk)) (h : v.AgreeFrom zk w now)
    {epoch : UInt64} (haged : w.AgedOut epoch now) : (v.prune zk epoch).AgreeFrom zk w now := by
  refine ⟨h.relay, h.epochSize, fun e he nk => ?_⟩
  have hne : e ≠ epoch := by
    intro heq
    have hlt := UInt64.lt_iff_toNat_lt.mp haged.2
    rw [UInt64.toNat_sub_of_le _ _ haged.1, UInt64.toNat_one, ← heq] at hlt
    omega
  rw [RlnValidator.prune, NullifierLog.firstShare_forgetEpoch, h.relay, if_neg]
  · exact h.firstShare e he nk
  · intro hkey
    exact hne (hext (hbytes hkey))

variable [DecidableEq Fr]

def RlnValidator.verdicts (zk : Zerokit Fr Zk) :
    RlnValidator Fr → List (ValidatorEvent Fr Zk) → List InboundVerdict
  | _, [] => []
  | v, .call c :: events =>
    (v.verifyInbound zk c.proof c.signal c.nowSecs).2 ::
      RlnValidator.verdicts zk (v.verifyInbound zk c.proof c.signal c.nowSecs).1 events
  | v, .prune epoch _ :: events => RlnValidator.verdicts zk (v.prune zk epoch) events

theorem RlnValidator.AgreeFrom.call (c : InboundCall Fr Zk) (h : v.AgreeFrom zk w c.nowSecs) :
    (v.verifyInbound zk c.proof c.signal c.nowSecs).2 =
      (w.verifyInbound zk c.proof c.signal c.nowSecs).2 ∧
    (v.verifyInbound zk c.proof c.signal c.nowSecs).1.AgreeFrom zk
      (w.verifyInbound zk c.proof c.signal c.nowSecs).1 c.nowSecs := by
  have haccepts : v.Accepts zk c.proof c.signal c.nowSecs ↔
      w.Accepts zk c.proof c.signal c.nowSecs :=
    RlnValidator.accepts_congr h.relay h.epochSize _ _ _
  rw [v.verifyInbound_eq, w.verifyInbound_eq]
  by_cases hw : w.Accepts zk c.proof c.signal c.nowSecs
  · rw [if_pos (haccepts.mpr hw), if_pos hw]
    have hshare : v.log.firstShare (c.proof.keys zk).1 (c.proof.keys zk).2 =
        w.log.firstShare (c.proof.keys zk).1 (c.proof.keys zk).2 := by
      obtain ⟨e, he, hext⟩ := hw.2.2.epoch
      rw [RlnProof.keys, hext]
      exact h.firstShare e he _
    constructor
    · rw [NullifierLog.observe_outcome, NullifierLog.observe_outcome, hshare]
    · refine ⟨h.relay, h.epochSize, fun e he nk => ?_⟩
      have hv := v.log.firstShare_observe zk c.proof
        (zk.frToBytesLe (w.relay.externalNullifier zk e), nk)
      rw [h.firstShare e he] at hv
      rw [hv, ← w.log.firstShare_observe zk c.proof (_, nk)]
  · rw [if_neg (mt haccepts.mp hw), if_neg hw]
    exact ⟨rfl, h⟩

theorem RlnValidator.verifyInbound_epochSize (v : RlnValidator Fr) (proof : RlnProof Fr Zk)
    (signal : List UInt8) (nowSecs : UInt64) :
    (v.verifyInbound zk proof signal nowSecs).1.epochSizeSecs = v.epochSizeSecs := by
  obtain h | ⟨-, h⟩ := v.verifyInbound_cases zk proof signal nowSecs
  · rw [h]
  · rw [h]

/- Induction over the events: the pruned validator agrees with the other one from the time of
the last event on. -/
theorem RlnValidator.AgreeFrom.run (hbytes : Function.Injective zk.frToBytesLe)
    (hext : Function.Injective (w.relay.externalNullifier zk)) (h : v.AgreeFrom zk w now)
    {events : List (ValidatorEvent Fr Zk)} (hnow : ∀ event ∈ events, now ≤ event.nowSecs)
    (hclock : events.Pairwise fun a b => a.nowSecs ≤ b.nowSecs)
    (haged : ∀ epoch t, ValidatorEvent.prune epoch t ∈ events → w.AgedOut epoch t) :
    v.verdicts zk events =
      (w.verifyAll zk (events.filterMap ValidatorEvent.call?)).map Prod.snd := by
  induction events generalizing v w now with
  | nil => rfl
  | cons event events ih =>
    obtain ⟨hle, hrest⟩ := List.pairwise_cons.mp hclock
    have h := h.mono (hnow event List.mem_cons_self)
    cases event with
    | call c =>
      obtain ⟨hverdict, hnext⟩ := h.call c
      rw [RlnValidator.verdicts, List.filterMap_cons, ValidatorEvent.call?, RlnValidator.verifyAll,
        List.map_cons, hverdict]
      congr 1
      refine ih ?_ hnext hle hrest fun epoch t ht => ?_
      · rw [RlnValidator.verifyInbound_relay]
        exact hext
      · have haged := haged epoch t (List.mem_cons_of_mem _ ht)
        rwa [RlnValidator.AgedOut, RlnValidator.epochAt, RlnValidator.verifyInbound_epochSize]
    | prune epoch t =>
      rw [RlnValidator.verdicts, List.filterMap_cons, ValidatorEvent.call?]
      exact ih hext (h.prune hbytes hext (haged epoch t List.mem_cons_self)) hle hrest
        fun e u hu => haged e u (List.mem_cons_of_mem _ hu)

/-- Removing epochs that have aged out of the window changes no verdict of a run. -/
theorem pruning_unobservable (zk : Zerokit Fr Zk) (v : RlnValidator Fr)
    (hbytes : Function.Injective zk.frToBytesLe)
    (hext : Function.Injective (v.relay.externalNullifier zk))
    (events : List (ValidatorEvent Fr Zk))
    (hclock : events.Pairwise fun a b => a.nowSecs ≤ b.nowSecs)
    (haged : ∀ epoch nowSecs, ValidatorEvent.prune epoch nowSecs ∈ events →
      v.AgedOut epoch nowSecs) :
    v.verdicts zk events =
      (v.verifyAll zk (events.filterMap ValidatorEvent.call?)).map Prod.snd := by
  have hself : v.AgreeFrom zk v 0 := ⟨rfl, rfl, fun _ _ _ => rfl⟩
  exact hself.run hbytes hext (fun _ _ => UInt64.zero_le) hclock haged

theorem sampleRelay_externalNullifier_injective :
    Function.Injective (sampleRelay.externalNullifier sampleZerokit) := by
  intro e e' h
  have hsum : (31 : ZMod bn254) * (31 * 1 + e.toNat) = 31 * (31 * 1 + e'.toNat) :=
    add_right_cancel h
  have h31 : (31 : ZMod bn254) ≠ 0 := by decide
  have hcast := add_left_cancel (mul_left_cancel₀ h31 hsum)
  have hlt : ∀ e : UInt64, e.toNat < bn254 := fun e => e.toNat_lt.trans (by decide)
  rw [ZMod.natCast_eq_natCast_iff', Nat.mod_eq_of_lt (hlt e), Nat.mod_eq_of_lt (hlt e')] at hcast
  exact UInt64.toNat_inj.mp hcast

theorem pruning_unobservable_sample :
    (RlnValidator.new sampleRelay 600).verdicts sampleZerokit
      [.call (sampleCall [1] 0 100), .call (sampleCall [1] 1 700), .prune 0 1300,
        .call (sampleCall [2] 1 1300)] =
    ((RlnValidator.new sampleRelay 600).verifyAll sampleZerokit
      [sampleCall [1] 0 100, sampleCall [1] 1 700, sampleCall [2] 1 1300]).map Prod.snd := by
  apply pruning_unobservable sampleZerokit (RlnValidator.new sampleRelay 600) frToBytesLe_injective
    sampleRelay_externalNullifier_injective [.call (sampleCall [1] 0 100),
      .call (sampleCall [1] 1 700), .prune 0 1300, .call (sampleCall [2] 1 1300)]
  · simp [ValidatorEvent.nowSecs, sampleCall]
  · intro epoch t ht
    obtain ⟨rfl, rfl⟩ : epoch = 0 ∧ t = 1300 := by simpa using ht
    decide

theorem NullifierLog.mem_seen_observe (zk : Zerokit Fr Zk) (log : NullifierLog Fr)
    (p : RlnProof Fr Zk) (k : List UInt8) : k ∈ (log.observe zk p).1.seen ↔
      k = zk.frToBytesLe p.externalNullifier ∨ k ∈ log.seen := by
  obtain ⟨hnone, -, -⟩ | ⟨prev, hprev, hlog, -⟩ := log.observe_cases zk p
  · rw [NullifierLog.firstShare, RlnProof.keys] at hnone
    unfold NullifierLog.observe
    dsimp only
    rw [hnone]
    exact AList.mem_insert log.seen
  · have hmem : zk.frToBytesLe p.externalNullifier ∈ log.seen := by
      by_contra habsent
      rw [NullifierLog.firstShare, RlnProof.keys,
        Maps.read_of_absent (AList.lookup_eq_none.mpr habsent), AList.lookup_empty] at hprev
      cases hprev
    rw [hlog, or_iff_right_of_imp]
    intro hk
    rw [hk]
    exact hmem

def RlnValidator.receive (zk : Zerokit Fr Zk) (v : RlnValidator Fr) (c : InboundCall Fr Zk) :
    RlnValidator Fr :=
  (v.verifyInbound zk c.proof c.signal c.nowSecs).1

def InboundCall.Accepted (zk : Zerokit Fr Zk) (v : RlnValidator Fr) (c : InboundCall Fr Zk) :
    Prop :=
  v.Accepts zk c.proof c.signal c.nowSecs

instance (zk : Zerokit Fr Zk) (v : RlnValidator Fr) (c : InboundCall Fr Zk) :
    Decidable (c.Accepted zk v) :=
  inferInstanceAs (Decidable (v.Accepts ..))

theorem RlnValidator.mem_seen_receive (v : RlnValidator Fr) (c : InboundCall Fr Zk)
    (k : List UInt8) : k ∈ (v.receive zk c).log.seen ↔
      k ∈ v.log.seen ∨ c.Accepted zk v ∧ k = zk.frToBytesLe c.proof.externalNullifier := by
  rw [RlnValidator.receive, RlnValidator.verifyInbound_eq, InboundCall.Accepted]
  by_cases h : v.Accepts zk c.proof c.signal c.nowSecs
  · rw [if_pos h, NullifierLog.mem_seen_observe, or_comm, and_iff_right h]
  · rw [if_neg h, or_iff_left fun hc => h hc.1]

theorem RlnValidator.run_config (v : RlnValidator Fr) (calls : List (InboundCall Fr Zk)) :
    (calls.foldl (RlnValidator.receive zk) v).relay = v.relay ∧
      (calls.foldl (RlnValidator.receive zk) v).epochSizeSecs = v.epochSizeSecs := by
  apply Runs.related_of_steps fun a b : RlnValidator Fr =>
    b.relay = a.relay ∧ b.epochSizeSecs = a.epochSizeSecs
  · exact fun _ => ⟨rfl, rfl⟩
  · exact fun _ _ _ h h' => ⟨h'.1.trans h.1, h'.2.trans h.2⟩
  · exact fun c _ a => ⟨a.verifyInbound_relay .., a.verifyInbound_epochSize ..⟩

theorem RlnValidator.accepted_run (v : RlnValidator Fr) (calls : List (InboundCall Fr Zk))
    (c : InboundCall Fr Zk) :
    c.Accepted zk (calls.foldl (RlnValidator.receive zk) v) ↔ c.Accepted zk v :=
  RlnValidator.accepts_congr (v.run_config calls).1 (v.run_config calls).2 _ _ _

theorem RlnValidator.mem_seen_run (v : RlnValidator Fr) (calls : List (InboundCall Fr Zk))
    (k : List UInt8) : k ∈ (calls.foldl (RlnValidator.receive zk) v).log.seen ↔
      k ∈ v.log.seen ∨
        ∃ c ∈ calls, c.Accepted zk v ∧ k = zk.frToBytesLe c.proof.externalNullifier := by
  induction calls using List.reverseRecOn with
  | nil => simp
  | append_singleton calls c ih =>
    rw [List.foldl_append, List.foldl_cons, List.foldl_nil, RlnValidator.mem_seen_receive, ih,
      RlnValidator.accepted_run, or_assoc]
    simp only [List.mem_append, List.mem_singleton, or_and_right, exists_or, exists_eq_left]

theorem RlnValidator.valid_iff (v : RlnValidator Fr) (c : InboundCall Fr Zk) :
    (∃ d, (v.verifyInbound zk c.proof c.signal c.nowSecs).2 = .valid d) ↔ c.Accepted zk v := by
  rw [RlnValidator.verifyInbound_eq, InboundCall.Accepted]
  by_cases h : v.Accepts zk c.proof c.signal c.nowSecs
  · rw [if_pos h]
    exact ⟨fun _ => h, fun _ => ⟨_, rfl⟩⟩
  · rw [if_neg h]
    simp [h]

def RlnValidator.TracksWindow (zk : Zerokit Fr Zk) (v : RlnValidator Fr) (nowSecs : UInt64) :
    Prop :=
  ∀ k ∈ v.log.seen, k = zk.frToBytesLe (v.relay.externalNullifier zk (v.epochAt nowSecs)) ∨
    0 < v.epochAt nowSecs ∧
      k = zk.frToBytesLe (v.relay.externalNullifier zk (v.epochAt nowSecs - 1))

omit [DecidableEq Fr] in
theorem RlnValidator.TracksWindow.trackedEpochs (h : v.TracksWindow zk now) :
    v.log.trackedEpochs ≤ 2 := by
  have hsub : v.log.seen.keys ⊆ [zk.frToBytesLe (v.relay.externalNullifier zk (v.epochAt now)),
      zk.frToBytesLe (v.relay.externalNullifier zk (v.epochAt now - 1))] := by
    intro k hk
    obtain hcur | ⟨-, hprev⟩ := h k hk
    · simp [hcur]
    · simp [hprev]
  exact (List.subperm_of_subset v.log.seen.keys_nodup hsub).length_le

theorem RlnValidator.tracksWindow_run_iff (hbytes : Function.Injective zk.frToBytesLe)
    (hempty : v.log = {}) (calls : List (InboundCall Fr Zk)) :
    (calls.foldl (RlnValidator.receive zk) v).TracksWindow zk now ↔
      ∀ c ∈ calls, c.Accepted zk v → v.InWindow zk c.proof now := by
  have hkey : ∀ c : InboundCall Fr Zk, v.InWindow zk c.proof now ↔
      zk.frToBytesLe c.proof.externalNullifier =
          zk.frToBytesLe (v.relay.externalNullifier zk (v.epochAt now)) ∨
        0 < v.epochAt now ∧ zk.frToBytesLe c.proof.externalNullifier =
          zk.frToBytesLe (v.relay.externalNullifier zk (v.epochAt now - 1)) := by
    intro c
    rw [RlnValidator.InWindow, hbytes.eq_iff, hbytes.eq_iff]
  obtain ⟨hrelay, hsize⟩ := @RlnValidator.run_config _ _ zk _ v calls
  simp only [RlnValidator.TracksWindow, RlnValidator.epochAt, hrelay, hsize,
    RlnValidator.mem_seen_run, hempty]
  constructor
  · intro h c hc hacc
    exact (hkey c).mpr (h _ (Or.inr ⟨c, hc, hacc, rfl⟩))
  · intro h k hk
    obtain hnil | ⟨c, hc, hacc, rfl⟩ := hk
    · exact absurd hnil (AList.notMem_empty k)
    · exact (hkey c).mp (h c hc hacc)

/-- The log stays within the window exactly if the epoch of each accepted call is in the
window of all calls that are accepted after it. -/
theorem log_tracks_window_iff (zk : Zerokit Fr Zk) (hbytes : Function.Injective zk.frToBytesLe)
    (relay : RlnRelay Fr) (epochSizeSecs : UInt64) (calls : List (InboundCall Fr Zk)) :
    let start := RlnValidator.new relay epochSizeSecs
    (∀ past c, past ++ [c] <+: calls →
      (∃ d, ((past.foldl (RlnValidator.receive zk) start).verifyInbound zk c.proof c.signal
        c.nowSecs).2 = .valid d) →
      ((past ++ [c]).foldl (RlnValidator.receive zk) start).TracksWindow zk c.nowSecs ∧
        ((past ++ [c]).foldl (RlnValidator.receive zk) start).log.trackedEpochs ≤ 2) ↔
    calls.Pairwise fun earlier c => earlier.Accepted zk start → c.Accepted zk start →
      start.InWindow zk earlier.proof c.nowSecs := by
  intro start
  simp only [RlnValidator.valid_iff, RlnValidator.accepted_run, Runs.pairwise_iff_past]
  constructor
  · intro h past c hpre earlier hmem hearlier hc
    have htracks := (RlnValidator.tracksWindow_run_iff hbytes rfl _).mp (h past c hpre hc).1
    exact htracks earlier (List.mem_append_left _ hmem) hearlier
  · intro h past c hpre hc
    have htracks : ((past ++ [c]).foldl (RlnValidator.receive zk) start).TracksWindow zk
        c.nowSecs := by
      rw [RlnValidator.tracksWindow_run_iff hbytes rfl]
      intro c' hmem hacc
      obtain hpast | hself := List.mem_append.mp hmem
      · exact h past c hpre c' hpast hacc hc
      · rw [List.mem_singleton.mp hself]
        exact hc.2.2
    exact ⟨htracks, htracks.trackedEpochs⟩

theorem log_tracks_window_sample :
    let start := RlnValidator.new sampleRelay 600
    let calls := [sampleCall [1] 0 100, sampleCall [1] 1 700]
    (∃ d, ((start.receive sampleZerokit (sampleCall [1] 0 100)).verifyInbound sampleZerokit
      (sampleCall [1] 1 700).proof [1] 700).2 = .valid d) ∧
    (calls.foldl (RlnValidator.receive sampleZerokit) start).TracksWindow sampleZerokit 700 := by
  intro start calls
  have hvalid : ∃ d, ((start.receive sampleZerokit (sampleCall [1] 0 100)).verifyInbound
      sampleZerokit (sampleCall [1] 1 700).proof [1] 700).2 = .valid d :=
    ⟨false, by decide +kernel⟩
  have hwindow := (log_tracks_window_iff sampleZerokit frToBytesLe_injective sampleRelay 600
    calls).mpr (by decide +kernel)
  exact ⟨hvalid, (hwindow [sampleCall [1] 0 100] _ List.prefix_rfl hvalid).1⟩

/- One identity signals once in each of three epochs: the first one is still tracked. -/
theorem log_outgrows_window :
    let calls := [sampleCall [1] 0 100, sampleCall [1] 1 700, sampleCall [1] 2 1300]
    let start := RlnValidator.new sampleRelay 600
    (start.verifyAll sampleZerokit calls).map Prod.snd =
      [.valid false, .valid false, .valid false] ∧
    (calls.foldl (RlnValidator.receive sampleZerokit) start).log.trackedEpochs = 3 := by
  decide +kernel

end RsWaku
