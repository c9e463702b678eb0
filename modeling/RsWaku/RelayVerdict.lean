import RsWaku.Runtime

/-! The verdict that the relay branch reports to gossipsub, the sizes it lets through and the
timestamps it rejects. -/
namespace RsWaku
open Bytes
variable {crates : Crates} {config : NodeConfig} {env : Env} {s : NodeState}
  {source : PeerId} {messageId : List UInt8} {topic : String} {data : List UInt8}

theorem validate_default (facts : MessageFacts) :
    validate facts {} = .accept ↔ ¬∃ gap ∈ facts.timestampGapSecs, 20 < gap.abs := by
  unfold validate
  split
  case isTrue h => simpa using h
  case isFalse h => simpa using h

theorem validate_default_reject (facts : MessageFacts) :
    validate facts {} = .reject ↔ ∃ gap ∈ facts.timestampGapSecs, 20 < gap.abs := by
  unfold validate
  split
  case isTrue h => simpa using h
  case isFalse h => simpa using h

theorem Outcome.mem_emit {state : NodeState} {before after : List Effect} {event : Event}
    {call : Effect} :
    call ∈ (Outcome.emit env state before event after).effects ↔
      call ∈ before ∨ env.channelOpen = true ∧ (call = .sendEvent event ∨ call ∈ after) := by
  unfold Outcome.emit
  cases env.channelOpen with
  | false => simp
  | true => simp

theorem acceptEffects_no_report (filters : FilterRegistry) (decoded : WakuMessage)
    (v : Validation) :
    .reportMessageValidationResult messageId source v ∉
      acceptEffects config env filters topic decoded := by
  unfold acceptEffects
  split <;> simp

theorem reports_accept_iff :
    .reportMessageValidationResult messageId source .accept ∈
        (handleEvent crates config env s (.relayMessage source messageId topic data)).effects ↔
      ∃ shard m, ShardId.parse topic = .ok shard ∧ crates.decode data = some m ∧
        validate (messageFacts env m) {} = .accept ∧ env.channelOpen = true := by
  simp only [handleEvent, relayMessage]
  cases hparse : ShardId.parse topic with
  | error e => simp
  | ok shard =>
    cases hdecode : crates.decode data with
    | none => simp
    | some m =>
      dsimp only
      by_cases hv : validate (messageFacts env m) {} = .accept
      · rw [if_pos hv, Outcome.mem_emit, or_iff_right (acceptEffects_no_report _ _ _)]
        simp [hv]
      · rw [if_neg hv, List.mem_singleton]
        constructor
        · intro h
          exact absurd (Effect.reportMessageValidationResult.inj h).2.2.symm hv
        · intro hex
          obtain ⟨shard', m', -, hm', haccept, -⟩ := hex
          cases hm'
          exact absurd haccept hv

/-- No check of the relay branch looks at the size: an oversized message is kept from being
accepted only by one of the other conditions. -/
theorem accepted_size_iff (crates : Crates) (config : NodeConfig) (env : Env) (s : NodeState)
    (source : PeerId) (messageId : List UInt8) (topic : String) (data : List UInt8) :
    (.reportMessageValidationResult messageId source .accept ∈
        (handleEvent crates config env s (.relayMessage source messageId topic data)).effects →
      data.length ≤ maxMessageSize) ↔
    data.length ≤ maxMessageSize ∨ (∀ shard, ShardId.parse topic ≠ .ok shard) ∨
      crates.decode data = none ∨
      (∃ m ts, crates.decode data = some m ∧ m.timestamp = some ts ∧
        20 < ((env.now - ts) / 1000000000).abs) ∨
      env.channelOpen = false := by
  rw [reports_accept_iff]
  constructor
  · intro h
    by_contra hcon
    simp only [not_or, not_forall, not_not, Bool.not_eq_false] at hcon
    obtain ⟨hsize, ⟨shard, hparse⟩, hdecode, hgap, hopen⟩ := hcon
    obtain ⟨m, hm⟩ := Option.ne_none_iff_exists'.mp hdecode
    refine hsize (h ⟨shard, m, hparse, hm, ?_, hopen⟩)
    rw [validate_default]
    intro hex
    obtain ⟨gap, hmem, hlt⟩ := hex
    obtain ⟨ts, hts, rfl⟩ := Option.map_eq_some_iff.mp hmem
    exact hgap ⟨m, ts, hm, hts, hlt⟩
  · intro h hex
    obtain ⟨shard, m, hparse, hm, hv, hopen⟩ := hex
    rw [validate_default] at hv
    obtain hsize | hparse' | hdecode | ⟨m', ts, hm', hts, hlt⟩ | hclosed := h
    · exact hsize
    · exact absurd hparse (hparse' shard)
    · rw [hm] at hdecode
      cases hdecode
    · rw [hm] at hm'
      cases hm'
      exact absurd ⟨_, Option.map_eq_some_iff.mpr ⟨ts, hts, rfl⟩, hlt⟩ hv
    · rw [hopen] at hclosed
      cases hclosed

def bigMessage : WakuMessage :=
  { payload := List.replicate 153601 0, contentTopic := "/app/1/x/proto" }

def bigMessageId : List UInt8 :=
  wakuMessageId Crates.standard "/waku/2/rs/1/0" (Crates.standard.encode bigMessage)

theorem bigMessage_sized : bigMessage.Sized := by
  refine ⟨?_, by decide +kernel, by rintro b ⟨⟩, by rintro b ⟨⟩⟩
  rw [bigMessage, List.length_replicate]
  decide

theorem oversized_accepted :
    .reportMessageValidationResult bigMessageId ⟨[1]⟩ .accept ∈
      (handleEvent Crates.standard ⟨1, ⟨some 1, [0]⟩, false, 20⟩ ⟨0, 0, true⟩ {}
        (.relayMessage ⟨[1]⟩ bigMessageId "/waku/2/rs/1/0"
          (Crates.standard.encode bigMessage))).effects ∧
    ¬(Crates.standard.encode bigMessage).length ≤ maxMessageSize := by
  constructor
  · refine reports_accept_iff.mpr ⟨⟨1, 0⟩, bigMessage, by decide +kernel,
      Crates.standard_decode_encode _ bigMessage_sized, ?_, rfl⟩
    rw [validate_default]
    rintro ⟨gap, ⟨⟩, -⟩
  · have hle := Crates.standard_payload_le bigMessage
    have hlen : bigMessage.payload.length = 153601 := List.length_replicate
    rw [hlen] at hle
    rw [maxMessageSize]
    omega

theorem gapSecs_abs (d : Int64) :
    (d / 1000000000).abs.toInt = (d.toInt.natAbs / 1000000000 : Nat) := by
  have hdiv : (d / 1000000000).toInt = d.toInt.tdiv 1000000000 :=
    Int64.toInt_div_of_ne_right _ _ (by decide)
  have hlow := d.le_toInt
  have hhigh := d.toInt_lt
  have hquot : (d / 1000000000).toInt.natAbs = d.toInt.natAbs / 1000000000 := by
    rw [hdiv, Int.natAbs_tdiv]
    rfl
  have hne : (d / 1000000000).toBitVec ≠ BitVec.intMin 64 := by
    intro heq
    have hmin : (d / 1000000000).toInt = -2 ^ 63 := congrArg BitVec.toInt heq
    omega
  have habs : (d / 1000000000).abs.toInt = (d / 1000000000).toInt.natAbs :=
    BitVec.toInt_abs_eq_natAbs_of_ne_intMin hne
  rw [habs, hquot]

theorem rejects_timestamp_iff {env : Env} {m : WakuMessage} {ts : Int64}
    (hts : m.timestamp = some ts) : validate (messageFacts env m) {} = .reject ↔
      21000000000 ≤ (env.now - ts).toInt.natAbs := by
  have hgap : (messageFacts env m).timestampGapSecs = some ((env.now - ts) / 1000000000) := by
    rw [messageFacts, hts, Option.map_some]
  have habs := gapSecs_abs (env.now - ts)
  rw [validate_default_reject, hgap]
  constructor
  · rintro ⟨gap, ⟨⟩, hlt⟩
    rw [Int64.lt_iff_toInt_lt, habs] at hlt
    change (20 : Int) < _ at hlt
    omega
  · intro hle
    refine ⟨_, rfl, Int64.lt_iff_toInt_lt.mpr ?_⟩
    rw [habs]
    change (20 : Int) < _
    omega

/-- For a clock below 2^62, no step of the gap computation wraps and the verdict is reject
exactly beyond 20 seconds, unless the timestamp is more than 2^63 - 1 below the clock or the
fraction that the division cuts off decides. -/
theorem timestamp_window_iff (env : Env) (m : WakuMessage) (ts : Int64)
    (hts : m.timestamp = some ts) (hlow : 0 ≤ env.now.toInt) (hhigh : env.now.toInt < 2 ^ 62) :
    ((env.now - ts).toInt = env.now.toInt - ts.toInt ∧
      ((env.now - ts) / 1000000000).toInt = (env.now.toInt - ts.toInt).tdiv 1000000000 ∧
      ((env.now - ts) / 1000000000).abs.toInt =
        ((env.now.toInt - ts.toInt).tdiv 1000000000).natAbs ∧
      (validate (messageFacts env m) {} = .reject ↔
        20 * 10 ^ 9 < (env.now.toInt - ts.toInt).natAbs)) ↔
    env.now.toInt - ts.toInt < 2 ^ 63 ∧ ((env.now.toInt - ts.toInt).natAbs ≤ 20 * 10 ^ 9 ∨
      21 * 10 ^ 9 ≤ (env.now.toInt - ts.toInt).natAbs) := by
  rw [rejects_timestamp_iff hts]
  constructor
  · intro ⟨hsub, _, _, hverdict⟩
    have hlt := (env.now - ts).toInt_lt
    rw [hsub] at hlt hverdict
    refine ⟨hlt, ?_⟩
    omega
  · intro ⟨hfits, hwindow⟩
    have hts64 := ts.toInt_lt
    have hsub : (env.now - ts).toInt = env.now.toInt - ts.toInt := by
      rw [Int64.toInt_sub, Int.bmod_eq_of_le (by omega) (by omega)]
    have hdiv : ((env.now - ts) / 1000000000).toInt = (env.now - ts).toInt.tdiv 1000000000 :=
      Int64.toInt_div_of_ne_right _ _ (by decide)
    rw [← hsub]
    rw [← hsub] at hwindow
    refine ⟨rfl, hdiv, ?_, ?_⟩
    · rw [gapSecs_abs, Int.natAbs_tdiv]
      rfl
    · omega

theorem timestamp_window_sample :
    validate (messageFacts ⟨1000000000000, 0, true⟩ { timestamp := some 995000000000 }) {} ≠
      .reject := by
  have h := ((timestamp_window_iff ⟨1000000000000, 0, true⟩ { timestamp := some 995000000000 }
    995000000000 rfl (by decide) (by decide)).mpr ⟨by decide, by decide⟩).2.2.2
  exact mt h.mp (by decide)

theorem timestamp_window_fraction :
    validate (messageFacts ⟨1000000000000, 0, true⟩ { timestamp := some 979500000000 }) {} ≠
      .reject ∧
    20 * 10 ^ 9 < (Int64.toInt 1000000000000 - Int64.toInt 979500000000).natAbs := by
  decide +kernel

end RsWaku
