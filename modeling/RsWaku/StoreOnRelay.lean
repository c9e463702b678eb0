import RsWaku.RelayVerdict
import RsWaku.StoreHistory

/-! Store-on-relay: the puts that the relay branch spawns, and the store after they have run
in any order. -/
namespace RsWaku
variable {crates : Crates} {config : NodeConfig}

def RelayAccepts (crates : Crates) (env : Env) (topic : String) (data : List UInt8)
    (m : WakuMessage) : Prop :=
  ∃ shard, ShardId.parse topic = .ok shard ∧ crates.decode data = some m ∧
    validate (messageFacts env m) {} = .accept

theorem spawnPut_mem_acceptEffects {env : Env} {filters : FilterRegistry} {topic t : String}
    {decoded m : WakuMessage} {r : Int64} :
    .spawnPut t m r ∈ acceptEffects config env filters topic decoded ↔
      config.storeEnabled = true ∧ decoded.ephemeral ≠ some true ∧ t = topic ∧ m = decoded ∧
        r = env.receiverTime := by
  unfold acceptEffects
  split
  case isTrue h => simp [h]
  case isFalse h =>
    simp only [not_and, not_not] at h
    simp
    intro hs he
    exact absurd (h hs) he

theorem spawnPut_mem_relayMessage {env : Env} {s : NodeState} {source : PeerId}
    {messageId : List UInt8} {topic t : String} {data : List UInt8} {m : WakuMessage} {r : Int64} :
    .spawnPut t m r ∈
        (relayMessage crates config env s source messageId topic data).effects ↔
      config.storeEnabled = true ∧ r = env.receiverTime ∧ m.ephemeral ≠ some true ∧ t = topic ∧
        RelayAccepts crates env topic data m := by
  unfold relayMessage RelayAccepts
  cases ShardId.parse topic with
  | error e => simp
  | ok shard =>
    cases crates.decode data with
    | none => simp
    | some decoded =>
      dsimp only
      by_cases hv : validate (messageFacts env decoded) {} = .accept
      · -- the put is spawned before the application is told, so a closed channel does not stop it
        rw [if_pos hv, Outcome.mem_emit, or_iff_left (by simp), spawnPut_mem_acceptEffects]
        constructor
        · intro ⟨hstore, heph, ht, hm, hr⟩
          subst hm
          exact ⟨hstore, hr, heph, ht, shard, rfl, rfl, hv⟩
        · intro ⟨hstore, hr, heph, ht, _, _, hm, _⟩
          cases hm
          exact ⟨hstore, heph, ht, rfl, hr⟩
      · rw [if_neg hv]
        constructor
        · intro h
          simp at h
        · intro ⟨_, _, _, _, _, _, hm, haccept⟩
          cases hm
          exact absurd haccept hv

theorem spawnPut_mem_iff {env : Env} {s : NodeState} {event : SwarmEvent} {t : String}
    {m : WakuMessage} {r : Int64} :
    .spawnPut t m r ∈ (handleEvent crates config env s event).effects ↔
      config.storeEnabled = true ∧ r = env.receiverTime ∧ m.ephemeral ≠ some true ∧
        ∃ source messageId data, event = .relayMessage source messageId t data ∧
          RelayAccepts crates env t data m := by
  cases event with
  | relayMessage source messageId topic data =>
    rw [handleEvent, spawnPut_mem_relayMessage]
    constructor
    · rintro ⟨hstore, hr, heph, ht, haccepts⟩
      subst ht
      exact ⟨hstore, hr, heph, source, messageId, data, rfl, haccepts⟩
    · rintro ⟨hstore, hr, heph, _, _, _, hevent, haccepts⟩
      cases hevent
      exact ⟨hstore, hr, heph, rfl, haccepts⟩
  | newListenAddr address => simp [handleEvent, Outcome.mem_emit]
  | connectionEstablished id peer endpoint =>
    simp only [handleEvent, connectionEstablished]
    split
    · simp [Outcome.mem_emit]
    · simp
  | connectionClosed id peer endpoint =>
    simp [handleEvent, connectionClosed, Outcome.mem_emit]
  | metadataRequest peer request => simp [handleEvent]
  | metadataResponse peer response =>
    simp only [handleEvent, handleMetadataResponse]
    split
    · split
      · simp [Outcome.mem_emit]
      · simp
    · simp
  | filterSubscribeRequest peer request => simp [handleEvent]
  | filterPushRequest peer request =>
    simp only [handleEvent, filterPushRequest]
    split
    · simp [Outcome.mem_emit]
    · simp

def NodeState.handleAll (crates : Crates) (config : NodeConfig) :
    NodeState → List (Env × SwarmEvent) → List Effect
  | _, [] => []
  | s, e :: events =>
    (handleEvent crates config e.1 s e.2).effects ++
      NodeState.handleAll crates config (handleEvent crates config e.1 s e.2).state events

def Effect.put? : Effect → Option StoreOp
  | .spawnPut t m r => some (.put t m r)
  | _ => none

def spawnedPuts (crates : Crates) (config : NodeConfig) (s : NodeState)
    (events : List (Env × SwarmEvent)) : List StoreOp :=
  (s.handleAll crates config events).filterMap Effect.put?

theorem mem_spawnedPuts {s : NodeState} {events : List (Env × SwarmEvent)} {op : StoreOp} :
    op ∈ spawnedPuts crates config s events ↔
      ∃ t m r, op = .put t m r ∧ .spawnPut t m r ∈ s.handleAll crates config events := by
  rw [spawnedPuts, List.mem_filterMap]
  constructor
  · intro ⟨effect, hmem, hput⟩
    unfold Effect.put? at hput
    split at hput
    case h_1 t m r => exact ⟨t, m, r, (Option.some.inj hput).symm, hmem⟩
    case h_2 => cases hput
  · intro ⟨t, m, r, hop, hmem⟩
    exact ⟨_, hmem, congrArg some hop.symm⟩

theorem spawnPut_mem_handleAll (hstore : config.storeEnabled = true) (s : NodeState)
    (events : List (Env × SwarmEvent)) {t : String} {m : WakuMessage} {r : Int64} :
    .spawnPut t m r ∈ s.handleAll crates config events ↔
      m.ephemeral ≠ some true ∧ ∃ env source messageId data,
        (env, .relayMessage source messageId t data) ∈ events ∧ r = env.receiverTime ∧
          RelayAccepts crates env t data m := by
  induction events generalizing s with
  | nil => simp [NodeState.handleAll]
  | cons e events ih =>
    obtain ⟨env, event⟩ := e
    rw [NodeState.handleAll, List.mem_append, ih, spawnPut_mem_iff]
    constructor
    · intro h
      obtain ⟨-, hr, heph, source, messageId, data, rfl, haccepts⟩ |
        ⟨heph, env', source, messageId, data, hmem, hr, haccepts⟩ := h
      · exact ⟨heph, env, source, messageId, data, by simp, hr, haccepts⟩
      · exact ⟨heph, env', source, messageId, data, List.mem_cons_of_mem _ hmem, hr, haccepts⟩
    · intro ⟨heph, env', source, messageId, data, hmem, hr, haccepts⟩
      obtain heq | hmem := List.mem_cons.mp hmem
      · cases heq
        exact Or.inl ⟨hstore, hr, heph, source, messageId, data, rfl, haccepts⟩
      · exact Or.inr ⟨heph, env', source, messageId, data, hmem, hr, haccepts⟩

theorem hash_mem_execAll {ops : List StoreOp} (hops : ∀ op ∈ ops, op.IsPut) {t : String}
    {m : WakuMessage} {time : Int64} (hput : .put t m time ∈ ops) :
    (deterministicHash crates t m).bytes ∈
      (SqliteStore.empty.execAll crates ops).rows.map Row.messageHash := by
  induction ops using List.reverseRecOn with
  | nil => cases hput
  | append_singleton ops op ih =>
    have hop : op.IsPut := hops op (by simp)
    rw [SqliteStore.execAll, List.foldl_append, List.foldl_cons, List.foldl_nil]
    cases op with
    | put t' m' time' =>
      rw [SqliteStore.exec, SqliteStore.mem_hashes_put]
      obtain hold | hself := List.mem_append.mp hput
      · exact Or.inl (ih (fun o ho => hops o (List.mem_append_left _ ho)) hold)
      · cases List.mem_singleton.mp hself
        exact Or.inr rfl
    | deleteOlderThan cutoffNs => exact hop.elim
    | enforceCapacity max => exact hop.elim

/-- Once the spawned puts have run, in whatever order, the stored hashes are those of the
accepted messages that are not ephemeral, and no row is ephemeral. While the application
listens, accepted means that acceptance is reported to gossipsub. -/
theorem store_on_relay_exact (crates : Crates) (config : NodeConfig)
    (hstore : config.storeEnabled = true) (s : NodeState) (events : List (Env × SwarmEvent))
    (order : List StoreOp) (horder : order.Perm (spawnedPuts crates config s events)) :
    (∀ h : MessageHash,
      h.bytes ∈ (SqliteStore.empty.execAll crates order).rows.map Row.messageHash ↔
        ∃ env source messageId topic data m,
          (env, .relayMessage source messageId topic data) ∈ events ∧
          RelayAccepts crates env topic data m ∧ m.ephemeral ≠ some true ∧
          deterministicHash crates topic m = h) ∧
    (∀ r ∈ (SqliteStore.empty.execAll crates order).rows,
      (rowToMessage r).ephemeral ≠ some true) ∧
    ∀ env state source messageId topic data, env.channelOpen = true →
      (.reportMessageValidationResult messageId source .accept ∈ (handleEvent crates config env
        state (.relayMessage source messageId topic data)).effects ↔
          ∃ m, RelayAccepts crates env topic data m) := by
  have hspawned : ∀ t m time, .put t m time ∈ order ↔ m.ephemeral ≠ some true ∧
      ∃ env source messageId data, (env, .relayMessage source messageId t data) ∈ events ∧
        time = env.receiverTime ∧ RelayAccepts crates env t data m := by
    intro t m time
    rw [horder.mem_iff, mem_spawnedPuts, ← spawnPut_mem_handleAll hstore s events]
    simp
  have hputs : ∀ op ∈ order, op.IsPut := by
    intro op hop
    obtain ⟨t, m, time, rfl, -⟩ := mem_spawnedPuts.mp (horder.mem_iff.mp hop)
    trivial
  refine ⟨fun h => ⟨fun hmem => ?_, fun hex => ?_⟩, fun r hr => ?_, ?_⟩
  · obtain ⟨r, hr, hh⟩ := List.mem_map.mp hmem
    obtain ⟨t, m, time, hput, rfl⟩ := SqliteStore.mem_execAll hr
    obtain ⟨heph, env, source, messageId, data, hevent, -, haccepts⟩ := (hspawned t m time).mp hput
    exact ⟨env, source, messageId, t, data, m, hevent, haccepts, heph, MessageHash.bytes_inj hh⟩
  · obtain ⟨env, source, messageId, t, data, m, hevent, haccepts, heph, rfl⟩ := hex
    exact hash_mem_execAll hputs ((hspawned t m env.receiverTime).mpr
      ⟨heph, env, source, messageId, data, hevent, rfl, haccepts⟩)
  · obtain ⟨t, m, time, hput, rfl⟩ := SqliteStore.mem_execAll hr
    rw [rowToMessage_putRow]
    exact ((hspawned t m time).mp hput).1
  · intro env state source messageId topic data hopen
    rw [reports_accept_iff]
    constructor
    · intro ⟨shard, m, hparse, hdecode, hv, _⟩
      exact ⟨m, shard, hparse, hdecode, hv⟩
    · intro ⟨m, shard, hparse, hdecode, hv⟩
      exact ⟨shard, m, hparse, hdecode, hv, hopen⟩

deriving instance DecidableEq for StoreOp

def sampleRelayEvents : List (Env × SwarmEvent) :=
  [{ sampleMessage 10 with ephemeral := some true }, sampleMessage 10,
    { sampleMessage 10 with version := some 1 }].map fun m =>
      (⟨10, 10, true⟩, .relayMessage ⟨[1]⟩ [] "/waku/2/rs/1/0" (Crates.standard.encode m))

def sampleStoreConfig : NodeConfig := ⟨1, ⟨some 1, [0]⟩, true, 0⟩

theorem store_on_relay_sample :
    let order : List StoreOp :=
      [.put "/waku/2/rs/1/0" { sampleMessage 10 with version := some 1 } 10,
      .put "/waku/2/rs/1/0" (sampleMessage 10) 10]
    order.Perm (spawnedPuts Crates.standard sampleStoreConfig {} sampleRelayEvents) ∧
    (deterministicHash Crates.standard "/waku/2/rs/1/0" (sampleMessage 10)).bytes ∈
      (SqliteStore.empty.execAll Crates.standard order).rows.map Row.messageHash := by
  intro order
  have hspawned : spawnedPuts Crates.standard sampleStoreConfig {} sampleRelayEvents =
      order.reverse := by decide +kernel
  have hperm : order.Perm (spawnedPuts Crates.standard sampleStoreConfig {} sampleRelayEvents) := by
    rw [hspawned]
    exact order.reverse_perm.symm
  have haccepts : RelayAccepts Crates.standard ⟨10, 10, true⟩ "/waku/2/rs/1/0"
      (Crates.standard.encode (sampleMessage 10)) (sampleMessage 10) :=
    ⟨⟨1, 0⟩, by decide +kernel, by decide +kernel, by decide +kernel⟩
  refine ⟨hperm, ((store_on_relay_exact Crates.standard sampleStoreConfig rfl {} sampleRelayEvents
    order hperm).1 _).mpr ⟨⟨10, 10, true⟩, ⟨[1]⟩, [], _, _, _, ?_, haccepts, by decide, rfl⟩⟩
  simp [sampleRelayEvents]

end RsWaku
