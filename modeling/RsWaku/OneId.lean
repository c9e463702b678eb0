import RsWaku.Codecs
import RsWaku.MessageIdentity
import RsWaku.RelayVerdict
import RsWaku.ShardTopics
import RsWaku.StoreHistory

/-! The routes of a message through the node and the id that each computes: publishing, relay,
store, filter push and lightpush. -/
namespace RsWaku
open Protobuf

structure Gossipsub where
  publish : String → List UInt8 → Except String (List UInt8)
  meshPeers : String → Nat

/-- `message_id_fn(waku_message_id)`: the id of a published message is that of the configured
function. -/
def Gossipsub.UsesMessageId (gossip : Gossipsub) (crates : Crates) : Prop :=
  ∀ topic data id, gossip.publish topic data = .ok id → id = wakuMessageId crates topic data

variable (crates : Crates) (gossip : Gossipsub)

def publishReply (shard : ShardId) (message : WakuMessage) : Except String MessageHash :=
  match gossip.publish shard.pubsubTopic (crates.encode message) with
  | .ok id =>
    match MessageHash.ofBytes id with
    | some id => .ok id
    | none => .error "gossipsub returned a non-32-byte message id"
  | .error e => .error e

/-- The Publish command: the reply, or none if the assertion on the id fails. -/
def publishCommand (shard : ShardId) (message : WakuMessage) :
    Option (Except String MessageHash) :=
  let hash := deterministicHash crates shard.pubsubTopic message
  let res := publishReply crates gossip shard message
  match res with
  | .ok id => if id = hash then some res else none
  | .error _ => some res

def LightpushResponse.ok (requestId : String) (relayPeerCount : UInt32) : LightpushResponse :=
  { requestId, statusCode := 200, statusDesc := some "OK", relayPeerCount }

def LightpushResponse.error (requestId : String) (statusCode : UInt32) (desc : String) :
    LightpushResponse :=
  { requestId, statusCode, statusDesc := some desc, relayPeerCount := 0 }

def serveLightpush (req : LightpushRequest) : Option (String × List UInt8) × LightpushResponse :=
  match req.message with
  | none => (none, .error req.requestId 400 "missing message")
  | some message =>
    let data := crates.encode message
    (some (req.pubsubTopic, data),
      match gossip.publish req.pubsubTopic data with
      | .ok _ => .ok req.requestId (UInt32.ofNat (gossip.meshPeers req.pubsubTopic))
      | .error e => .error req.requestId 503 e)

/-- A topic and a message that were read from the wire have the id, and keep it when the message is
encoded again. -/
def HasId (id : List UInt8) (topic : Option String) (message : Option WakuMessage) : Prop :=
  ∃ t m, topic = some t ∧ message = some m ∧ (deterministicHash crates t m).bytes = id ∧
    wakuMessageId crates t (crates.encode m) = id

/-- The id in a call of the event handler: of the event, of the stored row, of the message that a
filter client reads and of the validation report. -/
def Effect.Identifies (id : List UInt8) : Effect → Prop
  | .sendEvent (.message _ _ hash _) => hash.bytes = id
  | .spawnPut t m time => (putRow crates t m time).messageHash = id
  | .filterPush _ push => ((messagePush crates).encode push).length < 2 ^ 64 →
    ∃ p, (messagePush crates).decode ((messagePush crates).encode push) = some p ∧
      HasId crates id p.pubsubTopic p.wakuMessage
  | .reportMessageValidationResult messageId _ _ => messageId = id
  | _ => True

variable {crates gossip}

theorem hasId_of_decode {t : String} {d : List UInt8} {m : WakuMessage}
    (hm : crates.decode (crates.encode m) = some m) (hd : crates.decode d = some m) :
    HasId crates (wakuMessageId crates t d) (some t) (some m) := by
  refine ⟨t, m, rfl, rfl, (wakuMessageId_of_decode hd).symm, ?_⟩
  rw [wakuMessageId_of_decode hm, wakuMessageId_of_decode hd]

theorem publishReply_ok {s : ShardId} {m : WakuMessage} {id : MessageHash}
    (hgossip : gossip.UsesMessageId crates) (hm : crates.decode (crates.encode m) = some m)
    (h : publishReply crates gossip s m = .ok id) :
    id = deterministicHash crates s.pubsubTopic m := by
  unfold publishReply at h
  split at h
  case h_1 bytes hpublish =>
    have hbytes := hgossip _ _ _ hpublish
    rw [wakuMessageId_of_decode hm] at hbytes
    rw [MessageHash.ofBytes_eq_some.mpr hbytes.symm] at h
    exact (Except.ok.inj h).symm
  case h_2 => cases h

theorem publishCommand_ne_none {s : ShardId} {m : WakuMessage}
    (hgossip : gossip.UsesMessageId crates) (hm : crates.decode (crates.encode m) = some m) :
    publishCommand crates gossip s m ≠ none := by
  unfold publishCommand
  cases hreply : publishReply crates gossip s m with
  | error e => simp
  | ok id => simp [publishReply_ok hgossip hm hreply]

theorem acceptEffects_identifies {config : NodeConfig} {env : Env} {filters : FilterRegistry}
    {topic : String} {d : List UInt8} {m : WakuMessage} {call : Effect}
    (hm : crates.decode (crates.encode m) = some m) (hd : crates.decode d = some m)
    (hcall : call ∈ acceptEffects config env filters topic m) :
    call.Identifies crates (wakuMessageId crates topic d) := by
  obtain hput | hpush := List.mem_append.mp hcall
  · split at hput
    case isTrue =>
      cases List.mem_singleton.mp hput
      exact (wakuMessageId_of_decode hd).symm
    case isFalse => cases hput
  · obtain ⟨⟨peer, push⟩, hmem, rfl⟩ := List.mem_map.mp hpush
    have hcopy : push = ⟨some m, some topic⟩ := by
      obtain ⟨e, -, he⟩ := List.mem_map.mp hmem
      exact (Prod.mk.inj he).2.symm
    subst hcopy
    intro hlen
    refine ⟨_, messagePush_decode_encode ?_ hlen, hasId_of_decode hm hd⟩
    intro m' hm'
    cases hm'
    exact hm

theorem relay_identifies {config : NodeConfig} {env : Env} {state : NodeState} {source : PeerId}
    {topic : String} {d : List UInt8} {m : WakuMessage} {call : Effect}
    (hm : crates.decode (crates.encode m) = some m) (hd : crates.decode d = some m)
    (hcall : call ∈ (handleEvent crates config env state
      (.relayMessage source (wakuMessageId crates topic d) topic d)).effects) :
    call.Identifies crates (wakuMessageId crates topic d) := by
  have hid := @wakuMessageId_of_decode crates topic m d hd
  simp only [handleEvent, relayMessage, hd] at hcall
  cases hparse : ShardId.parse topic with
  | error e =>
    rw [hparse] at hcall
    cases List.mem_singleton.mp hcall
    rfl
  | ok shard =>
    rw [hparse] at hcall
    dsimp only at hcall
    split at hcall
    case isFalse =>
      cases List.mem_singleton.mp hcall
      rfl
    case isTrue =>
      obtain hbefore | ⟨-, rfl | hafter⟩ := Outcome.mem_emit.mp hcall
      · exact acceptEffects_identifies hm hd hbefore
      · rw [Effect.Identifies, hid]
        have hhash : MessageHash.ofBytes (deterministicHash crates topic m).bytes =
          some (deterministicHash crates topic m) := MessageHash.ofBytes_eq_some.mpr rfl
        rw [hhash, Option.getD_some]
      · cases List.mem_singleton.mp hafter
        rfl

theorem relay_emits {config : NodeConfig} {env : Env} {state : NodeState} {source : PeerId}
    {s : ShardId} {d : List UInt8} {m : WakuMessage} (hd : crates.decode d = some m)
    (haccept : validate (messageFacts env m) {} = .accept) :
    let effects := (handleEvent crates config env state
      (.relayMessage source (wakuMessageId crates s.pubsubTopic d) s.pubsubTopic d)).effects
    (config.storeEnabled = true → m.ephemeral ≠ some true →
      .spawnPut s.pubsubTopic m env.receiverTime ∈ effects) ∧
    (∀ peer, (∃ sub ∈ Maps.read state.filters [] peer,
        sub.matches s.pubsubTopic m.contentTopic = true) →
      .filterPush peer ⟨some m, some s.pubsubTopic⟩ ∈ effects) ∧
    (env.channelOpen = true → ∃ id : MessageHash,
      id.bytes = wakuMessageId crates s.pubsubTopic d ∧
      .sendEvent (.message s m id source) ∈ effects) := by
  have heffects (call : Effect) : call ∈ (handleEvent crates config env state
      (.relayMessage source (wakuMessageId crates s.pubsubTopic d) s.pubsubTopic d)).effects ↔
      call ∈ acceptEffects config env state.filters s.pubsubTopic m ∨ env.channelOpen = true ∧
        (call = .sendEvent (.message s m (deterministicHash crates s.pubsubTopic m) source) ∨
          call ∈ [.reportMessageValidationResult (wakuMessageId crates s.pubsubTopic d) source
            .accept]) := by
    simp only [handleEvent, relayMessage, ShardId.parse_pubsubTopic, hd, if_pos haccept]
    rw [Outcome.mem_emit, haccept, wakuMessageId_of_decode hd,
      MessageHash.ofBytes_eq_some.mpr rfl, Option.getD_some]
  simp only [heffects]
  refine ⟨fun hstore heph => .inl ?_, fun peer hmatch => .inl ?_, fun hopen => ?_⟩
  · rw [acceptEffects, if_pos ⟨hstore, heph⟩]
    exact List.mem_cons_self ..
  · obtain ⟨⟨p, push⟩, hmem, rfl⟩ :=
      List.mem_map.mp ((mem_pushFilterMatches state.filters s.pubsubTopic m peer).mpr hmatch)
    have hcopy : push = ⟨some m, some s.pubsubTopic⟩ := by
      obtain ⟨e, -, he⟩ := List.mem_map.mp hmem
      exact (Prod.mk.inj he).2.symm
    subst hcopy
    exact List.mem_append_right _ (List.mem_map.mpr ⟨_, hmem, rfl⟩)
  · exact ⟨_, (wakuMessageId_of_decode hd).symm, .inr ⟨hopen, .inl rfl⟩⟩

theorem store_serves_id {t : String} {m : WakuMessage} {d : List UInt8}
    (hd : crates.decode d = some m) (ops : List StoreOp) (time : Int64) (requestId : String) :
    ∃ kv ∈ (serve (SqliteStore.empty.execAll crates (ops ++ [.put t m time]))
        { requestId, includeData := true, messageHashes := [wakuMessageId crates t d] }).messages,
      kv.messageHash = some (wakuMessageId crates t d) := by
  set store := SqliteStore.empty.execAll crates (ops ++ [.put t m time]) with hstore
  have hlimit : store.maxVariables = 32766 := SqliteStore.maxVariables_execAll .empty _
  have hput : store = (SqliteStore.empty.execAll crates ops).put crates t m time := by
    rw [hstore, SqliteStore.execAll, List.foldl_append]
    rfl
  have hget : (store.get (deterministicHash crates t m)).isSome := by
    rw [store.get_isSome_iff, hput, SqliteStore.mem_hashes_put]
    exact .inr rfl
  obtain ⟨result, hok, hmem⟩ := store.query_byHash
    (List.cons_ne_nil (deterministicHash crates t m) []) true false 20
    ((by decide : 2 ≤ 32766).trans_eq hlimit.symm) (by decide)
    (by decide : 1 ≤ max (UInt64.toNat 20) 1)
  have hfound := (hmem (deterministicHash crates t m)).mpr ⟨List.mem_singleton_self _, hget⟩
  obtain ⟨stored, hstored, hhash⟩ := List.mem_map.mp hfound
  have hquery : requestToQuery
      { requestId, includeData := true, messageHashes := [wakuMessageId crates t d] } =
        .byHash [deterministicHash crates t m] true false 20 := by
    rw [wakuMessageId_of_decode hd, requestToQuery, List.filterMap_cons,
      MessageHash.ofBytes_eq_some.mpr rfl]
    rfl
  rw [wakuMessageId_of_decode hd] at hquery ⊢
  refine ⟨storedToKeyValue stored, ?_, congrArg (fun h => some (MessageHash.bytes h)) hhash⟩
  simp only [serve, hquery, hok]
  exact List.mem_map_of_mem hstored

theorem store_entries_haveId {ops : List StoreOp} {req : StoreQueryRequest}
    (hops : ∀ t m time, .put t m time ∈ ops → crates.decode (crates.encode m) = some m)
    (hdata : req.includeData = true)
    (hlen : ((storeQueryResponse crates).encode
      (serve (SqliteStore.empty.execAll crates ops) req)).length < 2 ^ 64) :
    ∃ res, (storeQueryResponse crates).decode ((storeQueryResponse crates).encode
        (serve (SqliteStore.empty.execAll crates ops) req)) = some res ∧
      ∀ kv ∈ res.messages, ∃ hash, kv.messageHash = some hash ∧
        HasId crates hash kv.pubsubTopic kv.message := by
  have hentry : ∀ kv ∈ (serve (SqliteStore.empty.execAll crates ops) req).messages,
      ∃ t m, kv = ⟨some (deterministicHash crates t m).bytes, some m, some t⟩ ∧
        crates.decode (crates.encode m) = some m := by
    intro kv hkv
    obtain ⟨hash, message, topic⟩ := kv
    obtain ⟨r, hpage, rfl, rfl, rfl⟩ := mem_serve_messages hkv
    obtain ⟨t, m, time, hput, rfl⟩ := SqliteStore.mem_execAll (SqliteStore.pageRows_sound hpage).1
    exact ⟨t, m, by rw [if_pos hdata, rowToMessage_putRow]; rfl, hops t m time hput⟩
  refine ⟨_, storeQueryResponse_decode_encode ?_ hlen, ?_⟩
  · intro kv hkv m' hm'
    obtain ⟨t, m, rfl, hm⟩ := hentry kv hkv
    cases hm'
    exact hm
  · intro kv hkv
    obtain ⟨t, m, rfl, hm⟩ := hentry kv hkv
    exact ⟨_, rfl, t, m, rfl, rfl, rfl, wakuMessageId_of_decode hm⟩

/-- One id everywhere: of the published encoding, of relayed data in whatever encoding it came, of
the event that tells it, of the row that is stored for it, and of the message after a filter push, a
lightpush or a store response encoded it again. -/
theorem one_id_everywhere (crates : Crates) (gossip : Gossipsub) (s : ShardId) (m : WakuMessage)
    (d : List UInt8) (hgossip : gossip.UsesMessageId crates)
    (hm : crates.decode (crates.encode m) = some m) (hd : crates.decode d = some m) :
    wakuMessageId crates s.pubsubTopic (crates.encode m) =
        (deterministicHash crates s.pubsubTopic m).bytes ∧
      publishCommand crates gossip s m ≠ none ∧
      (∀ config env state source, ∀ call ∈ (handleEvent crates config env state
        (.relayMessage source (wakuMessageId crates s.pubsubTopic d) s.pubsubTopic d)).effects,
        call.Identifies crates (wakuMessageId crates s.pubsubTopic d)) ∧
      (∀ config env state source, validate (messageFacts env m) {} = .accept →
        let effects := (handleEvent crates config env state
          (.relayMessage source (wakuMessageId crates s.pubsubTopic d) s.pubsubTopic d)).effects
        (config.storeEnabled = true → m.ephemeral ≠ some true →
          .spawnPut s.pubsubTopic m env.receiverTime ∈ effects) ∧
        (∀ peer, (∃ sub ∈ Maps.read state.filters [] peer,
            sub.matches s.pubsubTopic m.contentTopic = true) →
          .filterPush peer ⟨some m, some s.pubsubTopic⟩ ∈ effects) ∧
        (env.channelOpen = true → ∃ id : MessageHash,
          id.bytes = wakuMessageId crates s.pubsubTopic d ∧
          .sendEvent (.message s m id source) ∈ effects)) ∧
      (∀ time, (putRow crates s.pubsubTopic m time).messageHash =
        wakuMessageId crates s.pubsubTopic d) ∧
      (∀ requestId, ((lightpushRequest crates).encode
          ⟨requestId, s.pubsubTopic, some m⟩).length < 2 ^ 64 →
        ∃ r data, (lightpushRequest crates).decode ((lightpushRequest crates).encode
          ⟨requestId, s.pubsubTopic, some m⟩) = some r ∧
          (serveLightpush crates gossip r).1 = some (s.pubsubTopic, data) ∧
          wakuMessageId crates s.pubsubTopic data = wakuMessageId crates s.pubsubTopic d) ∧
      (∀ ops time requestId,
        ∃ kv ∈ (serve (SqliteStore.empty.execAll crates (ops ++ [.put s.pubsubTopic m time]))
          { requestId, includeData := true,
            messageHashes := [wakuMessageId crates s.pubsubTopic d] }).messages,
          kv.messageHash = some (wakuMessageId crates s.pubsubTopic d)) ∧
      ∀ ops : List StoreOp,
        (∀ t m' time, .put t m' time ∈ ops → crates.decode (crates.encode m') = some m') →
        ∀ req : StoreQueryRequest, req.includeData = true →
        ((storeQueryResponse crates).encode
          (serve (SqliteStore.empty.execAll crates ops) req)).length < 2 ^ 64 →
        ∃ res, (storeQueryResponse crates).decode ((storeQueryResponse crates).encode
            (serve (SqliteStore.empty.execAll crates ops) req)) = some res ∧
          ∀ kv ∈ res.messages, ∃ hash, kv.messageHash = some hash ∧
            HasId crates hash kv.pubsubTopic kv.message := by
  have hid := @wakuMessageId_of_decode crates s.pubsubTopic m d hd
  refine ⟨wakuMessageId_of_decode hm, publishCommand_ne_none hgossip hm, ?_, ?_, ?_, ?_,
    store_serves_id hd, ?_⟩
  · intro config env state source call hcall
    exact relay_identifies hm hd hcall
  · intro config env state source haccept
    exact relay_emits hd haccept
  · intro time
    exact hid.symm
  · intro requestId hlen
    refine ⟨_, crates.encode m, lightpushRequest_decode_encode ?_ hlen, rfl, ?_⟩
    · intro m' hm'
      cases hm'
      exact hm
    · rw [wakuMessageId_of_decode hm, hid]
  · intro ops hops req hdata hlen
    exact store_entries_haveId hops hdata hlen

def sampleGossip : Gossipsub where
  publish topic data := .ok (wakuMessageId Crates.standard topic data)
  meshPeers _ := 6

def sampleSent : WakuMessage := { payload := [1, 2, 3], contentTopic := "/app/1/x/proto" }

/- The same message with an unknown field behind the known ones. -/
def sampleReceived : List UInt8 := Crates.standard.encode sampleSent ++ [40, 1]

def sampleFilters : FilterRegistry :=
  (applyFilterRequest ∅ ⟨[2]⟩ { filterSubscribeType := SubscribeType.subscribe }).1

theorem one_id_everywhere_sample :
    sampleReceived ≠ Crates.standard.encode sampleSent ∧
    publishCommand Crates.standard sampleGossip ⟨1, 0⟩ sampleSent ≠ none ∧
    ∃ id : MessageHash,
      id.bytes = wakuMessageId Crates.standard (ShardId.mk 1 0).pubsubTopic sampleReceived ∧
      (putRow Crates.standard (ShardId.mk 1 0).pubsubTopic sampleSent 10).messageHash = id.bytes ∧
      ∀ call ∈ [.sendEvent (.message ⟨1, 0⟩ sampleSent id ⟨[1]⟩),
          .spawnPut (ShardId.mk 1 0).pubsubTopic sampleSent 10,
          .filterPush ⟨[2]⟩ ⟨some sampleSent, some (ShardId.mk 1 0).pubsubTopic⟩],
        call ∈ (handleEvent Crates.standard ⟨1, ⟨some 1, [0]⟩, true, 0⟩ ⟨10, 10, true⟩
          { filters := sampleFilters } (.relayMessage ⟨[1]⟩
            (wakuMessageId Crates.standard (ShardId.mk 1 0).pubsubTopic sampleReceived)
            (ShardId.mk 1 0).pubsubTopic sampleReceived)).effects := by
  have hgossip : sampleGossip.UsesMessageId Crates.standard :=
    fun topic data id h => (Except.ok.inj h).symm
  obtain ⟨-, hpublish, -, hrelay, hrow, -⟩ := one_id_everywhere Crates.standard sampleGossip ⟨1, 0⟩
    sampleSent sampleReceived hgossip (by decide +kernel) (by decide +kernel)
  obtain ⟨hput, hpush, htold⟩ := hrelay ⟨1, ⟨some 1, [0]⟩, true, 0⟩ ⟨10, 10, true⟩
    { filters := sampleFilters } ⟨[1]⟩ (by decide +kernel)
  obtain ⟨id, hid, hevent⟩ := htold rfl
  refine ⟨by decide +kernel, hpublish, id, hid, (hrow 10).trans hid.symm, ?_⟩
  simp only [List.forall_mem_cons, List.not_mem_nil, false_implies, implies_true, and_true]
  exact ⟨hevent, hput rfl (by decide), hpush ⟨[2]⟩ (by decide +kernel)⟩

end RsWaku
