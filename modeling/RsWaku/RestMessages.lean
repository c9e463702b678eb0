import RsWaku.OneId
import RsWaku.RestSubscribe
import RsWaku.ShardTopics
import RsWaku.TextCodecs

/-! Messages over REST: their JSON, and the requests that publish one on the shard of its content
topic or on a shard that is named. -/
namespace RsWaku
open BaseN Bytes Control

structure RestWakuMessage where
  payload : String
  contentTopic : String := ""
  version : Option UInt32 := none
  timestamp : Option Int64 := none
  metadata : Option String := none
  ephemeral : Option Bool := none
deriving DecidableEq

structure Base64Crate where
  decode : String → Except String (List UInt8)

/-- The engine reads canonical padding only and refuses trailing bits. -/
def Base64Crate.Documented (b64 : Base64Crate) : Prop :=
  ∀ s bytes, b64.decode s = .ok bytes ↔ s = encodePadded bytes

namespace RestWakuMessage

def decodeMeta (b64 : Base64Crate) : Option String → Except String (Option (List UInt8))
  | some m => do
    let bytes ← (b64.decode m).mapError fun e => "bad meta base64: " ++ e
    return some bytes
  | none => return none

def intoMessage (b64 : Base64Crate) (self : RestWakuMessage) (contentTopic : String) :
    Except String WakuMessage := do
  let payload ← (b64.decode self.payload).mapError fun e => "bad payload base64: " ++ e
  let metadata ← decodeMeta b64 self.metadata
  return { payload, contentTopic, version := self.version, timestamp := self.timestamp, metadata,
           rateLimitProof := none, ephemeral := self.ephemeral }

def fromMessage (msg : WakuMessage) : RestWakuMessage where
  payload := encodePadded msg.payload
  contentTopic := msg.contentTopic
  version := msg.version
  timestamp := msg.timestamp
  metadata := msg.metadata.map encodePadded
  ephemeral := msg.ephemeral

theorem decodeMeta_eq_ok {b64 : Base64Crate} (hb64 : b64.Documented) {text : Option String}
    {bytes : Option (List UInt8)} :
    decodeMeta b64 text = .ok bytes ↔ text = bytes.map encodePadded := by
  cases text with
  | none =>
    cases bytes with
    | none => exact iff_of_true rfl rfl
    | some b => exact iff_of_false nofun nofun
  | some m =>
    rw [decodeMeta, bind_eq_ok]
    simp only [mapError_eq_ok, hb64 _ _]
    constructor
    · rintro ⟨b, rfl, h⟩
      cases h
      rfl
    · intro h
      obtain ⟨b, rfl, hb⟩ := Option.map_eq_some_iff.mp h.symm
      exact ⟨b, hb.symm, rfl⟩

/-- A body stands for the one message that it is the JSON of, with the content topic of the path
and without a proof. -/
theorem intoMessage_eq_ok {b64 : Base64Crate} (hb64 : b64.Documented) {self : RestWakuMessage}
    {contentTopic : String} {msg : WakuMessage} :
    self.intoMessage b64 contentTopic = .ok msg ↔
      msg.rateLimitProof = none ∧ fromMessage msg = { self with contentTopic } := by
  obtain ⟨payload, topic, version, timestamp, metadata, proof, ephemeral⟩ := msg
  obtain ⟨text, topic', version', timestamp', metadata', ephemeral'⟩ := self
  simp only [intoMessage, bind_eq_ok, mapError_eq_ok, hb64 _ _, decodeMeta_eq_ok hb64, fromMessage,
    mk.injEq]
  constructor
  · rintro ⟨b, rfl, m, rfl, h⟩
    cases h
    exact ⟨rfl, rfl, rfl, rfl, rfl, rfl, rfl⟩
  · rintro ⟨rfl, rfl, rfl, rfl, rfl, rfl, rfl⟩
    exact ⟨payload, rfl, metadata, rfl, rfl⟩

end RestWakuMessage

/-- The answers of the handlers that publish; the source writes the errors out. -/
inductive PublishAnswer where
  | ok (hash : String)
  | badTopic (e : CoreError)
  | badBody (text : String)
  | serviceUnavailable (e : NodeError)
deriving DecidableEq

structure LightpushBody where
  pubsubTopic : Option String := none
  message : RestWakuMessage

section Publish
variable (crates : Crates) (b64 : Base64Crate) (preset : NetworkPreset)
  (publish : ShardId → WakuMessage → Except NodeError MessageHash)

def publishAnswer (shard : ShardId) (message : WakuMessage) : PublishAnswer :=
  match publish shard message with
  | .ok hash => .ok (hexEncode hash.bytes)
  | .error e => .serviceUnavailable e

/-- The answer, or none after a panic. -/
def relayPublish (contentTopic : String) (body : RestWakuMessage) : Option PublishAnswer :=
  match ContentTopic.parse contentTopic with
  | .error e => some (.badTopic e)
  | .ok ct =>
    match body.intoMessage b64 contentTopic with
    | .error e => some (.badBody e)
    | .ok message =>
      (autoshard crates preset.clusterId ct preset.shardCount).map fun shard =>
        publishAnswer publish shard message

def restLightpush (req : LightpushBody) : Option PublishAnswer :=
  let contentTopic := req.message.contentTopic
  let shard : Option (Except CoreError ShardId) :=
    match req.pubsubTopic with
    | some topic => some (ShardId.parse topic)
    | none =>
      match ContentTopic.parse contentTopic with
      | .error e => some (.error e)
      | .ok ct => (autoshard crates preset.clusterId ct preset.shardCount).map .ok
  shard.map fun shard =>
    match shard with
    | .error e => .badTopic e
    | .ok shard =>
      match req.message.intoMessage b64 contentTopic with
      | .error e => .badBody e
      | .ok message => publishAnswer publish shard message

end Publish

def nodePublish (crates : Crates) (gossip : Gossipsub) (shard : ShardId) (message : WakuMessage) :
    Except NodeError MessageHash :=
  (publishReply crates gossip shard message).mapError .command

section
variable {crates : Crates} {b64 : Base64Crate} {preset : NetworkPreset} {gossip : Gossipsub}

theorem publishAnswer_ok {shard : ShardId} {message : WakuMessage} {text : String}
    (h : publishAnswer (nodePublish crates gossip) shard message = .ok text) :
    ∃ id, publishReply crates gossip shard message = .ok id ∧ text = hexEncode id.bytes := by
  unfold publishAnswer at h
  split at h
  case h_1 id hid =>
    cases h
    exact ⟨id, mapError_eq_ok.mp hid, rfl⟩
  case h_2 => cases h

theorem publishReply_published {shard : ShardId} {message : WakuMessage} {id : MessageHash}
    (h : publishReply crates gossip shard message = .ok id) :
    gossip.publish shard.pubsubTopic (crates.encode message) = .ok id.bytes := by
  unfold publishReply at h
  split at h
  case h_1 bytes hpublish =>
    split at h
    case h_1 id' hid =>
      cases h
      rw [hpublish, MessageHash.ofBytes_eq_some.mp hid]
    case h_2 => cases h
  case h_2 => cases h

theorem relayPublish_ok {contentTopic : String} {body : RestWakuMessage} {text : String}
    (h : relayPublish crates b64 preset (nodePublish crates gossip) contentTopic body =
      some (.ok text)) :
    ∃ message shard id, body.intoMessage b64 contentTopic = .ok message ∧
      preset.shardOf crates contentTopic = some shard ∧
      publishReply crates gossip shard message = .ok id ∧ text = hexEncode id.bytes := by
  unfold relayPublish at h
  split at h
  case h_1 => cases h
  case h_2 ct hct =>
    split at h
    case h_1 => cases h
    case h_2 message hmessage =>
      obtain ⟨shard, hshard, hanswer⟩ := Option.map_eq_some_iff.mp h
      obtain ⟨id, hid, htext⟩ := publishAnswer_ok hanswer
      refine ⟨message, shard, id, hmessage, ?_, hid, htext⟩
      rw [NetworkPreset.shardOf, hct]
      exact hshard

def postShard (crates : Crates) (preset : NetworkPreset) (pubsubTopic : Option String)
    (contentTopic : String) : Option ShardId :=
  match pubsubTopic with
  | some topic => (ShardId.parse topic).toOption
  | none => preset.shardOf crates contentTopic

theorem restLightpush_ok {pubsubTopic : Option String} {contentTopic : String}
    {body : RestWakuMessage} {text : String}
    (h : restLightpush crates b64 preset (nodePublish crates gossip)
      ⟨pubsubTopic, { body with contentTopic }⟩ = some (.ok text)) :
    ∃ message shard id, body.intoMessage b64 contentTopic = .ok message ∧
      postShard crates preset pubsubTopic contentTopic = some shard ∧
      publishReply crates gossip shard message = .ok id ∧ text = hexEncode id.bytes := by
  obtain ⟨target, htarget, hanswer⟩ := Option.map_eq_some_iff.mp h
  cases target with
  | error e => cases hanswer
  | ok shard =>
    have hshard : postShard crates preset pubsubTopic contentTopic = some shard := by
      cases pubsubTopic with
      | some topic =>
        rw [postShard, Option.some.inj htarget]
        rfl
      | none =>
        dsimp only at htarget
        split at htarget
        case h_1 => cases htarget
        case h_2 ct hct =>
          obtain ⟨shard', hshard', hsame⟩ := Option.map_eq_some_iff.mp htarget
          cases hsame
          rw [postShard, NetworkPreset.shardOf, hct]
          exact hshard'
    dsimp only at hanswer
    split at hanswer
    case h_1 => cases hanswer
    case h_2 message hmessage =>
      obtain ⟨id, hid, htext⟩ := publishAnswer_ok hanswer
      exact ⟨message, shard, id, hmessage, hshard, hid, htext⟩

theorem relaySubscribe_subscribed {swarm : RelaySwarm} {s : AppState swarm} {c : String}
    {rest : List String} {shard : ShardId} {node : swarm.State}
    (hshard : s.preset.shardOf crates c = some shard)
    (hnode : nodeSubscribe s.node shard = (.ok (), node)) :
    relaySubscribe crates s (c :: rest) =
      relaySubscribe crates { s with node, cache := s.cache.register c } rest := by
  unfold NetworkPreset.shardOf at hshard
  split at hshard
  case h_1 => cases hshard
  case h_2 ct hct =>
    rw [relaySubscribe, hct]
    dsimp only
    rw [hshard]
    dsimp only
    rw [hnode]

theorem relaySubscribe_unavailable {swarm : RelaySwarm} {s : AppState swarm} {c : String}
    {rest : List String} {shard : ShardId} {e : NodeError} {node : swarm.State}
    (hshard : s.preset.shardOf crates c = some shard)
    (hnode : nodeSubscribe s.node shard = (.error e, node)) :
    relaySubscribe crates s (c :: rest) = (some (.serviceUnavailable e), { s with node }) := by
  unfold NetworkPreset.shardOf at hshard
  split at hshard
  case h_1 => cases hshard
  case h_2 ct hct =>
    rw [relaySubscribe, hct]
    dsimp only
    rw [hshard]
    dsimp only
    rw [hnode]

theorem relaySubscribe_singleton {swarm : RelaySwarm} (hdoc : swarm.Documented)
    {s : AppState swarm} {contentTopic : String} {shard : ShardId}
    (hshard : s.preset.shardOf crates contentTopic = some shard)
    (h : (relaySubscribe crates s [contentTopic]).1 = some .ok) :
    shard ∈ (relaySubscribe crates s [contentTopic]).2.shards ∧
      contentTopic ∈ (relaySubscribe crates s [contentTopic]).2.cache.topics := by
  rcases hnode : nodeSubscribe s.node shard with ⟨result, node⟩
  cases result with
  | error e =>
    rw [relaySubscribe_unavailable hshard hnode] at h
    cases h
  | ok u =>
    rw [relaySubscribe_subscribed hshard hnode]
    change shard.pubsubTopic ∈ swarm.topics node ∧
      contentTopic ∈ (s.cache.register contentTopic).topics
    rw [topics_nodeSubscribe hdoc hnode, MessageCache.topics_register]
    exact ⟨Set.mem_insert .., Set.mem_insert ..⟩

end
end RsWaku
