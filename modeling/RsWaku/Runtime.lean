import RsWaku.Filter
import RsWaku.Relay

/-! The event handler of the node: the state that one swarm event reads and writes, and the
calls it makes on the swarm, the store and the application's event channel. -/
namespace RsWaku

inductive IpAddr where
  | v4 (octets : BitVec 32)
  | v6 (octets : BitVec 128)
deriving DecidableEq

inductive Protocol where
  | ip4 (ip : BitVec 32)
  | ip6 (ip : BitVec 128)
  | other (code : UInt32) (data : List UInt8)
deriving DecidableEq

abbrev Multiaddr := List Protocol

def multiaddrIp (addr : Multiaddr) : Option IpAddr :=
  addr.findSome? fun p =>
    match p with
    | .ip4 ip => some (.v4 ip)
    | .ip6 ip => some (.v6 ip)
    | .other _ _ => none

inductive ConnectedPoint where
  | dialer (address : Multiaddr)
  | listener (localAddr sendBackAddr : Multiaddr)
deriving DecidableEq

def ConnectedPoint.getRemoteAddress : ConnectedPoint → Multiaddr
  | .dialer address => address
  | .listener _ sendBackAddr => sendBackAddr

structure WakuMetadata where
  clusterId : Option UInt32
  shards : List UInt32
deriving DecidableEq

inductive Event where
  | listening (address : Multiaddr)
  | peerConnected (peer : PeerId)
  | peerDisconnected (peer : PeerId)
  | metadataMismatch (peer : PeerId) (theirs : Option UInt32)
  | message (shard : ShardId) (message : WakuMessage) (id : MessageHash)
      (propagationSource : PeerId)
  | filterMessage (pubsubTopic : Option String) (message : WakuMessage)

inductive Effect where
  | sendEvent (event : Event)
  | disconnectPeerId (peer : PeerId)
  | metadataRequest (peer : PeerId) (request : WakuMetadata)
  | metadataResponse (peer : PeerId) (response : WakuMetadata)
  | filterResponse (peer : PeerId) (response : FilterSubscribeResponse)
  | filterPush (peer : PeerId) (push : MessagePush)
  | filterPushResponse (peer : PeerId) (statusCode : UInt32)
  | spawnPut (pubsubTopic : String) (message : WakuMessage) (receiverTimeNs : Int64)
  | reportMessageValidationResult (messageId : List UInt8) (propagationSource : PeerId)
      (acceptance : Validation)

inductive SwarmEvent where
  | newListenAddr (address : Multiaddr)
  | connectionEstablished (connectionId : Nat) (peer : PeerId) (endpoint : ConnectedPoint)
  | connectionClosed (connectionId : Nat) (peer : PeerId) (endpoint : ConnectedPoint)
  | relayMessage (propagationSource : PeerId) (messageId : List UInt8) (topic : String)
      (data : List UInt8)
  | metadataRequest (peer : PeerId) (request : WakuMetadata)
  | metadataResponse (peer : PeerId) (response : WakuMetadata)
  | filterSubscribeRequest (peer : PeerId) (request : FilterSubscribeRequest)
  | filterPushRequest (peer : PeerId) (request : MessagePush)

/-- Connections per remote IP. The counts stay far below the machine word. -/
abbrev IpCounts := AList fun _ : IpAddr => Nat

structure Metrics where
  relayMessages : UInt64 := 0
  filterPushes : UInt64 := 0

structure NodeConfig where
  localCluster : UInt32
  localMeta : WakuMetadata
  storeEnabled : Bool
  ipLimit : Nat

structure NodeState where
  filters : FilterRegistry := ∅
  connected : Finset PeerId := ∅
  ipCounts : IpCounts := ∅
  metrics : Metrics := {}
  listenAddrs : List Multiaddr := []

/-- The two readings of the clock and whether the application still receives events. -/
structure Env where
  now : Int64
  receiverTime : Int64
  channelOpen : Bool

structure Outcome where
  state : NodeState
  effects : List Effect
  result : Except Unit Unit

/-- `evt_tx.send(event).await.map_err(|_| ())?` followed by the calls of the rest. -/
def Outcome.emit (env : Env) (state : NodeState) (before : List Effect) (event : Event)
    (after : List Effect) : Outcome :=
  if env.channelOpen then ⟨state, before ++ .sendEvent event :: after, .ok ()⟩
  else ⟨state, before, .error ()⟩

def ipGuard (ipLimit : Nat) (ipCounts : IpCounts) (endpoint : ConnectedPoint) : IpCounts × Bool :=
  if 0 < ipLimit then
    match multiaddrIp endpoint.getRemoteAddress with
    | some ip =>
      let count := Maps.read ipCounts 0 ip + 1
      if ipLimit < count then (ipCounts.insert ip (count - 1), false)
      else (ipCounts.insert ip count, true)
    | none => (ipCounts, true)
  else (ipCounts, true)

def releaseIp (ipCounts : IpCounts) (endpoint : ConnectedPoint) : IpCounts :=
  match multiaddrIp endpoint.getRemoteAddress with
  | some ip =>
    match ipCounts.lookup ip with
    | some count => if count - 1 = 0 then ipCounts.erase ip else ipCounts.insert ip (count - 1)
    | none => ipCounts
  | none => ipCounts

def connectionEstablished (config : NodeConfig) (env : Env) (s : NodeState) (peer : PeerId)
    (endpoint : ConnectedPoint) : Outcome :=
  let (ipCounts, admitted) := ipGuard config.ipLimit s.ipCounts endpoint
  if admitted then
    .emit env { s with ipCounts, connected := insert peer s.connected }
      [.metadataRequest peer config.localMeta] (.peerConnected peer) []
  else ⟨{ s with ipCounts }, [.disconnectPeerId peer], .ok ()⟩

def connectionClosed (env : Env) (s : NodeState) (peer : PeerId) (endpoint : ConnectedPoint) :
    Outcome :=
  .emit env
    { s with ipCounts := releaseIp s.ipCounts endpoint, connected := s.connected.erase peer }
    [] (.peerDisconnected peer) []

/-- The facts gathered about a decoded message; RLN is not enforced. -/
def messageFacts (env : Env) (decoded : WakuMessage) : MessageFacts where
  timestampGapSecs := decoded.timestamp.map fun ts => (env.now - ts) / 1000000000
  rln := .absent
  shardSaturated := false

def acceptEffects (config : NodeConfig) (env : Env) (filters : FilterRegistry) (topic : String)
    (decoded : WakuMessage) : List Effect :=
  (if config.storeEnabled ∧ decoded.ephemeral ≠ some true then
    [.spawnPut topic decoded env.receiverTime] else []) ++
  (pushFilterMatches filters topic decoded).map fun p => .filterPush p.1 p.2

def relayMessage (crates : Crates) (config : NodeConfig) (env : Env) (s : NodeState)
    (propagationSource : PeerId) (messageId : List UInt8) (topic : String) (data : List UInt8) :
    Outcome :=
  let report := Effect.reportMessageValidationResult messageId propagationSource
  match ShardId.parse topic, crates.decode data with
  | .ok shard, some decoded =>
    let verdict := validate (messageFacts env decoded) {}
    if verdict = .accept then
      let pushed := (pushFilterMatches s.filters topic decoded).length
      let metrics : Metrics :=
        { relayMessages := s.metrics.relayMessages + 1
          filterPushes := s.metrics.filterPushes + UInt64.ofNat pushed }
      let id := (MessageHash.ofBytes messageId).getD (deterministicHash crates topic decoded)
      .emit env { s with metrics } (acceptEffects config env s.filters topic decoded)
        (.message shard decoded id propagationSource) [report verdict]
    else ⟨s, [report verdict], .ok ()⟩
  | _, _ => ⟨s, [report .reject], .ok ()⟩

def handleMetadataResponse (config : NodeConfig) (env : Env) (s : NodeState) (peer : PeerId)
    (response : WakuMetadata) : Outcome :=
  match response.clusterId with
  | some theirs =>
    if theirs ≠ config.localCluster then
      .emit env s [.disconnectPeerId peer] (.metadataMismatch peer (some theirs)) []
    else ⟨s, [], .ok ()⟩
  | none => ⟨s, [], .ok ()⟩

def filterPushRequest (env : Env) (s : NodeState) (peer : PeerId) (request : MessagePush) :
    Outcome :=
  match request.wakuMessage with
  | some m => .emit env s [] (.filterMessage request.pubsubTopic m) [.filterPushResponse peer 200]
  | none => ⟨s, [.filterPushResponse peer 200], .ok ()⟩

def handleEvent (crates : Crates) (config : NodeConfig) (env : Env) (s : NodeState) :
    SwarmEvent → Outcome
  | .newListenAddr address =>
    .emit env { s with listenAddrs := s.listenAddrs ++ [address] } [] (.listening address) []
  | .connectionEstablished _ peer endpoint => connectionEstablished config env s peer endpoint
  | .connectionClosed _ peer endpoint => connectionClosed env s peer endpoint
  | .relayMessage source messageId topic data =>
    relayMessage crates config env s source messageId topic data
  | .metadataRequest peer _ => ⟨s, [.metadataResponse peer config.localMeta], .ok ()⟩
  | .metadataResponse peer response => handleMetadataResponse config env s peer response
  | .filterSubscribeRequest peer request =>
    let (filters, response) := applyFilterRequest s.filters peer request
    ⟨{ s with filters }, [.filterResponse peer response], .ok ()⟩
  | .filterPushRequest peer request => filterPushRequest env s peer request

end RsWaku
