import RsWaku.OneId
import RsWaku.PeerBook
import RsWaku.RateLimiter
import RsWaku.Reactive

/-! The task that drives the node: one loop takes up the commands of the handles and the events of
the swarm, answers the requests of other peers within their rate limits and counts what it does. -/
namespace RsWaku
open Reactive

inductive CommandValue where
  | done
  | published (id : MessageHash)
  | response (response : Response)

abbrev CommandReply := Except String CommandValue

inductive Command where
  | subscribe (shard : ShardId) (reply : ReplySender)
  | publish (shard : ShardId) (message : WakuMessage) (reply : ReplySender)
  | dial (addr : Multiaddr) (reply : ReplySender)
  | request (command : RequestCommand)
  | shutdown

structure ResponseChannel where
  id : Nat
deriving DecidableEq

inductive InboundResponse where
  | metadata (response : WakuMetadata)
  | storeQuery (response : StoreQueryResponse)
  | lightpush (response : LightpushResponse)
  | peerExchange (response : PeerExchangeRpc)
  | filterSubscribe (response : FilterSubscribeResponse)
  | filterPush (statusCode : UInt32)

/-- The events of the swarm. The channel beside an event of the connection, relay, metadata and
filter behaviours is that of the request, if the event is one. -/
inductive NodeEvent where
  | swarm (event : SwarmEvent) (channel : ResponseChannel)
  | storeQuery (peer : PeerId) (request : StoreQueryRequest) (channel : ResponseChannel)
  | lightpush (peer : PeerId) (request : LightpushRequest) (channel : ResponseChannel)
  | peerExchange (request : PeerExchangeRpc) (channel : ResponseChannel)
  | response (id : OutboundRequestId) (response : Response)
  | outboundFailure (service : Service) (id : OutboundRequestId) (error : String)
  | other

inductive NodeEffect where
  | call (effect : Effect)
  | respond (channel : ResponseChannel) (response : InboundResponse)
  | reply (sender : ReplySender) (reply : CommandReply)
  | subscribe (topic : String)
  | publish (topic : String) (data : List UInt8)
  | dial (addr : Multiaddr)
  | sendRequest (request : OutboundRequest)

structure RateLimiters where
  store : RateLimiter := .new 10 1
  lightpush : RateLimiter := .new 10 1

/-- The counters of the request protocols; those of relay and filter are in the state of their
handler. -/
structure ServiceMetrics where
  storeQueries : UInt64 := 0
  lightpushRequests : UInt64 := 0
  rateLimited : UInt64 := 0

@[ext]
structure MetricsSnapshot where
  relayMessages : UInt64
  storeQueries : UInt64
  lightpushRequests : UInt64
  filterPushes : UInt64
  rateLimited : UInt64
deriving DecidableEq

structure Node where
  core : NodeState := {}
  pending : Pending := {}
  limits : RateLimiters := {}
  services : ServiceMetrics := {}

def Node.snapshot (n : Node) : MetricsSnapshot where
  relayMessages := n.core.metrics.relayMessages
  storeQueries := n.services.storeQueries
  lightpushRequests := n.services.lightpushRequests
  filterPushes := n.core.metrics.filterPushes
  rateLimited := n.services.rateLimited

/-- What a turn finds outside of the loop: the clocks, the rows and the records that other tasks
have written by then, and what the swarm answers. -/
structure World (crate : EnrCrate) where
  env : Env
  instant : Instant
  store : SqliteStore
  book : List crate.Enr
  gossip : Gossipsub
  subscribe : String → Except String Bool
  dial : Multiaddr → Except String Unit
  nextId : OutboundRequestId

variable (crates : Crates) {crate : EnrCrate} (config : NodeConfig)

def Node.handleCommand (w : World crate) (n : Node) : Command → Node × List NodeEffect
  | .subscribe shard reply =>
    let topic := shard.pubsubTopic
    (n, [.subscribe topic, .reply reply ((w.subscribe topic).map fun _ => .done)])
  | .publish shard message reply =>
    (n, [.publish shard.pubsubTopic (crates.encode message),
      .reply reply ((publishReply crates w.gossip shard message).map .published)])
  | .dial addr reply => (n, [.dial addr, .reply reply ((w.dial addr).map fun _ => .done)])
  | .request command =>
    let (pending, request) := RsWaku.handleCommand n.pending w.nextId command
    ({ n with pending }, [.sendRequest request])
  | .shutdown => (n, [])

def Effect.onChannel (channel : ResponseChannel) : Effect → NodeEffect
  | .metadataResponse _ response => .respond channel (.metadata response)
  | .filterResponse _ response => .respond channel (.filterSubscribe response)
  | .filterPushResponse _ statusCode => .respond channel (.filterPush statusCode)
  | effect => .call effect

def storeRefusal (request : StoreQueryRequest) (code : UInt32) (desc : String) :
    StoreQueryResponse where
  requestId := request.requestId
  statusCode := some code
  statusDesc := some desc
  messages := []
  paginationCursor := none

def Node.handleStoreQuery (w : World crate) (n : Node) (peer : PeerId)
    (request : StoreQueryRequest) : Node × StoreQueryResponse :=
  let (store, allowed) := n.limits.store.allow peer w.instant
  let n := { n with limits := { n.limits with store } }
  if !allowed then
    ({ n with services := { n.services with rateLimited := n.services.rateLimited + 1 } },
      storeRefusal request 429 "rate limited")
  else
    ({ n with services := { n.services with storeQueries := n.services.storeQueries + 1 } },
      if config.storeEnabled then serve w.store request
      else storeRefusal request 503 "store not enabled")

def Node.handleLightpush (w : World crate) (n : Node) (peer : PeerId)
    (request : LightpushRequest) : Node × Option (String × List UInt8) × LightpushResponse :=
  let (lightpush, allowed) := n.limits.lightpush.allow peer w.instant
  let n := { n with limits := { n.limits with lightpush } }
  if !allowed then
    ({ n with services := { n.services with rateLimited := n.services.rateLimited + 1 } },
      none, .error request.requestId 429 "rate limited")
  else
    ({ n with services :=
        { n.services with lightpushRequests := n.services.lightpushRequests + 1 } },
      serveLightpush crates w.gossip request)

def sentReplies (sent : List (ReplySender × Reply)) : List NodeEffect :=
  sent.map fun x => .reply x.1 (x.2.map .response)

def Node.handleEvent (w : World crate) (n : Node) : NodeEvent → Turn Node NodeEffect
  | .swarm event channel =>
    let outcome := RsWaku.handleEvent crates config w.env n.core event
    ⟨{ n with core := outcome.state }, outcome.effects.map (Effect.onChannel channel),
      outcome.result.isOk⟩
  | .storeQuery peer request channel =>
    let (n, response) := n.handleStoreQuery config w peer request
    ⟨n, [.respond channel (.storeQuery response)], true⟩
  | .lightpush peer request channel =>
    let (n, published, response) := n.handleLightpush crates w peer request
    ⟨n, (published.map fun p => .publish p.1 p.2).toList ++
      [.respond channel (.lightpush response)], true⟩
  | .peerExchange request channel =>
    ⟨n, [.respond channel (.peerExchange (servePeerExchange crate w.book request))], true⟩
  | .response id response =>
    let (pending, sent) := handleResponse n.pending id response
    ⟨{ n with pending }, sentReplies sent, true⟩
  | .outboundFailure service id error =>
    let (pending, sent) := handleOutboundFailure n.pending id error service
    ⟨{ n with pending }, sentReplies sent, true⟩
  | .other => ⟨n, [], true⟩

inductive LoopInput where
  | command (command : Command)
  | closed
  | event (event : NodeEvent)

/-- One turn of the loop. It ends on shutdown, without handles and when nobody receives the
events of the application any more. -/
def Node.turn (n : Node) (i : World crate × LoopInput) : Turn Node NodeEffect :=
  match i.2 with
  | .command .shutdown | .closed => ⟨n, [], false⟩
  | .command command =>
    let (n, out) := n.handleCommand crates i.1 command
    ⟨n, out, true⟩
  | .event event => n.handleEvent crates config i.1 event

def driver (inputs : List (World crate × LoopInput)) : Turn Node NodeEffect :=
  run (Node.turn crates config) {} inputs

def driverTurns (inputs : List (World crate × LoopInput)) : List (Node × World crate × LoopInput) :=
  taken (Node.turn crates config) {} inputs

end RsWaku
