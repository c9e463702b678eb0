import RsWaku.Correlation
import RsWaku.Filter
import RsWaku.StoreWire

/-! Outbound requests of the node: the commands that start them, the four maps of waiting
reply channels, and the events that resolve them. -/
namespace RsWaku
open Correlation

structure LightpushRequest where
  requestId : String := ""
  pubsubTopic : String := ""
  message : Option WakuMessage := none

structure LightpushResponse where
  requestId : String := ""
  statusCode : UInt32 := 0
  statusDesc : Option String := none
  relayPeerCount : UInt32 := 0

structure PeerExchangeRpc where
  query : Option UInt64 := none
  response : Option (List (List UInt8)) := none

def PeerExchangeRpc.ofQuery (numPeers : UInt64) : PeerExchangeRpc := { query := some numPeers }

inductive Service where
  | storeQuery | lightpush | peerExchange | filterSubscribe
deriving DecidableEq

/-- Ids are handed out by each behaviour on its own. -/
abbrev OutboundRequestId := UInt64

structure ReplySender where
  channel : Nat
deriving DecidableEq

inductive RequestCommand where
  | storeQuery (peer : PeerId) (request : StoreQueryRequest) (reply : ReplySender)
  | lightPush (peer : PeerId) (request : LightpushRequest) (reply : ReplySender)
  | peerExchange (peer : PeerId) (numPeers : UInt64) (reply : ReplySender)
  | filterSubscribe (peer : PeerId) (request : FilterSubscribeRequest) (reply : ReplySender)

inductive OutboundRequest where
  | storeQuery (peer : PeerId) (request : StoreQueryRequest)
  | lightpush (peer : PeerId) (request : LightpushRequest)
  | peerExchange (peer : PeerId) (request : PeerExchangeRpc)
  | filterSubscribe (peer : PeerId) (request : FilterSubscribeRequest)

inductive Response where
  | storeQuery (response : StoreQueryResponse)
  | lightpush (response : LightpushResponse)
  | peerExchange (response : PeerExchangeRpc)
  | filterSubscribe (response : FilterSubscribeResponse)

def Response.service : Response → Service
  | .storeQuery _ => .storeQuery
  | .lightpush _ => .lightpush
  | .peerExchange _ => .peerExchange
  | .filterSubscribe _ => .filterSubscribe

abbrev Reply := Except String Response

abbrev Waiting := AList fun _ : OutboundRequestId => ReplySender

structure Pending where
  storeQueries : Waiting := ∅
  lightpush : Waiting := ∅
  peerExchange : Waiting := ∅
  filter : Waiting := ∅

def handleCommand (pending : Pending) (id : OutboundRequestId) :
    RequestCommand → Pending × OutboundRequest
  | .storeQuery peer request reply =>
    ({ pending with storeQueries := pending.storeQueries.insert id reply },
      .storeQuery peer request)
  | .lightPush peer request reply =>
    ({ pending with lightpush := pending.lightpush.insert id reply }, .lightpush peer request)
  | .peerExchange peer numPeers reply =>
    ({ pending with peerExchange := pending.peerExchange.insert id reply },
      .peerExchange peer (.ofQuery numPeers))
  | .filterSubscribe peer request reply =>
    ({ pending with filter := pending.filter.insert id reply }, .filterSubscribe peer request)

/-- `if let Some(tx) = waiting.remove(&request_id) { let _ = tx.send(reply); }`. -/
def Waiting.resolve (waiting : Waiting) (id : OutboundRequestId) (reply : Reply) :
    Waiting × List (ReplySender × Reply) :=
  (waiting.erase id, (waiting.lookup id).toList.map fun tx => (tx, reply))

def handleResponse (pending : Pending) (id : OutboundRequestId) :
    Response → Pending × List (ReplySender × Reply)
  | .storeQuery response =>
    let (storeQueries, sent) := pending.storeQueries.resolve id (.ok (.storeQuery response))
    ({ pending with storeQueries }, sent)
  | .lightpush response =>
    let (lightpush, sent) := pending.lightpush.resolve id (.ok (.lightpush response))
    ({ pending with lightpush }, sent)
  | .peerExchange response =>
    let (peerExchange, sent) := pending.peerExchange.resolve id (.ok (.peerExchange response))
    ({ pending with peerExchange }, sent)
  | .filterSubscribe response =>
    let (filter, sent) := pending.filter.resolve id (.ok (.filterSubscribe response))
    ({ pending with filter }, sent)

def handleOutboundFailure (pending : Pending) (id : OutboundRequestId) (error : String) :
    Service → Pending × List (ReplySender × Reply)
  | .storeQuery =>
    let (storeQueries, sent) := pending.storeQueries.resolve id (.error error)
    ({ pending with storeQueries }, sent)
  | .lightpush =>
    let (lightpush, sent) := pending.lightpush.resolve id (.error error)
    ({ pending with lightpush }, sent)
  | .peerExchange =>
    let (peerExchange, sent) := pending.peerExchange.resolve id (.error error)
    ({ pending with peerExchange }, sent)
  | .filterSubscribe =>
    let (filter, sent) := pending.filter.resolve id (.error error)
    ({ pending with filter }, sent)

inductive RequestInput where
  | command (id : OutboundRequestId) (command : RequestCommand)
  | response (id : OutboundRequestId) (response : Response)
  | outboundFailure (service : Service) (id : OutboundRequestId) (error : String)

def Pending.handle (pending : Pending) : RequestInput → Pending × List (ReplySender × Reply)
  | .command id command => ((handleCommand pending id command).1, [])
  | .response id response => handleResponse pending id response
  | .outboundFailure service id error => handleOutboundFailure pending id error service

def Pending.handleAll : Pending → List RequestInput → Pending × List (ReplySender × Reply)
  | pending, [] => (pending, [])
  | pending, i :: inputs =>
    (((pending.handle i).1.handleAll inputs).1,
      (pending.handle i).2 ++ ((pending.handle i).1.handleAll inputs).2)

def Pending.of (pending : Pending) : Service → Waiting
  | .storeQuery => pending.storeQueries
  | .lightpush => pending.lightpush
  | .peerExchange => pending.peerExchange
  | .filterSubscribe => pending.filter

def RequestCommand.service : RequestCommand → Service
  | .storeQuery _ _ _ => .storeQuery
  | .lightPush _ _ _ => .lightpush
  | .peerExchange _ _ _ => .peerExchange
  | .filterSubscribe _ _ _ => .filterSubscribe

def RequestCommand.reply : RequestCommand → ReplySender
  | .storeQuery _ _ reply | .lightPush _ _ reply | .peerExchange _ _ reply
  | .filterSubscribe _ _ reply => reply

def Pending.table (pending : Pending) (k : Service × OutboundRequestId) : Option ReplySender :=
  (pending.of k.1).lookup k.2

def RequestInput.abstract : RequestInput → Input (Service × OutboundRequestId) ReplySender Reply
  | .command id c => .await (c.service, id) c.reply
  | .response id r => .answer (r.service, id) (.ok r)
  | .outboundFailure service id error => .answer (service, id) (.error error)

def Pending.set (pending : Pending) (service : Service) (waiting : Waiting) : Pending :=
  match service with
  | .storeQuery => { pending with storeQueries := waiting }
  | .lightpush => { pending with lightpush := waiting }
  | .peerExchange => { pending with peerExchange := waiting }
  | .filterSubscribe => { pending with filter := waiting }

theorem Pending.of_set (p : Pending) (service s : Service) (w : Waiting) :
    (p.set service w).of s = if s = service then w else p.of s := by
  cases service <;> cases s <;> rfl

theorem Pending.table_set (p : Pending) (service : Service) (id : OutboundRequestId) (w : Waiting)
    (hothers : ∀ i ≠ id, w.lookup i = (p.of service).lookup i) :
    (p.set service w).table = Function.update p.table (service, id) (w.lookup id) := by
  funext k
  obtain ⟨s, i⟩ := k
  rw [Pending.table, Pending.of_set]
  by_cases hs : s = service
  · subst hs
    rw [if_pos rfl]
    by_cases hi : i = id
    · rw [hi, Function.update_self]
    · rw [Function.update_of_ne fun h => hi (Prod.mk.inj h).2]
      exact hothers i hi
  · rw [if_neg hs, Function.update_of_ne fun h => hs (Prod.mk.inj h).1, Pending.table]

theorem handleCommand_eq (p : Pending) (id : OutboundRequestId) (c : RequestCommand) :
    (handleCommand p id c).1 = p.set c.service ((p.of c.service).insert id c.reply) := by
  cases c <;> rfl

theorem handleResponse_eq (p : Pending) (id : OutboundRequestId) (r : Response) :
    handleResponse p id r = (p.set r.service ((p.of r.service).resolve id (.ok r)).1,
      ((p.of r.service).resolve id (.ok r)).2) := by
  cases r <;> rfl

theorem handleOutboundFailure_eq (p : Pending) (id : OutboundRequestId) (error : String)
    (service : Service) :
    handleOutboundFailure p id error service =
      (p.set service ((p.of service).resolve id (.error error)).1,
        ((p.of service).resolve id (.error error)).2) := by
  cases service <;> rfl

theorem Pending.resolve_refines (p : Pending) (service : Service) (id : OutboundRequestId)
    (reply : Reply) :
    (p.set service ((p.of service).resolve id reply).1).table =
        (step p.table (.answer (service, id) reply)).1 ∧
      ((p.of service).resolve id reply).2 = (step p.table (.answer (service, id) reply)).2 := by
  refine ⟨?_, rfl⟩
  rw [Waiting.resolve, p.table_set service id, AList.lookup_erase]
  · rfl
  · intro i hi
    exact AList.lookup_erase_ne hi

/-- The handlers act on the table as the correlation of keys and tokens does. -/
theorem Pending.handle_refines (p : Pending) (i : RequestInput) :
    (p.handle i).1.table = (step p.table i.abstract).1 ∧
      (p.handle i).2 = (step p.table i.abstract).2 := by
  cases i with
  | command id c =>
    refine ⟨?_, rfl⟩
    rw [Pending.handle, handleCommand_eq, p.table_set c.service id, AList.lookup_insert]
    · rfl
    · intro i hi
      exact AList.lookup_insert_ne hi
  | response id r =>
    rw [Pending.handle, handleResponse_eq]
    exact p.resolve_refines r.service id (.ok r)
  | outboundFailure service id error =>
    rw [Pending.handle, handleOutboundFailure_eq]
    exact p.resolve_refines service id (.error error)

theorem Pending.handleAll_refines (p : Pending) (inputs : List RequestInput) :
    (p.handleAll inputs).1.table = (run p.table (inputs.map RequestInput.abstract)).1 ∧
      (p.handleAll inputs).2 = (run p.table (inputs.map RequestInput.abstract)).2 := by
  induction inputs generalizing p with
  | nil => exact ⟨rfl, rfl⟩
  | cons i inputs ih =>
    obtain ⟨htable, hsent⟩ := p.handle_refines i
    obtain ⟨htable', hsent'⟩ := ih (p.handle i).1
    rw [Pending.handleAll, List.map_cons, run, ← htable, ← hsent]
    exact ⟨htable', by rw [hsent']⟩

def RequestInput.answerTo (service : Service) (id : OutboundRequestId) :
    RequestInput → Option Reply
  | .command _ _ => none
  | .response i r => if r.service = service ∧ i = id then some (.ok r) else none
  | .outboundFailure s i error => if s = service ∧ i = id then some (.error error) else none

def FreshRequests (inputs : List RequestInput) : Prop :=
  inputs.Pairwise fun i j => ∀ id c id' c', i = .command id c → j = .command id' c' →
    (c.service = c'.service → id ≠ id') ∧ c.reply ≠ c'.reply

theorem FreshRequests.abstract {inputs : List RequestInput} (h : FreshRequests inputs) :
    Fresh (inputs.map RequestInput.abstract) := by
  apply List.pairwise_map.mpr
  apply h.imp
  intro i j hij k t hi
  cases i with
  | command id c =>
    cases hi
    cases j with
    | command id' c' =>
      obtain ⟨hids, hreplies⟩ := hij id c id' c' rfl rfl
      refine ⟨fun hk => ?_, hreplies.symm⟩
      obtain ⟨hservice, hid⟩ := Prod.mk.inj hk
      exact hids hservice.symm hid.symm
    | response id' r => trivial
    | outboundFailure service id' error => trivial
  | response id r => cases hi
  | outboundFailure service id error => cases hi

theorem RequestInput.answerTo_abstract (service : Service) (id : OutboundRequestId)
    (i : RequestInput) : i.abstract.answerTo (service, id) = i.answerTo service id := by
  cases i with
  | command id' c => rfl
  | response id' r => simp [RequestInput.abstract, Input.answerTo, RequestInput.answerTo]
  | outboundFailure s id' error =>
    simp [RequestInput.abstract, Input.answerTo, RequestInput.answerTo]

theorem Pending.table_empty : ({} : Pending).table = fun _ => none := by
  funext k
  obtain ⟨service, id⟩ := k
  cases service <;> rfl

/-- Every command's channel is resolved at most once, with the first later Response or
OutboundFailure that carries its id on its behaviour, and is in the map of its behaviour until
then; nothing is sent on the channel of no command. -/
theorem request_correlation (inputs : List RequestInput) (hfresh : FreshRequests inputs) :
    (∀ pre id c post, inputs = pre ++ .command id c :: post →
      (((({} : Pending).handleAll inputs).2.filter fun x => x.1 = c.reply).map Prod.snd =
        (post.findSome? (RequestInput.answerTo c.service id)).toList) ∧
      ((({} : Pending).handleAll inputs).1.of c.service).lookup id =
        if (post.findSome? (RequestInput.answerTo c.service id)).isNone then some c.reply
        else none) ∧
    ∀ x ∈ (({} : Pending).handleAll inputs).2, ∃ id c, .command id c ∈ inputs ∧ c.reply = x.1 := by
  obtain ⟨htable, hsent⟩ := ({} : Pending).handleAll_refines inputs
  rw [Pending.table_empty] at htable hsent
  constructor
  · intro pre id c post hinputs
    subst hinputs
    have hfirst := hfresh.abstract
    rw [List.map_append, List.map_cons] at hfirst htable hsent
    have hanswers : (post.map RequestInput.abstract).findSome? (Input.answerTo (c.service, id)) =
        post.findSome? (RequestInput.answerTo c.service id) := by
      rw [List.findSome?_map]
      exact congrArg (List.findSome? · post) (funext (RequestInput.answerTo_abstract _ _))
    obtain ⟨hhanded, hheld⟩ := hfirst.first_answer
    rw [hanswers] at hhanded hheld
    rw [hsent]
    exact ⟨hhanded, (congrFun htable (c.service, id)).trans hheld⟩
  · intro x hx
    rw [hsent] at hx
    obtain ⟨k, hk⟩ | ⟨k, hk⟩ := origin_of_mem_run hx
    · cases hk
    · obtain ⟨i, hi, habstract⟩ := List.mem_map.mp hk
      cases i with
      | command id c => exact ⟨id, c, hi, (Input.await.inj habstract).2⟩
      | response id r => cases habstract
      | outboundFailure service id error => cases habstract

def sampleResponse : Response := .lightpush { requestId := "a", statusCode := 200 }

/- Two requests with one id on different behaviours; a duplicate response and a late failure. -/
def sampleInputs : List RequestInput :=
  [.command 1 (.lightPush ⟨[1]⟩ {} ⟨10⟩), .command 1 (.peerExchange ⟨[1]⟩ 5 ⟨11⟩),
    .response 1 sampleResponse, .response 1 sampleResponse,
    .outboundFailure .lightpush 1 "timeout"]

theorem request_correlation_sample :
    ((({} : Pending).handleAll sampleInputs).2.filter fun x => x.1 = ⟨10⟩).map Prod.snd =
      [.ok sampleResponse] ∧
    (({} : Pending).handleAll sampleInputs).1.peerExchange.lookup 1 = some ⟨11⟩ := by
  have hfresh : FreshRequests sampleInputs := by
    simp only [FreshRequests, sampleInputs, List.pairwise_cons, List.mem_cons, List.not_mem_nil,
      forall_eq_or_imp, reduceCtorEq, IsEmpty.forall_iff, implies_true, List.Pairwise.nil, and_true]
    intro id c id' c' hc hc'
    cases hc
    cases hc'
    constructor
    · intro h
      cases h
    · intro h
      cases h
  obtain ⟨hresolved, -⟩ := request_correlation sampleInputs hfresh
  exact ⟨(hresolved [] _ _ _ rfl).1, (hresolved [_] _ _ _ rfl).2⟩

end RsWaku
