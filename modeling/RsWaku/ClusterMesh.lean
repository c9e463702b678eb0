import RsWaku.Handshake
import RsWaku.NodeDriver
import RsWaku.ProtocolCodecs

/-! Many nodes and the metadata handshake between them. Connections come up and go down at any
time, requests and responses travel as frames of bytes, every node runs its own loop and takes up
what it finds in any order. -/
namespace RsWaku
open Handshake Protobuf Reactive Runs

structure Settings where
  clusterId : UInt16
  shards : List UInt16
  storeEnabled : Bool := false
  ipColocationLimit : Nat := 20

def Settings.localMetadata (s : Settings) : WakuMetadata where
  clusterId := some s.clusterId.toUInt32
  shards := s.shards.map UInt16.toUInt32

def Settings.nodeConfig (s : Settings) : NodeConfig where
  localCluster := s.clusterId.toUInt32
  localMeta := s.localMetadata
  storeEnabled := s.storeEnabled
  ipLimit := s.ipColocationLimit

def writeMetadata (m : WakuMetadata) : List UInt8 := writeMessage metadataLp wakuMetadata m

def readMetadata (bytes : List UInt8) : Framing.Read WakuMetadata :=
  readMessage metadataLp wakuMetadata bytes

def otherEnd (l : Link PeerId) (side : PeerId) : PeerId :=
  if side = l.dialer then l.listener else l.dialer

/-- What waits to be taken up: a new connection at one of its ends, or bytes of the metadata
protocol at their destination. -/
inductive Packet where
  | established (link : Link PeerId) (side : PeerId) (endpoint : ConnectedPoint)
  | request (src dst : PeerId) (bytes : List UInt8)
  | response (src dst : PeerId) (bytes : List UInt8)

def Packet.ends : Packet → PeerId × PeerId
  | .established link side _ => (side, otherEnd link side)
  | .request src dst _ => (src, dst)
  | .response src dst _ => (src, dst)

structure Mesh where
  node : PeerId → Node := fun _ => {}
  running : PeerId → Bool := fun _ => true
  links : List (Link PeerId) := []
  packets : List Packet := []
  log : List (PeerId × NodeEffect) := []

inductive MeshAction (crate : EnrCrate) where
  | connect (link : Link PeerId) (dialerEnd listenerEnd : ConnectedPoint)
  | deliver (index : Nat) (world : World crate) (channel : ResponseChannel)
  | lose (index : Nat)
  | close (link : Link PeerId)
  | input (peer : PeerId) (world : World crate) (input : LoopInput)

def NodeEffect.packet (src : PeerId) (asker : Option PeerId) : NodeEffect → Option Packet
  | .call (.metadataRequest dst m) => some (.request src dst (writeMetadata m))
  | .respond _ (.metadata m) =>
    asker.map fun dst => .response src dst (writeMetadata m)
  | _ => none

def NodeEffect.disconnects : NodeEffect → Option PeerId
  | .call (.disconnectPeerId peer) => some peer
  | _ => none

variable (crates : Crates) {crate : EnrCrate} (settings : PeerId → Settings)

/-- A turn of a node as the others see it. All its connections to a peer that it disconnects are
closed, and all its connections when its loop ends. -/
def Mesh.absorb (m : Mesh) (p : PeerId) (asker : Option PeerId) (t : Turn Node NodeEffect) :
    Mesh where
  node := Function.update m.node p t.state
  running := Function.update m.running p t.goesOn
  links := (m.links.filter fun l =>
      ∀ q ∈ t.out.filterMap NodeEffect.disconnects, ¬l.Joins p q).filter
    fun l => t.goesOn ∨ (l.dialer ≠ p ∧ l.listener ≠ p)
  packets := t.out.filterMap (NodeEffect.packet p asker) ++ m.packets
  log := m.log ++ t.out.map fun e => (p, e)

def Mesh.takeUp (m : Mesh) (p : PeerId) (asker : Option PeerId) (i : World crate × LoopInput) :
    Mesh :=
  if m.running p then m.absorb p asker ((m.node p).turn crates (settings p).nodeConfig i) else m

/-- The event that a packet is for the node that takes it up. Bytes that the codec refuses fail the
request, which the loop ignores. -/
def Packet.event (channel : ResponseChannel) : Packet → NodeEvent
  | .established link side endpoint =>
    .swarm (.connectionEstablished link.id (otherEnd link side) endpoint) channel
  | .request src _ bytes =>
    match readMetadata bytes with
    | .ok (m, _) => .swarm (.metadataRequest src m) channel
    | .error _ => .other
  | .response src _ bytes =>
    match readMetadata bytes with
    | .ok (m, _) => .swarm (.metadataResponse src m) channel
    | .error _ => .other

def Packet.receiver : Packet → PeerId
  | .established _ side _ => side
  | .request _ dst _ => dst
  | .response _ dst _ => dst

def Packet.asker : Packet → Option PeerId
  | .request src _ _ => some src
  | _ => none

def LoopInput.isHandshake : LoopInput → Bool
  | .event (.swarm (.connectionEstablished _ _ _) _) => true
  | .event (.swarm (.metadataRequest _ _) _) => true
  | .event (.swarm (.metadataResponse _ _) _) => true
  | _ => false

/-- What cannot happen leaves the mesh as it is. -/
def Mesh.step (m : Mesh) : MeshAction crate → Mesh
  | .connect link dialerEnd listenerEnd =>
    if m.running link.dialer ∧ m.running link.listener then
      { m with
        links := link :: m.links
        packets := .established link link.dialer dialerEnd ::
          .established link link.listener listenerEnd :: m.packets }
    else m
  | .deliver index world channel =>
    match m.packets[index]? with
    | some packet =>
      { m with packets := m.packets.eraseIdx index }.takeUp crates settings packet.receiver
        packet.asker (world, .event (packet.event channel))
    | none => m
  | .lose index => { m with packets := m.packets.eraseIdx index }
  | .close link => { m with links := m.links.filter (· ≠ link) }
  | .input peer world input =>
    if input.isHandshake then m else m.takeUp crates settings peer none (world, input)

/-- What travels between the ends of an open connection is not lost. -/
def Mesh.Lossless (m : Mesh) : MeshAction crate → Prop
  | .lose index => ∀ packet ∈ m.packets[index]?, ∀ l ∈ m.links,
      ¬l.Joins packet.ends.1 packet.ends.2
  | _ => True

def responseCluster (bytes : List UInt8) : Option UInt32 :=
  match readMetadata bytes with
  | .ok (m, _) => m.clusterId
  | .error _ => none

def Packet.token : Packet → Token PeerId (Option UInt32)
  | .established link side _ => .opened link side (otherEnd link side)
  | .request src dst _ => .ask src dst
  | .response src dst bytes => .answer src dst (responseCluster bytes)

def Mesh.abs (m : Mesh) : State PeerId (Option UInt32) where
  links := m.links
  tokens := Multiset.ofList (m.packets.map Packet.token)

def clusterOf (p : PeerId) : Option UInt32 := some (settings p).nodeConfig.localCluster

def NodeEffect.isHandshake : NodeEffect → Bool
  | .call (.metadataRequest _ _) => true
  | .call (.disconnectPeerId _) => true
  | .call (.sendEvent (.metadataMismatch _ _)) => true
  | .respond _ (.metadata _) => true
  | _ => false

def Packet.Honest : Packet → Prop
  | .established _ _ _ => True
  | .request src _ bytes => bytes = writeMetadata (settings src).localMetadata
  | .response src _ bytes => bytes = writeMetadata (settings src).localMetadata

structure Mesh.Good (m : Mesh) : Prop where
  packets : ∀ packet ∈ m.packets, packet.Honest settings
  running : ∀ l ∈ m.links, m.running l.dialer = true ∧ m.running l.listener = true

def MetadataFits : Prop :=
  ∀ p, (wakuMetadata.encode (settings p).localMetadata).length ≤ metadataLp.maxFrameLen

variable {crates settings} {config : NodeConfig}

theorem Packet.ends_token (packet : Packet) : packet.token.ends = packet.ends := by
  cases packet <;> rfl

theorem read_metadata (hfits : MetadataFits settings) (p : PeerId) :
    readMetadata (writeMetadata (settings p).localMetadata) =
      .ok ((settings p).localMetadata, []) := by
  have hlp : metadataLp ∈ lpCopies := by simp [lpCopies]
  have hread := (readsBack hlp (fun _ => wakuMetadata_decode_encode)
    (settings p).localMetadata).fits (hfits p) []
  rwa [List.append_nil] at hread

section Turns
variable {n : Node} {w : World crate} {channel : ResponseChannel}

theorem quiet_emit {env : Env} {state : NodeState} {before after : List Effect} {event : Event}
    (hbefore : ∀ e ∈ before, (e.onChannel channel).isHandshake = false)
    (hevent : (Effect.onChannel channel (.sendEvent event)).isHandshake = false)
    (hafter : ∀ e ∈ after, (e.onChannel channel).isHandshake = false) :
    ∀ e ∈ (Outcome.emit env state before event after).effects,
      (e.onChannel channel).isHandshake = false := by
  intro e he
  unfold Outcome.emit at he
  split at he
  · obtain hmem | hmem := List.mem_append.mp he
    · exact hbefore e hmem
    · obtain rfl | hmem := List.mem_cons.mp hmem
      · exact hevent
      · exact hafter e hmem
  · exact hbefore e he

theorem quiet_acceptEffects (env : Env) (filters : FilterRegistry) (topic : String)
    (decoded : WakuMessage) :
    ∀ e ∈ acceptEffects config env filters topic decoded,
      (e.onChannel channel).isHandshake = false := by
  intro e he
  obtain hput | hpush := List.mem_append.mp he
  · split at hput
    · cases List.mem_singleton.mp hput
      rfl
    · cases hput
  · obtain ⟨push, -, rfl⟩ := List.mem_map.mp hpush
    rfl

theorem handleEvent_quiet (env : Env) (s : NodeState) (event : SwarmEvent)
    (h : (LoopInput.event (.swarm event channel)).isHandshake = false) :
    ∀ e ∈ (handleEvent crates config env s event).effects,
      (e.onChannel channel).isHandshake = false := by
  cases event with
  | newListenAddr address => exact quiet_emit (by simp) rfl (by simp)
  | connectionEstablished id peer endpoint => cases h
  | connectionClosed id peer endpoint => exact quiet_emit (by simp) rfl (by simp)
  | relayMessage source messageId topic data =>
    have hreport (verdict : Validation) : ∀ e ∈ [Effect.reportMessageValidationResult messageId
        source verdict], (e.onChannel channel).isHandshake = false := by
      intro e he
      cases List.mem_singleton.mp he
      rfl
    rw [handleEvent, relayMessage]
    split
    · dsimp only
      split
      · exact quiet_emit (quiet_acceptEffects env s.filters topic _) rfl (hreport _)
      · exact hreport _
    · exact hreport _
  | metadataRequest peer request => cases h
  | metadataResponse peer response => cases h
  | filterSubscribeRequest peer request =>
    intro e he
    cases List.mem_singleton.mp he
    rfl
  | filterPushRequest peer request =>
    have hack : ∀ e ∈ [Effect.filterPushResponse peer 200],
        (e.onChannel channel).isHandshake = false := by
      intro e he
      cases List.mem_singleton.mp he
      rfl
    rw [handleEvent, filterPushRequest]
    split
    · exact quiet_emit (by simp) rfl hack
    · exact hack

theorem turn_quiet {i : World crate × LoopInput} (h : i.2.isHandshake = false) :
    ∀ e ∈ (n.turn crates config i).out, e.isHandshake = false := by
  have hreplies (sent : List (ReplySender × Reply)) :
      ∀ e ∈ sentReplies sent, e.isHandshake = false := by
    intro e he
    obtain ⟨x, -, rfl⟩ := List.mem_map.mp he
    rfl
  obtain ⟨w, input⟩ := i
  cases input with
  | closed => simp [Node.turn]
  | command c => cases c <;> simp [Node.turn, Node.handleCommand, NodeEffect.isHandshake]
  | event e =>
    cases e with
    | swarm event channel =>
      intro e he
      obtain ⟨call, hcall, rfl⟩ := List.mem_map.mp he
      exact handleEvent_quiet w.env n.core event h call hcall
    | storeQuery peer request channel =>
      intro e he
      cases List.mem_singleton.mp he
      rfl
    | lightpush peer request channel =>
      intro e he
      obtain hpublish | hrespond := List.mem_append.mp he
      · obtain ⟨p, -, rfl⟩ := Option.map_eq_some_iff.mp (Option.mem_toList.mp hpublish)
        rfl
      · cases List.mem_singleton.mp hrespond
        rfl
    | peerExchange request channel =>
      intro e he
      cases List.mem_singleton.mp he
      rfl
    | response id response => exact hreplies _
    | outboundFailure service id error => exact hreplies _
    | other => simp [Node.turn, Node.handleEvent]

theorem emit_out (env : Env) (state : NodeState) (before : List Effect) (event : Event) :
    ∃ told, (Outcome.emit env state before event []).effects = before ++ told ∧
      ∀ e ∈ told, e = .sendEvent event := by
  unfold Outcome.emit
  split
  · exact ⟨_, rfl, fun e he => List.mem_singleton.mp he⟩
  · exact ⟨[], (List.append_nil _).symm, by simp⟩

theorem turn_established (id : Nat) (q : PeerId) (endpoint : ConnectedPoint) :
    (∃ told, (n.turn crates config
        (w, .event (.swarm (.connectionEstablished id q endpoint) channel))).out =
          .call (.metadataRequest q config.localMeta) :: told ∧
        ∀ e ∈ told, e.isHandshake = false) ∨
    ((n.turn crates config
        (w, .event (.swarm (.connectionEstablished id q endpoint) channel))).out =
          [.call (.disconnectPeerId q)] ∧ 0 < config.ipLimit) := by
  have hout : (n.turn crates config
      (w, .event (.swarm (.connectionEstablished id q endpoint) channel))).out =
        (connectionEstablished config w.env n.core q endpoint).effects.map
          (Effect.onChannel channel) := rfl
  rw [hout, connectionEstablished]
  cases hadmitted : (ipGuard config.ipLimit n.core.ipCounts endpoint).2 with
  | true =>
    obtain ⟨told, htold, hevents⟩ := emit_out w.env
      { n.core with
        ipCounts := (ipGuard config.ipLimit n.core.ipCounts endpoint).1
        connected := insert q n.core.connected }
      [.metadataRequest q config.localMeta] (.peerConnected q)
    refine Or.inl ⟨told.map (Effect.onChannel channel), ?_, fun e he => ?_⟩
    · dsimp only
      rw [if_pos hadmitted, htold]
      rfl
    · obtain ⟨call, hcall, rfl⟩ := List.mem_map.mp he
      rw [hevents call hcall]
      rfl
  | false =>
    refine Or.inr ⟨?_, ?_⟩
    · dsimp only
      rw [if_neg (Bool.not_eq_true _ ▸ hadmitted)]
      rfl
    · by_contra hlimit
      rw [ipGuard, if_neg hlimit] at hadmitted
      cases hadmitted

theorem turn_response {response : WakuMetadata} {theirs : UInt32} (q : PeerId)
    (h : response.clusterId = some theirs) :
    (theirs ≠ config.localCluster ∧ ∃ told, (n.turn crates config
        (w, .event (.swarm (.metadataResponse q response) channel))).out =
          .call (.disconnectPeerId q) :: told ∧
        ∀ e ∈ told, e = .call (.sendEvent (.metadataMismatch q (some theirs)))) ∨
    (theirs = config.localCluster ∧ (n.turn crates config
        (w, .event (.swarm (.metadataResponse q response) channel))).out = []) := by
  have hout : (n.turn crates config
      (w, .event (.swarm (.metadataResponse q response) channel))).out =
        (handleMetadataResponse config w.env n.core q response).effects.map
          (Effect.onChannel channel) := rfl
  rw [hout, handleMetadataResponse, h]
  by_cases hsame : theirs = config.localCluster
  · simp [hsame]
  · obtain ⟨told, htold, hevents⟩ := emit_out w.env n.core [.disconnectPeerId q]
      (.metadataMismatch q (some theirs))
    refine Or.inl ⟨hsame, told.map (Effect.onChannel channel), ?_, fun e he => ?_⟩
    · dsimp only
      rw [if_pos hsame, htold]
      rfl
    · obtain ⟨call, hcall, rfl⟩ := List.mem_map.mp he
      rw [hevents call hcall]
      rfl

end Turns

theorem eq_of_disconnects {e : NodeEffect} {q : PeerId} (h : e.disconnects = some q) :
    e = .call (.disconnectPeerId q) := by
  unfold NodeEffect.disconnects at h
  split at h
  · rw [Option.some.inj h]
  · cases h

theorem quiet_packets {out : List NodeEffect} (h : ∀ e ∈ out, e.isHandshake = false) (p : PeerId)
    (asker : Option PeerId) :
    out.filterMap (NodeEffect.packet p asker) = [] ∧
      out.filterMap NodeEffect.disconnects = [] := by
  have hnone {e : NodeEffect} (he : e.isHandshake = false) :
      e.packet p asker = none ∧ e.disconnects = none := by
    cases e with
    | call effect => cases effect <;> first | exact ⟨rfl, rfl⟩ | cases he
    | respond channel response => cases response <;> first | exact ⟨rfl, rfl⟩ | cases he
    | reply sender answer => exact ⟨rfl, rfl⟩
    | subscribe topic => exact ⟨rfl, rfl⟩
    | publish topic data => exact ⟨rfl, rfl⟩
    | dial addr => exact ⟨rfl, rfl⟩
    | sendRequest request => exact ⟨rfl, rfl⟩
  exact ⟨List.filterMap_eq_nil_iff.mpr fun e he => (hnone (h e he)).1,
    List.filterMap_eq_nil_iff.mpr fun e he => (hnone (h e he)).2⟩

theorem told_packets {told : List NodeEffect} {event : Event}
    (h : ∀ e ∈ told, e = .call (.sendEvent event)) (p : PeerId) (asker : Option PeerId) :
    told.filterMap (NodeEffect.packet p asker) = [] ∧
      told.filterMap NodeEffect.disconnects = [] := by
  constructor
  · exact List.filterMap_eq_nil_iff.mpr fun e he => by rw [h e he]; rfl
  · exact List.filterMap_eq_nil_iff.mpr fun e he => by rw [h e he]; rfl

section Absorb
variable {m : Mesh} {p : PeerId} {asker : Option PeerId} {t : Turn Node NodeEffect}

theorem Mesh.Good.absorb (h : m.Good settings)
    (hnew : ∀ packet ∈ t.out.filterMap (NodeEffect.packet p asker), packet.Honest settings) :
    (m.absorb p asker t).Good settings := by
  refine ⟨fun packet hmem => ?_, fun l hl => ?_⟩
  · obtain hmem | hmem := List.mem_append.mp hmem
    · exact hnew packet hmem
    · exact h.packets packet hmem
  · obtain ⟨hold, hkeep⟩ := List.mem_filter.mp hl
    obtain ⟨hdialer, hlistener⟩ := h.running l (List.mem_filter.mp hold).1
    have hends := of_decide_eq_true hkeep
    have hstays {q : PeerId} (hq : m.running q = true) (hne : t.goesOn = true ∨ q ≠ p) :
        (m.absorb p asker t).running q = true := by
      by_cases hqp : q = p
      · obtain hon | hne := hne
        · rw [hqp]
          exact (Function.update_self ..).trans hon
        · exact absurd hqp hne
      · exact (Function.update_of_ne hqp ..).trans hq
    exact ⟨hstays hdialer (hends.imp_right And.left), hstays hlistener (hends.imp_right And.right)⟩

theorem absorb_steps {s : State PeerId (Option UInt32)} {new : List Packet} {dropped : List PeerId}
    (hpackets : t.out.filterMap (NodeEffect.packet p asker) = new)
    (hdropped : t.out.filterMap NodeEffect.disconnects = dropped)
    (hs : Step (clusterOf settings) s ⟨m.links.filter fun l => ∀ q ∈ dropped, ¬l.Joins p q,
      Multiset.ofList (new.map Packet.token ++ m.packets.map Packet.token)⟩) :
    Relation.ReflTransGen (Step (clusterOf settings)) s (m.absorb p asker t).abs := by
  have habs : (m.absorb p asker t).abs =
      ⟨(m.links.filter fun l => ∀ q ∈ dropped, ¬l.Joins p q).filter
        fun l => t.goesOn ∨ (l.dialer ≠ p ∧ l.listener ≠ p),
        Multiset.ofList (new.map Packet.token ++ m.packets.map Packet.token)⟩ := by
    rw [Mesh.abs, Mesh.absorb, hpackets, hdropped, List.map_append]
  rw [habs]
  exact (Relation.ReflTransGen.single hs).tail (Step.close _ _ _)

end Absorb

theorem abs_eraseIdx {m : Mesh} {index : Nat} {packet : Packet}
    (h : m.packets[index]? = some packet) :
    m.abs = ⟨m.links,
      packet.token ::ₘ Multiset.ofList ((m.packets.eraseIdx index).map Packet.token)⟩ := by
  obtain ⟨hlt, hget⟩ := List.getElem?_eq_some_iff.mp h
  have hperm := (List.getElem_cons_eraseIdx_perm hlt).map Packet.token
  rw [hget] at hperm
  rw [Mesh.abs, Multiset.cons_coe, State.mk.injEq]
  exact ⟨rfl, (Multiset.coe_eq_coe.mpr hperm).symm⟩

theorem drops_none (links : List (Link PeerId)) (p : PeerId) :
    (links.filter fun l => ∀ q ∈ ([] : List PeerId), ¬l.Joins p q) = links := by
  simp

theorem drops_one (links : List (Link PeerId)) (p q : PeerId) :
    (links.filter fun l => ∀ q' ∈ [q], ¬l.Joins p q') = links.filter fun l => ¬l.Joins p q := by
  simp

section Deliver
variable {m : Mesh} {w : World crate} {channel : ResponseChannel}

def TurnLeaves (p : PeerId) (asker : Option PeerId) (t : Turn Node NodeEffect) (new : List Packet)
    (dropped : List PeerId) : Prop :=
  t.out.filterMap (NodeEffect.packet p asker) = new ∧
    t.out.filterMap NodeEffect.disconnects = dropped

theorem TurnLeaves.steps {p : PeerId} {asker : Option PeerId} {t : Turn Node NodeEffect}
    {new : List Packet} {dropped : List PeerId} (h : TurnLeaves p asker t new dropped)
    (hnew : ∀ packet ∈ new, packet.Honest settings) (hgood : m.Good settings)
    {s : State PeerId (Option UInt32)}
    (hs : Step (clusterOf settings) s ⟨m.links.filter fun l => ∀ q ∈ dropped, ¬l.Joins p q,
      Multiset.ofList (new.map Packet.token ++ m.packets.map Packet.token)⟩) :
    Relation.ReflTransGen (Step (clusterOf settings)) s (m.absorb p asker t).abs ∧
      (m.absorb p asker t).Good settings := by
  refine ⟨absorb_steps h.1 h.2 hs, hgood.absorb fun packet hmem => ?_⟩
  rw [h.1] at hmem
  exact hnew packet hmem

theorem established_leaves {n : Node} {config : NodeConfig} (p q : PeerId) (id : Nat)
    (endpoint : ConnectedPoint) :
    TurnLeaves p none
        (n.turn crates config (w, .event (.swarm (.connectionEstablished id q endpoint) channel)))
        [.request p q (writeMetadata config.localMeta)] [] ∨
      TurnLeaves p none
        (n.turn crates config (w, .event (.swarm (.connectionEstablished id q endpoint) channel)))
        [] [q] := by
  obtain ⟨told, hout, hquiet⟩ | ⟨hout, -⟩ := @turn_established crates crate config n w channel id q
    endpoint
  · obtain ⟨hpackets, hdropped⟩ := quiet_packets hquiet p none
    refine Or.inl ⟨?_, ?_⟩
    · rw [hout]
      exact congrArg (Packet.request p q (writeMetadata config.localMeta) :: ·) hpackets
    · rw [hout, List.filterMap_cons_none rfl, hdropped]
  · refine Or.inr ⟨?_, ?_⟩
    · rw [hout]
      rfl
    · rw [hout]
      rfl

theorem response_leaves {n : Node} {config : NodeConfig} (p q : PeerId) {response : WakuMetadata}
    {theirs : UInt32} (h : response.clusterId = some theirs) :
    (theirs ≠ config.localCluster ∧ TurnLeaves p none
      (n.turn crates config (w, .event (.swarm (.metadataResponse q response) channel))) [] [q]) ∨
    (theirs = config.localCluster ∧ TurnLeaves p none
      (n.turn crates config (w, .event (.swarm (.metadataResponse q response) channel)))
      [] []) := by
  obtain ⟨hne, told, hout, htold⟩ | ⟨heq, hout⟩ := @turn_response crates crate config n w channel
    response theirs q h
  · obtain ⟨hpackets, hdropped⟩ := told_packets htold p none
    refine Or.inl ⟨hne, ?_, ?_⟩
    · rw [hout, List.filterMap_cons_none rfl, hpackets]
    · rw [hout]
      exact congrArg (q :: ·) hdropped
  · refine Or.inr ⟨heq, ?_, ?_⟩
    · rw [hout]
      rfl
    · rw [hout]
      rfl

theorem absorb_packet (hfits : MetadataFits settings) (hgood : m.Good settings) (packet : Packet)
    (hhonest : packet.Honest settings) :
    Relation.ReflTransGen (Step (clusterOf settings))
        ⟨m.links, packet.token ::ₘ Multiset.ofList (m.packets.map Packet.token)⟩
        (m.absorb packet.receiver packet.asker ((m.node packet.receiver).turn crates
          (settings packet.receiver).nodeConfig (w, .event (packet.event channel)))).abs ∧
      (m.absorb packet.receiver packet.asker ((m.node packet.receiver).turn crates
        (settings packet.receiver).nodeConfig (w, .event (packet.event channel)))).Good
          settings := by
  cases packet with
  | established link side endpoint =>
    obtain hleaves | hleaves := @established_leaves crates crate w channel (m.node side)
      (settings side).nodeConfig side (otherEnd link side) link.id endpoint
    · refine hleaves.steps (fun packet hmem => ?_) hgood ?_
      · cases List.mem_singleton.mp hmem
        rfl
      · rw [drops_none]
        exact Step.notice _ _ _ _ _
    · refine hleaves.steps (by simp) hgood ?_
      rw [drops_one]
      exact Step.refuse _ _ _ _ _
  | request src dst bytes =>
    obtain rfl : bytes = writeMetadata (settings src).localMetadata := hhonest
    have hread := read_metadata hfits src
    have hevent : (Packet.request src dst (writeMetadata (settings src).localMetadata)).event
        channel = .swarm (.metadataRequest src (settings src).localMetadata) channel := by
      rw [Packet.event, hread]
    have hcluster : responseCluster (writeMetadata (settings dst).localMetadata) =
        clusterOf settings dst := by
      rw [responseCluster, read_metadata hfits dst]
      rfl
    have hleaves : TurnLeaves dst (some src) ((m.node dst).turn crates (settings dst).nodeConfig
        (w, .event (.swarm (.metadataRequest src (settings src).localMetadata) channel)))
        [.response dst src (writeMetadata (settings dst).localMetadata)] [] := ⟨rfl, rfl⟩
    rw [hevent]
    refine hleaves.steps (fun packet hmem => ?_) hgood ?_
    · cases List.mem_singleton.mp hmem
      rfl
    · rw [drops_none, List.map_singleton, Packet.token, Packet.token, hcluster]
      exact Step.reply _ _ _ _
  | response src dst bytes =>
    obtain rfl : bytes = writeMetadata (settings src).localMetadata := hhonest
    have hread := read_metadata hfits src
    have hevent : (Packet.response src dst (writeMetadata (settings src).localMetadata)).event
        channel = .swarm (.metadataResponse src (settings src).localMetadata) channel := by
      rw [Packet.event, hread]
    have hcluster : responseCluster (writeMetadata (settings src).localMetadata) =
        clusterOf settings src := by
      rw [responseCluster, hread]
      rfl
    rw [hevent, Packet.token, hcluster]
    obtain ⟨hne, hleaves⟩ | ⟨heq, hleaves⟩ := @response_leaves crates crate w channel (m.node dst)
      (settings dst).nodeConfig dst src (settings src).localMetadata _ rfl
    · refine hleaves.steps (by simp) hgood ?_
      rw [drops_one]
      exact Step.differ _ _ _ _ _ fun h => hne (Option.some.inj h)
    · refine hleaves.steps (by simp) hgood ?_
      rw [drops_none, show clusterOf settings src = clusterOf settings dst from congrArg some heq]
      exact Step.agree _ _ _ _

theorem Packet.receiver_mem (packet : Packet) :
    packet.receiver = packet.ends.1 ∨ packet.receiver = packet.ends.2 := by
  cases packet with
  | established link side endpoint => exact Or.inl rfl
  | request src dst bytes => exact Or.inr rfl
  | response src dst bytes => exact Or.inr rfl

theorem Mesh.Good.ends_running (hgood : m.Good settings) {l : Link PeerId} (hl : l ∈ m.links)
    {a b : PeerId} (hjoins : l.Joins a b) : m.running a = true ∧ m.running b = true := by
  obtain ⟨hdialer, hlistener⟩ := hgood.running l hl
  obtain ⟨rfl, rfl⟩ | ⟨rfl, rfl⟩ := hjoins
  · exact ⟨hdialer, hlistener⟩
  · exact ⟨hlistener, hdialer⟩

theorem Mesh.Good.eraseIdx (hgood : m.Good settings) (index : Nat) :
    { m with packets := m.packets.eraseIdx index }.Good settings :=
  ⟨fun packet hmem => hgood.packets packet (List.mem_of_mem_eraseIdx hmem), hgood.running⟩

theorem deliver_steps (hfits : MetadataFits settings) (hgood : m.Good settings) {index : Nat}
    {packet : Packet} (h : m.packets[index]? = some packet) :
    Relation.ReflTransGen (Step (clusterOf settings)) m.abs
        ({ m with packets := m.packets.eraseIdx index }.takeUp crates settings packet.receiver
          packet.asker (w, .event (packet.event channel))).abs ∧
      ({ m with packets := m.packets.eraseIdx index }.takeUp crates settings packet.receiver
        packet.asker (w, .event (packet.event channel))).Good settings := by
  have hhonest := hgood.packets packet (List.mem_of_getElem? h)
  rw [abs_eraseIdx h, Mesh.takeUp]
  by_cases hrunning : m.running packet.receiver = true
  · rw [if_pos hrunning]
    exact absorb_packet hfits (hgood.eraseIdx index) packet hhonest
  · -- nobody takes it up, and no open connection joins its ends
    rw [if_neg hrunning]
    refine ⟨Relation.ReflTransGen.single (Step.lose _ _ _ fun l hl hjoins => ?_),
      hgood.eraseIdx index⟩
    rw [packet.ends_token] at hjoins
    obtain ⟨hfirst, hsecond⟩ := hgood.ends_running hl hjoins
    obtain hside | hside := packet.receiver_mem
    · exact hrunning (hside ▸ hfirst)
    · exact hrunning (hside ▸ hsecond)

theorem input_steps (hgood : m.Good settings) (p : PeerId) {input : LoopInput}
    (h : input.isHandshake = false) :
    Relation.ReflTransGen (Step (clusterOf settings)) m.abs
        (m.takeUp crates settings p none (w, input)).abs ∧
      (m.takeUp crates settings p none (w, input)).Good settings := by
  rw [Mesh.takeUp]
  split
  · have hleaves : TurnLeaves p none
        ((m.node p).turn crates (settings p).nodeConfig (w, input)) [] [] :=
      quiet_packets (turn_quiet h) p none
    refine hleaves.steps (by simp) hgood ?_
    have hsame := @Step.close PeerId (Option UInt32) _ (clusterOf settings) m.links
      (Multiset.ofList (m.packets.map Packet.token)) fun _ => true
    rw [List.filter_true] at hsame
    rw [drops_none]
    exact hsame
  · exact ⟨Relation.ReflTransGen.refl, hgood⟩

theorem connect_steps (hgood : m.Good settings) (link : Link PeerId)
    (dialerEnd listenerEnd : ConnectedPoint)
    (hrunning : m.running link.dialer = true ∧ m.running link.listener = true) :
    Relation.ReflTransGen (Step (clusterOf settings)) m.abs
        { m with
          links := link :: m.links
          packets := .established link link.dialer dialerEnd ::
            .established link link.listener listenerEnd :: m.packets }.abs ∧
      { m with
        links := link :: m.links
        packets := .established link link.dialer dialerEnd ::
          .established link link.listener listenerEnd :: m.packets }.Good settings := by
  refine ⟨Relation.ReflTransGen.single ?_, fun packet hmem => ?_, fun l hl => ?_⟩
  · have hdialer : otherEnd link link.dialer = link.listener := if_pos rfl
    have hlistener : otherEnd link link.listener = link.dialer := by
      rw [otherEnd]
      split
      case isTrue h => exact h
      case isFalse => rfl
    have hconnect := @Step.connect PeerId (Option UInt32) _ (clusterOf settings) m.links
      (Multiset.ofList (m.packets.map Packet.token)) link
    rw [Mesh.abs, Mesh.abs, List.map_cons, List.map_cons, Packet.token, Packet.token, hdialer,
      hlistener]
    exact hconnect
  · obtain rfl | hmem := List.mem_cons.mp hmem
    · trivial
    · obtain rfl | hmem := List.mem_cons.mp hmem
      · trivial
      · exact hgood.packets packet hmem
  · obtain rfl | hl := List.mem_cons.mp hl
    · exact hrunning
    · exact hgood.running l hl

theorem step_good (hfits : MetadataFits settings) (hgood : m.Good settings)
    (a : MeshAction crate) : (m.step crates settings a).Good settings := by
  cases a with
  | connect link dialerEnd listenerEnd =>
    rw [Mesh.step]
    split
    case isTrue hrunning => exact (connect_steps hgood link dialerEnd listenerEnd hrunning).2
    case isFalse => exact hgood
  | deliver index world channel =>
    rw [Mesh.step]
    split
    case h_1 packet hpacket => exact (deliver_steps hfits hgood hpacket).2
    case h_2 => exact hgood
  | lose index => exact hgood.eraseIdx index
  | close link => exact ⟨hgood.packets, fun l hl => hgood.running l (List.mem_filter.mp hl).1⟩
  | input peer world input =>
    rw [Mesh.step]
    split
    case isTrue => exact hgood
    case isFalse h => exact (input_steps hgood peer (Bool.not_eq_true _ ▸ h)).2

/-- The mesh refines the handshake: each of its steps is a run of it. -/
theorem step_simulates (hfits : MetadataFits settings) (hgood : m.Good settings)
    {a : MeshAction crate} (hlossless : m.Lossless a) :
    Relation.ReflTransGen (Step (clusterOf settings)) m.abs (m.step crates settings a).abs := by
  cases a with
  | connect link dialerEnd listenerEnd =>
    rw [Mesh.step]
    split
    case isTrue hrunning => exact (connect_steps hgood link dialerEnd listenerEnd hrunning).1
    case isFalse => exact Relation.ReflTransGen.refl
  | deliver index world channel =>
    rw [Mesh.step]
    split
    case h_1 packet hpacket => exact (deliver_steps hfits hgood hpacket).1
    case h_2 => exact Relation.ReflTransGen.refl
  | lose index =>
    cases hpacket : m.packets[index]? with
    | some packet =>
      have hlost : ∀ l ∈ m.links, ¬l.Joins packet.token.ends.1 packet.token.ends.2 := by
        rw [packet.ends_token]
        exact hlossless packet hpacket
      rw [abs_eraseIdx hpacket]
      exact Relation.ReflTransGen.single (Step.lose _ _ _ hlost)
    | none =>
      have hsame : m.packets.eraseIdx index = m.packets :=
        List.eraseIdx_of_length_le (List.getElem?_eq_none_iff.mp hpacket)
      rw [Mesh.step, hsame]
  | close link => exact Relation.ReflTransGen.single (Step.close _ _ _)
  | input peer world input =>
    rw [Mesh.step]
    split
    case isTrue => exact Relation.ReflTransGen.refl
    case isFalse h => exact (input_steps hgood peer (Bool.not_eq_true _ ▸ h)).1

end Deliver

theorem good_start : ({} : Mesh).Good settings := ⟨by simp, by simp⟩

theorem run_simulates (hfits : MetadataFits settings) {m : Mesh} (hgood : m.Good settings)
    {actions : List (MeshAction crate)}
    (hlossless : EachStep (Mesh.step crates settings) Mesh.Lossless m actions) :
    Relation.ReflTransGen (Step (clusterOf settings)) m.abs
      (actions.foldl (Mesh.step crates settings) m).abs := by
  induction actions generalizing m with
  | nil => exact Relation.ReflTransGen.refl
  | cons a actions ih =>
    exact (step_simulates hfits hgood hlossless.1).trans
      (ih (step_good hfits hgood a) hlossless.2)

theorem clusterOf_eq_iff (p q : PeerId) :
    clusterOf settings p = clusterOf settings q ↔
      (settings p).clusterId = (settings q).clusterId := by
  rw [clusterOf, clusterOf, Option.some.injEq]
  exact UInt16.toUInt32_inj

/-- Whatever the order in which the nodes of a mesh take up connections, requests, responses and
everything else, and whichever connections close and loops end meanwhile: once nothing of the
metadata handshake is in flight between the ends of an open connection, both are in one cluster. -/
theorem clusters_isolated (crates : Crates) (crate : EnrCrate) (settings : PeerId → Settings)
    (hfits : MetadataFits settings) (actions : List (MeshAction crate))
    (hlossless : EachStep (Mesh.step crates settings) Mesh.Lossless {} actions)
    (l : Link PeerId) (hl : l ∈ (actions.foldl (Mesh.step crates settings) {}).links)
    (hsettled : ∀ packet ∈ (actions.foldl (Mesh.step crates settings) {}).packets,
      ¬l.Joins packet.ends.1 packet.ends.2) :
    (settings l.dialer).clusterId = (settings l.listener).clusterId := by
  have hstart : Inv (clusterOf settings) ({} : Mesh).abs := ⟨by simp [Mesh.abs], by simp [Mesh.abs]⟩
  have hinv := reachable_inv hstart (run_simulates hfits good_start hlossless)
  refine (clusterOf_eq_iff _ _).mp (hinv.settled hl fun t ht => ?_)
  obtain ⟨packet, hpacket, rfl⟩ := List.mem_map.mp (Multiset.mem_coe.mp ht)
  rw [packet.ends_token]
  exact hsettled packet hpacket

def sampleSettings (p : PeerId) : Settings :=
  if p = ⟨[3]⟩ then { clusterId := 2, shards := [0], ipColocationLimit := 0 }
  else { clusterId := 1, shards := [0, 1] }

def sampleAddr : Multiaddr := [.ip4 0x7f000001]

/- The first node gets connections to both others, and all that follows is delivered. -/
def sampleActions : List (MeshAction sampleEnrCrate) :=
  [.connect ⟨0, ⟨[1]⟩, ⟨[2]⟩⟩ (.dialer sampleAddr) (.listener [] sampleAddr),
    .connect ⟨1, ⟨[3]⟩, ⟨[1]⟩⟩ (.dialer sampleAddr) (.listener [] sampleAddr)] ++
  List.replicate 12 (.deliver 0 {
    env := ⟨0, 0, true⟩
    instant := 0
    store := .empty
    book := []
    gossip := sampleGossip
    subscribe := fun _ => .ok true
    dial := fun _ => .ok ()
    nextId := 0 } ⟨0⟩)

theorem fits_sampleSettings : MetadataFits sampleSettings := by
  intro p
  rw [sampleSettings]
  split <;> decide

theorem clusters_isolated_sample :
    ⟨0, ⟨[1]⟩, ⟨[2]⟩⟩ ∈
      (sampleActions.foldl (Mesh.step Crates.standard sampleSettings) {}).links ∧
    (sampleSettings ⟨[1]⟩).clusterId = (sampleSettings ⟨[2]⟩).clusterId := by
  have hlinks : (sampleActions.foldl (Mesh.step Crates.standard sampleSettings) {}).links =
      [⟨0, ⟨[1]⟩, ⟨[2]⟩⟩] := by decide +kernel
  have hpackets : (sampleActions.foldl (Mesh.step Crates.standard sampleSettings)
      {}).packets.isEmpty = true := by decide +kernel
  have hl : ⟨0, ⟨[1]⟩, ⟨[2]⟩⟩ ∈
      (sampleActions.foldl (Mesh.step Crates.standard sampleSettings) {}).links := by
    rw [hlinks]
    exact List.mem_singleton.mpr rfl
  refine ⟨hl, ?_⟩
  exact clusters_isolated Crates.standard sampleEnrCrate sampleSettings fits_sampleSettings
    sampleActions (eachStep_of_forall fun a ha s => by
      simp only [sampleActions, List.mem_append, List.mem_cons, List.not_mem_nil, or_false,
        List.mem_replicate] at ha
      obtain (rfl | rfl) | ⟨-, rfl⟩ := ha <;> trivial)
    ⟨0, ⟨[1]⟩, ⟨[2]⟩⟩ hl (by simp [List.isEmpty_iff.mp hpackets])

def NodeEffect.Justified (settings : PeerId → Settings) (p : PeerId) (e : NodeEffect) : Prop :=
  (∀ q, e = .call (.disconnectPeerId q) →
    (settings q).clusterId ≠ (settings p).clusterId ∨ 0 < (settings p).ipColocationLimit) ∧
  ∀ q theirs, e = .call (.sendEvent (.metadataMismatch q theirs)) →
    theirs = some (settings q).clusterId.toUInt32 ∧
      (settings q).clusterId ≠ (settings p).clusterId

theorem justified_of_quiet {p : PeerId} {e : NodeEffect} (h : e.isHandshake = false) :
    e.Justified settings p := by
  constructor
  · rintro q rfl
    cases h
  · rintro q theirs rfl
    cases h

theorem packet_justified (hfits : MetadataFits settings) {n : Node} {w : World crate}
    {channel : ResponseChannel} {packet : Packet} (hhonest : packet.Honest settings) :
    ∀ e ∈ (n.turn crates (settings packet.receiver).nodeConfig
      (w, .event (packet.event channel))).out, e.Justified settings packet.receiver := by
  intro e he
  cases packet with
  | established link side endpoint =>
    obtain ⟨told, hout, hquiet⟩ | ⟨hout, hlimit⟩ := @turn_established crates crate
      (settings side).nodeConfig n w channel link.id (otherEnd link side) endpoint
    · rw [Packet.event, Packet.receiver, hout] at he
      obtain rfl | he := List.mem_cons.mp he
      · exact ⟨by simp, by simp⟩
      · exact justified_of_quiet (hquiet e he)
    · rw [Packet.event, Packet.receiver, hout] at he
      cases List.mem_singleton.mp he
      exact ⟨fun q _ => Or.inr hlimit, by simp⟩
  | request src dst bytes =>
    obtain rfl : bytes = writeMetadata (settings src).localMetadata := hhonest
    rw [Packet.event, read_metadata hfits src] at he
    cases List.mem_singleton.mp he
    exact ⟨by simp [Effect.onChannel], by simp [Effect.onChannel]⟩
  | response src dst bytes =>
    obtain rfl : bytes = writeMetadata (settings src).localMetadata := hhonest
    rw [Packet.event, read_metadata hfits src, Packet.receiver] at he
    obtain ⟨hne, told, hout, htold⟩ | ⟨-, hout⟩ := @turn_response crates crate
      (settings dst).nodeConfig n w channel (settings src).localMetadata _ src rfl
    · have hclusters : (settings src).clusterId ≠ (settings dst).clusterId :=
        fun heq => hne (congrArg UInt16.toUInt32 heq)
      rw [hout] at he
      obtain rfl | he := List.mem_cons.mp he
      · refine ⟨fun q hq => ?_, by simp⟩
        cases hq
        exact Or.inl hclusters
      · rw [htold e he]
        refine ⟨by simp, fun q theirs hq => ?_⟩
        cases hq
        exact ⟨rfl, hclusters⟩
    · rw [hout] at he
      cases he

theorem log_takeUp {m : Mesh} {p : PeerId} {asker : Option PeerId} {i : World crate × LoopInput}
    (hlog : ∀ x ∈ m.log, x.2.Justified settings x.1)
    (hturn : ∀ e ∈ ((m.node p).turn crates (settings p).nodeConfig i).out,
      e.Justified settings p) :
    ∀ x ∈ (m.takeUp crates settings p asker i).log, x.2.Justified settings x.1 := by
  intro x hx
  rw [Mesh.takeUp] at hx
  split at hx
  · obtain hx | hx := List.mem_append.mp hx
    · exact hlog x hx
    · obtain ⟨e, he, rfl⟩ := List.mem_map.mp hx
      exact hturn e he
  · exact hlog x hx

theorem step_log (hfits : MetadataFits settings) {m : Mesh} (hgood : m.Good settings)
    (hlog : ∀ x ∈ m.log, x.2.Justified settings x.1) (a : MeshAction crate) :
    ∀ x ∈ (m.step crates settings a).log, x.2.Justified settings x.1 := by
  cases a with
  | connect link dialerEnd listenerEnd =>
    rw [Mesh.step]
    split
    · exact hlog
    · exact hlog
  | deliver index world channel =>
    rw [Mesh.step]
    split
    case h_1 packet hpacket =>
      exact log_takeUp hlog (packet_justified hfits
        (hgood.packets packet (List.mem_of_getElem? hpacket)))
    case h_2 => exact hlog
  | lose index => exact hlog
  | close link => exact hlog
  | input peer world input =>
    rw [Mesh.step]
    split
    case isTrue => exact hlog
    case isFalse h =>
      exact log_takeUp hlog fun e he =>
        justified_of_quiet (turn_quiet (Bool.not_eq_true _ ▸ h) e he)

theorem run_log (hfits : MetadataFits settings) {m : Mesh} (hgood : m.Good settings)
    (hlog : ∀ x ∈ m.log, x.2.Justified settings x.1) (actions : List (MeshAction crate)) :
    ∀ x ∈ (actions.foldl (Mesh.step crates settings) m).log, x.2.Justified settings x.1 := by
  induction actions generalizing m with
  | nil => exact hlog
  | cons a actions ih => exact ih (step_good hfits hgood a) (step_log hfits hgood hlog a)

/-- No node is taken for one of another cluster: in every run of a mesh, also if requests and
responses are lost, a node that limits no addresses disconnects only nodes of other clusters, and
a mismatch that an application is told names the cluster that the other node really has. -/
theorem mismatches_are_true (crates : Crates) (crate : EnrCrate) (settings : PeerId → Settings)
    (hfits : MetadataFits settings) (actions : List (MeshAction crate)) (p : PeerId)
    (e : NodeEffect) (he : (p, e) ∈ (actions.foldl (Mesh.step crates settings) {}).log) :
    (∀ q, e = .call (.disconnectPeerId q) →
      (settings q).clusterId ≠ (settings p).clusterId ∨ 0 < (settings p).ipColocationLimit) ∧
    ∀ q theirs, e = .call (.sendEvent (.metadataMismatch q theirs)) →
      theirs = some (settings q).clusterId.toUInt32 ∧
        (settings q).clusterId ≠ (settings p).clusterId :=
  run_log hfits good_start (by simp) actions (p, e) he

theorem mismatches_are_true_sample :
    (⟨[3]⟩, NodeEffect.call (.disconnectPeerId ⟨[1]⟩)) ∈
      (sampleActions.foldl (Mesh.step Crates.standard sampleSettings) {}).log ∧
    (sampleSettings ⟨[1]⟩).clusterId ≠ (sampleSettings ⟨[3]⟩).clusterId := by
  have hsome : (⟨[3]⟩, some ⟨[1]⟩) ∈ (sampleActions.foldl
      (Mesh.step Crates.standard sampleSettings) {}).log.map fun x => (x.1, x.2.disconnects) := by
    decide +kernel
  obtain ⟨⟨p, e⟩, hmem, heq⟩ := List.mem_map.mp hsome
  obtain ⟨rfl, hdisconnects⟩ := Prod.mk.inj heq
  obtain rfl := eq_of_disconnects hdisconnects
  obtain hclusters | hlimit := (mismatches_are_true Crates.standard sampleEnrCrate sampleSettings
    fits_sampleSettings sampleActions ⟨[3]⟩ _ hmem).1 ⟨[1]⟩ rfl
  · exact ⟨hmem, hclusters⟩
  · exact absurd hlimit (by decide)

end RsWaku
