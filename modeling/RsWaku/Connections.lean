import Mathlib.Data.List.Perm.Basic
import RsWaku.Runtime

/-! Connections over a whole run: the per-IP counts and the set of connected peers, compared
with the connections that are open and that the ip-colocation guard admitted. -/
namespace RsWaku
open Runs

/-- An open connection and what the guard decided when it was established. -/
structure Conn where
  id : Nat
  peer : PeerId
  endpoint : ConnectedPoint
  admitted : Bool

def Conn.ip (c : Conn) : Option IpAddr := multiaddrIp c.endpoint.getRemoteAddress

structure Network where
  node : NodeState := {}
  conns : List Conn := []

def Network.step (crates : Crates) (config : NodeConfig) (n : Network) (e : Env × SwarmEvent) :
    Network where
  node := (handleEvent crates config e.1 n.node e.2).state
  conns := match e.2 with
    | .connectionEstablished id peer endpoint =>
      ⟨id, peer, endpoint, (ipGuard config.ipLimit n.node.ipCounts endpoint).2⟩ :: n.conns
    | .connectionClosed id _ _ => n.conns.filter fun c => c.id ≠ id
    | _ => n.conns

def Network.Valid (n : Network) (e : Env × SwarmEvent) : Prop :=
  match e.2 with
  | .connectionEstablished id _ _ => ∀ c ∈ n.conns, c.id ≠ id
  | .connectionClosed id peer endpoint =>
    ∃ c ∈ n.conns, c.id = id ∧ c.peer = peer ∧ c.endpoint = endpoint
  | _ => True

def Network.DistinctIds (n : Network) : Prop := (n.conns.map Conn.id).Nodup

def Network.admittedFrom (n : Network) (ip : IpAddr) : Nat :=
  n.conns.countP fun c => c.admitted && c.ip == some ip

def Network.CountsExact (config : NodeConfig) (n : Network) : Prop :=
  ∀ ip, Maps.read n.node.ipCounts 0 ip = n.admittedFrom ip ∧ n.admittedFrom ip ≤ config.ipLimit

/-- A refused connection closes only while no admitted connection from its IP is open. -/
def Network.ClosesOwnCount (n : Network) (e : Env × SwarmEvent) : Prop :=
  match e.2 with
  | .connectionClosed id _ _ => ∀ c ∈ n.conns, c.id = id → c.admitted = false →
      ∀ ip, c.ip = some ip → ∀ c' ∈ n.conns, c'.admitted = true → c'.ip ≠ some ip
  | _ => True

def Network.ConnectedExact (n : Network) : Prop :=
  ∀ p, p ∈ n.node.connected ↔ ∃ c ∈ n.conns, c.admitted = true ∧ c.peer = p

/-- A connection closes only while its peer has no other admitted connection. -/
def Network.ClosesLast (n : Network) (e : Env × SwarmEvent) : Prop :=
  match e.2 with
  | .connectionClosed id peer _ =>
    ∀ c ∈ n.conns, c.id ≠ id → c.peer = peer → c.admitted = false
  | _ => True

@[simp] theorem Outcome.emit_state (env : Env) (state : NodeState) (before : List Effect)
    (event : Event) (after : List Effect) :
    (Outcome.emit env state before event after).state = state := by
  unfold Outcome.emit
  split <;> rfl

variable {crates : Crates} {config : NodeConfig} {n : Network} {env : Env}

def SwarmEvent.IsConnection : SwarmEvent → Prop
  | .connectionEstablished _ _ _ => True
  | .connectionClosed _ _ _ => True
  | _ => False

theorem handleEvent_frame (crates : Crates) (config : NodeConfig) (env : Env) (s : NodeState)
    (e : SwarmEvent) (he : ¬e.IsConnection) :
    (handleEvent crates config env s e).state.ipCounts = s.ipCounts ∧
      (handleEvent crates config env s e).state.connected = s.connected := by
  cases e with
  | connectionEstablished id peer endpoint => exact absurd trivial he
  | connectionClosed id peer endpoint => exact absurd trivial he
  | newListenAddr address => simp [handleEvent]
  | relayMessage source messageId topic data =>
    simp only [handleEvent, relayMessage]
    split
    · split <;> simp
    · simp
  | metadataRequest peer request => simp [handleEvent]
  | metadataResponse peer response =>
    simp only [handleEvent, handleMetadataResponse]
    split
    · split <;> simp
    · simp
  | filterSubscribeRequest peer request => simp [handleEvent]
  | filterPushRequest peer request =>
    simp only [handleEvent, filterPushRequest]
    split <;> simp

theorem connectionEstablished_ipCounts (s : NodeState) (peer : PeerId) (endpoint : ConnectedPoint) :
    (connectionEstablished config env s peer endpoint).state.ipCounts =
      (ipGuard config.ipLimit s.ipCounts endpoint).1 := by
  simp only [connectionEstablished]
  split <;> simp

theorem connectionEstablished_connected (s : NodeState) (peer : PeerId)
    (endpoint : ConnectedPoint) :
    (connectionEstablished config env s peer endpoint).state.connected =
      if (ipGuard config.ipLimit s.ipCounts endpoint).2 then insert peer s.connected
      else s.connected := by
  simp only [connectionEstablished]
  split <;> simp

theorem read_ipGuard {ipLimit : Nat} (hlimit : 0 < ipLimit) (ipCounts : IpCounts)
    (endpoint : ConnectedPoint) (ip : IpAddr) :
    Maps.read (ipGuard ipLimit ipCounts endpoint).1 0 ip = Maps.read ipCounts 0 ip +
      if (ipGuard ipLimit ipCounts endpoint).2 &&
        multiaddrIp endpoint.getRemoteAddress == some ip then 1 else 0 := by
  unfold ipGuard
  rw [if_pos hlimit]
  cases hip : multiaddrIp endpoint.getRemoteAddress with
  | none => simp
  | some ip' =>
    by_cases heq : ip = ip'
    · subst heq
      dsimp only
      split <;> simp [Maps.read_insert]
    · have hne : ip' ≠ ip := fun h => heq h.symm
      dsimp only
      split <;> simp [Maps.read_insert, heq, hne]

theorem ipGuard_le_limit {ipLimit : Nat} (hlimit : 0 < ipLimit) {ipCounts : IpCounts}
    {endpoint : ConnectedPoint} {ip : IpAddr} (hadm : (ipGuard ipLimit ipCounts endpoint).2 = true)
    (hip : multiaddrIp endpoint.getRemoteAddress = some ip) :
    Maps.read ipCounts 0 ip + 1 ≤ ipLimit := by
  unfold ipGuard at hadm
  rw [if_pos hlimit, hip] at hadm
  dsimp only at hadm
  split at hadm
  · cases hadm
  · omega

/-- Closing takes one off the count of the IP, whoever the connection belonged to. -/
theorem read_releaseIp (ipCounts : IpCounts) (endpoint : ConnectedPoint) (ip : IpAddr) :
    Maps.read (releaseIp ipCounts endpoint) 0 ip = Maps.read ipCounts 0 ip -
      if multiaddrIp endpoint.getRemoteAddress = some ip then 1 else 0 := by
  unfold releaseIp
  cases hip : multiaddrIp endpoint.getRemoteAddress with
  | none => simp
  | some ip' =>
    cases hl : ipCounts.lookup ip' with
    | none =>
      by_cases heq : ip' = ip
      · subst heq
        simp [hl, Maps.read_of_absent hl]
      · simp [hl, heq]
    | some count =>
      by_cases heq : ip = ip'
      · subst heq
        simp only [hl, Maps.read_of_lookup hl, if_true]
        split
        case isTrue hzero => rw [Maps.read_erase, Function.update_self, hzero]
        case isFalse => rw [Maps.read_insert, Function.update_self]
      · have hne : ip' ≠ ip := fun h => heq h.symm
        simp only [hl, Option.some.injEq, hne, if_false, Nat.sub_zero]
        split
        · rw [Maps.read_erase, Function.update_of_ne heq]
        · rw [Maps.read_insert, Function.update_of_ne heq]

theorem perm_close {conns : List Conn} (hnd : (conns.map Conn.id).Nodup) {c : Conn}
    (hc : c ∈ conns) : conns.Perm (c :: conns.filter fun d => d.id ≠ c.id) := by
  induction conns with
  | nil => cases hc
  | cons d conns ih =>
    rw [List.map_cons, List.nodup_cons] at hnd
    obtain rfl | hmem := List.mem_cons.mp hc
    · have hkeep : conns.filter (fun d => d.id ≠ c.id) = conns := by
        apply List.filter_eq_self.mpr
        intro d hd
        simpa using fun h : d.id = c.id => hnd.1 (h ▸ List.mem_map_of_mem hd)
      simp only [List.filter_cons, ne_eq, not_true_eq_false, decide_false, Bool.false_eq_true,
        if_false]
      rw [hkeep]
    · have hne : d.id ≠ c.id := fun h => hnd.1 (h ▸ List.mem_map_of_mem hmem)
      rw [List.filter_cons_of_pos (by simpa using hne)]
      exact ((ih hnd.2 hmem).cons d).trans (List.Perm.swap c d _)

theorem Network.step_distinctIds (n : Network) (e : Env × SwarmEvent) (hn : n.DistinctIds)
    (he : n.Valid e) : (n.step crates config e).DistinctIds := by
  obtain ⟨env, ev⟩ := e
  cases ev with
  | connectionEstablished id peer endpoint =>
    refine List.nodup_cons.mpr ⟨fun h => ?_, hn⟩
    obtain ⟨c, hc, hid⟩ := List.mem_map.mp h
    exact he c hc hid
  | connectionClosed id peer endpoint => exact hn.sublist (List.filter_sublist.map _)
  | _ => exact hn

theorem Network.admittedFrom_close (hn : n.DistinctIds) {c : Conn} (hc : c ∈ n.conns)
    (ip : IpAddr) : n.admittedFrom ip =
      (n.step crates config (env, .connectionClosed c.id c.peer c.endpoint)).admittedFrom ip +
        if c.admitted && c.ip == some ip then 1 else 0 := by
  rw [Network.admittedFrom, (perm_close hn hc).countP_eq, List.countP_cons]
  rfl

theorem Network.read_close (c : Conn) (ip : IpAddr) :
    Maps.read (n.step crates config
        (env, .connectionClosed c.id c.peer c.endpoint)).node.ipCounts 0 ip =
      Maps.read n.node.ipCounts 0 ip - if c.ip = some ip then 1 else 0 := by
  simp only [Network.step, handleEvent, connectionClosed, Outcome.emit_state]
  exact read_releaseIp _ _ _

theorem Network.admittedFrom_eq_zero (n : Network) (ip : IpAddr) :
    n.admittedFrom ip = 0 ↔ ∀ c ∈ n.conns, c.admitted = true → c.ip ≠ some ip := by
  simp [Network.admittedFrom, List.countP_eq_zero]

theorem Network.close_countsExact_iff (hn : n.DistinctIds) {c : Conn} (hc : c ∈ n.conns)
    (hex : n.CountsExact config) :
    (n.step crates config (env, .connectionClosed c.id c.peer c.endpoint)).CountsExact config ↔
      ∀ ip, c.admitted = false → c.ip = some ip → n.admittedFrom ip = 0 := by
  constructor
  · intro h ip hadm hip
    have hafter := h ip
    have hbefore := hex ip
    have hconns := @Network.admittedFrom_close crates config n env hn c hc ip
    rw [Network.read_close, if_pos hip] at hafter
    simp only [hadm, Bool.false_and, Bool.false_eq_true, if_false] at hconns
    omega
  · intro h ip
    have hbefore := hex ip
    have hconns := @Network.admittedFrom_close crates config n env hn c hc ip
    rw [Network.read_close]
    by_cases hip : c.ip = some ip
    · cases hadm : c.admitted with
      | false =>
        have hzero := h ip hadm hip
        simp only [hip, if_true]
        omega
      | true =>
        simp only [hadm, hip, Bool.true_and, beq_self_eq_true, if_true] at hconns ⊢
        omega
    · simp only [hip, beq_iff_eq, Bool.and_eq_true, and_false, if_false] at hconns ⊢
      omega

theorem Network.step_countsExact_iff (hlimit : 0 < config.ipLimit) (n : Network)
    (e : Env × SwarmEvent) (hn : n.DistinctIds) (he : n.Valid e) (hex : n.CountsExact config) :
    (n.step crates config e).CountsExact config ↔ n.ClosesOwnCount e := by
  obtain ⟨env, ev⟩ := e
  cases ev with
  | connectionEstablished id peer endpoint =>
    refine iff_of_true (fun ip => ?_) trivial
    obtain ⟨hcount, hle⟩ := hex ip
    have hread := read_ipGuard hlimit n.node.ipCounts endpoint ip
    have hconns : (n.step crates config
        (env, .connectionEstablished id peer endpoint)).admittedFrom ip =
        n.admittedFrom ip + if (ipGuard config.ipLimit n.node.ipCounts endpoint).2 &&
          multiaddrIp endpoint.getRemoteAddress == some ip then 1 else 0 := List.countP_cons
    simp only [Network.step, handleEvent, connectionEstablished_ipCounts] at hconns ⊢
    rw [hread, hconns, hcount]
    refine ⟨rfl, ?_⟩
    split
    case isTrue h =>
      simp only [Bool.and_eq_true, beq_iff_eq] at h
      have hbound := ipGuard_le_limit hlimit h.1 h.2
      omega
    case isFalse => exact hle
  | connectionClosed id peer endpoint =>
    obtain ⟨c, hc, rfl, rfl, rfl⟩ := he
    rw [Network.close_countsExact_iff hn hc hex]
    constructor
    · intro h d hd hid hadm ip hip
      rw [List.inj_on_of_nodup_map hn hd hc hid] at hadm hip
      exact (n.admittedFrom_eq_zero ip).mp (h ip hadm hip)
    · intro h ip hadm hip
      exact (n.admittedFrom_eq_zero ip).mpr (h c hc rfl hadm ip hip)
  | _ =>
    refine iff_of_true (fun ip => ⟨?_, (hex ip).2⟩) trivial
    refine Eq.trans ?_ (hex ip).1
    exact congrArg (Maps.read · 0 ip) (handleEvent_frame crates config env n.node _ (by exact id)).1

theorem Network.step_connectedExact_iff (n : Network) (e : Env × SwarmEvent)
    (hn : n.DistinctIds) (he : n.Valid e) (hex : n.ConnectedExact) :
    (n.step crates config e).ConnectedExact ↔ n.ClosesLast e := by
  obtain ⟨env, ev⟩ := e
  cases ev with
  | connectionEstablished id peer endpoint =>
    refine iff_of_true (fun p => ?_) trivial
    have hbefore := hex p
    simp only [Network.step, handleEvent, connectionEstablished_connected, List.mem_cons,
      exists_eq_or_imp]
    cases hadm : (ipGuard config.ipLimit n.node.ipCounts endpoint).2 with
    | false => simpa using hbefore
    | true =>
      rw [if_pos rfl, Finset.mem_insert, hbefore]
      exact or_congr_left ⟨fun h => ⟨rfl, h.symm⟩, fun h => h.2.symm⟩
  | connectionClosed id peer endpoint =>
    simp only [Network.ConnectedExact, Network.ClosesLast, Network.step, handleEvent,
      connectionClosed, Outcome.emit_state, Finset.mem_erase, List.mem_filter, decide_eq_true_eq]
    constructor
    · intro h c hc hid hpeer
      cases hadm : c.admitted with
      | false => rfl
      | true => exact absurd hpeer (((h c.peer).mpr ⟨c, ⟨hc, hid⟩, hadm, rfl⟩).1)
    · intro h p
      constructor
      · intro hp
        obtain ⟨c, hc, hadm, rfl⟩ := (hex p).mp hp.2
        obtain ⟨d, hd, hid, hpeer, -⟩ := he
        refine ⟨c, ⟨hc, fun hc' => hp.1 ?_⟩, hadm, rfl⟩
        rw [List.inj_on_of_nodup_map hn hc hd (hc'.trans hid.symm), hpeer]
      · intro hopen
        obtain ⟨c, ⟨hc, hid⟩, hadm, rfl⟩ := hopen
        refine ⟨fun hpeer => ?_, (hex c.peer).mpr ⟨c, hc, hadm, rfl⟩⟩
        rw [h c hc hid hpeer] at hadm
        cases hadm
  | _ =>
    refine iff_of_true (fun p => Iff.trans (Eq.to_iff ?_) (hex p)) trivial
    exact congrArg (p ∈ ·) (handleEvent_frame crates config env n.node _ (by exact id)).2

theorem Network.init_distinctIds : Network.DistinctIds {} := List.nodup_nil

/-- With a positive limit, the per-IP counts are exact and within the limit in every state
of a run exactly if no refused connection closes while an admitted one from its IP is open. -/
theorem ip_counts_exact_iff (crates : Crates) (config : NodeConfig)
    (events : List (Env × SwarmEvent)) (hlimit : 0 < config.ipLimit)
    (hvalid : EachStep (Network.step crates config) Network.Valid {} events) :
    EveryState (Network.step crates config) (Network.CountsExact config) {} events ↔
      EachStep (Network.step crates config) Network.ClosesOwnCount {} events := by
  refine everyState_iff Network.step_distinctIds (Network.step_countsExact_iff hlimit)
    Network.init_distinctIds (fun ip => ?_) hvalid
  exact ⟨rfl, Nat.zero_le _⟩

def sampleConfig (ipLimit : Nat) : NodeConfig where
  localCluster := 1
  localMeta := ⟨some 1, [0, 1, 2, 3, 4, 5, 6, 7]⟩
  storeEnabled := true
  ipLimit := ipLimit

def sampleEnv : Env := ⟨0, 0, true⟩

def loopback (port : UInt8) : ConnectedPoint := .listener [] [.ip4 0x7f000001, .other 6 [0, port]]

def twoPeers : List (Env × SwarmEvent) :=
  [(sampleEnv, .connectionEstablished 1 ⟨[1]⟩ (loopback 1)),
   (sampleEnv, .connectionEstablished 2 ⟨[2]⟩ (loopback 2)),
   (sampleEnv, .connectionClosed 1 ⟨[1]⟩ (loopback 1)),
   (sampleEnv, .connectionClosed 2 ⟨[2]⟩ (loopback 2))]

theorem twoPeers_valid (crates : Crates) (config : NodeConfig) :
    EachStep (Network.step crates config) Network.Valid {} twoPeers := by
  refine ⟨?_, ?_, ?_, ?_, trivial⟩
  · intro c hc
    cases hc
  · intro c hc
    cases List.mem_singleton.mp hc
    exact (by decide : 1 ≠ 2)
  · exact ⟨_, List.mem_cons_of_mem _ (List.mem_singleton_self _), rfl, rfl, rfl⟩
  · exact ⟨_, List.mem_singleton_self _, rfl, rfl, rfl⟩

theorem ip_counts_exact_sample :
    ((twoPeers.take 2).foldl (Network.step Crates.standard (sampleConfig 1)) {}).conns.map
        Conn.admitted = [false, true] ∧
      EveryState (Network.step Crates.standard (sampleConfig 1))
        (Network.CountsExact (sampleConfig 1)) {} twoPeers := by
  refine ⟨by decide +kernel, ?_⟩
  refine (ip_counts_exact_iff _ _ _ (Nat.zero_lt_succ 0) (twoPeers_valid _ _)).mpr
    ⟨trivial, trivial, ?_, ?_, trivial⟩
  · intro c hc hid hadm
    obtain rfl | hfirst := List.mem_cons.mp hc
    · cases hid
    · cases List.mem_singleton.mp hfirst
      cases hadm
  · intro c _ _ _ ip _ c' hc' hadm
    cases List.mem_singleton.mp hc'
    cases hadm

/- With one connection per IP: a second one is refused, and its close frees the slot of the
first, so that a third one is admitted. -/
def refusedClose : List (Env × SwarmEvent) :=
  [(sampleEnv, .connectionEstablished 1 ⟨[1]⟩ (loopback 1)),
   (sampleEnv, .connectionEstablished 2 ⟨[2]⟩ (loopback 2)),
   (sampleEnv, .connectionClosed 2 ⟨[2]⟩ (loopback 2)),
   (sampleEnv, .connectionEstablished 3 ⟨[3]⟩ (loopback 3))]

theorem ip_counts_refused_close :
    EachStep (Network.step Crates.standard (sampleConfig 1)) Network.Valid {} refusedClose ∧
    (refusedClose.foldl (Network.step Crates.standard (sampleConfig 1)) {}).admittedFrom
      (.v4 0x7f000001) = 2 ∧
    ¬EveryState (Network.step Crates.standard (sampleConfig 1))
      (Network.CountsExact (sampleConfig 1)) {} refusedClose := by
  have htwo : (refusedClose.foldl (Network.step Crates.standard (sampleConfig 1)) {}).admittedFrom
      (.v4 0x7f000001) = 2 := by decide +kernel
  refine ⟨⟨?_, ?_, ?_, ?_, trivial⟩, htwo, fun h => ?_⟩
  · intro c hc
    cases hc
  · change ∀ c ∈ Network.conns _, c.id ≠ 2
    decide +kernel
  · exact ⟨_, List.mem_cons_self, rfl, rfl, rfl⟩
  · change ∀ c ∈ Network.conns _, c.id ≠ 3
    decide +kernel
  · have hle := (h _ (List.prefix_refl _) (.v4 0x7f000001)).2
    rw [htwo] at hle
    exact absurd hle (by decide)

/-- The connected set is exact in every state of a run exactly if each connection closes
while its peer has no other admitted connection open. -/
theorem connected_exact_iff (crates : Crates) (config : NodeConfig)
    (events : List (Env × SwarmEvent))
    (hvalid : EachStep (Network.step crates config) Network.Valid {} events) :
    EveryState (Network.step crates config) Network.ConnectedExact {} events ↔
      EachStep (Network.step crates config) Network.ClosesLast {} events := by
  refine everyState_iff Network.step_distinctIds Network.step_connectedExact_iff
    Network.init_distinctIds (fun p => ?_) hvalid
  simp

theorem connected_exact_sample :
    ((twoPeers.take 2).foldl (Network.step Crates.standard (sampleConfig 20)) {}).conns.map
        Conn.admitted = [true, true] ∧
      EveryState (Network.step Crates.standard (sampleConfig 20)) Network.ConnectedExact {}
        twoPeers := by
  refine ⟨by decide +kernel, ?_⟩
  refine (connected_exact_iff _ _ _ (twoPeers_valid _ _)).mpr ⟨trivial, trivial, ?_, ?_, trivial⟩
  · intro c hc hid hpeer
    obtain rfl | hfirst := List.mem_cons.mp hc
    · cases hpeer
    · cases List.mem_singleton.mp hfirst
      exact absurd rfl hid
  · intro c hc hid
    cases List.mem_singleton.mp hc
    exact absurd rfl hid

def twoConnections : List (Env × SwarmEvent) :=
  [(sampleEnv, .connectionEstablished 1 ⟨[1]⟩ (loopback 1)),
   (sampleEnv, .connectionEstablished 2 ⟨[1]⟩ (loopback 2)),
   (sampleEnv, .connectionClosed 1 ⟨[1]⟩ (loopback 1))]

theorem connected_two_connections :
    EachStep (Network.step Crates.standard (sampleConfig 20)) Network.Valid {} twoConnections ∧
    ¬EveryState (Network.step Crates.standard (sampleConfig 20)) Network.ConnectedExact {}
      twoConnections := by
  refine ⟨⟨?_, ?_, ?_, trivial⟩, fun h => ?_⟩
  · intro c hc
    cases hc
  · change ∀ c ∈ Network.conns _, c.id ≠ 2
    decide +kernel
  · exact ⟨_, List.mem_cons_of_mem _ (List.mem_singleton_self _), rfl, rfl, rfl⟩
  · have hlast := h _ (List.prefix_refl _) ⟨[1]⟩
    revert hlast
    decide +kernel

end RsWaku
