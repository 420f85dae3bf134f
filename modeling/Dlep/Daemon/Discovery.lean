-- SUMMARY: The discovery task of both daemons, and the connected routers that keep a modem from answering.
import Dlep.Fsm.Offers
import Dlep.Lib.FinMap
import Dlep.Lib.Machine
import Dlep.Net.Datagrams

/-!
# The discovery task

`discovery.rs` of the daemon crate drives either discovery state machine: it reads
datagrams, timer expiries and the shutdown request, and carries out the actions. A
failed send is logged and nothing else, so no action stops the task. The modem's
task shares the table of connected routers (`connections.rs`) with its accept loop.
-/

namespace Dlep

/-! ## Connected routers -/

/-- `Ipv6Addr::to_ipv4_mapped`: the IPv4 address in `::ffff:0:0/96`. -/
def Ipv6Addr.toIpv4Mapped (a : Ipv6Addr) : Option Ipv4Addr :=
  if a >>> 32 = 0xffff then some (a.setWidth 32) else none

/-- `RouterAddress`: an address and, for link-local ones, the interface. -/
abbrev RouterAddress : Type := IpAddr × UInt32

/-- `router_address`. -/
def routerAddress : SocketAddr → RouterAddress
  | .v6 ip _ _ scopeId =>
    match ip.toIpv4Mapped with
    | some v4 => (.v4 v4, 0)
    | none => (.v6 ip, if ip.isUnicastLinkLocal then scopeId else 0)
  | .v4 ip _ => (.v4 ip, 0)

/-- `ConnectedRouters`: how many connections each router has. -/
structure ConnectedRouters where
  peers : FinMap RouterAddress ℕ

namespace ConnectedRouters

/-- `ConnectedRouters::default()`. -/
def default : ConnectedRouters := ⟨∅⟩

def contains (routers : ConnectedRouters) (peer : SocketAddr) : Bool :=
  (routers.peers.lookup (routerAddress peer)).isSome

/-- `register`; the guard it returns holds the address. -/
def register (routers : ConnectedRouters) (peer : SocketAddr) : ConnectedRouters × RouterAddress :=
  let address := routerAddress peer
  (⟨routers.peers.insert address ((routers.peers.lookup address).getD 0 + 1)⟩, address)

/-- Dropping a `RouterConnection`: the entry must exist and its count must not be zero. -/
def release (routers : ConnectedRouters) (address : RouterAddress) : Outcome ConnectedRouters := do
  let count ← expectSome "called `Option::unwrap()` on a `None` value" (routers.peers.lookup address)
  match count with
  | 0 => .error (.expect "attempt to subtract with overflow")
  | n + 1 =>
    if n = 0 then .ok ⟨routers.peers.erase address⟩
    else .ok ⟨routers.peers.insert address n⟩

/-- The table counts the guards that are held. -/
def Counts (routers : ConnectedRouters) (guards : List RouterAddress) : Prop :=
  ∀ address, routers.peers.lookup address =
    if guards.count address = 0 then none else some (guards.count address)

theorem counts_default : ConnectedRouters.default.Counts [] := by
  intro address
  rfl

variable {routers : ConnectedRouters} {guards : List RouterAddress}

theorem Counts.perm (h : routers.Counts guards) {guards' : List RouterAddress}
    (hperm : guards.Perm guards') : routers.Counts guards' := by
  intro address
  rw [h address, hperm.count_eq]

theorem Counts.register (h : routers.Counts guards) (peer : SocketAddr) :
    (routers.register peer).1.Counts ((routers.register peer).2 :: guards) := by
  intro address
  unfold ConnectedRouters.register
  simp only [FinMap.lookup_insert_eq, h (routerAddress peer), List.count_cons]
  by_cases haddress : address = routerAddress peer
  · subst haddress
    by_cases hzero : guards.count (routerAddress peer) = 0 <;> simp [hzero]
  · simp [haddress, h address, Ne.symm haddress]

/-- A guard that is held can be dropped without a panic. -/
theorem Counts.release (h : routers.Counts guards) {address : RouterAddress}
    (hheld : address ∈ guards) :
    ∃ routers', routers.release address = .ok routers' ∧
      routers'.Counts (guards.erase address) := by
  obtain ⟨n, hn⟩ : ∃ n, guards.count address = n + 1 :=
    Nat.exists_eq_succ_of_ne_zero (List.count_pos_iff.mpr hheld).ne'
  have hlookup : routers.peers.lookup address = some (n + 1) := by simp [h address, hn]
  unfold ConnectedRouters.release
  rw [hlookup]
  have hcount : ∀ other, (guards.erase address).count other =
      if other = address then n else guards.count other := by
    intro other
    rw [List.count_erase]
    by_cases hother : other = address
    · simp [hother, hn]
    · simp [hother, Ne.symm hother]
  by_cases hzero : n = 0
  · refine ⟨⟨routers.peers.erase address⟩, by simp [hzero, bind, Except.bind], fun other => ?_⟩
    rw [FinMap.lookup_erase_eq, h other, hcount]
    split
    · simp
    · rfl
  · refine ⟨⟨routers.peers.insert address n⟩, by simp [hzero, bind, Except.bind], fun other => ?_⟩
    rw [FinMap.lookup_insert_eq, h other, hcount]
    split
    · simp
    · rfl

/-- A router is in the table exactly while one of its connections is held. -/
theorem Counts.contains (h : routers.Counts guards) (peer : SocketAddr) :
    routers.contains peer = true ↔ routerAddress peer ∈ guards := by
  unfold ConnectedRouters.contains
  rw [h (routerAddress peer)]
  by_cases hheld : routerAddress peer ∈ guards
  · have hpos := List.count_pos_iff.mpr hheld
    simp [hheld, hpos.ne']
  · simp [hheld, List.count_eq_zero.mpr hheld]

end ConnectedRouters

/-! ## The task -/

/-- `DiscoveryFsm`. -/
class DiscoveryFsm (F : Type) where
  step : F → FsmEvent → F × List FsmAction

instance : DiscoveryFsm RouterDiscoveryFsm := ⟨RouterDiscoveryFsm.step⟩

instance : DiscoveryFsm ModemDiscoveryFsm := ⟨ModemDiscoveryFsm.step⟩

structure PeerOffer where
  endpoints : List OfferEndpoint
  peerDescription : Option String
  deriving DecidableEq, Repr

/-- What the task does to the world: bytes handed to the kernel, and events for its
subscribers. -/
inductive DiscoveryEffect where
  | sent (dest : SocketAddr) (bytes : List UInt8)
  | discovered (offer : PeerOffer)
  deriving DecidableEq, Repr

structure ArmedTimer where
  kind : TimerKind
  duration : Duration
  periodic : Bool
  deriving DecidableEq, Repr

/-- The locals of `run_discovery_io`. `running` ends with the loop; `receiveAfter` is in
milliseconds. -/
structure DiscoveryTask (F : Type) where
  fsm : F
  socket : DiscoverySocket
  timers : FinMap TimerId ArmedTimer
  receiveAfter : ℕ
  running : Bool

/-- A wildcard Connection Point takes the address of the ingress interface. -/
def DataItem.replaceWildcard (localAddr : IpAddr) : DataItem → DataItem
  | .ipv4ConnectionPoint flags addr port =>
    match localAddr with
    | .v4 ip => .ipv4ConnectionPoint flags (if addr.isUnspecified then ip else addr) port
    | .v6 _ => .ipv4ConnectionPoint flags addr port
  | .ipv6ConnectionPoint flags addr port =>
    match localAddr with
    | .v4 _ => .ipv6ConnectionPoint flags addr port
    | .v6 ip => .ipv6ConnectionPoint flags (if addr.isUnspecified then ip else addr) port
  | item => item

def Signal.replaceWildcards (localAddr : IpAddr) (signal : Signal) : Signal :=
  { signal with dataItems := signal.dataItems.map (DataItem.replaceWildcard localAddr) }

/-- `translate`. -/
def translateDiscovery : EmittedEvent → Option PeerOffer
  | .peerDiscovered endpoints peerDescription => some ⟨endpoints, peerDescription⟩
  | _ => none

/-- Link-local endpoints are reached through the ingress interface. -/
def PeerOffer.scoped (index : UInt32) (offer : PeerOffer) : PeerOffer :=
  { offer with endpoints := offer.endpoints.map fun e =>
      { e with addr := e.addr.scopeLinkLocal index } }

namespace DiscoveryTask

variable {F : Type} [DiscoveryFsm F]

/-- One action of `process_actions`. -/
def perform (t : DiscoveryTask F) (localAddr : Option IpAddr) (interfaceIndex : Option UInt32) :
    FsmAction → DiscoveryTask F × List DiscoveryEffect
  | .sendSignal signal .discoveryGroup =>
    (t, ((t.socket.sendToGroup signal).map (.sent t.socket.group)).toList)
  | .sendSignal signal (.unicast addr) =>
    let signal :=
      match localAddr with
      | some localAddr => signal.replaceWildcards localAddr
      | none => signal
    (t, ((t.socket.sendUnicast signal addr).map (.sent addr)).toList)
  | .startTimer id kind duration periodic =>
    ({ t with timers := t.timers.insert id ⟨kind, duration, periodic⟩ }, [])
  | .cancelTimer id => ({ t with timers := t.timers.erase id }, [])
  | .emit event =>
    match translateDiscovery event with
    | none => (t, [])
    | some offer =>
      match interfaceIndex with
      | some index => (t, [.discovered (offer.scoped index)])
      | none => (t, [.discovered offer])
  -- Actions of the session domain are ignored.
  | .resetHeartbeat .. | .sendMessage _ | .closeTcp => (t, [])

/-- `process_actions`. -/
def processActions (t : DiscoveryTask F) (localAddr : Option IpAddr)
    (interfaceIndex : Option UInt32) : List FsmAction → DiscoveryTask F × List DiscoveryEffect
  | [] => (t, [])
  | action :: actions =>
    let (t, first) := t.perform localAddr interfaceIndex action
    let (t, rest) := t.processActions localAddr interfaceIndex actions
    (t, first ++ rest)

/-- Step the state machine and carry out its actions. -/
def feed (t : DiscoveryTask F) (event : FsmEvent) (localAddr : Option IpAddr)
    (interfaceIndex : Option UInt32) : DiscoveryTask F × List DiscoveryEffect :=
  let (fsm, actions) := DiscoveryFsm.step t.fsm event
  processActions { t with fsm := fsm } localAddr interfaceIndex actions

/-- Up to the loop. -/
def spawn (fsm : F) (socket : DiscoverySocket) (now : ℕ) (initialEvent : Option FsmEvent) :
    DiscoveryTask F × List DiscoveryEffect :=
  let t : DiscoveryTask F := ⟨fsm, socket, ∅, now, true⟩
  match initialEvent with
  | some event => t.feed event none none
  | none => (t, [])

end DiscoveryTask

/-- What the loop waits for: a datagram read at a time, an expiry in the timer channel, or
the shutdown request. -/
inductive DiscoveryInput where
  | datagram (now : ℕ) (d : Datagram)
  | timer (id : TimerId) (kind : TimerKind)
  | shutdown
  deriving DecidableEq, Repr

namespace DiscoveryTask

variable {F : Type} [DiscoveryFsm F]

/-- The arm of the socket; `suppressed` says whether the sender has a connection. -/
def onDatagram (t : DiscoveryTask F) (suppressed : SocketAddr → Bool) (now : ℕ) (d : Datagram) :
    DiscoveryTask F × List DiscoveryEffect :=
  if now < t.receiveAfter then (t, [])
  else
    match t.socket.receive d with
    | .filtered => (t, [])
    | .failed error =>
      if error.isInvalidData then (t, []) else ({ t with receiveAfter := now + 100 }, [])
    | .received r =>
      if r.signal.signalType = .peerDiscovery ∧ suppressed r.source then (t, [])
      else t.feed (.recvSignal r.signal r.source) (some r.localAddr) (some r.interfaceIndex)

/-- One turn of the loop. When it returns, the timers are dropped. -/
def turn (t : DiscoveryTask F) (suppressed : SocketAddr → Bool) :
    DiscoveryInput → DiscoveryTask F × List DiscoveryEffect
  | .datagram now d => if t.running then t.onDatagram suppressed now d else (t, [])
  | .timer id kind => if t.running then t.feed (.timerExpired id kind) none none else (t, [])
  | .shutdown =>
    if t.running then
      let (t, effects) := t.feed (.appShutdown .shuttingDown) none none
      ({ t with timers := ∅, running := false }, effects)
    else (t, [])

/-! ## What a turn does -/

omit [DiscoveryFsm F] in
@[simp] theorem processActions_nil (t : DiscoveryTask F) (localAddr : Option IpAddr)
    (interfaceIndex : Option UInt32) :
    t.processActions localAddr interfaceIndex [] = (t, []) := rfl

omit [DiscoveryFsm F] in
theorem processActions_singleton (t : DiscoveryTask F) (localAddr : Option IpAddr)
    (interfaceIndex : Option UInt32) (action : FsmAction) :
    t.processActions localAddr interfaceIndex [action] =
      t.perform localAddr interfaceIndex action := by
  simp only [processActions, List.append_nil]

theorem turn_stopped {t : DiscoveryTask F} (hstopped : t.running = false)
    (suppressed : SocketAddr → Bool) (input : DiscoveryInput) :
    t.turn suppressed input = (t, []) := by
  cases input <;> simp [turn, hstopped]

end DiscoveryTask

/-! ### The router's task -/

/-- The bytes of a probe, if it can be sent. -/
def RouterDiscoveryConfig.probe (config : RouterDiscoveryConfig) (socket : DiscoverySocket) :
    List DiscoveryEffect :=
  ((socket.sendToGroup (buildPeerDiscovery config.peerDescription)).map
    (.sent socket.group)).toList

/-- What a probing router reports of a received signal. -/
def ReceivedSignal.report (r : ReceivedSignal) : List DiscoveryEffect :=
  if r.signal.signalType = .peerOffer ∧ validSignal r.signal = true ∧
      offerEndpoints r.signal r.source ≠ [] then
    [.discovered (PeerOffer.scoped r.interfaceIndex
      ⟨offerEndpoints r.signal r.source, extractPeerDescription r.signal⟩)]
  else []

namespace DiscoveryTask

/-- The router probes as long as its task runs, and only then has its timer. -/
structure Probing (config : RouterDiscoveryConfig) (socket : DiscoverySocket)
    (t : DiscoveryTask RouterDiscoveryFsm) : Prop where
  configured : t.fsm.config = config
  bound : t.socket = socket
  running : t.running = true → t.fsm.state = .probing ∧
    t.timers = (∅ : FinMap TimerId ArmedTimer).insert TIMER_DISCOVERY
      ⟨.discovery, config.discoveryInterval, true⟩
  stopped : t.running = false → t.fsm.state = .idle ∧ t.timers = ∅

variable {config : RouterDiscoveryConfig} {socket : DiscoverySocket}
  {t : DiscoveryTask RouterDiscoveryFsm}

theorem spawn_router (config : RouterDiscoveryConfig) (socket : DiscoverySocket) (now : ℕ) :
    (spawn (RouterDiscoveryFsm.withConfig config) socket now (some .appStartDiscovery)).2 =
        config.probe socket ∧
      Probing config socket
        (spawn (RouterDiscoveryFsm.withConfig config) socket now (some .appStartDiscovery)).1 := by
  refine ⟨by simp [spawn, feed, DiscoveryFsm.step, RouterDiscoveryFsm.step,
    RouterDiscoveryFsm.withConfig, RouterDiscoveryFsm.probe, processActions, perform,
    RouterDiscoveryConfig.probe], ⟨rfl, rfl, fun _ => ⟨rfl, rfl⟩, fun h => ?_⟩⟩
  cases h

/-- The router on a received signal. -/
theorem feed_recvSignal_router (hprobing : t.fsm.state = .probing) (r : ReceivedSignal) :
    t.feed (.recvSignal r.signal r.source) (some r.localAddr) (some r.interfaceIndex) =
      (t, r.report) := by
  unfold feed ReceivedSignal.report
  simp only [DiscoveryFsm.step, RouterDiscoveryFsm.step, hprobing]
  by_cases hoffer : r.signal.signalType = .peerOffer
  · by_cases hvalid : validSignal r.signal = true
    · by_cases hsome : offerEndpoints r.signal r.source = []
      · simp [hoffer, hvalid, hsome]
      · simp [hoffer, hvalid, hsome, processActions_singleton, perform, translateDiscovery]
    · simp [hoffer, hvalid]
  · simp [hoffer]

/-- What the router's task does with an input while it runs. -/
def routerResponse (config : RouterDiscoveryConfig) (t : DiscoveryTask RouterDiscoveryFsm) :
    DiscoveryInput → List DiscoveryEffect
  | .datagram now d =>
    if now < t.receiveAfter then []
    else
      match t.socket.receive d with
      | .received r => r.report
      | _ => []
  | .timer _ kind => if kind = .discovery then config.probe t.socket else []
  | .shutdown => []

theorem onDatagram_router (config : RouterDiscoveryConfig) (hprobing : t.fsm.state = .probing)
    (now : ℕ) (d : Datagram) :
    ∃ receiveAfter, t.onDatagram (fun _ => false) now d =
      ({ t with receiveAfter := receiveAfter }, t.routerResponse config (.datagram now d)) := by
  unfold onDatagram routerResponse
  by_cases hnow : now < t.receiveAfter
  · exact ⟨t.receiveAfter, by simp [hnow]⟩
  · cases hreceive : t.socket.receive d with
    | filtered => exact ⟨t.receiveAfter, by simp [hnow, hreceive]⟩
    | failed error =>
      cases herror : error.isInvalidData with
      | true => exact ⟨t.receiveAfter, by simp [hnow, hreceive, herror]⟩
      | false => exact ⟨now + 100, by simp [hnow, hreceive, herror]⟩
    | received r =>
      exact ⟨t.receiveAfter, by simp [hnow, hreceive, feed_recvSignal_router hprobing]⟩

/-- Every turn of the router's task: what it does, and that it goes on probing. -/
theorem Probing.turn (h : Probing config socket t) (input : DiscoveryInput) :
    (t.turn (fun _ => false) input).2 =
        (if t.running then t.routerResponse config input else []) ∧
      Probing config socket (t.turn (fun _ => false) input).1 ∧
      (t.turn (fun _ => false) input).1.running = (t.running && decide (input ≠ .shutdown)) := by
  cases hrunning : t.running with
  | false =>
    rw [turn_stopped hrunning]
    exact ⟨rfl, h, hrunning⟩
  | true =>
    obtain ⟨hprobing, htimers⟩ := h.running hrunning
    cases input with
    | datagram now d =>
      obtain ⟨receiveAfter, heq⟩ := onDatagram_router config hprobing now d
      rw [show t.turn (fun _ => false) (.datagram now d) = _ from if_pos hrunning, heq]
      exact ⟨rfl, ⟨h.configured, h.bound, h.running, h.stopped⟩, hrunning⟩
    | timer id kind =>
      rw [show t.turn (fun _ => false) (.timer id kind) = _ from if_pos hrunning]
      by_cases hkind : kind = .discovery
      · subst hkind
        have hfeed : t.feed (.timerExpired id .discovery) none none = (t, config.probe t.socket) := by
          simp [feed, DiscoveryFsm.step, RouterDiscoveryFsm.step, hprobing,
            RouterDiscoveryFsm.probe, processActions_singleton, perform,
            RouterDiscoveryConfig.probe, h.configured]
        rw [hfeed]
        exact ⟨rfl, h, hrunning⟩
      · have hfeed : t.feed (.timerExpired id kind) none none = (t, []) := by
          cases kind <;> first
            | rfl
            | exact absurd rfl hkind
        rw [hfeed]
        exact ⟨by simp [routerResponse, hkind], h, hrunning⟩
    | shutdown =>
      refine ⟨?_, ⟨?_, ?_, ?_, ?_⟩, ?_⟩
      all_goals simp [DiscoveryTask.turn, hrunning, feed, DiscoveryFsm.step, RouterDiscoveryFsm.step,
        hprobing, processActions_singleton, perform, routerResponse, h.configured, h.bound]

end DiscoveryTask

/-! ### The modem's task -/

/-- A wildcard listener is reached at the address of the ingress interface. -/
def SocketAddr.reachableAt (localAddr : IpAddr) : SocketAddr → SocketAddr
  | .v4 ip port =>
    match localAddr with
    | .v4 l => .v4 (if ip.isUnspecified then l else ip) port
    | .v6 _ => .v4 ip port
  | .v6 ip port flowinfo scopeId =>
    match localAddr with
    | .v4 _ => .v6 ip port flowinfo scopeId
    | .v6 l => .v6 (if ip.isUnspecified then l else ip) port flowinfo scopeId

/-- An offer with its wildcard replaced is the offer of the listener's reachable address. -/
theorem replaceWildcards_peerOffer (localAddr : IpAddr) (description : String)
    (endpoint : SocketAddr) (useTls : Bool) :
    (buildPeerOffer description endpoint useTls).replaceWildcards localAddr =
      buildPeerOffer description (endpoint.reachableAt localAddr) useTls := by
  cases endpoint <;> cases localAddr <;> rfl

/-- The offer a modem answers a received signal with, if it can be sent. -/
def ModemDiscoveryFsm.answer (fsm : ModemDiscoveryFsm) (socket : DiscoverySocket)
    (r : ReceivedSignal) : List DiscoveryEffect :=
  ((socket.sendUnicast (buildPeerOffer fsm.peerDescription
    (fsm.tcpEndpoint.reachableAt r.localAddr) fsm.useTls) r.source).map (.sent r.source)).toList

namespace DiscoveryTask

variable {t : DiscoveryTask ModemDiscoveryFsm}

/-- What stays of a modem's task in every turn. -/
structure SameModem (t t' : DiscoveryTask ModemDiscoveryFsm) : Prop where
  tcpEndpoint : t'.fsm.tcpEndpoint = t.fsm.tcpEndpoint
  peerDescription : t'.fsm.peerDescription = t.fsm.peerDescription
  useTls : t'.fsm.useTls = t.fsm.useTls
  socket : t'.socket = t.socket

theorem SameModem.refl (t : DiscoveryTask ModemDiscoveryFsm) : SameModem t t := ⟨rfl, rfl, rfl, rfl⟩

/-- The modem on a received signal. -/
theorem feed_recvSignal_modem (r : ReceivedSignal) :
    (t.feed (.recvSignal r.signal r.source) (some r.localAddr) (some r.interfaceIndex)).2 =
        (if r.signal.signalType = .peerDiscovery ∧ validSignal r.signal = true then
          t.fsm.answer t.socket r else []) ∧
      SameModem t
        (t.feed (.recvSignal r.signal r.source) (some r.localAddr) (some r.interfaceIndex)).1 := by
  unfold feed
  simp only [DiscoveryFsm.step, ModemDiscoveryFsm.step]
  by_cases htype : r.signal.signalType = .peerDiscovery
  · by_cases hvalid : validSignal r.signal = true
    · simp only [htype, hvalid, ne_eq, not_true_eq_false, if_false, Bool.not_true, Bool.false_eq_true,
        processActions_singleton, perform, ModemDiscoveryFsm.offer, replaceWildcards_peerOffer,
        and_self, if_true]
      exact ⟨rfl, rfl, rfl, rfl, rfl⟩
    · simp only [htype, hvalid, ne_eq, not_true_eq_false, if_false, Bool.not_false, if_true,
        processActions_nil, and_false, Bool.false_eq_true]
      exact ⟨trivial, SameModem.refl t⟩
  · simp only [htype, ne_eq, not_false_eq_true, if_true, processActions_nil, false_and, if_false]
    exact ⟨trivial, SameModem.refl t⟩

/-- What the modem's task does with an input while it runs: it answers a valid Peer Discovery from
a router that has no connection. -/
def modemResponse (t : DiscoveryTask ModemDiscoveryFsm) (suppressed : SocketAddr → Bool) :
    DiscoveryInput → List DiscoveryEffect
  | .datagram now d =>
    if now < t.receiveAfter then []
    else
      match t.socket.receive d with
      | .received r =>
        if r.signal.signalType = .peerDiscovery ∧ validSignal r.signal = true ∧
            suppressed r.source = false then
          t.fsm.answer t.socket r
        else []
      | _ => []
  | _ => []

theorem onDatagram_modem (suppressed : SocketAddr → Bool) (now : ℕ) (d : Datagram) :
    (t.onDatagram suppressed now d).2 = t.modemResponse suppressed (.datagram now d) ∧
      SameModem t (t.onDatagram suppressed now d).1 := by
  by_cases hnow : now < t.receiveAfter
  · simp only [onDatagram, modemResponse, hnow, if_true]
    exact ⟨trivial, .refl t⟩
  · cases hreceive : t.socket.receive d with
    | filtered =>
      simp only [onDatagram, modemResponse, hnow, if_false, hreceive]
      exact ⟨trivial, .refl t⟩
    | failed error =>
      simp only [onDatagram, modemResponse, hnow, if_false, hreceive]
      split
      · exact ⟨rfl, .refl t⟩
      · exact ⟨rfl, rfl, rfl, rfl, rfl⟩
    | received r =>
      simp only [onDatagram, modemResponse, hnow, if_false, hreceive]
      by_cases hsuppressed : r.signal.signalType = .peerDiscovery ∧ suppressed r.source = true
      · rw [if_pos hsuppressed, if_neg (by simp [hsuppressed.2])]
        exact ⟨rfl, .refl t⟩
      · obtain ⟨heffects, hsame⟩ := feed_recvSignal_modem (t := t) r
        rw [if_neg hsuppressed]
        refine ⟨heffects.trans (if_congr ?_ rfl rfl), hsame⟩
        grind

/-- Every turn of a modem's task. -/
theorem turn_modem (suppressed : SocketAddr → Bool) (input : DiscoveryInput) :
    (t.turn suppressed input).2 = (if t.running then t.modemResponse suppressed input else []) ∧
      SameModem t (t.turn suppressed input).1 := by
  cases hrunning : t.running with
  | false =>
    rw [turn_stopped hrunning]
    exact ⟨rfl, .refl t⟩
  | true =>
    cases input with
    | timer id kind =>
      rw [show t.turn suppressed (.timer id kind) = _ from if_pos hrunning]
      exact ⟨rfl, .refl t⟩
    | shutdown =>
      rw [show t.turn suppressed .shutdown = _ from if_pos hrunning]
      exact ⟨rfl, rfl, rfl, rfl, rfl⟩
    | datagram now d =>
      rw [show t.turn suppressed (.datagram now d) = _ from if_pos hrunning]
      exact onDatagram_modem suppressed now d

end DiscoveryTask

end Dlep
