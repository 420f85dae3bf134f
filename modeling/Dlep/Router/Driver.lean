-- SUMMARY: The router's connection driver: reconnect queue, connection attempts, and the event loop over the registry and discovery offers.
import Dlep.Daemon.Connections
import Dlep.Fsm.Events
import Mathlib.Data.Finset.Sort

/-!
# The connection driver

`run_event_loop` of the router (`lib.rs`, `connect.rs`). The loop dials the configured
peers, follows discovery offers and re-dials what has dropped. It alternates between its
top, where it reads the registry's snapshot and starts queued peers, and a wait for one
of its branches.

The session tasks and the reaper change the registry at any time. A registration happens
only inside a connection attempt, as its last step before it completes; it is made under
the address that was dialled. What the loop reads of the clock and of the session budget
is an input of each move.
-/

namespace Dlep

/-! ## Reconnect queue -/

/-- In nanoseconds, as all times here. -/
def RECONNECT_BASE : ℕ := 1000000000
def RECONNECT_MAX : ℕ := 30000000000

structure ReconnectEntry where
  attempts : ℕ
  due : Option Instant
  deriving DecidableEq, Repr

structure ReconnectQueue where
  entries : FinMap SocketAddr ReconnectEntry
  deriving DecidableEq

namespace ReconnectQueue

def default : ReconnectQueue := ⟨∅⟩

def backoffFor (attempts : ℕ) : ℕ := min (RECONNECT_BASE * 2 ^ min attempts 16) RECONNECT_MAX

/-- A peer that is already queued keeps its backoff. -/
def schedule (q : ReconnectQueue) (addr : SocketAddr) (now : Instant) : ReconnectQueue :=
  match q.entries.lookup addr with
  | none => ⟨q.entries.insert addr ⟨0, some (now + backoffFor 0)⟩⟩
  | some entry =>
    match entry.due with
    | none =>
      ⟨q.entries.insert addr { entry with due := some (now + backoffFor entry.attempts) }⟩
    | some _ => q

def forget (q : ReconnectQueue) (addr : SocketAddr) : ReconnectQueue := ⟨q.entries.erase addr⟩

/-- Keep the attempts without a deadline. -/
def suspend (q : ReconnectQueue) (addr : SocketAddr) : ReconnectQueue :=
  match q.entries.lookup addr with
  | none => q
  | some entry => ⟨q.entries.insert addr { entry with due := none }⟩

def contains (q : ReconnectQueue) (addr : SocketAddr) : Bool := (q.entries.lookup addr).isSome

/-- The deadline of a peer. -/
def dueAt (q : ReconnectQueue) (addr : SocketAddr) : Option Instant :=
  (q.entries.lookup addr).bind ReconnectEntry.due

/-- The earliest deadline. -/
def nextDue (q : ReconnectQueue) : Option Instant :=
  ((q.entries.keys.sort (· ≤ ·)).filterMap q.dueAt).min?

/-- The peers that are due, the oldest first. -/
def duePeers (q : ReconnectQueue) (now : Instant) : List SocketAddr :=
  let due := q.entries.keys.filter fun addr => (q.dueAt addr).any fun at_ => decide (at_ ≤ now)
  let keys : Finset (Lex (Instant × SocketAddr)) :=
    due.image fun addr => toLex ((q.dueAt addr).getD 0, addr)
  (keys.sort (· ≤ ·)).map fun key => (ofLex key).2

/-- Count one more attempt and set the deadline of the next. -/
def rearm (now : Instant) (q : ReconnectQueue) (addr : SocketAddr) :
    Except RegistryPanic ReconnectQueue :=
  match q.entries.lookup addr with
  | none => .error .unwrap
  | some entry =>
    let attempts := min (entry.attempts + 1) (2 ^ 32 - 1)
    .ok ⟨q.entries.insert addr ⟨attempts, some (now + backoffFor attempts)⟩⟩

/-- Hand out the oldest due peers, up to `limit`. -/
def takeDueLimited (q : ReconnectQueue) (now : Instant) (limit : ℕ) :
    Except RegistryPanic (ReconnectQueue × List SocketAddr) := do
  let due := (q.duePeers now).take limit
  .ok (← due.foldlM (rearm now) q, due)

end ReconnectQueue

/-! ## Connection attempts -/

def MAX_CONNECT_ATTEMPTS : ℕ := 8

/-- An attempt in flight. The future it polls is not modelled: it may fail, or connect to
any of the endpoints. -/
structure ConnectAttempts.Attempt where
  endpoints : List SocketAddr
  retryPeer : Option SocketAddr
  deriving DecidableEq, Repr

structure ConnectAttempts where
  attempts : List ConnectAttempts.Attempt
  reserved : Finset SocketAddr
  deriving DecidableEq

namespace ConnectAttempts

def default : ConnectAttempts := ⟨[], ∅⟩

def capacity (a : ConnectAttempts) : ℕ := MAX_CONNECT_ATTEMPTS - a.attempts.length

def contains (a : ConnectAttempts) (peer : SocketAddr) : Bool := peer ∈ a.reserved

/-- The flag says whether the attempt was started. -/
def insert (a : ConnectAttempts) (endpoints : List SocketAddr) (retryPeer : Option SocketAddr) :
    ConnectAttempts × Bool :=
  if a.capacity = 0 || endpoints.isEmpty || endpoints.any a.contains then (a, false)
  else (⟨a.attempts ++ [⟨endpoints, retryPeer⟩], a.reserved ∪ endpoints.toFinset⟩, true)

def startStatic (a : ConnectAttempts) (peer : SocketAddr) : ConnectAttempts × Bool :=
  a.insert [peer] (some peer)

def startOffer (a : ConnectAttempts) (endpoints : List OfferEndpoint) : ConnectAttempts × Bool :=
  a.insert (endpoints.map OfferEndpoint.addr) none

/-- Drop the reservations of an attempt. -/
def release (reserved : Finset SocketAddr) (attempt : Attempt) : Finset SocketAddr :=
  reserved \ attempt.endpoints.toFinset

/-- Cancel the retries of peers that are not to be kept. A fresh offer has no retry peer. -/
def retainRetries (a : ConnectAttempts) (keep : SocketAddr → Bool) : ConnectAttempts where
  attempts := a.attempts.filter fun attempt => attempt.retryPeer.all keep
  reserved := (a.attempts.filter fun attempt => !attempt.retryPeer.all keep).foldl release a.reserved

/-- The completion of the attempt at an index. -/
def complete (a : ConnectAttempts) (i : ℕ) (attempt : Attempt) : ConnectAttempts :=
  ⟨a.attempts.eraseIdx i, release a.reserved attempt⟩

end ConnectAttempts

/-! ## The loop -/

inductive DiscoveryMode where
  | static
  | discovery
  deriving DecidableEq, Repr

/-- Where the loop is: at its top, waiting for a branch, or left. -/
inductive LoopPhase where
  | top
  | waiting
  | left
  deriving DecidableEq, Repr

/-- The local variables of the loop, and the registry it watches. `snapshot` is the one that
was read last, and `changed` says that a newer one was published. -/
structure ConnectionDriver where
  mode : DiscoveryMode
  pinned : Finset SocketAddr
  connected : Finset SocketAddr
  reconnect : ReconnectQueue
  attempts : ConnectAttempts
  startup : List SocketAddr
  establishments : FinMap SocketAddr ℕ
  refresh : Bool
  snapshot : FinMap SocketAddr PeerConnectionState
  nextDue : Option Instant
  phase : LoopPhase
  registry : ConnectionRegistry
  changed : Bool

/-- Whether a call sends a new snapshot to the watchers. -/
def ConnectionRegistry.publishes (r : ConnectionRegistry) : RegistryCall → Bool
  | .register .. => true
  | .established peer => peer ∈ r.trackers
  | .drop peer _ _ => peer ∈ r.trackers
  | .prune now => (r.pruneLocked r.history now).states.keys.card ≠ r.history.states.keys.card

namespace ConnectionDriver

/-- The static peers are dialled in static mode, and discovery runs only in the other. -/
def staticPeers (mode : DiscoveryMode) (configured : List SocketAddr) : List SocketAddr :=
  match mode with
  | .static => configured
  | .discovery => []

/-- `run`: static mode needs a peer. -/
def start (mode : DiscoveryMode) (configured : List SocketAddr) (registry : ConnectionRegistry) :
    ConnectionDriver where
  mode := mode
  pinned := (staticPeers mode configured).toFinset
  connected := ∅
  reconnect := .default
  attempts := .default
  startup := staticPeers mode configured
  establishments := ∅
  refresh := true
  snapshot := ∅
  nextDue := none
  phase := if mode = .static ∧ configured = [] then .left else .top
  registry := registry
  changed := false

/-! ### Reading the snapshot -/

/-- `prune_reconnect_state`: what left the snapshot is forgotten, but for the static peers. -/
def pruneReconnectState (d : ConnectionDriver) (states : FinMap SocketAddr PeerConnectionState) :
    ConnectionDriver :=
  { d with
    establishments := d.establishments.retain fun peer _ => (states.lookup peer).isSome
    connected := d.connected.filter fun peer => (states.lookup peer).isSome
    reconnect := ⟨d.reconnect.entries.retain fun peer _ =>
      (states.lookup peer).isSome || decide (peer ∈ d.pinned)⟩ }

/-- One iteration of `reconcile_connections`. -/
def reconcilePeer (now : Instant) (d : ConnectionDriver) (peer : SocketAddr)
    (state : PeerConnectionState) : ConnectionDriver :=
  let seen := (d.establishments.lookup peer).getD 0
  let reconnect :=
    if seen ≠ state.establishmentCount then d.reconnect.forget peer else d.reconnect
  let d := { d with establishments := d.establishments.insert peer state.establishmentCount }
  if 0 < state.activeSessions then
    { d with connected := insert peer d.connected, reconnect := reconnect.suspend peer }
  else { d with connected := d.connected.erase peer, reconnect := reconnect.schedule peer now }

def reconcileConnections (d : ConnectionDriver) (states : FinMap SocketAddr PeerConnectionState)
    (now : Instant) : ConnectionDriver :=
  (states.keys.sort (· ≤ ·)).foldl
    (fun d peer =>
      match states.lookup peer with
      | none => d
      | some state => reconcilePeer now d peer state) d

/-- Cancel the retries of peers that expired or were evicted. -/
def retainRetries (d : ConnectionDriver) (states : FinMap SocketAddr PeerConnectionState) :
    ConnectionDriver :=
  { d with
    attempts := d.attempts.retainRetries fun peer =>
      (states.lookup peer).isSome || decide (peer ∈ d.pinned) }

def readSnapshot (d : ConnectionDriver) (now : Instant) : ConnectionDriver :=
  let states := d.registry.watched
  let d := ((d.pruneReconnectState states).retainRetries states).reconcileConnections states now
  { d with refresh := false, changed := false, snapshot := states }

/-! ### The top of the loop -/

/-- Do not rearm the deadlines of peers that are being dialled. -/
def suspendReserved (d : ConnectionDriver) : ConnectionDriver :=
  { d with
    reconnect := (d.attempts.reserved.sort (· ≤ ·)).foldl ReconnectQueue.suspend d.reconnect }

/-- Pop queued static peers while there is capacity. -/
def startQueued (d : ConnectionDriver) (capacity : ℕ) : List SocketAddr → ConnectionDriver
  | [] => { d with startup := [] }
  | peer :: rest =>
    if capacity = 0 then { d with startup := peer :: rest }
    else if peer ∉ d.connected ∧ !d.reconnect.contains peer ∧ (d.attempts.startStatic peer).2 then
      startQueued { d with attempts := (d.attempts.startStatic peer).1 } (capacity - 1) rest
    else startQueued d capacity rest

/-- From the top to the wait. The session budget is read twice. -/
def turn (d : ConnectionDriver) (now : Instant) (budget budget' : ℕ) : ConnectionDriver :=
  let d := if d.refresh || d.changed then d.readSnapshot now else d
  let d := d.suspendReserved
  let d := d.startQueued (min d.attempts.capacity budget) d.startup
  { d with
    nextDue :=
      if 0 < d.attempts.capacity ∧ 0 < budget' then d.reconnect.nextDue else none
    phase := .waiting }

/-! ### The branches -/

/-- Back to the top. -/
def wake (d : ConnectionDriver) : ConnectionDriver := { d with phase := .top }

/-- A refused registration leaves the attempt in flight: an offer may go on to its next
endpoint. -/
def succeed (d : ConnectionDriver) (i : ℕ) (attempt : ConnectAttempts.Attempt) (addr : SocketAddr)
    (now : Instant) : Except RegistryPanic ConnectionDriver := do
  let (registry, result) ← d.registry.register addr now
  match result with
  | .error _ => .ok { d with registry, changed := true }
  | .ok () =>
    .ok (wake { d with
      registry
      changed := true
      attempts := d.attempts.complete i attempt
      refresh := true })

/-- The retry peer of a failed attempt is queued again; offers are left to discovery. -/
def rescheduled (q : ReconnectQueue) (retryPeer : Option SocketAddr) (now : Instant) :
    ReconnectQueue :=
  match retryPeer with
  | some peer => q.schedule peer now
  | none => q

def fail (d : ConnectionDriver) (i : ℕ) (attempt : ConnectAttempts.Attempt) (now : Instant) :
    ConnectionDriver :=
  wake { d with
    attempts := d.attempts.complete i attempt
    reconnect := rescheduled d.reconnect attempt.retryPeer now }

/-- One due peer: its deadline is suspended while it is dialled. -/
def redial (d : ConnectionDriver) (peer : SocketAddr) : ConnectionDriver :=
  let d := { d with reconnect := d.reconnect.suspend peer }
  if peer ∈ d.connected ∨ d.attempts.contains peer then d
  else { d with attempts := (d.attempts.startStatic peer).1 }

def retry (d : ConnectionDriver) (now : Instant) (budget : ℕ) :
    Except RegistryPanic ConnectionDriver := do
  let (reconnect, due) ← d.reconnect.takeDueLimited now (min d.attempts.capacity budget)
  .ok (wake (due.foldl redial { d with reconnect }))

/-- Endpoints with a failure history belong to the retry queue. -/
def discovered (d : ConnectionDriver) (offer : List OfferEndpoint) (budget : ℕ) :
    ConnectionDriver :=
  if budget = 0 then d.wake
  else if offer.any fun e => decide (e.addr ∈ d.connected) || d.attempts.contains e.addr then d.wake
  else
    let offer := offer.filter fun e => !d.reconnect.contains e.addr
    if offer.isEmpty then d.wake
    else wake { d with attempts := (d.attempts.startOffer offer).1 }

end ConnectionDriver

/-! ## Moves -/

/-- What sessions and the reaper do to the registry. -/
inductive BackgroundCall where
  | established (peer : SocketAddr)
  | drop (peer : SocketAddr) (since now : Instant)
  | prune (now : Instant)
  deriving DecidableEq, Repr

def BackgroundCall.call : BackgroundCall → RegistryCall
  | .established peer => .established peer
  | .drop peer since now => .drop peer since now
  | .prune now => .prune now

/-- The moves of the loop and its surroundings. -/
inductive DriverMove where
  | background (call : BackgroundCall)
  | turn (now : Instant) (budget budget' : ℕ)
  | capacityFreed
  | statesChanged
  | succeeded (i : ℕ) (addr : SocketAddr) (now : Instant)
  | failed (i : ℕ) (now : Instant)
  | retryTick (now : Instant) (budget : ℕ)
  | peerDiscovered (offer : List OfferEndpoint) (budget : ℕ)
  | otherEvent
  | closed
  deriving DecidableEq, Repr

namespace ConnectionDriver

def branch (d : ConnectionDriver) : DriverMove → Except RegistryPanic ConnectionDriver
  | .capacityFreed | .otherEvent => .ok d.wake
  | .statesChanged =>
    .ok (if d.changed then wake { d with changed := false, refresh := true } else d)
  | .succeeded i addr now =>
    match d.attempts.attempts[i]? with
    | none => .ok d
    | some attempt =>
      if addr ∈ attempt.endpoints then d.succeed i attempt addr now else .ok d
  | .failed i now =>
    match d.attempts.attempts[i]? with
    | none => .ok d
    | some attempt => .ok (d.fail i attempt now)
  | .retryTick now budget =>
    if d.nextDue.any fun at_ => decide (at_ ≤ now) then d.retry now budget else .ok d
  | .peerDiscovered offer budget =>
    .ok (if d.mode = .discovery then d.discovered offer budget else d)
  | .closed => .ok { d with phase := .left }
  | .background _ | .turn .. => .ok d

/-- The branches are those of the wait. -/
def select (d : ConnectionDriver) (move : DriverMove) : Except RegistryPanic ConnectionDriver :=
  if d.phase = .waiting then d.branch move else .ok d

def step (d : ConnectionDriver) (move : DriverMove) :
    Except RegistryPanic (ConnectionDriver × Unit) := do
  match move with
  | .background call =>
    let (registry, _) ← d.registry.step call.call
    .ok ({ d with registry, changed := d.changed || d.registry.publishes call.call }, ())
  | .turn now budget budget' =>
    .ok (if d.phase = .top then d.turn now budget budget' else d, ())
  | move => .ok (← d.select move, ())

abbrev Trace : Type := List (Machine.Entry ConnectionDriver DriverMove Unit)

def run (mode : DiscoveryMode) (configured : List SocketAddr) (registry : ConnectionRegistry)
    (moves : List DriverMove) : Except RegistryPanic (ConnectionDriver × Trace) :=
  Machine.run step (start mode configured registry) moves

end ConnectionDriver

end Dlep
