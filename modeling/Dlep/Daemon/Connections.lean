-- SUMMARY: The connection registry: session counts per endpoint, bounded history with eviction and expiry, and the watched snapshot.
import Dlep.Core.Types
import Dlep.Daemon.Commands
import Dlep.Lib.FinMap
import Dlep.Lib.Machine
import Mathlib.Data.Finset.Max
import Mathlib.Data.Prod.Lex

/-!
# The connection registry

`connections.rs`. The registry counts the session tasks of every modem endpoint and keeps
an endpoint's entry for a while after its last session. A task holds a tracker from its
registration until it is dropped. Endpoints of the configuration are pinned; the others
are bounded in number, and the longest inactive of them makes room for a new one.

Every call works under the registry's lock. A counter that exceeds its machine word, a
missing entry and a subtraction below zero are failures here.
-/

namespace Dlep

/-! ## Endpoints in order -/

namespace SocketAddr

/-- IPv4 before IPv6, then the fields in their order. -/
def sortKey : SocketAddr → List ℕ
  | .v4 ip port => [0, ip.toNat, port.toNat]
  | .v6 ip port flowinfo scopeId =>
    [1, ip.toNat, port.toNat, flowinfo.toNat, scopeId.toNat]

theorem sortKey_injective : Function.Injective sortKey := by
  intro a b h
  cases a <;> cases b <;>
    simp only [sortKey, List.cons.injEq, BitVec.toNat_inj, UInt16.toNat_inj, UInt32.toNat_inj,
      reduceCtorEq, zero_ne_one, one_ne_zero, and_false, and_true, true_and] at h
  · obtain ⟨rfl, rfl⟩ := h
    rfl
  · obtain ⟨rfl, rfl, rfl, rfl⟩ := h
    rfl

instance : LinearOrder SocketAddr := LinearOrder.lift' sortKey sortKey_injective

end SocketAddr

/-! ## The registry -/

/-- Nanoseconds of the monotonic clock. -/
abbrev Instant : Type := ℕ

/-- Connection state of one modem endpoint. -/
structure PeerConnectionState where
  activeSessions : ℕ
  establishmentCount : ℕ
  deriving DecidableEq, Repr

def PeerConnectionState.default : PeerConnectionState := ⟨0, 0⟩

/-- The router's budget for endpoints; the one for sessions is not used here. -/
structure RouterLimits where
  maxDiscoveredPeers : ℕ
  peerRetentionSecs : ℕ
  deriving DecidableEq, Repr

def RouterLimits.peerRetention (l : RouterLimits) : ℕ := l.peerRetentionSecs * 1000000000

structure History where
  states : FinMap SocketAddr PeerConnectionState
  inactiveSince : FinMap SocketAddr Instant
  nextEstablishment : ℕ
  deriving DecidableEq

def History.evict (h : History) (peer : SocketAddr) : History :=
  { h with states := h.states.erase peer, inactiveSince := h.inactiveSince.erase peer }

/-- The trackers are the ones that session tasks hold, by endpoint. -/
structure ConnectionRegistry where
  limits : RouterLimits
  pinned : Finset SocketAddr
  history : History
  watched : FinMap SocketAddr PeerConnectionState
  trackers : List SocketAddr
  deriving DecidableEq

inductive RegistryPanic where
  | unwrap
  | index
  | underflow
  | overflow
  deriving DecidableEq, Repr

/-- `+= 1` on a 64-bit counter. -/
def increment (n : ℕ) : Except RegistryPanic ℕ :=
  if n + 1 < 2 ^ 64 then .ok (n + 1) else .error .overflow

namespace ConnectionRegistry

def new (limits : RouterLimits) (pinned : Finset SocketAddr) : ConnectionRegistry where
  limits := limits
  pinned := pinned
  history := ⟨∅, ∅, 0⟩
  watched := ∅
  trackers := []

/-- `send_replace` on the watched states. -/
def publish (r : ConnectionRegistry) (h : History) : ConnectionRegistry :=
  { r with history := h, watched := h.states }

/-! ### Expiry -/

def retained (r : ConnectionRegistry) (h : History) (now : Instant) (peer : SocketAddr)
    (state : PeerConnectionState) : Bool :=
  peer ∈ r.pinned || decide (0 < state.activeSessions) ||
    (h.inactiveSince.lookup peer).all fun since => decide (now - since < r.limits.peerRetention)

def pruneLocked (r : ConnectionRegistry) (h : History) (now : Instant) : History :=
  let states := h.states.retain (r.retained h now)
  { h with
    states
    inactiveSince := h.inactiveSince.retain fun peer _ => (states.lookup peer).isSome }

def prune (r : ConnectionRegistry) (now : Instant) : ConnectionRegistry :=
  let h := r.pruneLocked r.history now
  if h.states.keys.card ≠ r.history.states.keys.card then r.publish h else { r with history := h }

/-! ### Registration -/

/-- The entries that count against the limit. -/
def discovered (r : ConnectionRegistry) (h : History) : Finset SocketAddr :=
  h.states.keys.filter (· ∉ r.pinned)

/-- The discovered entries without a session. -/
def idle (r : ConnectionRegistry) (h : History) : Finset SocketAddr :=
  h.inactiveSince.keys.filter fun peer =>
    peer ∉ r.pinned ∧ (h.states.lookup peer).map PeerConnectionState.activeSessions = some 0

def idleKey (h : History) (peer : SocketAddr) : Lex (Instant × SocketAddr) :=
  toLex ((h.inactiveSince.lookup peer).getD 0, peer)

/-- The longest inactive discovered entry. Every candidate's state is indexed. -/
def oldest (r : ConnectionRegistry) (h : History) : Except RegistryPanic (Option SocketAddr) :=
  if ∃ peer ∈ h.inactiveSince.keys, peer ∉ r.pinned ∧ h.states.lookup peer = none then
    .error .index
  else
    let keys := (r.idle h).image (idleKey h)
    .ok (if hne : keys.Nonempty then some (ofLex (keys.min' hne)).2 else none)

def needsRoom (r : ConnectionRegistry) (h : History) (peer : SocketAddr) : Bool :=
  h.states.lookup peer = none ∧ peer ∉ r.pinned ∧
    r.limits.maxDiscoveredPeers ≤ (r.discovered h).card

/-- Evict an entry if the new endpoint would exceed the limit; `none` if there is none to evict. -/
def makeRoom (r : ConnectionRegistry) (h : History) (peer : SocketAddr) :
    Except RegistryPanic (Option History) :=
  if r.needsRoom h peer then do .ok ((← r.oldest h).map h.evict) else .ok (some h)

/-- Count a session; a new entry is inactive from now on until it is established. -/
def enroll (h : History) (peer : SocketAddr) (now : Instant) : Except RegistryPanic History := do
  let state := (h.states.lookup peer).getD .default
  let activeSessions ← increment state.activeSessions
  .ok { h with
    states := h.states.insert peer { state with activeSessions }
    inactiveSince :=
      if h.states.lookup peer = none then h.inactiveSince.insert peer now else h.inactiveSince }

def register (r : ConnectionRegistry) (peer : SocketAddr) (now : Instant) :
    Except RegistryPanic (ConnectionRegistry × Except DaemonError Unit) := do
  let pruned := r.pruneLocked r.history now
  match ← r.makeRoom pruned peer with
  | none => .ok (r.publish pruned, .error .peerHistoryFull)
  | some h =>
    let h ← enroll h peer now
    .ok ({ r.publish h with trackers := peer :: r.trackers }, .ok ())

/-! ### Trackers -/

/-- The history with the generation of a new session of `peer`. -/
def establish (h : History) (peer : SocketAddr) (state : PeerConnectionState) (generation : ℕ) :
    History where
  states := h.states.insert peer { state with establishmentCount := generation }
  inactiveSince := h.inactiveSince.erase peer
  nextEstablishment := generation

/-- Only a task that holds a tracker can call this. -/
def established (r : ConnectionRegistry) (peer : SocketAddr) :
    Except RegistryPanic ConnectionRegistry := do
  if peer ∉ r.trackers then .ok r
  else
    let generation ← increment r.history.nextEstablishment
    match r.history.states.lookup peer with
    | none => .error .unwrap
    | some state => .ok (r.publish (establish r.history peer state generation))

/-- The history with one session of `peer` less. A time that is already there stays. -/
def release (h : History) (peer : SocketAddr) (state : PeerConnectionState) (since : Instant) :
    History :=
  { h with
    states := h.states.insert peer { state with activeSessions := state.activeSessions - 1 }
    inactiveSince :=
      if state.activeSessions - 1 = 0 ∧ h.inactiveSince.lookup peer = none then
        h.inactiveSince.insert peer since
      else h.inactiveSince }

/-- The drop of a tracker. The clock is read twice. -/
def drop (r : ConnectionRegistry) (peer : SocketAddr) (since now : Instant) :
    Except RegistryPanic ConnectionRegistry :=
  if peer ∉ r.trackers then .ok r
  else
    match r.history.states.lookup peer with
    | none => .error .unwrap
    | some state =>
      if state.activeSessions = 0 then .error .underflow
      else
        let h := r.pruneLocked (release r.history peer state since) now
        .ok { r.publish h with trackers := r.trackers.erase peer }

end ConnectionRegistry

/-! ## Calls -/

inductive RegistryCall where
  | register (peer : SocketAddr) (now : Instant)
  | established (peer : SocketAddr)
  | drop (peer : SocketAddr) (since now : Instant)
  | prune (now : Instant)
  deriving DecidableEq, Repr

namespace ConnectionRegistry

def step (r : ConnectionRegistry) :
    RegistryCall → Except RegistryPanic (ConnectionRegistry × Except DaemonError Unit)
  | .register peer now => r.register peer now
  | .established peer => do .ok (← r.established peer, .ok ())
  | .drop peer since now => do .ok (← r.drop peer since now, .ok ())
  | .prune now => .ok (r.prune now, .ok ())

abbrev Trace : Type :=
  List (Machine.Entry ConnectionRegistry RegistryCall (Except DaemonError Unit))

def run (limits : RouterLimits) (pinned : Finset SocketAddr) (calls : List RegistryCall) :
    Except RegistryPanic (ConnectionRegistry × Trace) :=
  Machine.run step (new limits pinned) calls

end ConnectionRegistry

end Dlep
