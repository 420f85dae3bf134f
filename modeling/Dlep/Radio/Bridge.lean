-- SUMMARY: The bridge between the radio adapter and the modem daemon: adapter messages, link requests, replay and retries.
import Dlep.Daemon.LinkControl
import Mathlib.Data.Finset.Sort
import Mathlib.Data.List.Lex

/-!
# The radio bridge

`Bridge` of `radio.rs`. The adapter reports destinations and session metrics as JSON
lines; the bridge keeps a table of them and hands every report to the daemon. A session
that rejects a command as Busy gets it again later; a session that comes up gets the whole
table. Link requests of a router are forwarded to the adapter, and its answers go back
through a channel of their own.

A line is modelled after it was parsed: a subnet text is the network it denotes, or `none`
when it denotes none. The daemon and the answer channels are parameters over a state `σ`.
-/

namespace Dlep

/-! ## Walking the table

The table is a `BTreeMap`, walked in the order of its keys: the shorter format first, then
octet by octet. -/

namespace MacAddress

def sortKey (mac : MacAddress) : List ℕ := mac.len :: mac.asBytes.map UInt8.toNat

theorem sortKey_injective : Function.Injective sortKey := by
  intro a b h
  obtain ⟨hlen, hbytes⟩ := List.cons.inj h
  have hsame : a.asBytes = b.asBytes :=
    List.map_injective_iff.mpr (fun _ _ => UInt8.toNat_inj.mp) hbytes
  cases a with
  | eui48 a =>
    cases b with
    | eui48 b => exact congrArg eui48 (Vector.toList_inj.mp hsame)
    | eui64 b => simp [len] at hlen
  | eui64 a =>
    cases b with
    | eui48 b => simp [len] at hlen
    | eui64 b => exact congrArg eui64 (Vector.toList_inj.mp hsame)

instance : LinearOrder MacAddress := LinearOrder.lift' sortKey sortKey_injective

end MacAddress

namespace Radio

/-! ## Messages -/

/-- Metric values of an adapter message. -/
structure Metrics where
  maxDataRateRxBps : Option UInt64
  maxDataRateTxBps : Option UInt64
  currentDataRateRxBps : Option UInt64
  currentDataRateTxBps : Option UInt64
  latencyUs : Option UInt64
  resources : Option UInt8
  rlqRx : Option UInt8
  rlqTx : Option UInt8
  mtu : Option UInt16
  deriving DecidableEq, Repr

/-- Microseconds, saturated at the largest value a line can carry. -/
def durationUs (d : Duration) : UInt64 :=
  if d.asMicros < 2 ^ 64 then UInt64.ofNat d.asMicros else UInt64.ofNat (2 ^ 64 - 1)

namespace Metrics

/-- No field listed. -/
def default : Metrics := ⟨none, none, none, none, none, none, none, none, none⟩

/-- The listed fields over the values of `base`. -/
def overlay (m : Metrics) (base : LinkMetrics) : LinkMetrics where
  maxDataRateRxBps := m.maxDataRateRxBps.getD base.maxDataRateRxBps
  maxDataRateTxBps := m.maxDataRateTxBps.getD base.maxDataRateTxBps
  currentDataRateRxBps := m.currentDataRateRxBps.getD base.currentDataRateRxBps
  currentDataRateTxBps := m.currentDataRateTxBps.getD base.currentDataRateTxBps
  latency := (m.latencyUs.map Duration.ofMicros).getD base.latency
  resources := m.resources.or base.resources
  rlqRx := m.rlqRx.or base.rlqRx
  rlqTx := m.rlqTx.or base.rlqTx
  mtu := m.mtu.or base.mtu

def fromLink (metrics : LinkMetrics) : Metrics where
  maxDataRateRxBps := some metrics.maxDataRateRxBps
  maxDataRateTxBps := some metrics.maxDataRateTxBps
  currentDataRateRxBps := some metrics.currentDataRateRxBps
  currentDataRateTxBps := some metrics.currentDataRateTxBps
  latencyUs := some (durationUs metrics.latency)
  resources := metrics.resources
  rlqRx := metrics.rlqRx
  rlqTx := metrics.rlqTx
  mtu := metrics.mtu

end Metrics

/-- Requested characteristics, as sent to the adapter. -/
structure Requested where
  currentDataRateRxBps : Option UInt64
  currentDataRateTxBps : Option UInt64
  latencyUs : Option UInt64
  deriving DecidableEq, Repr

structure Addresses where
  ipv4 : List Ipv4Addr
  ipv6 : List Ipv6Addr
  ipv4Subnets : List (Option Ipv4Net)
  ipv6Subnets : List (Option Ipv6Net)
  deriving DecidableEq, Repr

/-- The addresses, unless a subnet text is not a subnet. -/
def Addresses.parse (a : Addresses) : Option DestinationAddrs := do
  let v4Subnets ← a.ipv4Subnets.mapM id
  let v6Subnets ← a.ipv6Subnets.mapM id
  some { v4 := a.ipv4, v6 := a.ipv6, v4Subnets, v6Subnets }

inductive Status where
  | success
  | denied
  deriving DecidableEq, Repr

def Status.code : Status → StatusCode
  | .success => .success
  | .denied => .requestDenied

/-- Adapter to modem. -/
inductive Inbound where
  | destinationUp (mac : MacAddress) (metrics : Metrics) (addresses : Addresses)
  | destinationUpdate (mac : MacAddress) (metrics : Metrics)
  | destinationAddresses (mac : MacAddress) (add remove : Addresses)
  | destinationDown (mac : MacAddress)
  | sessionMetrics (metrics : Metrics)
  | linkResponse (request : UInt64) (status : Status) (text : String) (metrics : Option Metrics)
  | unknown
  deriving DecidableEq, Repr

/-- Modem to adapter. -/
inductive Outbound where
  | sessionUp (session : SessionId) (peer : SocketAddr)
  | sessionDown (session : SessionId) (peer : SocketAddr) (status : StatusCode)
  | destinationAnnounced (session : SessionId) (mac : MacAddress)
  | linkRequest (request : UInt64) (session : SessionId) (peer : SocketAddr) (mac : MacAddress)
      (requested : Requested) (current : Metrics)
  deriving DecidableEq, Repr

/-! ## The bridge -/

/-- Delay before a command rejected as Busy is sent again, in milliseconds. -/
def RETRY_DELAY : ℕ := 250

inductive Retry where
  | add (mac : MacAddress)
  | drop (mac : MacAddress)
  | sessionMetrics
  deriving DecidableEq, Repr

/-- What the adapter reported of a destination. -/
structure Known where
  metrics : LinkMetrics
  addresses : DestinationAddrs
  deriving DecidableEq, Repr

/-- A link request the adapter has not answered; `answer` names its channel. -/
structure Pending where
  answer : ℕ
  mac : MacAddress
  current : LinkMetrics
  deriving DecidableEq, Repr

/-- The channels of the requests: whether the receiver is gone, and a send that fails then. -/
structure Answers (σ : Type) where
  isClosed : ℕ → σ → Bool
  send : ℕ → LinkResponse → σ → Option σ

/-- The daemon events the bridge reacts to. -/
inductive BridgeEvent where
  | sessionUp (sessionId : SessionId) (peer : SocketAddr)
  | sessionDown (sessionId : SessionId) (peer : SocketAddr) (reason : StatusCode)
  | announced (sessionId : SessionId) (mac : MacAddress)
  | other
  deriving DecidableEq, Repr

/-- `out` holds the lines for the adapter. -/
structure Bridge where
  out : List Outbound
  destinations : FinMap MacAddress Known
  initial : LinkMetrics
  sessionMetrics : LinkMetrics
  pending : FinMap UInt64 Pending
  nextRequest : UInt64
  retries : List (ℕ × SessionId × Retry)
  deriving DecidableEq

namespace Bridge

variable {σ : Type} (d : ModemDaemon σ) (a : Answers σ)

/-- The bridge of a fresh adapter. -/
def start (initial : LinkMetrics) : Bridge where
  out := []
  destinations := ∅
  initial := initial
  sessionMetrics := initial
  pending := ∅
  nextRequest := 1
  retries := []

def emit (b : Bridge) (message : Outbound) : Bridge := { b with out := b.out ++ [message] }

/-- Whether the input was valid. What single sessions answered does not matter here. -/
def accepted : Except DaemonError Unit → Bool
  | .error (.config _) | .error (.codec _) => false
  | _ => true

/-- The sessions that rejected a command as Busy. -/
def busySessions : Except DaemonError Unit → List SessionId
  | .error (.commandRejected report) =>
    (report.rejected.filter fun r => r.2.reason = .busy).map Prod.fst
  | _ => []

def scheduleBusy (b : Bridge) (now : ℕ) (result : Except DaemonError Unit) (retry : Retry) :
    Bridge :=
  { b with
    retries := b.retries ++ (busySessions result).map fun s => (now + RETRY_DELAY, s, retry) }

/-- Store the metrics of a destination. -/
def setMetrics (b : Bridge) (mac : MacAddress) (known : Known) (metrics : LinkMetrics) : Bridge :=
  { b with destinations := b.destinations.insert mac { known with metrics } }

/-! ### Adapter messages -/

def onDestinationUp (b : Bridge) (w : σ) (now : ℕ) (mac : MacAddress) (metrics : Metrics)
    (addresses : Addresses) : Bridge × σ :=
  if (b.destinations.lookup mac).isSome then (b, w)
  else
    match addresses.parse with
    | none => (b, w)
    | some addresses =>
      let addresses := addresses.canonical
      -- Omitted values inherit the current session-wide metrics.
      let metrics := metrics.overlay b.sessionMetrics
      let (w, result) := d.addDestinationWithAddresses mac metrics addresses w
      if accepted result then
        ({ b with destinations := b.destinations.insert mac ⟨metrics, addresses⟩ }.scheduleBusy
          now result (.add mac), w)
      else (b, w)

def onDestinationUpdate (b : Bridge) (w : σ) (mac : MacAddress) (metrics : Metrics) : Bridge × σ :=
  match b.destinations.lookup mac with
  | none => (b, w)
  | some known =>
    let metrics := metrics.overlay known.metrics
    let (w, result) := d.updateDestination mac metrics w
    if accepted result then (b.setMetrics mac known metrics, w) else (b, w)

def onDestinationAddresses (b : Bridge) (w : σ) (mac : MacAddress) (add remove : Addresses) :
    Bridge × σ :=
  match b.destinations.lookup mac with
  | none => (b, w)
  | some known =>
    match add.parse, remove.parse with
    | some added, some removed =>
      let changes := (AddressChanges.mk added removed).canonical
      let (w, result) := d.updateDestinationAddresses mac changes w
      if accepted result then
        let known := { known with addresses := changes.applyLenient known.addresses }
        ({ b with destinations := b.destinations.insert mac known }, w)
      else (b, w)
    | _, _ => (b, w)

def onDestinationDown (b : Bridge) (w : σ) (now : ℕ) (mac : MacAddress) : Bridge × σ :=
  if (b.destinations.lookup mac).isNone then (b, w)
  else
    let b := { b with destinations := b.destinations.erase mac }
    let (w, result) := d.dropDestination mac .success w
    -- A pending link request holds this destination; retry after it.
    (b.scheduleBusy now result (.drop mac), w)

def onSessionMetrics (b : Bridge) (w : σ) (now : ℕ) (metrics : Metrics) : Bridge × σ :=
  let metrics := metrics.overlay b.sessionMetrics
  let (w, result) := d.updateSessionMetrics metrics w
  if accepted result then
    let update := Metrics.fromLink metrics
    ({ b with
      sessionMetrics := metrics
      destinations := b.destinations.mapValues fun known =>
        { known with metrics := update.overlay known.metrics } }.scheduleBusy
        now result .sessionMetrics, w)
  else (b, w)

/-- Hand a valid answer to the session that asked, and keep granted metrics. -/
def deliverAnswer (b : Bridge) (w : σ) (p : Pending) (status : Status) (text : String)
    (metrics : Option LinkMetrics) : Bridge × σ :=
  match a.send p.answer ⟨status.code, text, metrics⟩ w with
  | none => (b, w)
  | some w =>
    match status, metrics, b.destinations.lookup p.mac with
    | .success, some metrics, some known => (b.setMetrics p.mac known metrics, w)
    | _, _, _ => (b, w)

def onLinkResponse (b : Bridge) (w : σ) (request : UInt64) (status : Status) (text : String)
    (metrics : Option Metrics) : Bridge × σ :=
  match b.pending.lookup request with
  | none => (b, w)
  | some p =>
    let b := { b with pending := b.pending.erase request }
    if a.isClosed p.answer w then (b, w)
    else
      let metrics := metrics.map fun m => m.overlay p.current
      match metrics.map d.validateMetrics with
      | some (.error _) => (b, (a.send p.answer .denied w).getD w)
      | _ => b.deliverAnswer a w p status text metrics

def inbound (b : Bridge) (w : σ) (now : ℕ) : Inbound → Bridge × σ
  | .destinationUp mac metrics addresses => b.onDestinationUp d w now mac metrics addresses
  | .destinationUpdate mac metrics => b.onDestinationUpdate d w mac metrics
  | .destinationAddresses mac add remove => b.onDestinationAddresses d w mac add remove
  | .destinationDown mac => b.onDestinationDown d w now mac
  | .sessionMetrics metrics => b.onSessionMetrics d w now metrics
  | .linkResponse request status text metrics =>
    b.onLinkResponse d a w request status text metrics
  | .unknown => (b, w)

/-! ### Link requests -/

/-- Forward a link request. Requests that timed out left closed channels behind. -/
def ask (b : Bridge) (w : σ) (request : LinkRequest) (answer : ℕ) : Bridge :=
  let pending := b.pending.retain fun _ p => !a.isClosed p.answer w
  { b with
    pending := pending.insert b.nextRequest ⟨answer, request.id, request.current⟩
    nextRequest := b.nextRequest + 1 }.emit
    (.linkRequest b.nextRequest request.sessionId request.peer request.id
      ⟨request.requested.currentDataRateRxBps, request.requested.currentDataRateTxBps,
        request.requested.latency.map durationUs⟩
      (.fromLink request.current))

/-! ### Daemon events -/

/-- What brings a new router up to date. -/
def replay (b : Bridge) : List SessionCommand :=
  (if b.sessionMetrics ≠ b.initial then [.sessionUpdate b.sessionMetrics] else []) ++
    (b.destinations.keys.sort).filterMap fun mac =>
      (b.destinations.lookup mac).map fun known =>
        .addDestination mac known.metrics known.addresses

def event (b : Bridge) (w : σ) : BridgeEvent → Bridge × σ
  | .sessionUp sessionId peer =>
    (b.emit (.sessionUp sessionId peer),
      b.replay.foldl (fun w command => (d.sendCommandTo sessionId command w).1) w)
  | .sessionDown sessionId peer reason => (b.emit (.sessionDown sessionId peer reason), w)
  | .announced sessionId mac => (b.emit (.destinationAnnounced sessionId mac), w)
  | .other => (b, w)

/-! ### Retries -/

/-- The command a retry sends, with the state of the table when it is due. -/
def retryCommand (b : Bridge) : Retry → Option SessionCommand
  | .add mac => (b.destinations.lookup mac).map fun known =>
    .addDestination mac known.metrics known.addresses
  -- The session still holds the withdrawn entry even if the adapter re-reported it.
  | .drop mac => some (.dropDestination mac .success)
  | .sessionMetrics => some (.sessionUpdate b.sessionMetrics)

/-- What follows the answer to a retried command. -/
def retried (b : Bridge) (now : ℕ) (sessionId : SessionId) (retry : Retry)
    (result : Except DaemonError Unit) : Bridge :=
  let b := b.scheduleBusy now result retry
  match retry, result with
  | .drop mac, .ok () =>
    if (b.destinations.lookup mac).isSome then
      -- Re-add current state once the router acknowledges the Down.
      { b with retries := b.retries ++ [(now + RETRY_DELAY, sessionId, .add mac)] }
    else b
  | _, _ => b

def retryOne (now : ℕ) (s : Bridge × σ) (entry : ℕ × SessionId × Retry) : Bridge × σ :=
  match s.1.retryCommand entry.2.2 with
  | none => s
  | some command =>
    let (w, result) := d.sendCommandTo entry.2.1 command s.2
    (s.1.retried now entry.2.1 entry.2.2 result, w)

/-- The retries that are due, and the bridge without them. -/
def takeDue (b : Bridge) (now : ℕ) : List (ℕ × SessionId × Retry) × Bridge :=
  let (due, later) := b.retries.partition fun r => r.1 ≤ now
  (due, { b with retries := later })

def retry (b : Bridge) (w : σ) (now : ℕ) : Bridge × σ :=
  let (due, b) := b.takeDue now
  due.foldl (retryOne d now) (b, w)

end Bridge

/-! ## The adapter loop -/

/-- What the loop of `Adapter::run` reacts to. -/
inductive BridgeInput where
  | line (now : ℕ) (message : Inbound)
  | ask (request : LinkRequest) (answer : ℕ)
  | event (event : BridgeEvent)
  | retryDue (now : ℕ)
  deriving DecidableEq, Repr

namespace Bridge

variable {σ : Type} (d : ModemDaemon σ) (a : Answers σ)

def step (s : Bridge × σ) : BridgeInput → Bridge × σ
  | .line now message => s.1.inbound d a s.2 now message
  | .ask request answer => (s.1.ask a s.2 request answer, s.2)
  | .event event => s.1.event d s.2 event
  | .retryDue now => s.1.retry d s.2 now

def run (w : σ) (inputs : List BridgeInput) : Bridge × σ :=
  inputs.foldl (step d a) (start d.initialMetrics, w)

end Bridge

end Radio

end Dlep
