-- SUMMARY: The router's session state machine: state, command preflight, message checks and every transition.
import Dlep.Fsm.Validation

/-!
# Router session state machine

`RouterSessionFsm` of `session_router.rs`. The prologue of `step` is the modem's,
with two more checks on received metrics; the router learns its destinations from
the modem's messages and originates Destination Announce, Destination Down and
Link Characteristics Request.
-/

namespace Dlep

inductive RouterSessionState where
  | closed
  | sessionInitPending
  | inSession
  | terminating
  | terminated
  deriving DecidableEq, Repr

/-- What the router knows about one destination (`DestinationState`). -/
structure RouterDestination where
  up : Bool
  metrics : LinkMetrics
  addrs : DestinationAddrs
  deriving DecidableEq, Repr

structure RouterSessionFsm where
  state : RouterSessionState
  tx : TransactionTracker
  destinations : FinMap MacAddress RouterDestination
  sessionMetrics : LinkMetrics
  sessionMetricTypes : Finset DataItemType
  peerAddresses : DestinationAddrs
  localAddresses : DestinationAddrs
  config : SessionConfig
  terminationReason : StatusCode
  peerHeartbeatInterval : Option Duration
  peerExtensions : List ExtensionId
  deriving DecidableEq

def buildSessionInitialization (config : SessionConfig) : Message :=
  pushExtensionsSupported
    (((Message.new .sessionInitialization).withItem
      (.heartbeatInterval (localHeartbeatInterval config))).withItem
      (.peerType .default config.peerDescription))
    config.advertisedExtensions

namespace RouterSessionFsm

/-- The state after a step and the actions it returns. -/
abbrev Result : Type := Outcome (RouterSessionFsm × List FsmAction)

def withConfig (config : SessionConfig) : RouterSessionFsm where
  state := .closed
  tx := .default
  destinations := ∅
  sessionMetrics := .default
  sessionMetricTypes := ∅
  peerAddresses := .default
  localAddresses := .default
  config := config
  terminationReason := .success
  peerHeartbeatInterval := none
  peerExtensions := []

/-- The reset of the missed-heartbeat deadline, when the peer's interval allows one. -/
def heartbeatReset (s : RouterSessionFsm) : List FsmAction :=
  (heartbeatResetAction TIMER_HEARTBEAT_MISSED s.peerHeartbeatInterval).toList

def startTermination (s : RouterSessionFsm) : FsmAction :=
  .startTimer TIMER_TERMINATION .termination s.config.terminationTimeout false

/-- The destination is known and up. -/
def isUp (s : RouterSessionFsm) (mac : MacAddress) : Bool :=
  (s.destinations.lookup mac).any RouterDestination.up

/-! ## Protocol errors -/

/-- Unlike the modem, the router answers in every state before termination. -/
def protocolError (s : RouterSessionFsm) (status : DataItem) : Result :=
  match status with
  | .status code _ =>
    if s.state = .terminating ∨ s.state = .terminated then .ok (s, [])
    else
      .ok ({ s with state := .terminating, terminationReason := code },
        [.cancelTimer TIMER_SESSION_INIT, .cancelTimer TIMER_HEARTBEAT,
          .cancelTimer TIMER_HEARTBEAT_MISSED,
          .sendMessage ((Message.new .sessionTermination).withItem status), s.startTermination])
  | _ => .error .unreachable

/-! ## Command preflight -/

/-- The checks a command makes before the ones of its own kind. -/
def checkScope (s : RouterSessionFsm) (destination : Option MacAddress) :
    Except CommandError Unit :=
  match destination with
  | some mac =>
    if !s.config.macAddressFormat.accepts mac then .error .macAddressFormatMismatch
    else if s.tx.destinationBusy mac then .error .busy
    else .ok ()
  | none => if s.tx.sessionBusy then .error .busy else .ok ()

/-- The checks of each command's own arm. -/
def checkArguments (s : RouterSessionFsm) (event : FsmEvent) : Except CommandError Unit :=
  match event with
  | .appDropDestination mac _ =>
    if !s.isUp mac then .error .unknownDestination else .ok ()
  | .appRequestLinkCharacteristics mac requested =>
    if !s.isUp mac then .error .unknownDestination
    else if requested.isEmpty then .error .invalidInput
    else
      match (buildLinkCharacteristicsRequest mac requested).encode with
      | .error _ => .error .invalidInput
      | .ok _ => .ok ()
  | .appAnnounceDestination mac =>
    if s.isUp mac then .error .alreadyExists else .ok ()
  | .appSessionAddresses changes => validateLocalAddressUpdate s.localAddresses changes
  | _ => .error .unsupported

def checkCommand (s : RouterSessionFsm) (event : FsmEvent) : Outcome (Except CommandError Unit) :=
  if s.state ≠ .inSession then .ok (.error .notReady)
  else
    match event with
    | .appDropDestination .. | .appAnnounceDestination .. | .appRequestLinkCharacteristics ..
    | .appSessionAddresses .. => do
      let info ← expectSome "application command" event.command
      match s.checkScope info.destination with
      | .error e => .ok (.error e)
      | .ok () => .ok (s.checkArguments event)
    | _ => .ok (.error .unsupported)

/-! ## Received messages -/

/-- The grammar, format, address, metric and transaction checks of `step`'s prologue. -/
def checkMessage (s : RouterSessionFsm) (msg : Message) : Except StatusCode Unit := do
  let initializing := s.state = .sessionInitPending
  validateMessage msg true initializing s.config.advertisedExtensions
  validateMacFormat msg s.config.macAddressFormat
  if initializing || msg.messageType = .sessionUpdate then
    ((AddressChanges.fromMessage msg).applyStrict s.peerAddresses).1
  if initializing then .ok ()
  else if (metricTypes msg).any fun t => t ∉ s.sessionMetricTypes then .error .invalidData
  else if msg.messageType = .linkCharacteristicsResponse
      && (metricTypes msg).toFinset ≠ s.sessionMetricTypes then
    .error .invalidData
  else
    let known := (extractDestinationMac msg).any s.isUp
    validateTransaction msg s.tx known

/-- The status a received message is answered with, if it is refused. -/
def refusal (s : RouterSessionFsm) (msg : Message) : Option DataItem :=
  refuse (s.state = .sessionInitPending ∨ s.state = .inSession) (s.checkMessage msg) msg

/-! ## Address ownership -/

/-- One family of `destination_address_changes`: the additions that are also
removed, or that neither the peer nor another destination holds. -/
def retainUnclaimed {α : Type} [DecidableEq α] (family : DestinationAddrs → List α)
    (s : RouterSessionFsm) (mac : MacAddress) (changes : AddressChanges) : List α :=
  (family changes.added).filter fun a =>
    (family changes.removed).contains a ||
      (!(family s.peerAddresses).contains a &&
        !s.destinations.scan fun m d => decide (m ≠ mac) && (family d.addrs).contains a)

/-- Do not steal an address already associated with another destination or the peer. -/
def destinationAddressChanges (s : RouterSessionFsm) (mac : MacAddress) (msg : Message) :
    AddressChanges :=
  let changes := AddressChanges.fromMessage msg
  { changes with
    added :=
      { v4 := retainUnclaimed DestinationAddrs.v4 s mac changes
        v6 := retainUnclaimed DestinationAddrs.v6 s mac changes
        v4Subnets := retainUnclaimed DestinationAddrs.v4Subnets s mac changes
        v6Subnets := retainUnclaimed DestinationAddrs.v6Subnets s mac changes } }

/-! ## Session setup and teardown -/

def onTcpConnected (s : RouterSessionFsm) : Result :=
  .ok ({ s with state := .sessionInitPending },
    [.sendMessage (buildSessionInitialization s.config),
      .startTimer TIMER_SESSION_INIT .sessionInit s.config.sessionInitTimeout false])

/-- The state a successful Session Initialization Response leads to. -/
def initialized (s : RouterSessionFsm) (msg : Message) : RouterSessionFsm :=
  { s with
    peerAddresses := (AddressChanges.fromMessage msg).added
    sessionMetrics := (mergeLinkMetrics msg s.sessionMetrics).1
    sessionMetricTypes := (metricTypes msg).toFinset
    peerHeartbeatInterval := extractHeartbeatInterval msg
    peerExtensions := (extractExtensionsSupported msg).getD []
    state := .inSession }

def onSessionInitializationResponse (s : RouterSessionFsm) (msg : Message) : Result :=
  if (extractStatus msg).getD .success ≠ .success then
    s.protocolError (.status .unexpectedMessage "initialization did not succeed")
  else
    let s := s.initialized msg
    .ok (s,
      [.cancelTimer TIMER_SESSION_INIT,
        .startTimer TIMER_HEARTBEAT .heartbeat (localHeartbeatInterval s.config) true] ++
      s.heartbeatReset ++
      [.emit (.sessionUp s.peerExtensions), .emit (.sessionMetricsUpdate s.sessionMetrics)] ++
      if s.peerAddresses.isEmpty then []
      else [.emit (.sessionAddressesUpdate ⟨s.peerAddresses, .default⟩ s.peerAddresses)])

/-- Leave an unfinished initialization without a message. -/
def abandonInit (s : RouterSessionFsm) (actions : List FsmAction) (status : StatusCode) : Result :=
  .ok ({ s with state := .terminated }, actions ++ [.emit (.sessionDown status)])

def onSessionTermination (s : RouterSessionFsm) (msg : Message) : Result :=
  let status := (extractStatus msg).getD .shuttingDown
  .ok ({ s with state := .terminated },
    [.cancelTimer TIMER_HEARTBEAT, .cancelTimer TIMER_HEARTBEAT_MISSED,
      .sendMessage buildSessionTerminationResponse, .closeTcp, .emit (.sessionDown status)])

def onHeartbeatMissed (s : RouterSessionFsm) : Result :=
  .ok ({ s with terminationReason := .timedOut, state := .terminating },
    [.cancelTimer TIMER_HEARTBEAT, .sendMessage (buildSessionTermination .timedOut),
      s.startTermination])

def onShutdown (s : RouterSessionFsm) (reason : StatusCode) : Result :=
  .ok ({ s with terminationReason := reason, state := .terminating },
    [.cancelTimer TIMER_HEARTBEAT, .cancelTimer TIMER_HEARTBEAT_MISSED,
      .sendMessage (buildSessionTermination reason), s.startTermination])

def onTransportClosed (s : RouterSessionFsm) : Result :=
  .ok ({ s with state := .terminated },
    [.cancelTimer TIMER_HEARTBEAT, .cancelTimer TIMER_HEARTBEAT_MISSED,
      .emit (.sessionDown .timedOut)])

/-! ## Destinations -/

/-- The entry a Destination Up or a successful Announce Response creates: session
defaults under the message's metrics, and the addresses nobody else holds. -/
def reported (s : RouterSessionFsm) (mac : MacAddress) (msg : Message) : RouterDestination where
  up := true
  metrics := (mergeLinkMetrics msg s.sessionMetrics).1
  addrs := (s.destinationAddressChanges mac msg).applyLenient .default

def onDestinationUp (s : RouterSessionFsm) (msg : Message) : Result := do
  let mac ← expectSome "validated MAC" (extractDestinationMac msg)
  let d := s.reported mac msg
  .ok ({ s with destinations := s.destinations.insert mac d },
    [.sendMessage (buildDestinationUpResponse mac .success),
      .emit (.destinationUp mac d.metrics d.addrs)] ++ s.heartbeatReset)

/-- Apply metric and address deltas independently; omissions retain previous values. -/
def onDestinationUpdate (s : RouterSessionFsm) (msg : Message) : Result := do
  let mac ← expectSome "validated MAC" (extractDestinationMac msg)
  let changes := s.destinationAddressChanges mac msg
  let d ← expectSome "validated destination" (s.destinations.lookup mac)
  let addrs := changes.applyLenient d.addrs
  let effective := AddressChanges.between d.addrs addrs
  let (metrics, merged) := mergeLinkMetrics msg d.metrics
  .ok ({ s with destinations := s.destinations.insert mac { d with metrics, addrs } },
    (if merged then [.emit (.destinationUpdate mac metrics)] else []) ++
    (if effective.isEmpty then []
      else [.emit (.destinationAddressesUpdate mac effective addrs)]) ++
    s.heartbeatReset)

def onDestinationDown (s : RouterSessionFsm) (msg : Message) : Result := do
  let mac ← expectSome "validated MAC" (extractDestinationMac msg)
  let reason := (extractStatus msg).getD .success
  .ok ({ s with destinations := s.destinations.erase mac },
    [.sendMessage (buildDestinationDownResponse mac .success),
      .emit (.destinationDown mac reason)] ++ s.heartbeatReset)

/-- Keep the entry until the response, so updates already in transit still apply. -/
def onDropDestination (s : RouterSessionFsm) (mac : MacAddress) : Result := do
  let tx ← expectOk "checked idle destination" (s.tx.openDestination mac .destinationDown)
  .ok ({ s with tx }, [.sendMessage (buildDestinationDown mac .success)])

def onDestinationDownResponse (s : RouterSessionFsm) (msg : Message) : Result := do
  let mac ← expectSome "validated MAC" (extractDestinationMac msg)
  let reason ← expectSome "validated status" (extractStatus msg)
  .ok ({ s with tx := s.tx.closeDestination mac, destinations := s.destinations.erase mac },
    [.emit (.destinationDown mac reason)] ++ s.heartbeatReset)

def onAnnounceDestination (s : RouterSessionFsm) (mac : MacAddress) : Result := do
  let tx ← expectOk "checked idle destination" (s.tx.openDestination mac .destinationAnnounce)
  .ok ({ s with tx }, [.sendMessage (buildDestinationAnnounce mac)])

def onDestinationAnnounceResponse (s : RouterSessionFsm) (msg : Message) : Result := do
  let mac ← expectSome "validated MAC" (extractDestinationMac msg)
  let s := { s with tx := s.tx.closeDestination mac }
  if extractStatus msg = some .success then
    let d := s.reported mac msg
    .ok ({ s with destinations := s.destinations.insert mac d },
      [.emit (.destinationUp mac d.metrics d.addrs)] ++ s.heartbeatReset)
  else .ok (s, s.heartbeatReset)

/-! ## Link characteristics -/

def onRequestLinkCharacteristics (s : RouterSessionFsm) (mac : MacAddress)
    (requested : LinkCharacteristics) : Result := do
  let tx ← expectOk "checked idle transaction" (s.tx.openDestination mac .linkCharacteristics)
  .ok ({ s with tx }, [.sendMessage (buildLinkCharacteristicsRequest mac requested)])

/-- The first status item of a message, with its text. -/
def statusItem (msg : Message) : Option (StatusCode × String) :=
  msg.dataItems.findSome? fun
    | .status code text => some (code, text)
    | _ => none

def onLinkCharacteristicsResponse (s : RouterSessionFsm) (msg : Message) : Result := do
  let mac ← expectSome "validated MAC" (extractDestinationMac msg)
  let d ← expectSome "pending destination" (s.destinations.lookup mac)
  let d := { d with metrics := (mergeLinkMetrics msg d.metrics).1 }
  let (status, text) ← expectSome "validated status" (statusItem msg)
  .ok ({ s with
      tx := s.tx.closeDestination mac
      destinations := s.destinations.insert mac d },
    [.emit (.linkCharacteristicsResponse mac status text d.metrics)] ++ s.heartbeatReset)

/-! ## Session updates -/

def onSessionUpdate (s : RouterSessionFsm) (msg : Message) : Result := do
  let changes := AddressChanges.fromMessage msg
  let (result, peerAddresses) := changes.applyStrict s.peerAddresses
  expectOk "validated peer addresses" result
  let (sessionMetrics, merged) := mergeLinkMetrics msg s.sessionMetrics
  let destinations :=
    if merged then
      s.destinations.mapValues fun d => { d with metrics := (mergeLinkMetrics msg d.metrics).1 }
    else s.destinations
  .ok ({ s with peerAddresses, sessionMetrics, destinations },
    [.sendMessage (buildSessionUpdateResponse .success)] ++
    (if changes.isEmpty then [] else [.emit (.sessionAddressesUpdate changes peerAddresses)]) ++
    (if merged then [.emit (.sessionMetricsUpdate sessionMetrics)] else []) ++
    s.heartbeatReset)

def onSessionAddresses (s : RouterSessionFsm) (changes : AddressChanges) : Result := do
  let (tx, localAddresses, actions) ← applyLocalAddressUpdate s.tx s.localAddresses changes
  .ok ({ s with tx, localAddresses }, actions)

/-! ## Dispatch -/

/-- The in-session arms for a received message, in the order of the source. -/
def onMessage (s : RouterSessionFsm) (msg : Message) : Result :=
  let mt := msg.messageType
  if mt = .sessionTermination then s.onSessionTermination msg
  else if mt = .destinationUp then s.onDestinationUp msg
  else if mt = .destinationUpdate then s.onDestinationUpdate msg
  else if mt = .destinationDown then s.onDestinationDown msg
  else if mt = .destinationDownResponse then s.onDestinationDownResponse msg
  else if mt = .sessionUpdate then s.onSessionUpdate msg
  else if mt = .sessionUpdateResponse then
    .ok ({ s with tx := s.tx.closeSession }, s.heartbeatReset)
  else if mt = .destinationAnnounceResponse then s.onDestinationAnnounceResponse msg
  else if mt = .linkCharacteristicsResponse then s.onLinkCharacteristicsResponse msg
  else if mt = .heartbeat then .ok (s, s.heartbeatReset)
  else s.protocolError (.status .unexpectedMessage "")

/-- The match of `step` on the state and the event. -/
def dispatch (s : RouterSessionFsm) (event : FsmEvent) : Result :=
  match s.state, event with
  | .closed, .tcpConnected => s.onTcpConnected
  | .closed, .appShutdown _ => .ok ({ s with state := .terminated }, [])
  | .closed, .tcpClosed => .ok ({ s with state := .terminated }, [])
  | .sessionInitPending, .recvMessage msg =>
    if msg.messageType = .sessionInitializationResponse then s.onSessionInitializationResponse msg
    else s.abandonInit [.cancelTimer TIMER_SESSION_INIT, .closeTcp] .invalidData
  | .sessionInitPending, .timerExpired _ .sessionInit => s.abandonInit [.closeTcp] .timedOut
  -- The session-init timer stays armed here, unlike in the modem's arm.
  | .sessionInitPending, .tcpClosed => s.abandonInit [] .timedOut
  | .sessionInitPending, .appShutdown reason =>
    s.abandonInit [.cancelTimer TIMER_SESSION_INIT, .closeTcp] reason
  | .inSession, .recvMessage msg => s.onMessage msg
  | .inSession, .appDropDestination mac _ => s.onDropDestination mac
  | .inSession, .appRequestLinkCharacteristics mac requested =>
    s.onRequestLinkCharacteristics mac requested
  | .inSession, .appSessionAddresses changes => s.onSessionAddresses changes
  | .inSession, .recvExtensionMessage => .ok (s, s.heartbeatReset)
  | .inSession, .timerExpired _ .heartbeat => .ok (s, [.sendMessage buildHeartbeat])
  | .inSession, .timerExpired _ .heartbeatMissed => s.onHeartbeatMissed
  -- Router Session Updates may carry addresses, never metrics.
  | .inSession, .appSessionUpdate _ => .ok (s, [])
  | .inSession, .appAnnounceDestination mac => s.onAnnounceDestination mac
  | .inSession, .appShutdown reason => s.onShutdown reason
  | .inSession, .tcpClosed => s.onTransportClosed
  | .terminating, .recvMessage msg =>
    if msg.messageType = .sessionTerminationResponse then
      .ok ({ s with state := .terminated },
        [.cancelTimer TIMER_TERMINATION, .closeTcp, .emit (.sessionDown s.terminationReason)])
    else .ok (s, [])
  | .terminating, .timerExpired _ .termination =>
    .ok ({ s with state := .terminated }, [.closeTcp, .emit (.sessionDown .timedOut)])
  | .terminating, .tcpClosed =>
    .ok ({ s with state := .terminated },
      [.cancelTimer TIMER_TERMINATION, .emit (.sessionDown s.terminationReason)])
  | _, _ => .ok (s, [])

def step (s : RouterSessionFsm) (event : FsmEvent) : Result :=
  match event.command with
  | some command => do
    match ← s.checkCommand event with
    | .error reason => .ok (s, [.emit (.commandRejected ⟨command, reason⟩)])
    | .ok () => s.dispatch event
  | none =>
    match event with
    | .recvMessage msg =>
      match s.refusal msg with
      | some status => s.protocolError status
      | none => s.dispatch event
    | .protocolError code => s.protocolError (.status code "")
    | _ => s.dispatch event

end RouterSessionFsm

end Dlep
