-- SUMMARY: The modem's session state machine: state, command preflight, message checks and every transition.
import Dlep.Fsm.Validation

/-!
# Modem session state machine

`ModemSessionFsm` of `session_modem.rs`. `step` rejects a command that
`check_command` refuses, turns a received message that fails its checks into a
protocol error, and otherwise dispatches on the state and the event. Every arm of
the dispatch is a handler of its own.
-/

namespace Dlep

inductive ModemSessionState where
  | listening
  | awaitingSessionInit
  | inSession
  | terminating
  | terminated
  deriving DecidableEq, Repr

/-- What the modem knows about one destination (`DestinationState`). -/
structure ModemDestination where
  announced : Bool
  pendingMetrics : Bool
  metrics : LinkMetrics
  addrs : DestinationAddrs
  advertisedAddrs : DestinationAddrs
  deriving DecidableEq, Repr

structure ModemSessionFsm where
  state : ModemSessionState
  tx : TransactionTracker
  destinations : FinMap MacAddress ModemDestination
  peerAddresses : DestinationAddrs
  localAddresses : DestinationAddrs
  sessionMetrics : LinkMetrics
  config : SessionConfig
  terminationReason : StatusCode
  peerHeartbeatInterval : Option Duration
  peerExtensions : List ExtensionId
  pendingLinkRequests : Finset MacAddress
  deriving DecidableEq

/-- Write `text` into the first status item. -/
def fillStatusText (text : String) : List DataItem → List DataItem
  | [] => []
  | .status code _ :: items => .status code text :: items
  | item :: items => item :: fillStatusText text items

def buildLinkCharacteristicsReply (mac : MacAddress) (status : StatusCode) (text : String)
    (metrics : LinkMetrics) : Message :=
  let message := buildLinkCharacteristicsResponse mac status metrics
  { message with dataItems := fillStatusText text message.dataItems }

/-- `build_session_initialization_response`. -/
def buildSessionInitializationResponse (config : SessionConfig) : Message :=
  pushMetricItems
    (pushExtensionsSupported
      ((((Message.new .sessionInitializationResponse).withItem (.status .success "")).withItem
        (.heartbeatInterval (localHeartbeatInterval config))).withItem
        (.peerType .default config.peerDescription))
      config.advertisedExtensions)
    config.initialMetrics

namespace ModemSessionFsm

/-- The state after a step and the actions it returns. -/
abbrev Result : Type := Outcome (ModemSessionFsm × List FsmAction)

def withConfig (config : SessionConfig) : ModemSessionFsm where
  state := .listening
  tx := .default
  destinations := ∅
  peerAddresses := .default
  localAddresses := .default
  sessionMetrics := config.initialMetrics
  config := config
  terminationReason := .success
  peerHeartbeatInterval := none
  peerExtensions := []
  pendingLinkRequests := ∅

/-- The reset of the missed-heartbeat deadline, when the peer's interval allows one. -/
def heartbeatReset (s : ModemSessionFsm) : List FsmAction :=
  (heartbeatResetAction TIMER_HEARTBEAT_MISSED s.peerHeartbeatInterval).toList

def startTermination (s : ModemSessionFsm) : FsmAction :=
  .startTimer TIMER_TERMINATION .termination s.config.terminationTimeout false

/-- The destination is known and the router accepted it. -/
def isAnnounced (s : ModemSessionFsm) (mac : MacAddress) : Bool :=
  (s.destinations.lookup mac).any ModemDestination.announced

/-! ## Protocol errors -/

def protocolError (s : ModemSessionFsm) (status : DataItem) : Result :=
  match status with
  | .status code _ =>
    if s.state = .terminating ∨ s.state = .terminated then .ok (s, [])
    else if s.state = .awaitingSessionInit then
      .ok ({ s with state := .terminated },
        [.cancelTimer TIMER_SESSION_INIT, .closeTcp, .emit (.sessionDown code)])
    else
      .ok ({ s with state := .terminating, terminationReason := code },
        [.cancelTimer TIMER_SESSION_INIT, .cancelTimer TIMER_HEARTBEAT,
          .cancelTimer TIMER_HEARTBEAT_MISSED,
          .sendMessage ((Message.new .sessionTermination).withItem status), s.startTermination])
  | _ => .error .unreachable

/-! ## Command preflight -/

def validMetrics (s : ModemSessionFsm) (metrics : LinkMetrics) : Bool :=
  metrics.supportedBy s.config.initialMetrics && (buildSessionUpdate metrics).encode.isOk

/-- The metrics a new destination starts from. -/
def effectiveMetrics (base metrics : LinkMetrics) : LinkMetrics :=
  (mergeLinkMetrics (buildSessionUpdate metrics) base).1

/-- The deferred link request of a destination: its answer needs one, and a
Destination Down would be a second request in its scope. -/
def checkLink (s : ModemSessionFsm) (event : FsmEvent) (mac : MacAddress) :
    Except CommandError Unit :=
  match event with
  | .appLinkCharacteristicsResponse .. =>
    if mac ∉ s.pendingLinkRequests then .error .noPendingRequest else .ok ()
  | .appDropDestination .. => if mac ∈ s.pendingLinkRequests then .error .busy else .ok ()
  | _ => .ok ()

/-- Updates during an Up are retained; during a Down they would be lost. -/
def retainedDuringUp : FsmEvent → Bool
  | .appUpdateMetrics .. | .appUpdateAddresses .. => true
  | _ => false

/-- The checks a destination command makes before the ones of its own kind. -/
def checkScope (s : ModemSessionFsm) (event : FsmEvent) (mac : MacAddress) :
    Except CommandError Unit :=
  if !s.config.macAddressFormat.accepts mac then .error .macAddressFormatMismatch
  else
    match s.checkLink event mac with
    | .error e => .error e
    | .ok () =>
      match s.tx.perDestination.lookup mac with
      | none => .ok ()
      | some pending =>
        if !(retainedDuringUp event && pending.kind = .destinationUp) then .error .busy else .ok ()

/-- The checks of each command's own arm. -/
def checkArguments (s : ModemSessionFsm) (event : FsmEvent) : Outcome (Except CommandError Unit) :=
  match event with
  | .appAddDestination mac metrics addrs =>
    if (s.destinations.lookup mac).isSome then .ok (.error .alreadyExists)
    else if !s.validMetrics metrics then .ok (.error .invalidInput)
    else
      match (AddressChanges.mk addrs .default).validate with
      | .error _ => .ok (.error .invalidInput)
      | .ok () =>
        match (buildDestinationUp mac (effectiveMetrics s.sessionMetrics metrics) addrs).encode with
        | .error _ => .ok (.error .invalidInput)
        | .ok _ => .ok (.ok ())
  | .appDropDestination mac _ =>
    if (s.destinations.lookup mac).isNone then .ok (.error .unknownDestination) else .ok (.ok ())
  | .appUpdateMetrics mac metrics =>
    if (s.destinations.lookup mac).isNone then .ok (.error .unknownDestination)
    else if !s.validMetrics metrics then .ok (.error .invalidInput)
    else .ok (.ok ())
  | .appUpdateAddresses mac changes =>
    match s.destinations.lookup mac with
    | none => .ok (.error .unknownDestination)
    | some destination =>
      match changes.validate with
      | .error _ => .ok (.error .invalidInput)
      | .ok () =>
        let desired := changes.applyLenient destination.addrs
        match (buildDestinationUp mac destination.metrics desired).encode with
        | .error _ => .ok (.error .invalidInput)
        | .ok _ => .ok (.ok ())
  | .appSessionUpdate metrics =>
    if !s.validMetrics metrics then .ok (.error .invalidInput) else .ok (.ok ())
  | .appLinkCharacteristicsResponse mac status text metrics =>
    if status.terminatesSession then .ok (.error .invalidInput)
    else do
      let destination ← indexMap s.destinations mac
      let effective : Option LinkMetrics :=
        match metrics with
        | none => some destination.metrics
        | some metrics =>
          if !s.validMetrics metrics then none
          else some (effectiveMetrics destination.metrics metrics)
      match effective with
      | none => .ok (.error .invalidInput)
      | some effective =>
        match (buildLinkCharacteristicsReply mac status text effective).encode with
        | .error _ => .ok (.error .invalidInput)
        | .ok _ => .ok (.ok ())
  | .appSessionAddresses changes => .ok (validateLocalAddressUpdate s.localAddresses changes)
  | _ => .ok (.error .unsupported)

def checkCommand (s : ModemSessionFsm) (event : FsmEvent) : Outcome (Except CommandError Unit) :=
  if s.state ≠ .inSession then .ok (.error .notReady)
  else do
    let info ← expectSome "application command" event.command
    match event with
    | .appAnnounceDestination .. | .appRequestLinkCharacteristics .. => .ok (.error .unsupported)
    | _ =>
      let scope : Except CommandError Unit :=
        match info.destination with
        | some mac => s.checkScope event mac
        | none => if s.tx.sessionBusy then .error .busy else .ok ()
      match scope with
      | .error e => .ok (.error e)
      | .ok () => s.checkArguments event

/-! ## Received messages -/

/-- The grammar, format, address and transaction checks of `step`'s prologue. -/
def checkMessage (s : ModemSessionFsm) (msg : Message) : Except StatusCode Unit := do
  let initializing := s.state = .awaitingSessionInit
  validateMessage msg false initializing s.config.advertisedExtensions
  validateMacFormat msg s.config.macAddressFormat
  if initializing || msg.messageType = .sessionUpdate then
    ((AddressChanges.fromMessage msg).applyStrict s.peerAddresses).1
  if initializing then .ok ()
  else
    let mac := extractDestinationMac msg
    let known := mac.any s.isAnnounced
    -- The router's own unanswered request occupies the destination's transaction slot.
    if (mac.any fun mac => mac ∈ s.pendingLinkRequests)
        && msg.messageType ∈ [.destinationDown, .linkCharacteristicsRequest] then
      .error .unexpectedMessage
    else validateTransaction msg s.tx known

/-- The status a received message is answered with, if it is refused. -/
def refusal (s : ModemSessionFsm) (msg : Message) : Option DataItem :=
  refuse (s.state = .awaitingSessionInit ∨ s.state = .inSession) (s.checkMessage msg) msg

/-! ## Session setup and teardown -/

def onTcpAccepted (s : ModemSessionFsm) : Result :=
  .ok ({ s with state := .awaitingSessionInit },
    [.startTimer TIMER_SESSION_INIT .sessionInit s.config.sessionInitTimeout false])

/-- The state a Session Initialization leads to. -/
def initialized (s : ModemSessionFsm) (msg : Message) : ModemSessionFsm :=
  { s with
    peerAddresses := (AddressChanges.fromMessage msg).added
    peerHeartbeatInterval := extractHeartbeatInterval msg
    peerExtensions := (extractExtensionsSupported msg).getD []
    state := .inSession }

/-- Reply to Session Initialization and enter the session. -/
def onSessionInitialization (s : ModemSessionFsm) (msg : Message) : Result :=
  let s := s.initialized msg
  .ok (s,
    [.cancelTimer TIMER_SESSION_INIT,
      .sendMessage (buildSessionInitializationResponse s.config),
      .startTimer TIMER_HEARTBEAT .heartbeat (localHeartbeatInterval s.config) true] ++
    s.heartbeatReset ++
    [.emit (.sessionUp s.peerExtensions)] ++
    if s.peerAddresses.isEmpty then []
    else [.emit (.sessionAddressesUpdate ⟨s.peerAddresses, .default⟩ s.peerAddresses)])

/-- Leave an unfinished initialization without a message. -/
def abandonInit (s : ModemSessionFsm) (actions : List FsmAction) (status : StatusCode) : Result :=
  .ok ({ s with state := .terminated }, actions ++ [.emit (.sessionDown status)])

def onSessionTermination (s : ModemSessionFsm) (msg : Message) : Result :=
  let status := (extractStatus msg).getD .shuttingDown
  .ok ({ s with state := .terminated },
    [.cancelTimer TIMER_HEARTBEAT, .cancelTimer TIMER_HEARTBEAT_MISSED,
      .sendMessage buildSessionTerminationResponse, .closeTcp, .emit (.sessionDown status)])

def onHeartbeatMissed (s : ModemSessionFsm) : Result :=
  .ok ({ s with terminationReason := .timedOut, state := .terminating },
    [.cancelTimer TIMER_HEARTBEAT, .sendMessage (buildSessionTermination .timedOut),
      s.startTermination])

def onShutdown (s : ModemSessionFsm) (reason : StatusCode) : Result :=
  .ok ({ s with terminationReason := reason, state := .terminating },
    [.cancelTimer TIMER_HEARTBEAT, .cancelTimer TIMER_HEARTBEAT_MISSED,
      .sendMessage (buildSessionTermination reason), s.startTermination])

def onTransportClosed (s : ModemSessionFsm) : Result :=
  .ok ({ s with state := .terminated },
    [.cancelTimer TIMER_HEARTBEAT, .cancelTimer TIMER_HEARTBEAT_MISSED,
      .emit (.sessionDown .timedOut)])

/-! ## Destinations -/

def onAddDestination (s : ModemSessionFsm) (mac : MacAddress) (metrics : LinkMetrics)
    (addrs : DestinationAddrs) : Result := do
  let metrics := effectiveMetrics s.sessionMetrics metrics
  let addrs := addrs.canonical
  let tx ← expectOk "checked idle destination" (s.tx.openDestination mac .destinationUp)
  let destination : ModemDestination :=
    { announced := false, pendingMetrics := false, metrics,
      addrs := addrs.canonical, advertisedAddrs := addrs.canonical }
  .ok ({ s with tx, destinations := s.destinations.insert mac destination },
    [.sendMessage (buildDestinationUp mac metrics addrs)])

/-- The update a successful Up Response releases, if metrics or addresses changed
while the Up was unanswered. -/
def deferredUpdate (mac : MacAddress) (d : ModemDestination) : Option Message :=
  let changes := AddressChanges.between d.advertisedAddrs d.addrs
  if d.pendingMetrics || !changes.isEmpty then
    let message :=
      if d.pendingMetrics then buildDestinationUpdate mac d.metrics
      else (Message.new .destinationUpdate).withItem (.macAddress mac)
    some (changes.appendTo message)
  else none

/-- The destination after a successful Up Response. -/
def acknowledge (mac : MacAddress) (d : ModemDestination) : ModemDestination :=
  match deferredUpdate mac d with
  | some _ => { d with announced := true, pendingMetrics := false, advertisedAddrs := d.addrs }
  | none => { d with announced := true }

def onDestinationUpResponse (s : ModemSessionFsm) (msg : Message) : Result :=
  let status := (extractStatus msg).getD .success
  match extractDestinationMac msg with
  | none => .ok (s, s.heartbeatReset)
  | some mac =>
    let s := { s with tx := s.tx.closeDestination mac }
    match s.destinations.lookup mac with
    | none => .ok (s, s.heartbeatReset)
    | some d =>
      if status = .success then
        .ok ({ s with destinations := s.destinations.insert mac (acknowledge mac d) },
          ((deferredUpdate mac d).map FsmAction.sendMessage).toList ++ s.heartbeatReset)
      else
        -- Retain knowledge, but respect the router's refusal.
        .ok ({ s with destinations := s.destinations.insert mac { d with announced := false } },
          s.heartbeatReset)

def onUpdateMetrics (s : ModemSessionFsm) (mac : MacAddress) (metrics : LinkMetrics) :
    Result := do
  let d ← expectSome "checked destination" (s.destinations.lookup mac)
  let d := { d with metrics := effectiveMetrics d.metrics metrics }
  if !d.announced || s.tx.destinationBusy mac then
    .ok ({ s with destinations := s.destinations.insert mac { d with pendingMetrics := true } }, [])
  else
    .ok ({ s with destinations := s.destinations.insert mac d },
      [.sendMessage (buildDestinationUpdate mac metrics)])

def onUpdateAddresses (s : ModemSessionFsm) (mac : MacAddress) (changes : AddressChanges) :
    Result := do
  let d ← expectSome "checked destination" (s.destinations.lookup mac)
  let d := { d with addrs := changes.applyLenient d.addrs }
  if !d.announced || s.tx.destinationBusy mac then
    .ok ({ s with destinations := s.destinations.insert mac d }, [])
  else
    let effective := AddressChanges.between d.advertisedAddrs d.addrs
    if effective.isEmpty then .ok ({ s with destinations := s.destinations.insert mac d }, [])
    else
      .ok ({ s with
          destinations := s.destinations.insert mac { d with advertisedAddrs := d.addrs } },
        [.sendMessage (effective.appendTo
          ((Message.new .destinationUpdate).withItem (.macAddress mac)))])

def onDropDestination (s : ModemSessionFsm) (mac : MacAddress) (reason : StatusCode) :
    Result := do
  let d ← indexMap s.destinations mac
  if !d.announced && !s.tx.destinationBusy mac then
    .ok ({ s with destinations := s.destinations.erase mac }, [])
  else
    let tx ← expectOk "checked idle destination" (s.tx.openDestination mac .destinationDown)
    .ok ({ s with tx }, [.sendMessage (buildDestinationDown mac reason)])

/-- A router withdraws interest, not physical reachability. -/
def onDestinationDown (s : ModemSessionFsm) (msg : Message) : Result := do
  let mac ← expectSome "validated MAC" (extractDestinationMac msg)
  let d ← expectSome "validated destination" (s.destinations.lookup mac)
  let d := { d with announced := false, pendingMetrics := false }
  .ok ({ s with destinations := s.destinations.insert mac d },
    [.sendMessage (buildDestinationDownResponse mac .success),
      .emit (.destinationDown mac .success)] ++ s.heartbeatReset)

def onDestinationDownResponse (s : ModemSessionFsm) (msg : Message) : Result :=
  match extractDestinationMac msg with
  | none => .ok (s, s.heartbeatReset)
  | some mac =>
    .ok ({ s with tx := s.tx.closeDestination mac, destinations := s.destinations.erase mac },
      s.heartbeatReset)

/-- The Announce Response for a known destination: an Up under another type, with
a trailing status. -/
def announceSuccess (mac : MacAddress) (d : ModemDestination) : Message :=
  let up := buildDestinationUp mac d.metrics d.addrs
  { messageType := .destinationAnnounceResponse, dataItems := up.dataItems ++ [.status .success ""] }

def onDestinationAnnounce (s : ModemSessionFsm) (msg : Message) : Result := do
  let mac ← expectSome "validated MAC" (extractDestinationMac msg)
  let announced : FsmAction :=
    .emit (.destinationAnnounced mac (AddressChanges.fromMessage msg))
  match s.destinations.lookup mac with
  | none =>
    .ok (s, [.sendMessage (buildDestinationAnnounceResponse mac .requestDenied), announced] ++
      s.heartbeatReset)
  | some d =>
    let d' := { d with announced := true, pendingMetrics := false, advertisedAddrs := d.addrs }
    .ok ({ s with destinations := s.destinations.insert mac d' },
      [.sendMessage (announceSuccess mac d), announced] ++ s.heartbeatReset)

/-! ## Link characteristics -/

def onLinkCharacteristicsRequest (s : ModemSessionFsm) (msg : Message) : Result := do
  let mac ← expectSome "validated MAC" (extractDestinationMac msg)
  let d ← indexMap s.destinations mac
  let requested := extractLinkCharacteristics msg
  if s.config.deferLinkCharacteristics then
    .ok ({ s with pendingLinkRequests := insert mac s.pendingLinkRequests },
      [.emit (.linkCharacteristicsRequested mac requested d.metrics true)] ++ s.heartbeatReset)
  else
    .ok (s,
      [.sendMessage (buildLinkCharacteristicsResponse mac .requestDenied d.metrics),
        .emit (.linkCharacteristicsRequested mac requested d.metrics false)] ++ s.heartbeatReset)

def onLinkCharacteristicsResponse (s : ModemSessionFsm) (mac : MacAddress) (status : StatusCode)
    (text : String) (metrics : Option LinkMetrics) : Result := do
  let d ← expectSome "checked destination" (s.destinations.lookup mac)
  let d := { d with metrics := (metrics.map (effectiveMetrics d.metrics)).getD d.metrics }
  .ok ({ s with
      pendingLinkRequests := s.pendingLinkRequests.erase mac
      destinations := s.destinations.insert mac d },
    [.sendMessage (buildLinkCharacteristicsReply mac status text d.metrics)])

/-! ## Session updates -/

def onSessionUpdate (s : ModemSessionFsm) (msg : Message) : Result := do
  let changes := AddressChanges.fromMessage msg
  let (result, peerAddresses) := changes.applyStrict s.peerAddresses
  expectOk "validated peer addresses" result
  .ok ({ s with peerAddresses },
    [.sendMessage (buildSessionUpdateResponse .success)] ++
    (if changes.isEmpty then [] else [.emit (.sessionAddressesUpdate changes peerAddresses)]) ++
    s.heartbeatReset)

def onAppSessionUpdate (s : ModemSessionFsm) (metrics : LinkMetrics) : Result := do
  let tx ← expectOk "checked idle session" (s.tx.openSession .sessionUpdate)
  let message := buildSessionUpdate metrics
  .ok ({ s with
      tx
      sessionMetrics := (mergeLinkMetrics message s.sessionMetrics).1
      destinations := s.destinations.mapValues fun d =>
        { d with metrics := (mergeLinkMetrics message d.metrics).1 } },
    [.sendMessage message])

def onSessionAddresses (s : ModemSessionFsm) (changes : AddressChanges) : Result := do
  let (tx, localAddresses, actions) ← applyLocalAddressUpdate s.tx s.localAddresses changes
  .ok ({ s with tx, localAddresses }, actions)

/-! ## Dispatch -/

/-- The in-session arms for a received message, in the order of the source. -/
def onMessage (s : ModemSessionFsm) (msg : Message) : Result :=
  let mt := msg.messageType
  if mt = .sessionTermination then s.onSessionTermination msg
  else if mt = .destinationUpResponse then s.onDestinationUpResponse msg
  else if mt = .destinationDown then s.onDestinationDown msg
  else if mt = .destinationDownResponse then s.onDestinationDownResponse msg
  else if mt = .sessionUpdate then s.onSessionUpdate msg
  else if mt = .sessionUpdateResponse then
    .ok ({ s with tx := s.tx.closeSession }, s.heartbeatReset)
  else if mt = .destinationAnnounce then s.onDestinationAnnounce msg
  else if mt = .linkCharacteristicsRequest then s.onLinkCharacteristicsRequest msg
  else if mt = .heartbeat then .ok (s, s.heartbeatReset)
  else s.protocolError (.status .unexpectedMessage "")

/-- The match of `step` on the state and the event. -/
def dispatch (s : ModemSessionFsm) (event : FsmEvent) : Result :=
  match s.state, event with
  | .listening, .tcpAccepted => s.onTcpAccepted
  | .listening, .appShutdown _ => .ok ({ s with state := .terminated }, [])
  | .listening, .tcpClosed => .ok ({ s with state := .terminated }, [])
  | .awaitingSessionInit, .recvMessage msg =>
    if msg.messageType = .sessionInitialization then s.onSessionInitialization msg
    else s.abandonInit [.cancelTimer TIMER_SESSION_INIT, .closeTcp] .invalidData
  | .awaitingSessionInit, .timerExpired _ .sessionInit => s.abandonInit [.closeTcp] .timedOut
  | .awaitingSessionInit, .tcpClosed =>
    s.abandonInit [.cancelTimer TIMER_SESSION_INIT] .timedOut
  | .awaitingSessionInit, .appShutdown reason =>
    s.abandonInit [.cancelTimer TIMER_SESSION_INIT, .closeTcp] reason
  | .inSession, .recvMessage msg => s.onMessage msg
  | .inSession, .appAddDestination mac metrics addrs => s.onAddDestination mac metrics addrs
  | .inSession, .appUpdateMetrics mac metrics => s.onUpdateMetrics mac metrics
  | .inSession, .appUpdateAddresses mac changes => s.onUpdateAddresses mac changes
  | .inSession, .appDropDestination mac reason => s.onDropDestination mac reason
  | .inSession, .appLinkCharacteristicsResponse mac status text metrics =>
    s.onLinkCharacteristicsResponse mac status text metrics
  | .inSession, .appSessionAddresses changes => s.onSessionAddresses changes
  | .inSession, .recvExtensionMessage => .ok (s, s.heartbeatReset)
  | .inSession, .timerExpired _ .heartbeat => .ok (s, [.sendMessage buildHeartbeat])
  | .inSession, .timerExpired _ .heartbeatMissed => s.onHeartbeatMissed
  | .inSession, .appSessionUpdate metrics => s.onAppSessionUpdate metrics
  | .inSession, .appShutdown reason => s.onShutdown reason
  | .inSession, .tcpClosed => s.onTransportClosed
  | .terminating, .recvMessage msg =>
    if msg.messageType = .sessionTerminationResponse then
      .ok ({ s with state := .terminated },
        [.cancelTimer TIMER_TERMINATION, .closeTcp, .emit (.sessionDown s.terminationReason)])
    else .ok (s, [])
  | .terminating, .timerExpired _ .termination =>
    .ok ({ s with state := .terminated }, [.closeTcp, .emit (.sessionDown .timedOut)])
  | .terminating, .tcpClosed =>
    .ok ({ s with state := .terminated },
      [.cancelTimer TIMER_TERMINATION, .emit (.sessionDown s.terminationReason)])
  | _, _ => .ok (s, [])

def step (s : ModemSessionFsm) (event : FsmEvent) : Result :=
  match event.command with
  | some command => do
    match ← s.checkCommand event with
    | .error reason => .ok (s, [.emit (.commandRejected ⟨command, reason⟩)])
    | .ok () => s.dispatch event
  | none =>
    match event with
    | .recvMessage msg =>
      match s.refusal msg with
      | some status => s.protocolError status
      | none => s.dispatch event
    | .protocolError code => s.protocolError (.status code "")
    | _ => s.dispatch event

end ModemSessionFsm

end Dlep
