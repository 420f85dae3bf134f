-- SUMMARY: The session task: its select loop, the processing of action batches with their await points, and what dropping it does.
import Dlep.Daemon.Extensions
import Dlep.Daemon.LinkControl
import Dlep.Daemon.TimerSet
import Dlep.Fsm.Router

/-!
# The session task

`run_session_tracked` of `session.rs`. A turn of the loop takes one input, steps the state
machine and works through the actions. Everything between two await points happens at
once; at an await point the task may fail or be cancelled. A budget counts the await
points that complete before the one that does not; with no budget all of them complete.
However the task ends, its `SessionLifecycle` is dropped.

The log holds what others can observe of the task, in order.
-/

namespace Dlep

/-! ## State machines -/

class SessionFsm (F : Type) where
  step : F → FsmEvent → Outcome (F × List FsmAction)
  inSession : F → Bool
  macAddressFormat : F → MacAddressFormat

instance : SessionFsm RouterSessionFsm where
  step := RouterSessionFsm.step
  inSession s := s.state = .inSession
  macAddressFormat s := s.config.macAddressFormat

instance : SessionFsm ModemSessionFsm where
  step := ModemSessionFsm.step
  inSession s := s.state = .inSession
  macAddressFormat s := s.config.macAddressFormat

/-! ## What is observed -/

structure PeerInfo where
  addr : SocketAddr
  isTls : Bool
  peerDescription : Option String
  deriving DecidableEq, Repr

/-- Broadcast events. The destination, metric and address events carry the fields of the
emitted event they translate. -/
inductive DaemonEvent where
  | sessionUp (sessionId : SessionId) (peer : PeerInfo) (negotiated : List ExtensionId)
  | sessionDown (sessionId : SessionId) (peer : PeerInfo) (reason : StatusCode)
  | reported (sessionId : SessionId) (peer : PeerInfo) (event : EmittedEvent)
  | extension (payload : ℕ)
  deriving DecidableEq, Repr

inductive Effect where
  | written (message : Message)
  | broadcast (event : DaemonEvent)
  | negotiated (registrations : List ℕ)
  | established
  | sessionState (registration : ℕ) (up : Bool)
  | receipt (answer : Option (SessionId × Except CommandRejection Unit))

/-! ## The task -/

/-- `tracked` says whether the connection registry is told of the session. -/
structure SessionTask (F χ : Type) where
  sessionId : SessionId
  fsm : F
  peer : PeerInfo
  registry : List (Registration χ)
  plugins : χ
  activeExts : List (Registration χ)
  downEmitted : Bool
  macAddressFormat : MacAddressFormat
  tracked : Bool
  linkJobs : LinkJobs
  pendingSends : List Message
  timers : TimerRuntime
  commandsOpen : Bool
  log : List Effect

/-- How many await points still complete. -/
abbrev Budget : Type := Option ℕ

/-- A piece of the task: its result, or the task where it stopped. -/
abbrev Attempt (F χ : Type) : Type → Type := Except (SessionTask F χ)

/-- A request on the command channel. -/
structure SessionRequest where
  target : Option SessionId
  command : SessionCommand
  receipt : Bool
  deriving DecidableEq, Repr

/-- What the select loop reacts to; `fire` is a timer task that sends its expiry. -/
inductive LoopInput where
  | message (msg : Message)
  | codecError
  | readError
  | eof
  | command (request : Option SessionRequest)
  | linkJob (task : ℕ) (outcome : Option LinkResponse)
  | timerExpiry
  | fire (task : ℕ)

/-- What an arm of the loop does after its actions. -/
inductive Afterwards where
  | again
  | flush
  | reply (answer : Option (SessionId × Except CommandRejection Unit))
  | leave

namespace SessionTask

variable {F χ : Type}

def record (s : SessionTask F χ) (effects : List Effect) : SessionTask F χ :=
  { s with log := s.log ++ effects }

/-- Queue a hook's messages and broadcast its events. -/
def absorb (s : SessionTask F χ) (out : HookOutput) : SessionTask F χ :=
  { s with pendingSends := s.pendingSends ++ out.sends }.record
    (out.events.map fun payload => .broadcast (.extension payload))

/-! ### Lifecycle hooks -/

def sessionStateHook (up : Bool) (s : SessionTask F χ) (r : Registration χ) : SessionTask F χ :=
  let (plugins, out) := r.1.onSessionState up s.plugins
  ({ s with plugins }.record [.sessionState r.2 up]).absorb out

def dispatchSessionState (s : SessionTask F χ) (up : Bool) : SessionTask F χ :=
  s.activeExts.foldl (sessionStateHook up) s

def destinationStateHook (mac : MacAddress) (snap : DestinationStateSnapshot) (s : SessionTask F χ)
    (r : Registration χ) : SessionTask F χ :=
  let (plugins, out) := r.1.onDestinationState mac snap s.plugins
  { s with plugins }.absorb out

def dispatchDestinationState (s : SessionTask F χ) (mac : MacAddress)
    (snap : DestinationStateSnapshot) : SessionTask F χ :=
  s.activeExts.foldl (destinationStateHook mac snap) s

/-! ### Emitted events -/

def translateEmitted (s : SessionTask F χ) : EmittedEvent → Option DaemonEvent
  | .sessionUp peerExtensions =>
    some (.sessionUp s.sessionId s.peer (negotiatedFromActive s.activeExts peerExtensions))
  | .sessionDown reason => some (.sessionDown s.sessionId s.peer reason)
  | .peerDiscovered .. => none
  | event => some (.reported s.sessionId s.peer event)

/-- Mark the guard, and negotiate before the Session Up is translated. -/
def prepare (s : SessionTask F χ) : EmittedEvent → SessionTask F χ
  | .sessionDown _ => { s with downEmitted := true }
  | .sessionUp peerExtensions =>
    let (plugins, activeExts) := negotiate peerExtensions s.registry s.plugins
    { s with plugins, activeExts }.record
      (.negotiated (activeExts.map Prod.snd) :: if s.tracked then [.established] else [])
  | _ => s

/-- Drive the hooks that belong to an event, after it was broadcast. -/
def driveHooks (s : SessionTask F χ) : EmittedEvent → SessionTask F χ
  | .sessionUp _ => s.dispatchSessionState true
  | .sessionDown _ => { s.dispatchSessionState false with activeExts := [] }
  | .destinationUp mac metrics _ =>
    s.dispatchDestinationState mac ⟨true, .success, some metrics⟩
  | .linkCharacteristicsRequested mac requested metrics true =>
    { s with linkJobs := s.linkJobs.start ⟨s.sessionId, s.peer.addr, mac, requested, metrics⟩ }
  | .destinationDown mac reason => s.dispatchDestinationState mac ⟨false, reason, none⟩
  | _ => s

/-- The part of an `Emit` before its await point. -/
def emitted (s : SessionTask F χ) (event : EmittedEvent) : SessionTask F χ :=
  let s := s.prepare event
  let s := s.record ((s.translateEmitted event).map Effect.broadcast).toList
  s.driveHooks event

/-! ### Await points -/

/-- Wait, unless the task fails or is cancelled here. -/
def await (s : SessionTask F χ) : Budget → Attempt F χ (SessionTask F χ × Budget)
  | none => .ok (s, none)
  | some (n + 1) => .ok (s, some n)
  | some 0 => .error s

def writeMessage (s : SessionTask F χ) (msg : Message) (budget : Budget) :
    Attempt F χ (SessionTask F χ × Budget) :=
  match msg.encode with
  | .error _ => .error s
  | .ok _ => do
    let (s, budget) ← s.await budget
    .ok (s.record [.written msg], budget)

/-- Write the drained messages of the plug-ins. -/
def flushMessages : List Message → SessionTask F χ → Budget → Attempt F χ (SessionTask F χ × Budget)
  | [], s, budget => .ok (s, budget)
  | msg :: rest, s, budget =>
    match validateMacFormat msg s.macAddressFormat with
    | .error _ => .error s
    | .ok () => do
      let (s, budget) ← s.writeMessage msg budget
      flushMessages rest s budget

def flushPendingSends (s : SessionTask F χ) (budget : Budget) : Attempt F χ (SessionTask F χ × Budget) :=
  flushMessages s.pendingSends { s with pendingSends := [] } budget

/-! ### Actions -/

/-- One action of a batch; the flag says whether the connection is to be closed. -/
def perform (s : SessionTask F χ) (action : FsmAction) (budget : Budget) :
    Attempt F χ (SessionTask F χ × Bool × Budget) :=
  match action with
  | .sendMessage msg => do
    let (s, budget) ← s.writeMessage msg budget
    .ok (s, false, budget)
  | .emit event => do
    let (s, budget) ← (s.emitted event).flushPendingSends budget
    .ok (s, false, budget)
  | .closeTcp => .ok (s, true, budget)
  | .sendSignal .. => .ok (s, false, budget)
  | action =>
    match action.timerInput with
    | some input => .ok ({ s with timers := (s.timers.step input).1 }, false, budget)
    | none => .ok (s, false, budget)

/-- A batch of actions, and the shutdown of the writer if one of them closes the connection. -/
def processActions : List FsmAction → SessionTask F χ → Bool → Budget →
    Attempt F χ (SessionTask F χ × Bool × Budget)
  | [], s, false, budget => .ok (s, false, budget)
  | [], s, true, budget => do
    let (s, budget) ← s.await budget
    .ok (s, true, budget)
  | action :: actions, s, close, budget => do
    let (s, closes, budget) ← s.perform action budget
    processActions actions s (close || closes) budget

/-! ### The arms of the loop -/

variable [SessionFsm F]

/-- Step the state machine. A panic unwinds the task. -/
def feed (s : SessionTask F χ) (event : FsmEvent) : Attempt F χ (SessionTask F χ × List FsmAction) :=
  match SessionFsm.step s.fsm event with
  | .ok (fsm, actions) => .ok ({ s with fsm }, actions)
  | .error _ => .error s

end SessionTask

/-- Core message types that are not offered to the plug-ins. -/
def isKnownMessageType (mt : MessageType) : Bool :=
  mt ∈ [.sessionInitialization, .sessionInitializationResponse, .sessionUpdate,
    .sessionUpdateResponse, .sessionTermination, .sessionTerminationResponse, .destinationUp,
    .destinationUpResponse, .destinationAnnounce, .destinationAnnounceResponse, .destinationDown,
    .destinationDownResponse, .destinationUpdate, .heartbeat]

/-- An input of the application was rejected as invalid. -/
def rejectsInput (actions : List FsmAction) : Bool :=
  actions.any fun
    | .emit (.commandRejected rejection) => rejection.reason = .invalidInput
    | _ => false

namespace SessionTask

variable {F χ : Type} [SessionFsm F]

/-- The initialization messages carry the peer's description. -/
def describePeer (s : SessionTask F χ) (msg : Message) : SessionTask F χ :=
  if msg.messageType ∈ [.sessionInitialization, .sessionInitializationResponse] then
    let description := msg.dataItems.findSome? fun
      | .peerType _ description => some description
      | _ => none
    { s with peer := { s.peer with peerDescription := description } }
  else s

/-- The event a received message becomes, once the plug-ins had their turn. -/
def receive (s : SessionTask F χ) (msg : Message) : SessionTask F χ × FsmEvent :=
  let offered := SessionFsm.inSession s.fsm && !isKnownMessageType msg.messageType
  if offered && !(validateMacFormat msg s.macAddressFormat).isOk then
    (s, .protocolError .invalidData)
  else
    let (s, handled) :=
      if offered then
        let (plugins, out, claimed) :=
          dispatchUnknownMessage msg.messageType msg.dataItems s.activeExts s.plugins
        ({ s with plugins }.absorb out, claimed)
      else (s, false)
    if handled then (s, .recvExtensionMessage)
    else if SessionFsm.inSession s.fsm then
      let (plugins, out, dataItems) :=
        filterUnknownItems s.activeExts msg.messageType msg.dataItems s.plugins
      ({ s with plugins }.absorb out, .recvMessage { msg with dataItems })
    else (s, .recvMessage msg)

/-- The answer of a link-control backend. If the state machine finds it invalid, a denial goes out
instead, so that the router's transaction still completes. -/
def answerLink (s : SessionTask F χ) (event : FsmEvent) :
    Attempt F χ (SessionTask F χ × List FsmAction) := do
  let fallback := fallbackDenial event
  let (s, actions) ← s.feed event
  if rejectsInput actions then
    match fallback with
    | none => .error s
    | some fallback =>
      let (s, denial) ← s.feed fallback
      .ok (s, actions ++ denial)
  else .ok (s, actions)

/-- What an arm hands to `process_actions`: the state machine's actions, and what follows them. -/
abbrev Batch (F χ : Type) : Type := SessionTask F χ × List FsmAction × Afterwards

def onMessage (s : SessionTask F χ) (msg : Message) : Attempt F χ (Batch F χ) := do
  let (s, event) := (s.describePeer msg).receive msg
  let (s, actions) ← s.feed event
  .ok (s, actions, match event with | .protocolError _ => .again | _ => .flush)

/-- A command, or `none` when the daemon dropped the channel: then shut down once, and never read it
again. -/
def onCommand (s : SessionTask F χ) (request : Option SessionRequest) : Attempt F χ (Batch F χ) := do
  if !s.commandsOpen then .ok (s, [], .again)
  else
    match request with
    | none =>
      let (s, actions) ← { s with commandsOpen := false }.feed (.appShutdown .shuttingDown)
      .ok (s, actions, .again)
    | some request =>
      if request.target.any fun target => target ≠ s.sessionId then
        .ok (s, [], if request.receipt then .reply none else .again)
      else
        let (s, actions) ← s.feed request.command.event
        .ok (s, actions, if request.receipt then
          .reply (some (s.sessionId, commandOutcome actions)) else .again)

def onLinkJob (s : SessionTask F χ) (task : ℕ) (outcome : Option LinkResponse) :
    Attempt F χ (Batch F χ) :=
  match s.linkJobs.next task outcome with
  | none => .ok (s, [], .again)
  | some (linkJobs, event) => do
    let (s, actions) ← { s with linkJobs }.answerLink event
    .ok (s, actions, .again)

def onTimerExpiry (s : SessionTask F χ) : Attempt F χ (Batch F χ) :=
  match s.timers.deliver with
  | (timers, none) => .ok ({ s with timers }, [], .again)
  | (timers, some expiry) => do
    let (s, actions) ← { s with timers }.feed (.timerExpired expiry.id expiry.kind)
    .ok (s, actions, .again)

/-- The arms of the loop. -/
def arm (s : SessionTask F χ) : LoopInput → Attempt F χ (Batch F χ)
  | .message msg => s.onMessage msg
  | .codecError => do
    let (s, actions) ← s.feed (.protocolError .invalidData)
    .ok (s, actions, .again)
  | .readError => .error s
  | .eof => do
    let (s, actions) ← s.feed .tcpClosed
    .ok (s, actions, .leave)
  | .command request => s.onCommand request
  | .linkJob task outcome => s.onLinkJob task outcome
  | .timerExpiry => s.onTimerExpiry
  | .fire task => .ok ({ s with timers := (s.timers.step (.fire task)).1 }, [], .again)

/-- A turn of the loop: the actions it processed, and whether the loop goes on. -/
def turn (s : SessionTask F χ) (input : LoopInput) (budget : Budget) :
    Attempt F χ (SessionTask F χ × List FsmAction × Bool × Budget) := do
  let (s, actions, afterwards) ← s.arm input
  let (s, close, budget) ← processActions actions s false budget
  match afterwards with
  | .again => .ok (s, actions, !close, budget)
  | .flush =>
    if close then .ok (s, actions, false, budget)
    else
      let (s, budget) ← s.flushPendingSends budget
      .ok (s, actions, true, budget)
  | .reply answer => .ok (s.record [.receipt answer], actions, !close, budget)
  | .leave => .ok (s, actions, false, budget)

/-! ### The whole task -/

/-- The drop guard: a session that was never reported down is reported now. -/
def drop (s : SessionTask F χ) : SessionTask F χ :=
  if s.downEmitted then s
  else
    -- What the hooks still queue is discarded.
    { (s.record [.broadcast (.sessionDown s.sessionId s.peer .timedOut)]).dispatchSessionState false
      with pendingSends := s.pendingSends }

/-- The loop, up to the point where it is left, fails or is cancelled. -/
def loop : List LoopInput → SessionTask F χ → Budget → SessionTask F χ
  | [], s, _ => s
  | input :: inputs, s, budget =>
    match s.turn input budget with
    | .error s => s
    | .ok (s, _, false, _) => s
    | .ok (s, _, true, budget) => loop inputs s budget

/-- The startup event, the loop, and the drop of the guard. -/
def runTracked (s : SessionTask F χ) (initialEvent : FsmEvent) (inputs : List LoopInput)
    (budget : Budget) : SessionTask F χ :=
  let started : Attempt F χ (SessionTask F χ × Bool × Budget) := do
    let (s, actions) ← s.feed initialEvent
    processActions actions s false budget
  match started with
  | .error s => s.drop
  | .ok (s, true, _) => s.drop
  | .ok (s, false, budget) => (loop inputs s budget).drop

/-- A session task that has not run yet. -/
def new (sessionId : SessionId) (fsm : F) (peer : PeerInfo) (extensions : List (DlepExtension χ))
    (plugins : χ) (tracked backend : Bool) : SessionTask F χ where
  sessionId := sessionId
  fsm := fsm
  peer := peer
  registry := extensions.zipIdx
  plugins := plugins
  activeExts := []
  downEmitted := false
  macAddressFormat := SessionFsm.macAddressFormat fsm
  tracked := tracked
  linkJobs := .new backend
  pendingSends := []
  timers := .init
  commandsOpen := true
  log := []

end SessionTask

end Dlep
