-- SUMMARY: Session commands, what a broadcast reports, and the modem daemon's checks before it sends one.
import Dlep.Fsm.Modem

/-!
# Session commands

`SessionCommand` and `dispatch_command` of `runtime.rs`, and the part of `ModemDaemon`
that an adapter uses. A command goes to every session, or to one; each session answers
with a receipt, and the receipts are folded into one result. The sessions themselves are
a parameter: `deliver` says what they do with a command.
-/

namespace Dlep

/-! ## Commands -/

structure SessionId where
  id : UInt64
  deriving DecidableEq, Repr

inductive SessionCommand where
  | shutdown (reason : StatusCode)
  | addDestination (mac : MacAddress) (metrics : LinkMetrics) (addrs : DestinationAddrs)
  | updateDestination (mac : MacAddress) (metrics : LinkMetrics)
  | updateDestinationAddresses (mac : MacAddress) (changes : AddressChanges)
  | updateSessionAddresses (sessionId : SessionId) (changes : AddressChanges)
  | dropDestination (mac : MacAddress) (reason : StatusCode)
  | dropDestinationForSession (sessionId : SessionId) (mac : MacAddress)
  | sessionUpdate (metrics : LinkMetrics)
  | announceDestination (mac : MacAddress)
  | requestLinkCharacteristics (sessionId : SessionId) (mac : MacAddress)
      (requested : LinkCharacteristics)
  deriving DecidableEq, Repr

namespace SessionCommand

/-- The one session a command is for. -/
def target : SessionCommand → Option SessionId
  | .dropDestinationForSession sessionId _ => some sessionId
  | .updateSessionAddresses sessionId _ => some sessionId
  | .requestLinkCharacteristics sessionId _ _ => some sessionId
  | _ => none

/-- The event a session turns a command into. -/
def event : SessionCommand → FsmEvent
  | .shutdown reason => .appShutdown reason
  | .addDestination mac metrics addrs => .appAddDestination mac metrics addrs
  | .updateDestination mac metrics => .appUpdateMetrics mac metrics
  | .updateDestinationAddresses mac changes => .appUpdateAddresses mac changes
  | .updateSessionAddresses _ changes => .appSessionAddresses changes
  | .dropDestination mac reason => .appDropDestination mac reason
  | .dropDestinationForSession _ mac => .appDropDestination mac .success
  | .sessionUpdate metrics => .appSessionUpdate metrics
  | .announceDestination mac => .appAnnounceDestination mac
  | .requestLinkCharacteristics _ mac requested => .appRequestLinkCharacteristics mac requested

end SessionCommand

/-- The outcome a session puts into the receipt: the first rejection among the actions. -/
def commandOutcome (actions : List FsmAction) : Except CommandRejection Unit :=
  match actions.findSome? fun
    | .emit (.commandRejected rejection) => some rejection
    | _ => none with
  | some rejection => .error rejection
  | none => .ok ()

/-! ## Results -/

structure CommandReport where
  accepted : List SessionId
  rejected : List (SessionId × CommandRejection)
  undelivered : ℕ
  unknown : ℕ
  deriving DecidableEq, Repr

inductive DaemonError where
  | sessionLimitReached
  | peerHistoryFull
  | noMatchingSession
  | commandRejected (report : CommandReport)
  | shuttingDown
  | config (message : String)
  | io
  | codec (error : CodecError)
  deriving DecidableEq, Repr

/-- Once the selected session replied, failures of unrelated sessions do not count. -/
def CommandReport.selected (r : CommandReport) (target : Option SessionId) : CommandReport :=
  if target.isSome ∧ (r.accepted ≠ [] ∨ r.rejected ≠ []) then
    { r with undelivered := 0, unknown := 0 }
  else r

def CommandReport.result (r : CommandReport) : Except DaemonError Unit :=
  if r.rejected ≠ [] ∨ r.undelivered ≠ 0 ∨ r.unknown ≠ 0 then .error (.commandRejected r)
  else if r.accepted = [] then .error .noMatchingSession
  else .ok ()

/-! ## Dispatch -/

/-- What becomes of a request at one session. -/
inductive Fate where
  /-- The channel is closed before the request is queued. -/
  | closed
  /-- The session ends without a receipt. -/
  | lost
  /-- The session takes the request; its FSM has this outcome for the command. -/
  | taken (outcome : Except CommandRejection Unit)

/-- The channel to one session. -/
structure Sender where
  id : SessionId
  fate : Fate

abbrev CommandReceipt : Type := Option (SessionId × Except CommandRejection Unit)

/-- What a session answers to a queued request, `none` when the receipt is dropped. -/
def Sender.receipt (target : Option SessionId) (s : Sender) : Option CommandReceipt :=
  match s.fate with
  | .taken outcome => some (if target.any (· ≠ s.id) then none else some (s.id, outcome))
  | _ => none

/-- The loop that queues the request at one session after the other. -/
def sendRequests (target : Option SessionId) :
    List Sender → CommandReport → List (Option CommandReceipt) →
      CommandReport × List (Option CommandReceipt)
  | [], report, receipts => (report, receipts)
  | sender :: senders, report, receipts =>
    match sender.fate with
    | .closed =>
      sendRequests target senders { report with undelivered := report.undelivered + 1 } receipts
    | _ => sendRequests target senders report (receipts ++ [sender.receipt target])

/-- One pass of the loop that waits for the receipts. -/
def CommandReport.count (report : CommandReport) : Option CommandReceipt → CommandReport
  | some (some (id, .ok ())) => { report with accepted := report.accepted ++ [id] }
  | some (some (id, .error reason)) => { report with rejected := report.rejected ++ [(id, reason)] }
  | some none => report
  | none => { report with unknown := report.unknown + 1 }

def awaitReceipts (receipts : List (Option CommandReceipt)) (report : CommandReport) :
    CommandReport :=
  receipts.foldl CommandReport.count report

/-- `dispatch_command`. -/
def dispatchSenders (senders : List Sender) (command : SessionCommand)
    (target : Option SessionId) : Except DaemonError Unit :=
  if target.isSome ∧ command.target.isSome ∧ target ≠ command.target then
    .error (.config "conflicting command session IDs")
  else
    let target := target.or command.target
    let (report, receipts) := sendRequests target senders ⟨[], [], 0, 0⟩ []
    ((awaitReceipts receipts report).selected target).result

/-- The sessions take the request, unless two different ones are named. -/
def dispatchCommand {σ : Type}
    (deliver : SessionCommand → Option SessionId → σ → σ × List Sender)
    (command : SessionCommand) (target : Option SessionId) (w : σ) :
    σ × Except DaemonError Unit :=
  let (w, senders) :=
    if target.isSome ∧ command.target.isSome ∧ target ≠ command.target then (w, [])
    else deliver command (target.or command.target) w
  (w, dispatchSenders senders command target)

def validateAddressChanges (changes : AddressChanges) : Except DaemonError Unit :=
  match changes.validate with
  | .error _ => .error (.config "duplicate or conflicting address changes")
  | .ok () =>
    match (changes.appendTo (Message.new .sessionUpdate)).encode with
    | .error e => .error (.codec e)
    | .ok _ => .ok ()

/-! ## The modem daemon -/

structure ModemDaemon (σ : Type) where
  initialMetrics : LinkMetrics
  deliver : SessionCommand → Option SessionId → σ → σ × List Sender

namespace ModemDaemon

variable {σ : Type} (d : ModemDaemon σ)

def dispatch (command : SessionCommand) (target : Option SessionId) (w : σ) :
    σ × Except DaemonError Unit :=
  dispatchCommand d.deliver command target w

def fanout (command : SessionCommand) (w : σ) : σ × Except DaemonError Unit :=
  d.dispatch command none w

def sendCommandTo (sessionId : SessionId) (command : SessionCommand) (w : σ) :
    σ × Except DaemonError Unit :=
  d.dispatch command (some sessionId) w

/-- Metric declarations and wire encoding, without sending an update. -/
def validateMetrics (metrics : LinkMetrics) : Except DaemonError Unit :=
  if !metrics.supportedBy d.initialMetrics then
    .error (.config "optional metric was not declared in ModemConfig.metrics")
  else
    match (buildSessionUpdate metrics).encode with
    | .error e => .error (.codec e)
    | .ok _ => .ok ()

/-- The checks of `add_destination_with_addresses` and the command they let through. -/
def checkAdd (mac : MacAddress) (metrics : LinkMetrics) (addresses : DestinationAddrs) :
    Except DaemonError SessionCommand := do
  d.validateMetrics metrics
  let changes : AddressChanges := ⟨addresses.canonical, .default⟩
  validateAddressChanges changes
  match (buildDestinationUp mac metrics changes.added).encode with
  | .error e => .error (.codec e)
  | .ok _ => .ok (.addDestination mac metrics changes.added)

/-- Send a command that passed its checks. -/
def submit (checked : Except DaemonError SessionCommand) (w : σ) : σ × Except DaemonError Unit :=
  match checked with
  | .error e => (w, .error e)
  | .ok command => d.fanout command w

def addDestinationWithAddresses (mac : MacAddress) (metrics : LinkMetrics)
    (addresses : DestinationAddrs) (w : σ) : σ × Except DaemonError Unit :=
  d.submit (d.checkAdd mac metrics addresses) w

def updateDestinationAddresses (mac : MacAddress) (changes : AddressChanges) (w : σ) :
    σ × Except DaemonError Unit :=
  d.submit (do
    validateAddressChanges changes
    .ok (.updateDestinationAddresses mac changes.canonical)) w

def updateDestination (mac : MacAddress) (metrics : LinkMetrics) (w : σ) :
    σ × Except DaemonError Unit :=
  d.submit (do
    d.validateMetrics metrics
    .ok (.updateDestination mac metrics)) w

def dropDestination (mac : MacAddress) (reason : StatusCode) (w : σ) :
    σ × Except DaemonError Unit :=
  d.fanout (.dropDestination mac reason) w

def updateSessionMetrics (metrics : LinkMetrics) (w : σ) : σ × Except DaemonError Unit :=
  d.submit (do
    d.validateMetrics metrics
    .ok (.sessionUpdate metrics)) w

end ModemDaemon

end Dlep
