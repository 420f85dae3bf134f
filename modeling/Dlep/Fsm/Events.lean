-- SUMMARY: Events, actions, commands, timers and the transaction tracker shared by the session state machines.
import Dlep.Fsm.Addresses

/-!
# Events, actions and transactions

The inputs and outputs of every state machine (`events.rs`, `commands.rs`,
`timers.rs`) and the transaction tracker (`transaction.rs`).

A step of the code can panic. The model makes this visible: a function that
contains a failure point returns an `Outcome`, and a failure point that fires is
an error naming it.
-/

namespace Dlep

/-! ## Failure points -/

/-- The ways a state machine's code can panic. -/
inductive Panic where
  | expect (message : String)
  | unreachable
  | index
  deriving DecidableEq, Repr

abbrev Outcome (α : Type) : Type := Except Panic α

/-- `Option::expect`. -/
def expectSome {α : Type} (message : String) : Option α → Outcome α
  | some a => .ok a
  | none => .error (.expect message)

/-- `Result::expect`. -/
def expectOk {ε α : Type} (message : String) : Except ε α → Outcome α
  | .ok a => .ok a
  | .error _ => .error (.expect message)

/-- `map[&key]`. -/
def indexMap {κ ν : Type} [DecidableEq κ] (m : FinMap κ ν) (k : κ) : Outcome ν :=
  match m.lookup k with
  | some v => .ok v
  | none => .error .index

@[simp] theorem expectSome_some {α : Type} (message : String) (a : α) :
    expectSome message (some a) = .ok a := rfl

@[simp] theorem expectOk_ok {ε α : Type} (message : String) (a : α) :
    expectOk message (.ok a : Except ε α) = .ok a := rfl

/-! ## Timers -/

structure TimerId where
  id : UInt32
  deriving DecidableEq, Repr

inductive TimerKind where
  | heartbeat
  | heartbeatMissed
  | sessionInit
  | termination
  | discovery
  deriving DecidableEq, Repr

def TIMER_SESSION_INIT : TimerId := ⟨1⟩
def TIMER_TERMINATION : TimerId := ⟨2⟩
def TIMER_HEARTBEAT : TimerId := ⟨3⟩
def TIMER_HEARTBEAT_MISSED : TimerId := ⟨4⟩

/-! ## Commands -/

inductive CommandKind where
  | addDestination
  | dropDestination
  | updateMetrics
  | updateAddresses
  | sessionAddresses
  | sessionMetrics
  | announceDestination
  | linkCharacteristics
  | linkCharacteristicsResponse
  deriving DecidableEq, Repr

/-- A command and the destination it is about; `none` for a session-wide one. -/
structure CommandInfo where
  kind : CommandKind
  destination : Option MacAddress
  deriving DecidableEq, Repr

inductive CommandError where
  | busy
  | notReady
  | unknownDestination
  | alreadyExists
  | unsupported
  | invalidInput
  | noPendingRequest
  | macAddressFormatMismatch
  deriving DecidableEq, Repr

structure CommandRejection where
  command : CommandInfo
  reason : CommandError
  deriving DecidableEq, Repr

/-! ## Events -/

inductive FsmEvent where
  | recvMessage (m : Message)
  | recvExtensionMessage
  | protocolError (code : StatusCode)
  | recvSignal (signal : Signal) (source : SocketAddr)
  | tcpConnected
  | tcpAccepted
  | tcpClosed
  | timerExpired (id : TimerId) (kind : TimerKind)
  | appAddDestination (mac : MacAddress) (metrics : LinkMetrics) (addrs : DestinationAddrs)
  | appDropDestination (mac : MacAddress) (reason : StatusCode)
  | appUpdateMetrics (mac : MacAddress) (metrics : LinkMetrics)
  | appUpdateAddresses (mac : MacAddress) (changes : AddressChanges)
  | appSessionAddresses (changes : AddressChanges)
  | appAnnounceDestination (mac : MacAddress)
  | appSessionUpdate (metrics : LinkMetrics)
  | appRequestLinkCharacteristics (mac : MacAddress) (requested : LinkCharacteristics)
  | appLinkCharacteristicsResponse (mac : MacAddress) (status : StatusCode) (text : String)
      (metrics : Option LinkMetrics)
  | appStartDiscovery
  | appShutdown (reason : StatusCode)
  deriving DecidableEq, Repr

/-- The command an event carries. Shutdown bypasses transaction serialization. -/
def FsmEvent.command : FsmEvent → Option CommandInfo
  | .appAddDestination mac _ _ => some ⟨.addDestination, some mac⟩
  | .appDropDestination mac _ => some ⟨.dropDestination, some mac⟩
  | .appUpdateMetrics mac _ => some ⟨.updateMetrics, some mac⟩
  | .appUpdateAddresses mac _ => some ⟨.updateAddresses, some mac⟩
  | .appSessionAddresses _ => some ⟨.sessionAddresses, none⟩
  | .appSessionUpdate _ => some ⟨.sessionMetrics, none⟩
  | .appAnnounceDestination mac => some ⟨.announceDestination, some mac⟩
  | .appRequestLinkCharacteristics mac _ => some ⟨.linkCharacteristics, some mac⟩
  | .appLinkCharacteristicsResponse mac _ _ _ => some ⟨.linkCharacteristicsResponse, some mac⟩
  | _ => none

/-! ## Actions -/

/-- A decoded Connection Point of a Peer Offer. -/
structure OfferEndpoint where
  addr : SocketAddr
  useTls : Bool
  deriving DecidableEq, Repr

inductive SendTarget where
  | discoveryGroup
  | unicast (addr : SocketAddr)
  deriving DecidableEq, Repr

inductive EmittedEvent where
  | commandRejected (rejection : CommandRejection)
  | sessionUp (peerExtensions : List ExtensionId)
  | sessionDown (status : StatusCode)
  | peerDiscovered (endpoints : List OfferEndpoint) (peerDescription : Option String)
  | destinationUp (mac : MacAddress) (metrics : LinkMetrics) (addrs : DestinationAddrs)
  | destinationDown (mac : MacAddress) (reason : StatusCode)
  | destinationUpdate (mac : MacAddress) (metrics : LinkMetrics)
  | destinationAddressesUpdate (mac : MacAddress) (changes : AddressChanges)
      (addresses : DestinationAddrs)
  | sessionAddressesUpdate (changes : AddressChanges) (addresses : DestinationAddrs)
  | linkCharacteristicsResponse (mac : MacAddress) (status : StatusCode) (text : String)
      (metrics : LinkMetrics)
  | linkCharacteristicsRequested (mac : MacAddress) (requested : LinkCharacteristics)
      (metrics : LinkMetrics) (pending : Bool)
  | sessionMetricsUpdate (metrics : LinkMetrics)
  | destinationAnnounced (mac : MacAddress) (requestedAddresses : AddressChanges)
  deriving DecidableEq, Repr

inductive FsmAction where
  | sendMessage (m : Message)
  | sendSignal (signal : Signal) (target : SendTarget)
  | startTimer (id : TimerId) (kind : TimerKind) (duration : Duration) (periodic : Bool)
  | cancelTimer (id : TimerId)
  | resetHeartbeat (timerId : TimerId) (missedDeadline : Duration)
  | closeTcp
  | emit (event : EmittedEvent)
  deriving DecidableEq, Repr

/-! ## Transactions -/

inductive RequestKind where
  | sessionUpdate
  | sessionTermination
  | destinationUp
  | destinationAnnounce
  | destinationDown
  | linkCharacteristics
  deriving DecidableEq, Repr

structure PendingRequest where
  kind : RequestKind
  deriving DecidableEq, Repr

structure TransactionTracker where
  sessionPending : Option PendingRequest
  perDestination : FinMap MacAddress PendingRequest
  deriving DecidableEq

namespace TransactionTracker

/-- `TransactionTracker::default()`. -/
def default : TransactionTracker := ⟨none, ∅⟩

def sessionBusy (tx : TransactionTracker) : Bool := tx.sessionPending.isSome

def destinationBusy (tx : TransactionTracker) (mac : MacAddress) : Bool :=
  (tx.perDestination.lookup mac).isSome

def openSession (tx : TransactionTracker) (kind : RequestKind) :
    Except PendingRequest TransactionTracker :=
  match tx.sessionPending with
  | some existing => .error existing
  | none => .ok { tx with sessionPending := some ⟨kind⟩ }

def closeSession (tx : TransactionTracker) : TransactionTracker :=
  { tx with sessionPending := none }

def openDestination (tx : TransactionTracker) (mac : MacAddress) (kind : RequestKind) :
    Except PendingRequest TransactionTracker :=
  match tx.perDestination.lookup mac with
  | some existing => .error existing
  | none => .ok { tx with perDestination := tx.perDestination.insert mac ⟨kind⟩ }

def closeDestination (tx : TransactionTracker) (mac : MacAddress) : TransactionTracker :=
  { tx with perDestination := tx.perDestination.erase mac }

/-- The kind of request open for a destination. -/
def pending (tx : TransactionTracker) (mac : MacAddress) : Option RequestKind :=
  (tx.perDestination.lookup mac).map PendingRequest.kind

theorem pending_eq_none_iff (tx : TransactionTracker) (mac : MacAddress) :
    tx.pending mac = none ↔ tx.destinationBusy mac = false := by
  simp [pending, destinationBusy]

theorem sessionBusy_eq_false_iff (tx : TransactionTracker) :
    tx.sessionBusy = false ↔ tx.sessionPending = none := by
  simp [sessionBusy]

/-- The tracker with a request of `kind` open for `mac`. -/
def withPending (tx : TransactionTracker) (mac : MacAddress) (kind : RequestKind) :
    TransactionTracker :=
  { tx with perDestination := tx.perDestination.insert mac ⟨kind⟩ }

theorem openDestination_of_idle {tx : TransactionTracker} {mac : MacAddress}
    (h : tx.pending mac = none) (kind : RequestKind) :
    tx.openDestination mac kind = .ok (tx.withPending mac kind) := by
  have hl : tx.perDestination.lookup mac = none := by simpa [pending] using h
  simp [openDestination, hl, withPending]

theorem openSession_of_idle {tx : TransactionTracker} (h : tx.sessionPending = none)
    (kind : RequestKind) :
    tx.openSession kind = .ok { tx with sessionPending := some ⟨kind⟩ } := by
  simp [openSession, h]

@[simp] theorem pending_withPending (tx : TransactionTracker) (mac mac' : MacAddress)
    (kind : RequestKind) :
    (tx.withPending mac kind).pending mac' = if mac' = mac then some kind else tx.pending mac' := by
  unfold pending withPending
  rw [FinMap.lookup_insert_eq]
  split <;> rfl

@[simp] theorem pending_closeDestination (tx : TransactionTracker) (mac mac' : MacAddress) :
    (tx.closeDestination mac).pending mac' = if mac' = mac then none else tx.pending mac' := by
  unfold pending closeDestination
  rw [FinMap.lookup_erase_eq]
  split <;> rfl

@[simp] theorem sessionPending_withPending (tx : TransactionTracker) (mac : MacAddress)
    (kind : RequestKind) : (tx.withPending mac kind).sessionPending = tx.sessionPending := rfl

@[simp] theorem sessionPending_closeDestination (tx : TransactionTracker) (mac : MacAddress) :
    (tx.closeDestination mac).sessionPending = tx.sessionPending := rfl

@[simp] theorem sessionPending_closeSession (tx : TransactionTracker) :
    tx.closeSession.sessionPending = none := rfl

@[simp] theorem pending_closeSession (tx : TransactionTracker) (mac : MacAddress) :
    tx.closeSession.pending mac = tx.pending mac := rfl

@[simp] theorem pending_with_sessionPending (tx : TransactionTracker)
    (request : Option PendingRequest) (mac : MacAddress) :
    TransactionTracker.pending { tx with sessionPending := request } mac = tx.pending mac := rfl

@[simp] theorem pending_default (mac : MacAddress) : default.pending mac = none := rfl

@[simp] theorem sessionPending_default : default.sessionPending = none := rfl

end TransactionTracker

/-! ## Reading a step's actions -/

/-- The messages a list of actions sends, in order. -/
def sentMessages (actions : List FsmAction) : List Message :=
  actions.filterMap fun
    | .sendMessage m => some m
    | _ => none

/-- The events a list of actions emits, in order. -/
def emittedEvents (actions : List FsmAction) : List EmittedEvent :=
  actions.filterMap fun
    | .emit event => some event
    | _ => none

section

variable (as bs : List FsmAction)

@[simp] theorem sentMessages_nil : sentMessages [] = [] := rfl
@[simp] theorem sentMessages_append : sentMessages (as ++ bs) = sentMessages as ++ sentMessages bs :=
  List.filterMap_append
@[simp] theorem sentMessages_sendMessage (m : Message) :
    sentMessages (.sendMessage m :: as) = m :: sentMessages as := rfl
@[simp] theorem sentMessages_emit (e : EmittedEvent) :
    sentMessages (.emit e :: as) = sentMessages as := rfl
@[simp] theorem sentMessages_startTimer (i : TimerId) (k : TimerKind) (d : Duration) (p : Bool) :
    sentMessages (.startTimer i k d p :: as) = sentMessages as := rfl
@[simp] theorem sentMessages_cancelTimer (i : TimerId) :
    sentMessages (.cancelTimer i :: as) = sentMessages as := rfl
@[simp] theorem sentMessages_closeTcp : sentMessages (.closeTcp :: as) = sentMessages as := rfl
@[simp] theorem sentMessages_optional (m : Option Message) :
    sentMessages (m.map FsmAction.sendMessage).toList = m.toList := by
  cases m <;> rfl
@[simp] theorem sentMessages_ite (c : Prop) [Decidable c] :
    sentMessages (if c then as else bs) = if c then sentMessages as else sentMessages bs :=
  apply_ite sentMessages c as bs

@[simp] theorem emittedEvents_nil : emittedEvents [] = [] := rfl
@[simp] theorem emittedEvents_append :
    emittedEvents (as ++ bs) = emittedEvents as ++ emittedEvents bs := List.filterMap_append
@[simp] theorem emittedEvents_sendMessage (m : Message) :
    emittedEvents (.sendMessage m :: as) = emittedEvents as := rfl
@[simp] theorem emittedEvents_emit (e : EmittedEvent) :
    emittedEvents (.emit e :: as) = e :: emittedEvents as := rfl
@[simp] theorem emittedEvents_startTimer (i : TimerId) (k : TimerKind) (d : Duration) (p : Bool) :
    emittedEvents (.startTimer i k d p :: as) = emittedEvents as := rfl
@[simp] theorem emittedEvents_cancelTimer (i : TimerId) :
    emittedEvents (.cancelTimer i :: as) = emittedEvents as := rfl
@[simp] theorem emittedEvents_closeTcp : emittedEvents (.closeTcp :: as) = emittedEvents as := rfl

variable {as}

/-- Timer cancellations and a close neither send nor emit. -/
theorem quiet_of_control (h : ∀ a ∈ as, a = .closeTcp ∨ ∃ id, a = .cancelTimer id) :
    sentMessages as = [] ∧ emittedEvents as = [] := by
  constructor <;> refine List.filterMap_eq_nil_iff.mpr fun a ha => ?_ <;>
    rcases h a ha with rfl | ⟨id, rfl⟩ <;> rfl

end

end Dlep
