-- SUMMARY: Inversion of the router's step: its consistency invariant, what it permits, and every transition it can take.
import Dlep.Fsm.LifeCycle
import Dlep.Fsm.Router

/-!
# What a step of the router can do

The router's counterpart of the modem's inversion: `Transition` lists every step,
and `step_spec` says that a consistent router's step is one of them.
-/

namespace Dlep

/-! ## Phases -/

namespace RouterSessionState

@[simp] def phase : RouterSessionState → Phase
  | .closed => .idle
  | .sessionInitPending => .opening
  | .inSession => .inSession
  | .terminating => .terminating
  | .terminated => .terminated

def ofPhase : Phase → RouterSessionState
  | .idle => .closed
  | .opening => .sessionInitPending
  | .inSession => .inSession
  | .terminating => .terminating
  | .terminated => .terminated

@[simp] theorem phase_ofPhase (p : Phase) : (ofPhase p).phase = p := by
  cases p <;> rfl

end RouterSessionState

namespace RouterSessionFsm

section

variable {s : RouterSessionFsm} {msg : Message} {event : FsmEvent} {command : CommandInfo}


def view (s : RouterSessionFsm) : LifeView :=
  ⟨s.state.phase, s.terminationReason, s.peerHeartbeatInterval⟩

theorem phase_view {state : RouterSessionState} (hs : s.state = state) :
    s.view.phase = state.phase :=
  congrArg RouterSessionState.phase hs

/-! ## Consistency -/

/-- The cross-field facts that the handlers' failure points rely on. -/
structure Consistent (s : RouterSessionFsm) : Prop where
  /-- An open Announce is for an unknown destination; an open Down or Link
  Characteristics Request for a known one. The router opens no other kind. -/
  tracked : ∀ mac kind, s.tx.pending mac = some kind →
    kind = .destinationAnnounce ∧ s.destinations.lookup mac = none ∨
      (kind = .destinationDown ∨ kind = .linkCharacteristics) ∧
        (s.destinations.lookup mac).isSome = true
  up : ∀ mac d, s.destinations.lookup mac = some d → d.up = true
  session : ∀ request, s.tx.sessionPending = some request → request = ⟨.sessionUpdate⟩

theorem isUp_eq_true {mac : MacAddress} :
    s.isUp mac = true ↔ ∃ d, s.destinations.lookup mac = some d ∧ d.up = true := by
  simp [isUp, Option.any_eq_true]

/-- Every destination of a consistent router is up. -/
theorem Consistent.isUp_eq (hc : s.Consistent) (mac : MacAddress) :
    s.isUp mac = (s.destinations.lookup mac).isSome := by
  cases h : s.destinations.lookup mac with
  | none => simp [isUp, h]
  | some d => simp [isUp, h, hc.up mac d h]

/-! ## Accepted messages -/

theorem statusItem_of_carries (h : msg.Carries .status) : ∃ item, statusItem msg = some item := by
  obtain ⟨item, hmem, ht, hraw⟩ := h
  cases item with
  | status code text =>
    exact Option.isSome_iff_exists.mp (List.findSome?_isSome_iff.mpr ⟨_, hmem, rfl⟩)
  | unknown raw => exact absurd rfl (hraw raw)
  | _ => cases ht

/-- A message that passed every check of an in-session router. -/
structure Accepts (s : RouterSessionFsm) (msg : Message) : Prop where
  grammar : Grammatical msg true false
  benign : fatalStatus msg = none
  format : validateMacFormat msg s.config.macAddressFormat = .ok ()
  addresses : msg.messageType = .sessionUpdate →
    ((AddressChanges.fromMessage msg).applyStrict s.peerAddresses).1 = .ok ()
  transacts : Transacts msg s.tx s.isUp
  declared : ∀ t ∈ metricTypes msg, t ∈ s.sessionMetricTypes
  complete : msg.messageType = .linkCharacteristicsResponse →
    (metricTypes msg).toFinset = s.sessionMetricTypes

/-- The checks that follow the address check in a session. -/
theorem checkMetrics_ok
    (h : (if (metricTypes msg).any fun t => t ∉ s.sessionMetricTypes then .error .invalidData
      else if msg.messageType = .linkCharacteristicsResponse
          && (metricTypes msg).toFinset ≠ s.sessionMetricTypes then
        .error .invalidData
      else validateTransaction msg s.tx ((extractDestinationMac msg).any s.isUp) :
        Except StatusCode Unit) = .ok ()) :
    (∀ t ∈ metricTypes msg, t ∈ s.sessionMetricTypes) ∧
      (msg.messageType = .linkCharacteristicsResponse →
        (metricTypes msg).toFinset = s.sessionMetricTypes) ∧
      validateTransaction msg s.tx ((extractDestinationMac msg).any s.isUp) = .ok () := by
  split at h
  · cases h
  · rename_i hdeclared
    split at h
    · cases h
    · rename_i hcomplete
      refine ⟨fun t ht => ?_, fun ht => ?_, h⟩
      · by_contra hmem
        exact hdeclared (List.any_eq_true.mpr ⟨t, ht, by simpa using hmem⟩)
      · by_contra hne
        exact hcomplete (by simp [ht, hne])

theorem checkMessage_ok (hs : s.state = .inSession) (hf : fatalStatus msg = none)
    (h : s.checkMessage msg = .ok ()) : s.Accepts msg := by
  simp only [checkMessage, hs, reduceCtorEq, decide_false, Bool.false_or, decide_eq_true_eq,
    if_false] at h
  obtain ⟨⟨⟩, hvalid, h⟩ := bind_eq_ok.mp h
  obtain ⟨⟨⟩, hformat, h⟩ := bind_eq_ok.mp h
  have hgrammar := validateMessage_ok hvalid
  -- The address check runs only for Session Update; the rest is common.
  split at h
  · obtain ⟨⟨⟩, haddr, h⟩ := bind_eq_ok.mp h
    obtain ⟨hdeclared, hcomplete, htx⟩ := checkMetrics_ok h
    exact ⟨hgrammar, hf, hformat, fun _ => haddr, validateTransaction_ok htx, hdeclared, hcomplete⟩
  · rename_i hne
    obtain ⟨hdeclared, hcomplete, htx⟩ := checkMetrics_ok h
    exact ⟨hgrammar, hf, hformat, fun ht => absurd ht hne, validateTransaction_ok htx, hdeclared, hcomplete⟩

theorem accepts_of_refusal (hs : s.state = .inSession) (h : s.refusal msg = none) :
    s.Accepts msg := by
  obtain ⟨hf, hok⟩ := (refuse_eq_none (.inr hs)).mp h
  exact checkMessage_ok hs hf hok

/-- What the checks establish of a message that is not refused during the handshake. -/
theorem init_of_refusal (hs : s.state = .sessionInitPending) (h : s.refusal msg = none) :
    Grammatical msg true true ∧
      ((AddressChanges.fromMessage msg).applyStrict s.peerAddresses).1 = .ok () := by
  obtain ⟨-, hok⟩ := (refuse_eq_none (.inl hs)).mp h
  simp only [checkMessage, hs, decide_true, Bool.true_or, if_true] at hok
  obtain ⟨⟨⟩, hvalid, hok⟩ := bind_eq_ok.mp hok
  obtain ⟨⟨⟩, -, hok⟩ := bind_eq_ok.mp hok
  obtain ⟨⟨⟩, haddr, -⟩ := bind_eq_ok.mp hok
  exact ⟨validateMessage_ok hvalid, haddr⟩

theorem valid_of_refusal (hs : s.state = .sessionInitPending ∨ s.state = .inSession)
    (h : s.refusal msg = none) :
    validateMessage msg true (decide (s.state = .sessionInitPending))
      s.config.advertisedExtensions = .ok () := by
  obtain ⟨⟨⟩, hvalid, -⟩ := bind_eq_ok.mp ((refuse_eq_none hs).mp h).2
  exact hvalid

/-! ## Permitted commands -/

/-- A command that passed `check_command`, with what the check established. -/
inductive Permits (s : RouterSessionFsm) : FsmEvent → Prop where
  | drop {mac reason} (hformat : s.config.macAddressFormat.accepts mac = true)
      (hidle : s.tx.pending mac = none) (hup : s.isUp mac = true) :
      Permits s (.appDropDestination mac reason)
  | announce {mac} (hformat : s.config.macAddressFormat.accepts mac = true)
      (hidle : s.tx.pending mac = none) (hup : s.isUp mac = false) :
      Permits s (.appAnnounceDestination mac)
  | requestLink {mac requested} (hformat : s.config.macAddressFormat.accepts mac = true)
      (hidle : s.tx.pending mac = none) (hup : s.isUp mac = true)
      (hrequested : requested.isEmpty = false)
      (hencodes : (buildLinkCharacteristicsRequest mac requested).Encodes) :
      Permits s (.appRequestLinkCharacteristics mac requested)
  | sessionAddresses {changes} (hidle : s.tx.sessionPending = none)
      (hvalid : validateLocalAddressUpdate s.localAddresses changes = .ok ()) :
      Permits s (.appSessionAddresses changes)

theorem checkScope_destination {mac : MacAddress} (h : s.checkScope (some mac) = .ok ()) :
    s.config.macAddressFormat.accepts mac = true ∧ s.tx.pending mac = none := by
  simp only [checkScope] at h
  split at h
  · cases h
  · rename_i hformat
    split at h
    · cases h
    · rename_i hbusy
      exact ⟨by simpa using hformat, (s.tx.pending_eq_none_iff mac).mpr (by simpa using hbusy)⟩

theorem checkScope_session (h : s.checkScope none = .ok ()) : s.tx.sessionPending = none := by
  simp only [checkScope] at h
  split at h
  · cases h
  · rename_i hbusy
    exact s.tx.sessionBusy_eq_false_iff.mp (by simpa using hbusy)

theorem checkArguments_ok (hcmd : event.command = some command)
    (hscope : s.checkScope command.destination = .ok ()) (h : s.checkArguments event = .ok ()) :
    s.Permits event := by
  cases event <;> cases hcmd <;> simp only [checkArguments] at h
  case appDropDestination mac reason =>
    obtain ⟨hformat, hidle⟩ := checkScope_destination hscope
    split at h
    · cases h
    · rename_i hup
      exact .drop hformat hidle (by simpa using hup)
  case appAnnounceDestination mac =>
    obtain ⟨hformat, hidle⟩ := checkScope_destination hscope
    split at h
    · cases h
    · rename_i hup
      exact .announce hformat hidle (by simpa using hup)
  case appRequestLinkCharacteristics mac requested =>
    obtain ⟨hformat, hidle⟩ := checkScope_destination hscope
    split at h
    · cases h
    · rename_i hup
      split at h
      · cases h
      · rename_i hempty
        split at h
        · cases h
        · rename_i bytes hencode
          exact .requestLink hformat hidle (by simpa using hup) (by simpa using hempty)
            ⟨bytes, hencode⟩
  case appSessionAddresses changes => exact .sessionAddresses (checkScope_session hscope) h
  all_goals cases h

/-- A command is one a router never originates, or is decided by its scope and then
by its arguments. -/
theorem checkCommand_eq (hs : s.state = .inSession) (hcmd : event.command = some command) :
    s.checkCommand event = .ok (.error .unsupported) ∨
      s.checkCommand event = match s.checkScope command.destination with
        | .error e => .ok (.error e)
        | .ok () => .ok (s.checkArguments event) := by
  cases event <;> cases hcmd <;>
    simp only [checkCommand, hs, ne_eq, not_true_eq_false, if_false]
  case appDropDestination | appAnnounceDestination | appRequestLinkCharacteristics
    | appSessionAddresses => exact .inr rfl
  all_goals exact .inl trivial

/-- The router decides every command without reaching a failure point. -/
theorem checkCommand_cases (hcmd : event.command = some command) :
    (∃ reason, s.checkCommand event = .ok (.error reason)) ∨
      s.checkCommand event = .ok (.ok ()) ∧ s.state = .inSession ∧ s.Permits event := by
  by_cases hs : s.state = .inSession
  · rcases checkCommand_eq hs hcmd with h | h
    · exact .inl ⟨_, h⟩
    · rw [h]
      cases hscope : s.checkScope command.destination with
      | error e => exact .inl ⟨e, rfl⟩
      | ok _ =>
        cases hargs : s.checkArguments event with
        | error e => exact .inl ⟨e, rfl⟩
        | ok _ => exact .inr ⟨rfl, hs, checkArguments_ok hcmd hscope hargs⟩
  · exact .inl ⟨.notReady, by simp [checkCommand, hs]⟩

end

/-! ## Transitions -/

/-- The actions of the handshake's last step, in the state it leads to. -/
def sessionUpActions (s : RouterSessionFsm) : List FsmAction :=
  [.cancelTimer TIMER_SESSION_INIT,
    .startTimer TIMER_HEARTBEAT .heartbeat (localHeartbeatInterval s.config) true] ++
  s.heartbeatReset ++
  [.emit (.sessionUp s.peerExtensions), .emit (.sessionMetricsUpdate s.sessionMetrics)] ++
  if s.peerAddresses.isEmpty then []
  else [.emit (.sessionAddressesUpdate ⟨s.peerAddresses, .default⟩ s.peerAddresses)]

/-- An accepted Session Initialization Response that reports no success, and the status
it is answered with. -/
structure InitFailure (s : RouterSessionFsm) (msg : Message) (code : StatusCode) (text : String) :
    Prop where
  pending : s.state = .sessionInitPending
  accepted : s.refusal msg = none
  type : msg.messageType = .sessionInitializationResponse
  status : (extractStatus msg).getD .success ≠ .success
  code : code = .unexpectedMessage
  text : text = "initialization did not succeed"

/-- What fails the session. -/
def Fault (s : RouterSessionFsm) (event : FsmEvent) (code : StatusCode) (text : String) : Prop :=
  event = .protocolError code ∧ text = "" ∨
    ∃ msg, event = .recvMessage msg ∧
      (s.refusal msg = some (.status code text) ∨ s.InitFailure msg code text)

/-- The one step that ends the handshake and leaves its timer armed. -/
def Leaks (s : RouterSessionFsm) (event : FsmEvent) : Prop :=
  s.state = .sessionInitPending ∧ event = .tcpClosed

/-- Every step of a consistent router: the event, the state after it and its actions. -/
inductive Transition (s : RouterSessionFsm) :
    FsmEvent → RouterSessionFsm → List FsmAction → Prop where
  -- Steps that change nothing.
  | rejected {event command reason} (hcmd : event.command = some command) :
      Transition s event s [.emit (.commandRejected ⟨command, reason⟩)]
  | ignored {event} (h : s.state.phase.Ignores event) : Transition s event s []
  | alive {event} (hs : s.state = .inSession)
      (hevent : event = .recvExtensionMessage ∨
        ∃ msg, event = .recvMessage msg ∧ s.Accepts msg ∧ msg.messageType = .heartbeat) :
      Transition s event s s.heartbeatReset
  | beat {id} (hs : s.state = .inSession) :
      Transition s (.timerExpired id .heartbeat) s [.sendMessage buildHeartbeat]
  -- The life cycle of the session.
  | connected (hs : s.state = .closed) :
      Transition s .tcpConnected { s with state := .sessionInitPending }
        [.sendMessage (buildSessionInitialization s.config),
          .startTimer TIMER_SESSION_INIT .sessionInit s.config.sessionInitTimeout false]
  | initialized {msg} (hs : s.state = .sessionInitPending) (hok : s.refusal msg = none)
      (ht : msg.messageType = .sessionInitializationResponse)
      (hstatus : (extractStatus msg).getD .success = .success) :
      Transition s (.recvMessage msg) (s.initialized msg) (s.initialized msg).sessionUpActions
  | ends {event phase reason actions}
      (h : Ending (s.Fault event) (s.Leaks event) s.view event phase reason actions) :
      Transition s event { s with state := .ofPhase phase, terminationReason := reason } actions
  -- Destinations.
  | upReceived {msg mac} (hs : s.state = .inSession) (ha : s.Accepts msg)
      (ht : msg.messageType = .destinationUp) (hmac : extractDestinationMac msg = some mac)
      (hd : s.destinations.lookup mac = none) (hidle : s.tx.pending mac = none) :
      Transition s (.recvMessage msg)
        { s with destinations := s.destinations.insert mac (s.reported mac msg) }
        ([.sendMessage (buildDestinationUpResponse mac .success),
          .emit (.destinationUp mac (s.reported mac msg).metrics (s.reported mac msg).addrs)] ++
          s.heartbeatReset)
  | updateReceived {msg mac d} (hs : s.state = .inSession) (ha : s.Accepts msg)
      (ht : msg.messageType = .destinationUpdate) (hmac : extractDestinationMac msg = some mac)
      (hd : s.destinations.lookup mac = some d) :
      Transition s (.recvMessage msg)
        { s with
          destinations := s.destinations.insert mac
            { d with
              metrics := (mergeLinkMetrics msg d.metrics).1
              addrs := (s.destinationAddressChanges mac msg).applyLenient d.addrs } }
        ((if (mergeLinkMetrics msg d.metrics).2 then
            [.emit (.destinationUpdate mac (mergeLinkMetrics msg d.metrics).1)] else []) ++
          (if (AddressChanges.between d.addrs
              ((s.destinationAddressChanges mac msg).applyLenient d.addrs)).isEmpty then []
            else [.emit (.destinationAddressesUpdate mac
              (AddressChanges.between d.addrs
                ((s.destinationAddressChanges mac msg).applyLenient d.addrs))
              ((s.destinationAddressChanges mac msg).applyLenient d.addrs))]) ++
          s.heartbeatReset)
  | downReceived {msg mac d} (hs : s.state = .inSession) (ha : s.Accepts msg)
      (ht : msg.messageType = .destinationDown) (hmac : extractDestinationMac msg = some mac)
      (hd : s.destinations.lookup mac = some d) (hidle : s.tx.pending mac = none) :
      Transition s (.recvMessage msg) { s with destinations := s.destinations.erase mac }
        ([.sendMessage (buildDestinationDownResponse mac .success),
          .emit (.destinationDown mac ((extractStatus msg).getD .success))] ++ s.heartbeatReset)
  | dropSent {mac reason} (hs : s.state = .inSession)
      (hp : s.Permits (.appDropDestination mac reason)) :
      Transition s (.appDropDestination mac reason)
        { s with tx := s.tx.withPending mac .destinationDown }
        [.sendMessage (buildDestinationDown mac .success)]
  | dropAnswered {msg mac status} (hs : s.state = .inSession) (ha : s.Accepts msg)
      (ht : msg.messageType = .destinationDownResponse)
      (hmac : extractDestinationMac msg = some mac)
      (hdown : s.tx.pending mac = some .destinationDown) :
      Transition s (.recvMessage msg)
        { s with tx := s.tx.closeDestination mac, destinations := s.destinations.erase mac }
        ([.emit (.destinationDown mac status)] ++ s.heartbeatReset)
  | announceSent {mac} (hs : s.state = .inSession) (hp : s.Permits (.appAnnounceDestination mac)) :
      Transition s (.appAnnounceDestination mac)
        { s with tx := s.tx.withPending mac .destinationAnnounce }
        [.sendMessage (buildDestinationAnnounce mac)]
  | announceGranted {msg mac} (hs : s.state = .inSession) (ha : s.Accepts msg)
      (ht : msg.messageType = .destinationAnnounceResponse)
      (hmac : extractDestinationMac msg = some mac) (hstatus : extractStatus msg = some .success)
      (hannounce : s.tx.pending mac = some .destinationAnnounce) :
      Transition s (.recvMessage msg)
        { s with
          tx := s.tx.closeDestination mac
          destinations := s.destinations.insert mac (s.reported mac msg) }
        ([.emit (.destinationUp mac (s.reported mac msg).metrics (s.reported mac msg).addrs)] ++
          s.heartbeatReset)
  | announceDenied {msg mac} (hs : s.state = .inSession) (ha : s.Accepts msg)
      (ht : msg.messageType = .destinationAnnounceResponse)
      (hmac : extractDestinationMac msg = some mac) (hstatus : extractStatus msg ≠ some .success)
      (hannounce : s.tx.pending mac = some .destinationAnnounce) :
      Transition s (.recvMessage msg) { s with tx := s.tx.closeDestination mac } s.heartbeatReset
  -- Link characteristics.
  | linkSent {mac requested} (hs : s.state = .inSession)
      (hp : s.Permits (.appRequestLinkCharacteristics mac requested)) :
      Transition s (.appRequestLinkCharacteristics mac requested)
        { s with tx := s.tx.withPending mac .linkCharacteristics }
        [.sendMessage (buildLinkCharacteristicsRequest mac requested)]
  | linkAnswered {msg mac d status text} (hs : s.state = .inSession) (ha : s.Accepts msg)
      (ht : msg.messageType = .linkCharacteristicsResponse)
      (hmac : extractDestinationMac msg = some mac) (hd : s.destinations.lookup mac = some d)
      (hlink : s.tx.pending mac = some .linkCharacteristics) :
      Transition s (.recvMessage msg)
        { s with
          tx := s.tx.closeDestination mac
          destinations := s.destinations.insert mac
            { d with metrics := (mergeLinkMetrics msg d.metrics).1 } }
        ([.emit (.linkCharacteristicsResponse mac status text (mergeLinkMetrics msg d.metrics).1)] ++
          s.heartbeatReset)
  -- Session updates.
  | sessionUpdated {msg peer} (hs : s.state = .inSession) (ha : s.Accepts msg)
      (ht : msg.messageType = .sessionUpdate)
      (hpeer : (AddressChanges.fromMessage msg).applyStrict s.peerAddresses = (.ok (), peer)) :
      Transition s (.recvMessage msg)
        { s with
          peerAddresses := peer
          sessionMetrics := (mergeLinkMetrics msg s.sessionMetrics).1
          destinations :=
            if (mergeLinkMetrics msg s.sessionMetrics).2 then
              s.destinations.mapValues fun d =>
                { d with metrics := (mergeLinkMetrics msg d.metrics).1 }
            else s.destinations }
        ([.sendMessage (buildSessionUpdateResponse .success)] ++
          (if (AddressChanges.fromMessage msg).isEmpty then []
            else [.emit (.sessionAddressesUpdate (AddressChanges.fromMessage msg) peer)]) ++
          (if (mergeLinkMetrics msg s.sessionMetrics).2 then
            [.emit (.sessionMetricsUpdate (mergeLinkMetrics msg s.sessionMetrics).1)] else []) ++
          s.heartbeatReset)
  | sessionAnswered {msg} (hs : s.state = .inSession) (ha : s.Accepts msg)
      (ht : msg.messageType = .sessionUpdateResponse) :
      Transition s (.recvMessage msg) { s with tx := s.tx.closeSession } s.heartbeatReset
  | sessionAddressesKept {changes} (hs : s.state = .inSession) :
      Transition s (.appSessionAddresses changes) s []
  | sessionAddressesSent {changes} (hs : s.state = .inSession)
      (hp : s.Permits (.appSessionAddresses changes)) :
      Transition s (.appSessionAddresses changes)
        { s with
          tx := { s.tx with sessionPending := some ⟨.sessionUpdate⟩ }
          localAddresses := changes.applyLenient s.localAddresses }
        [.sendMessage ((AddressChanges.between s.localAddresses
          (changes.applyLenient s.localAddresses)).appendTo (.new .sessionUpdate))]

/-! ## Every step is a transition -/

/-- The call succeeds with a transition of `s` on `event`. -/
def Steps (s : RouterSessionFsm) (event : FsmEvent) (r : Result) : Prop :=
  ∃ s' actions, r = .ok (s', actions) ∧ s.Transition event s' actions

variable {s s' : RouterSessionFsm} {msg : Message} {event : FsmEvent} {actions : List FsmAction}

theorem Transition.steps (h : s.Transition event s' actions) :
    s.Steps event (.ok (s', actions)) := ⟨s', actions, rfl, h⟩

theorem steps_ends {phase : Phase} {reason : StatusCode}
    (h : Ending (s.Fault event) (s.Leaks event) s.view event phase reason actions) :
    s.Steps event
      (.ok ({ s with state := .ofPhase phase, terminationReason := reason }, actions)) :=
  (Transition.ends h).steps

theorem steps_protocolError {code : StatusCode} {text : String} (hfault : s.Fault event code text) :
    s.Steps event (s.protocolError (.status code text)) := by
  simp only [protocolError]
  split
  · rename_i hs
    rcases hfault with ⟨rfl, rfl⟩ | ⟨msg, rfl, hr | hr⟩
    · exact (Transition.ignored ⟨rfl, by simp, by simp, by simp [FsmEvent.awaitedIn]⟩).steps
    · rcases hs with hs | hs <;> simp [refusal, refuse, hs] at hr
    · rcases hs with hs | hs <;> cases hs.symm.trans hr.pending
  · rename_i hend
    refine steps_ends (.fails ?_ hfault)
    cases h : s.state <;> simp_all [view]

theorem steps_abandonInit {cleanup : List FsmAction} {status : StatusCode}
    (hs : s.state = .sessionInitPending) (hcmd : event.command = none)
    (hactions : ∀ a ∈ cleanup, a = .closeTcp ∨ ∃ id, a = .cancelTimer id)
    (htimer : .cancelTimer TIMER_SESSION_INIT ∈ cleanup ∨
      (∃ id, event = .timerExpired id .sessionInit) ∨ s.Leaks event) :
    s.Steps event (s.abandonInit cleanup status) :=
  steps_ends (.abandons cleanup (phase_view hs) hcmd hactions htimer)

/-! ### Received messages -/

/-- A message about a destination names it. -/
theorem Accepts.mac (ha : s.Accepts msg)
    (ht : .macAddress ∈ requiredItems msg.messageType) : ∃ mac, extractDestinationMac msg = some mac :=
  extractDestinationMac_of_carries (ha.grammar.required _ ht)

theorem steps_up (hc : s.Consistent) (hs : s.state = .inSession) (ha : s.Accepts msg)
    (ht : msg.messageType = .destinationUp) :
    s.Steps (.recvMessage msg) (s.onDestinationUp msg) := by
  obtain ⟨mac, hmac⟩ := ha.mac (by rw [ht]; decide)
  have hdown := ha.transacts.down mac hmac (by rw [ht]; decide)
  rw [hc.isUp_eq, Option.isSome_eq_false_iff, Option.isNone_iff_eq_none] at hdown
  simp only [onDestinationUp, hmac, expectSome_some, bind, Except.bind]
  exact (Transition.upReceived hs ha ht hmac hdown
    (ha.transacts.idle mac hmac (by rw [ht]; decide))).steps

theorem steps_update (hs : s.state = .inSession) (ha : s.Accepts msg)
    (ht : msg.messageType = .destinationUpdate) :
    s.Steps (.recvMessage msg) (s.onDestinationUpdate msg) := by
  obtain ⟨mac, hmac⟩ := ha.mac (by rw [ht]; decide)
  obtain ⟨d, hd, -⟩ := isUp_eq_true.mp (ha.transacts.up mac hmac (by rw [ht]; decide))
  simp only [onDestinationUpdate, hmac, hd, expectSome_some, bind, Except.bind]
  exact (Transition.updateReceived hs ha ht hmac hd).steps

theorem steps_down (hs : s.state = .inSession) (ha : s.Accepts msg)
    (ht : msg.messageType = .destinationDown) :
    s.Steps (.recvMessage msg) (s.onDestinationDown msg) := by
  obtain ⟨mac, hmac⟩ := ha.mac (by rw [ht]; decide)
  obtain ⟨d, hd, -⟩ := isUp_eq_true.mp (ha.transacts.up mac hmac (by rw [ht]; decide))
  simp only [onDestinationDown, hmac, expectSome_some, bind, Except.bind]
  exact (Transition.downReceived hs ha ht hmac hd
    (ha.transacts.idle mac hmac (by rw [ht]; decide))).steps

theorem steps_downResponse (hs : s.state = .inSession) (ha : s.Accepts msg)
    (ht : msg.messageType = .destinationDownResponse) :
    s.Steps (.recvMessage msg) (s.onDestinationDownResponse msg) := by
  obtain ⟨mac, hmac⟩ := ha.mac (by rw [ht]; decide)
  obtain ⟨status, hstatus⟩ :=
    extractStatus_of_carries (ha.grammar.required .status (by rw [ht]; decide))
  simp only [onDestinationDownResponse, hmac, hstatus, expectSome_some, bind, Except.bind]
  exact (Transition.dropAnswered hs ha ht hmac
    (ha.transacts.answer mac _ hmac (by rw [ht]; rfl))).steps

theorem steps_sessionUpdate (hs : s.state = .inSession) (ha : s.Accepts msg)
    (ht : msg.messageType = .sessionUpdate) :
    s.Steps (.recvMessage msg) (s.onSessionUpdate msg) := by
  have hok := ha.addresses ht
  simp only [onSessionUpdate, hok, expectOk_ok, bind, Except.bind]
  exact (Transition.sessionUpdated hs ha ht (Prod.ext hok rfl)).steps

theorem steps_announceResponse (hs : s.state = .inSession) (ha : s.Accepts msg)
    (ht : msg.messageType = .destinationAnnounceResponse) :
    s.Steps (.recvMessage msg) (s.onDestinationAnnounceResponse msg) := by
  obtain ⟨mac, hmac⟩ := ha.mac (by rw [ht]; decide)
  have hannounce := ha.transacts.answer mac .destinationAnnounce hmac (by rw [ht]; rfl)
  simp only [onDestinationAnnounceResponse, hmac, expectSome_some, bind, Except.bind]
  split
  · rename_i hstatus
    exact (Transition.announceGranted hs ha ht hmac hstatus hannounce).steps
  · rename_i hstatus
    exact (Transition.announceDenied hs ha ht hmac hstatus hannounce).steps

theorem steps_linkResponse (hc : s.Consistent) (hs : s.state = .inSession) (ha : s.Accepts msg)
    (ht : msg.messageType = .linkCharacteristicsResponse) :
    s.Steps (.recvMessage msg) (s.onLinkCharacteristicsResponse msg) := by
  obtain ⟨mac, hmac⟩ := ha.mac (by rw [ht]; decide)
  obtain ⟨⟨status, text⟩, hstatus⟩ :=
    statusItem_of_carries (ha.grammar.required .status (by rw [ht]; decide))
  have hlink := ha.transacts.answer mac .linkCharacteristics hmac (by rw [ht]; rfl)
  rcases hc.tracked mac _ hlink with ⟨hkind, -⟩ | ⟨-, hd⟩
  · cases hkind
  · obtain ⟨d, hd⟩ := Option.isSome_iff_exists.mp hd
    simp only [onLinkCharacteristicsResponse, hmac, hd, hstatus, expectSome_some, bind, Except.bind]
    exact (Transition.linkAnswered hs ha ht hmac hd hlink).steps

theorem steps_onMessage (hc : s.Consistent) (hs : s.state = .inSession) (ha : s.Accepts msg) :
    s.Steps (.recvMessage msg) (s.onMessage msg) := by
  have hexp := ha.grammar.expected
  simp only [expectedType, Bool.false_eq_true, if_false, if_true, Bool.or_eq_true,
    decide_eq_true_eq, List.mem_cons, List.not_mem_nil, or_false] at hexp
  unfold onMessage
  rcases hexp with (ht | ht | ht | ht) | ht | ht | ht | ht | ht | ht <;> simp only [ht]
  · exact steps_sessionUpdate hs ha ht
  · exact (Transition.sessionAnswered hs ha ht).steps
  · exact steps_ends (.peerTerminated (phase_view hs) rfl ht)
  · exact (Transition.alive hs (.inr ⟨msg, rfl, ha, ht⟩)).steps
  · exact steps_up hc hs ha ht
  · exact steps_announceResponse hs ha ht
  · exact steps_down hs ha ht
  · exact steps_downResponse hs ha ht
  · exact steps_update hs ha ht
  · exact steps_linkResponse hc hs ha ht

/-! ### Events -/

/-- Every arm of `dispatch`, in the order of the source. -/
theorem steps_dispatch (hc : s.Consistent)
    (hcommand : event.command.isSome = true → s.state = .inSession ∧ s.Permits event)
    (hmsg : ∀ msg, event = .recvMessage msg → s.refusal msg = none) :
    s.Steps event (s.dispatch event) := by
  have hp h := (hcommand h).2
  unfold dispatch
  split
  next hs => exact (Transition.connected hs).steps
  next hs => exact steps_ends (.closes (phase_view hs) rfl (by simp))
  next hs => exact steps_ends (.closes (phase_view hs) rfl (by simp))
  next msg hs =>
    have hr := hmsg msg rfl
    split
    · rename_i ht
      unfold onSessionInitializationResponse
      split
      · rename_i hstatus
        exact steps_protocolError (.inr ⟨msg, rfl, .inr ⟨hs, hr, ht, hstatus, rfl, rfl⟩⟩)
      · rename_i hstatus
        exact (Transition.initialized hs hr ht (by simpa using hstatus)).steps
    · exact steps_abandonInit hs rfl (by simp) (by simp)
  next hs => exact steps_abandonInit hs rfl (by simp) (by simp)
  next hs => exact steps_abandonInit hs rfl (by simp) (.inr (.inr ⟨hs, rfl⟩))
  next hs => exact steps_abandonInit hs rfl (by simp) (by simp)
  next msg hs => exact steps_onMessage hc hs (accepts_of_refusal hs (hmsg msg rfl))
  next hs =>
    cases id (hp rfl) with
    | drop hformat hidle hup =>
      simp only [onDropDestination, TransactionTracker.openDestination_of_idle hidle, expectOk_ok,
        bind, Except.bind]
      exact (Transition.dropSent hs (hp rfl)).steps
  next hs =>
    cases id (hp rfl) with
    | requestLink hformat hidle hup hrequested hencodes =>
      simp only [onRequestLinkCharacteristics, TransactionTracker.openDestination_of_idle hidle,
        expectOk_ok, bind, Except.bind]
      exact (Transition.linkSent hs (hp rfl)).steps
  next hs =>
    cases id (hp rfl) with
    | sessionAddresses hidle hvalid =>
      unfold onSessionAddresses
      rcases applyLocalAddressUpdate_ok hidle hvalid with h | h <;> rw [h]
      · exact (Transition.sessionAddressesKept hs).steps
      · exact (Transition.sessionAddressesSent hs (hp rfl)).steps
  next hs => exact (Transition.alive hs (.inl rfl)).steps
  next hs => exact (Transition.beat hs).steps
  next hs => exact steps_ends (.missed (phase_view hs) rfl)
  next => cases hp rfl
  next hs =>
    cases id (hp rfl) with
    | announce hformat hidle hup =>
      simp only [onAnnounceDestination, TransactionTracker.openDestination_of_idle hidle,
        expectOk_ok, bind, Except.bind]
      exact (Transition.announceSent hs (hp rfl)).steps
  next hs => exact steps_ends (.shutdown (phase_view hs) rfl)
  next hs => exact steps_ends (.transportClosed (phase_view hs) rfl)
  next msg hs =>
    split
    · rename_i ht
      exact steps_ends (.answered (phase_view hs) rfl ht)
    · rename_i ht
      exact (Transition.ignored (.of_message (.inr (.inr ⟨phase_view hs, ht⟩)))).steps
  next hs => exact steps_ends (.expired (phase_view hs) rfl)
  next hs => exact steps_ends (.dropped (phase_view hs) rfl)
  next =>
    -- Commands, and the messages to an open session, have an arm of their own.
    refine (Transition.ignored ⟨?_, ?_, ?_, ?_⟩).steps
    · refine Option.not_isSome_iff_eq_none.mp fun h => ?_
      obtain ⟨hs, hp⟩ := hcommand h
      cases hp <;> grind
    · rintro msg rfl
      cases hs : s.state <;> simp_all
    · rintro rfl
      cases hs : s.state <;> simp_all
    · intro h
      unfold FsmEvent.awaitedIn at h
      split at h <;> cases hs : s.state <;> rw [hs] at h <;> cases h
      all_goals simp_all

/-- From a consistent state every event is handled without reaching a failure
point, and the step is one of the listed transitions. -/
theorem step_spec (hc : s.Consistent) (event : FsmEvent) : s.Steps event (s.step event) := by
  cases hcmd : event.command with
  | some command =>
    simp only [step, hcmd]
    rcases checkCommand_cases (s := s) hcmd with ⟨reason, hrej⟩ | ⟨hok, hs, hp⟩
    · simp only [hrej, bind, Except.bind]
      exact (Transition.rejected hcmd).steps
    · simp only [hok, bind, Except.bind]
      exact steps_dispatch hc (fun _ => ⟨hs, hp⟩) (by rintro msg rfl; cases hcmd)
  | none =>
    have hdispatch : (∀ msg, event = .recvMessage msg → s.refusal msg = none) →
        s.Steps event (s.dispatch event) := steps_dispatch hc (by simp [hcmd])
    simp only [step, hcmd]
    split
    next msg =>
      cases hr : s.refusal msg with
      | some item =>
        obtain ⟨code, text, rfl⟩ := refuse_status hr
        exact steps_protocolError (.inr ⟨msg, rfl, .inl hr⟩)
      | none => exact hdispatch (by rintro _ ⟨⟩; exact hr)
    next code => exact steps_protocolError (.inl ⟨rfl, rfl⟩)
    next hmsg _ => exact hdispatch fun msg h => absurd h (hmsg msg)

/-! ## Consistency is invariant -/

theorem consistent_withConfig (config : SessionConfig) : (withConfig config).Consistent :=
  ⟨by simp [withConfig], by simp [withConfig], by simp [withConfig]⟩

/-- What consistency asks of one destination. -/
def CellConsistent (pending : Option RequestKind) (entry : Option RouterDestination) : Prop :=
  (∀ kind, pending = some kind → kind = .destinationAnnounce ∧ entry = none ∨
    (kind = .destinationDown ∨ kind = .linkCharacteristics) ∧ entry.isSome = true) ∧
  ∀ d, entry = some d → d.up = true

theorem consistent_iff : s.Consistent ↔
    (∀ mac, CellConsistent (s.tx.pending mac) (s.destinations.lookup mac)) ∧
    ∀ request, s.tx.sessionPending = some request → request = ⟨.sessionUpdate⟩ := by
  constructor
  · intro h
    exact ⟨fun mac => ⟨h.tracked mac, h.up mac⟩, h.session⟩
  · rintro ⟨hcell, hsession⟩
    exact ⟨fun mac => (hcell mac).1, fun mac => (hcell mac).2, hsession⟩

theorem Transition.consistent (h : s.Transition event s' actions) (hc : s.Consistent) :
    s'.Consistent := by
  have hisUp := hc.isUp_eq
  rw [consistent_iff] at hc ⊢
  obtain ⟨hcell, hsession⟩ := hc
  cases h with
  | rejected | ignored | alive | beat | connected | initialized | ends
  | sessionAddressesKept => exact ⟨hcell, hsession⟩
  | sessionAnswered => exact ⟨hcell, by simp⟩
  | sessionAddressesSent => exact ⟨hcell, by simp⟩
  | sessionUpdated =>
    refine ⟨fun m => ?_, hsession⟩
    have hm := hcell m
    dsimp only
    split
    · simp only [FinMap.lookup_mapValues]
      cases hd : s.destinations.lookup m with
      | none => rwa [hd] at hm
      | some d => simpa [CellConsistent, hd] using hm
    · exact hm
  | @announceSent mac hs hp =>
    cases hp with
    | announce hformat hidle hup =>
      have hd : s.destinations.lookup mac = none := by simpa [hisUp] using hup
      refine ⟨fun m => ?_, hsession⟩
      have hm := hcell m
      simp only [TransactionTracker.pending_withPending]
      grind [CellConsistent]
  | dropSent hs hp | linkSent hs hp =>
    cases hp
    refine ⟨fun m => ?_, hsession⟩
    have hm := hcell m
    have hup := hisUp m
    simp only [TransactionTracker.pending_withPending]
    grind [CellConsistent]
  | _ =>
    refine ⟨fun m => ?_, hsession⟩
    have hm := hcell m
    simp only [FinMap.lookup_insert_eq, FinMap.lookup_erase_eq,
      TransactionTracker.pending_closeDestination]
    grind [CellConsistent, reported]

/-! ## Before the session -/

/-- Before the session begins nothing but the state has changed. -/
def Fresh (s : RouterSessionFsm) : Prop :=
  s.state = .closed ∨ s.state = .sessionInitPending →
    s = { withConfig s.config with state := s.state }

theorem fresh_withConfig (config : SessionConfig) : (withConfig config).Fresh := fun _ => rfl

theorem Transition.fresh (h : s.Transition event s' actions) (hf : s.Fresh) : s'.Fresh := by
  cases h with
  | rejected | ignored => exact hf
  | connected hs =>
    intro _
    rw [hf (.inl hs)]
    rfl
  | initialized => exact fun h => by rcases h with h | h <;> cases h
  | ends hend =>
    intro h
    rcases hend.gone with rfl | rfl <;> rcases h with h | h <;> cases h
  | _ hs =>
    exact fun h => by rcases h with h | h <;> rw [hs] at h <;> cases h

end RouterSessionFsm

end Dlep
