-- SUMMARY: Inversion of the modem's step: its consistency invariant, what it permits, and every transition it can take.
import Dlep.Fsm.LifeCycle
import Dlep.Fsm.Modem

/-!
# What a step of the modem can do

`Transition` lists every step the modem can take, with the guard that enabled it.
`step_spec` says that a consistent modem never reaches a failure point and that
its step is one of these transitions; later results take cases on `Transition`
and do not unfold `step`.
-/

namespace Dlep

/-! ## Phases -/

namespace ModemSessionState

@[simp] def phase : ModemSessionState → Phase
  | .listening => .idle
  | .awaitingSessionInit => .opening
  | .inSession => .inSession
  | .terminating => .terminating
  | .terminated => .terminated

def ofPhase : Phase → ModemSessionState
  | .idle => .listening
  | .opening => .awaitingSessionInit
  | .inSession => .inSession
  | .terminating => .terminating
  | .terminated => .terminated

@[simp] theorem phase_ofPhase (p : Phase) : (ofPhase p).phase = p := by
  cases p <;> rfl

end ModemSessionState

namespace ModemSessionFsm

section

variable {s : ModemSessionFsm} {msg : Message} {event : FsmEvent} {kind : CommandKind}
  {mac : MacAddress}


def view (s : ModemSessionFsm) : LifeView :=
  ⟨s.state.phase, s.terminationReason, s.peerHeartbeatInterval⟩

theorem phase_view {state : ModemSessionState} (hs : s.state = state) :
    s.view.phase = state.phase :=
  congrArg ModemSessionState.phase hs

/-! ## Consistency -/

/-- The cross-field facts that the handlers' failure points rely on. -/
structure Consistent (s : ModemSessionFsm) : Prop where
  /-- An open Up is for an entry not yet announced, an open Down for an announced one;
  the modem opens no other destination request. -/
  tracked : ∀ mac kind, s.tx.pending mac = some kind →
    ∃ d, s.destinations.lookup mac = some d ∧
      (kind = .destinationUp ∧ d.announced = false ∨ kind = .destinationDown ∧ d.announced = true)
  /-- A deferred link request is for an announced, idle destination. -/
  deferred : ∀ mac ∈ s.pendingLinkRequests, s.tx.pending mac = none ∧ s.isAnnounced mac = true
  session : ∀ request, s.tx.sessionPending = some request → request = ⟨.sessionUpdate⟩

theorem isAnnounced_eq_true :
    s.isAnnounced mac = true ↔ ∃ d, s.destinations.lookup mac = some d ∧ d.announced = true := by
  simp [isAnnounced, Option.any_eq_true]

theorem isAnnounced_of_lookup {d : ModemDestination} (h : s.destinations.lookup mac = some d) :
    s.isAnnounced mac = d.announced := by
  simp [isAnnounced, h]

/-! ## Accepted messages -/

/-- A message that passed every check of an in-session modem. -/
structure Accepts (s : ModemSessionFsm) (msg : Message) : Prop where
  grammar : Grammatical msg false false
  benign : fatalStatus msg = none
  format : validateMacFormat msg s.config.macAddressFormat = .ok ()
  addresses : msg.messageType = .sessionUpdate →
    ((AddressChanges.fromMessage msg).applyStrict s.peerAddresses).1 = .ok ()
  transacts : Transacts msg s.tx s.isAnnounced
  undeferred : ∀ mac, extractDestinationMac msg = some mac →
    msg.messageType ∈ [MessageType.destinationDown, .linkCharacteristicsRequest] →
    mac ∉ s.pendingLinkRequests

theorem checkMessage_ok (hs : s.state = .inSession) (hf : fatalStatus msg = none)
    (h : s.checkMessage msg = .ok ()) : s.Accepts msg := by
  simp only [checkMessage, hs, reduceCtorEq, decide_false, Bool.false_or, decide_eq_true_eq,
    if_false] at h
  obtain ⟨⟨⟩, hvalid, h⟩ := bind_eq_ok.mp h
  obtain ⟨⟨⟩, hformat, h⟩ := bind_eq_ok.mp h
  -- The address check runs only for Session Update; the rest is common.
  have hrest : (msg.messageType = .sessionUpdate →
        ((AddressChanges.fromMessage msg).applyStrict s.peerAddresses).1 = .ok ()) ∧
      ¬ ((extractDestinationMac msg).any (fun mac => decide (mac ∈ s.pendingLinkRequests)) &&
        decide (msg.messageType ∈ [MessageType.destinationDown, .linkCharacteristicsRequest]))
          = true ∧
      validateTransaction msg s.tx ((extractDestinationMac msg).any s.isAnnounced) = .ok () := by
    split at h
    · obtain ⟨⟨⟩, haddr, h⟩ := bind_eq_ok.mp h
      split at h
      · cases h
      · exact ⟨fun _ => haddr, ‹_›, h⟩
    · rename_i hne
      split at h
      · cases h
      · exact ⟨fun ht => absurd ht hne, ‹_›, h⟩
  obtain ⟨haddr, hdefer, htx⟩ := hrest
  refine ⟨validateMessage_ok hvalid, hf, hformat, haddr, validateTransaction_ok htx,
    fun mac hmac ht hmem => hdefer ?_⟩
  simp only [hmac, Option.any_some, Bool.and_eq_true, decide_eq_true_eq]
  exact ⟨hmem, ht⟩

theorem accepts_of_refusal (hs : s.state = .inSession) (h : s.refusal msg = none) :
    s.Accepts msg := by
  obtain ⟨hf, hok⟩ := (refuse_eq_none (.inr hs)).mp h
  exact checkMessage_ok hs hf hok

/-- What the checks establish of a message that is not refused during the handshake. -/
theorem init_of_refusal (hs : s.state = .awaitingSessionInit) (h : s.refusal msg = none) :
    Grammatical msg false true ∧
      ((AddressChanges.fromMessage msg).applyStrict s.peerAddresses).1 = .ok () := by
  obtain ⟨-, hok⟩ := (refuse_eq_none (.inl hs)).mp h
  simp only [checkMessage, hs, decide_true, Bool.true_or, if_true] at hok
  obtain ⟨⟨⟩, hvalid, hok⟩ := bind_eq_ok.mp hok
  obtain ⟨⟨⟩, -, hok⟩ := bind_eq_ok.mp hok
  obtain ⟨⟨⟩, haddr, -⟩ := bind_eq_ok.mp hok
  exact ⟨validateMessage_ok hvalid, haddr⟩

theorem valid_of_refusal (hs : s.state = .awaitingSessionInit ∨ s.state = .inSession)
    (h : s.refusal msg = none) :
    validateMessage msg false (decide (s.state = .awaitingSessionInit))
      s.config.advertisedExtensions = .ok () := by
  obtain ⟨⟨⟩, hvalid, -⟩ := bind_eq_ok.mp ((refuse_eq_none hs).mp h).2
  exact hvalid

/-! ## Permitted commands -/

/-- A command that passed `check_command`, with what the check established. -/
inductive Permits (s : ModemSessionFsm) : FsmEvent → Prop where
  | add {mac metrics addrs} (hformat : s.config.macAddressFormat.accepts mac = true)
      (hidle : s.tx.pending mac = none) (hnew : s.destinations.lookup mac = none)
      (hmetrics : s.validMetrics metrics = true)
      (hvalid : (AddressChanges.mk addrs .default).validate = .ok ())
      (hencodes : (buildDestinationUp mac (effectiveMetrics s.sessionMetrics metrics) addrs).Encodes) :
      Permits s (.appAddDestination mac metrics addrs)
  | drop {mac reason d} (hidle : s.tx.pending mac = none) (hlink : mac ∉ s.pendingLinkRequests)
      (hd : s.destinations.lookup mac = some d) : Permits s (.appDropDestination mac reason)
  | updateMetrics {mac metrics d}
      (hup : s.tx.pending mac = none ∨ s.tx.pending mac = some .destinationUp)
      (hd : s.destinations.lookup mac = some d) (hmetrics : s.validMetrics metrics = true) :
      Permits s (.appUpdateMetrics mac metrics)
  | updateAddresses {mac changes d}
      (hup : s.tx.pending mac = none ∨ s.tx.pending mac = some .destinationUp)
      (hd : s.destinations.lookup mac = some d) (hvalid : changes.validate = .ok ())
      (hencodes : (buildDestinationUp mac d.metrics (changes.applyLenient d.addrs)).Encodes) :
      Permits s (.appUpdateAddresses mac changes)
  | sessionUpdate {metrics} (hidle : s.tx.sessionPending = none)
      (hmetrics : s.validMetrics metrics = true) : Permits s (.appSessionUpdate metrics)
  | linkResponse {mac status text metrics d} (hidle : s.tx.pending mac = none)
      (hlink : mac ∈ s.pendingLinkRequests) (hd : s.destinations.lookup mac = some d)
      (hstatus : status.terminatesSession = false)
      (hmetrics : ∀ m, metrics = some m → s.validMetrics m = true)
      (hencodes : (buildLinkCharacteristicsReply mac status text
        ((metrics.map (effectiveMetrics d.metrics)).getD d.metrics)).Encodes) :
      Permits s (.appLinkCharacteristicsResponse mac status text metrics)
  | sessionAddresses {changes} (hidle : s.tx.sessionPending = none)
      (hvalid : validateLocalAddressUpdate s.localAddresses changes = .ok ()) :
      Permits s (.appSessionAddresses changes)

theorem checkScope_ok (h : s.checkScope event mac = .ok ()) :
    s.config.macAddressFormat.accepts mac = true ∧ s.checkLink event mac = .ok () ∧
      (s.tx.pending mac = none ∨
        s.tx.pending mac = some .destinationUp ∧ retainedDuringUp event = true) := by
  unfold checkScope at h
  split at h
  · cases h
  · rename_i hformat
    split at h
    · cases h
    · rename_i hlink
      refine ⟨by simpa using hformat, hlink, ?_⟩
      split at h
      · rename_i hl
        exact .inl (by simp [TransactionTracker.pending, hl])
      · rename_i pending hl
        split at h
        · cases h
        · rename_i hret
          simp only [Bool.not_eq_true, Bool.not_eq_false', Bool.and_eq_true, decide_eq_true_eq]
            at hret
          exact .inr ⟨by simp [TransactionTracker.pending, hl, hret.2], hret.1⟩

/-- A destination command other than an update finds its destination idle. -/
theorem checkScope_idle (h : s.checkScope event mac = .ok ())
    (hret : retainedDuringUp event = false) : s.tx.pending mac = none := by
  rcases (checkScope_ok h).2.2 with hidle | ⟨-, hup⟩
  · exact hidle
  · rw [hret] at hup
    cases hup

/-- A destination command is decided by its scope and then by its arguments. -/
theorem checkCommand_destination (hs : s.state = .inSession)
    (hcmd : event.command = some ⟨kind, some mac⟩)
    (hkind : kind ≠ .announceDestination ∧ kind ≠ .linkCharacteristics) :
    s.checkCommand event = match s.checkScope event mac with
      | .error e => .ok (.error e)
      | .ok () => s.checkArguments event := by
  cases event <;> cases hcmd <;> first
    | exact absurd rfl hkind.1
    | exact absurd rfl hkind.2
    | simp only [checkCommand, hs, ne_eq, not_true_eq_false, if_false]; rfl

theorem checkCommand_session (hs : s.state = .inSession) (hcmd : event.command = some ⟨kind, none⟩)
    :
    s.checkCommand event =
      if s.tx.sessionBusy then .ok (.error .busy) else s.checkArguments event := by
  cases event <;> cases hcmd <;>
    · simp only [checkCommand, hs, ne_eq, not_true_eq_false, if_false, FsmEvent.command,
        expectSome_some, bind, Except.bind]
      cases s.tx.sessionBusy <;> rfl

/-- The argument checks of a consistent modem never fail with a panic, and what
they let through is permitted. -/
theorem checkArguments_cases (hc : s.Consistent) (hcmd : event.command = some ⟨kind, some mac⟩)
    (hscope : s.checkScope event mac = .ok ()) :
    (∃ reason, s.checkArguments event = .ok (.error reason)) ∨
      s.checkArguments event = .ok (.ok ()) ∧ s.Permits event := by
  obtain ⟨hformat, hlink, hbusy⟩ := checkScope_ok hscope
  have hidle : retainedDuringUp event = false → s.tx.pending mac = none := checkScope_idle hscope
  have hup : s.tx.pending mac = none ∨ s.tx.pending mac = some .destinationUp :=
    hbusy.imp_right And.left
  cases event <;> cases hcmd
  case appAddDestination metrics addrs =>
    simp only [checkArguments]
    split
    · exact .inl ⟨_, rfl⟩
    · rename_i hnew
      split
      · exact .inl ⟨_, rfl⟩
      · rename_i hmetrics
        split
        · exact .inl ⟨_, rfl⟩
        · rename_i hvalid
          split
          · exact .inl ⟨_, rfl⟩
          · rename_i bytes hencode
            exact .inr ⟨rfl, .add hformat (hidle rfl) (by simpa using hnew) (by simpa using hmetrics)
              hvalid ⟨bytes, hencode⟩⟩
  case appDropDestination reason =>
    simp only [checkArguments]
    split
    · exact .inl ⟨_, rfl⟩
    · rename_i hd
      obtain ⟨d, hd⟩ := Option.ne_none_iff_exists'.mp (by simpa using hd)
      refine .inr ⟨rfl, .drop (hidle rfl) (fun hmem => ?_) hd⟩
      simp [checkLink, hmem] at hlink
  case appUpdateMetrics metrics =>
    simp only [checkArguments]
    split
    · exact .inl ⟨_, rfl⟩
    · rename_i hd
      obtain ⟨d, hd⟩ := Option.ne_none_iff_exists'.mp (by simpa using hd)
      split
      · exact .inl ⟨_, rfl⟩
      · rename_i hmetrics
        exact .inr ⟨rfl, .updateMetrics hup hd (by simpa using hmetrics)⟩
  case appUpdateAddresses changes =>
    simp only [checkArguments]
    split
    · exact .inl ⟨_, rfl⟩
    · rename_i d hd
      split
      · exact .inl ⟨_, rfl⟩
      · rename_i hvalid
        split
        · exact .inl ⟨_, rfl⟩
        · rename_i bytes hencode
          exact .inr ⟨rfl, .updateAddresses hup hd hvalid ⟨bytes, hencode⟩⟩
  case appAnnounceDestination => exact .inl ⟨_, rfl⟩
  case appRequestLinkCharacteristics => exact .inl ⟨_, rfl⟩
  case appLinkCharacteristicsResponse status text metrics =>
    have hmem : mac ∈ s.pendingLinkRequests := by
      by_contra hmem
      simp [checkLink, hmem] at hlink
    obtain ⟨d, hd, -⟩ := isAnnounced_eq_true.mp (hc.deferred mac hmem).2
    simp only [checkArguments, indexMap, hd, bind, Except.bind]
    split
    · exact .inl ⟨_, rfl⟩
    · rename_i hstatus
      have hstatus : status.terminatesSession = false := by simpa using hstatus
      cases metrics with
      | none =>
        dsimp only
        split
        · exact .inl ⟨_, rfl⟩
        · rename_i bytes hencode
          exact .inr ⟨rfl, .linkResponse (hidle rfl) hmem hd hstatus (fun _ h => by cases h)
            ⟨bytes, hencode⟩⟩
      | some metrics =>
        dsimp only
        by_cases hmetrics : s.validMetrics metrics = true
        · simp only [hmetrics, Bool.not_true, Bool.false_eq_true, if_false]
          split
          · exact .inl ⟨_, rfl⟩
          · rename_i bytes hencode
            refine .inr ⟨rfl, .linkResponse (hidle rfl) hmem hd hstatus ?_ ⟨bytes, hencode⟩⟩
            rintro m ⟨⟩
            exact hmetrics
        · exact .inl ⟨.invalidInput, by simp [hmetrics]⟩

theorem checkArguments_session (hidle : s.tx.sessionPending = none)
    (hcmd : event.command = some ⟨kind, none⟩) :
    (∃ reason, s.checkArguments event = .ok (.error reason)) ∨
      s.checkArguments event = .ok (.ok ()) ∧ s.Permits event := by
  cases event <;> cases hcmd
  case appSessionUpdate metrics =>
    simp only [checkArguments]
    split
    · exact .inl ⟨_, rfl⟩
    · rename_i hmetrics
      exact .inr ⟨rfl, .sessionUpdate hidle (by simpa using hmetrics)⟩
  case appSessionAddresses changes =>
    cases hvalid : validateLocalAddressUpdate s.localAddresses changes with
    | error reason => exact .inl ⟨reason, by simp only [checkArguments, hvalid]⟩
    | ok _ => exact .inr ⟨by simp only [checkArguments, hvalid], .sessionAddresses hidle hvalid⟩

/-- A consistent modem decides every command without reaching a failure point. -/
theorem checkCommand_cases {command : CommandInfo} (hc : s.Consistent)
    (hcmd : event.command = some command) :
    (∃ reason, s.checkCommand event = .ok (.error reason)) ∨
      s.checkCommand event = .ok (.ok ()) ∧ s.state = .inSession ∧ s.Permits event := by
  by_cases hs : s.state = .inSession
  · obtain ⟨kind, _ | mac⟩ := command
    · rw [checkCommand_session hs hcmd]
      split
      · exact .inl ⟨_, rfl⟩
      · rename_i hbusy
        rcases checkArguments_session
          (s.tx.sessionBusy_eq_false_iff.mp (Bool.eq_false_iff.mpr hbusy)) hcmd with hrej | ⟨hok, hp⟩
        · exact .inl hrej
        · exact .inr ⟨hok, hs, hp⟩
    · by_cases hkind : kind ≠ .announceDestination ∧ kind ≠ .linkCharacteristics
      · rw [checkCommand_destination hs hcmd hkind]
        split
        · exact .inl ⟨_, rfl⟩
        · rename_i hscope
          rcases checkArguments_cases hc hcmd hscope with hrej | ⟨hok, hp⟩
          · exact .inl hrej
          · exact .inr ⟨hok, hs, hp⟩
      · -- Only a router originates these two.
        refine .inl ⟨.unsupported, ?_⟩
        cases event <;> cases hcmd <;> first
          | exact absurd (by decide) hkind
          | simp only [checkCommand, hs, ne_eq, not_true_eq_false, if_false]; rfl
  · exact .inl ⟨.notReady, by simp [checkCommand, hs]⟩

end

/-! ## Transitions -/

/-- The actions of the handshake's last step, in the state it leads to. -/
def sessionUpActions (s : ModemSessionFsm) : List FsmAction :=
  [.cancelTimer TIMER_SESSION_INIT, .sendMessage (buildSessionInitializationResponse s.config),
    .startTimer TIMER_HEARTBEAT .heartbeat (localHeartbeatInterval s.config) true] ++
  s.heartbeatReset ++ [.emit (.sessionUp s.peerExtensions)] ++
  if s.peerAddresses.isEmpty then []
  else [.emit (.sessionAddressesUpdate ⟨s.peerAddresses, .default⟩ s.peerAddresses)]

/-- What fails the session: a protocol error or a refused message, unless the handshake is open. -/
def Fault (s : ModemSessionFsm) (event : FsmEvent) (code : StatusCode) (text : String) : Prop :=
  s.state ≠ .awaitingSessionInit ∧ (event = .protocolError code ∧ text = "" ∨
    ∃ msg, event = .recvMessage msg ∧ s.refusal msg = some (.status code text))

/-- Every step of a consistent modem: the event, the state after it and its actions. -/
inductive Transition (s : ModemSessionFsm) :
    FsmEvent → ModemSessionFsm → List FsmAction → Prop where
  -- Steps that change nothing.
  | rejected {event command reason} (hcmd : event.command = some command) :
      Transition s event s [.emit (.commandRejected ⟨command, reason⟩)]
  | ignored {event} (h : s.state.phase.Ignores event) : Transition s event s []
  | alive {event} (hs : s.state = .inSession)
      (hevent : event = .recvExtensionMessage ∨
        ∃ msg, event = .recvMessage msg ∧ s.Accepts msg ∧ msg.messageType = .heartbeat) :
      Transition s event s s.heartbeatReset
  | beat {id} (hs : s.state = .inSession) :
      Transition s (.timerExpired id .heartbeat) s [.sendMessage buildHeartbeat]
  -- The life cycle of the session.
  | accepted (hs : s.state = .listening) :
      Transition s .tcpAccepted { s with state := .awaitingSessionInit }
        [.startTimer TIMER_SESSION_INIT .sessionInit s.config.sessionInitTimeout false]
  | initialized {msg} (hs : s.state = .awaitingSessionInit) (hok : s.refusal msg = none)
      (ht : msg.messageType = .sessionInitialization) :
      Transition s (.recvMessage msg) (s.initialized msg) (s.initialized msg).sessionUpActions
  | ends {event phase reason actions}
      (h : Ending (s.Fault event) False s.view event phase reason actions) :
      Transition s event { s with state := .ofPhase phase, terminationReason := reason } actions
  -- Destinations: Up.
  | added {mac metrics addrs} (hs : s.state = .inSession)
      (hp : s.Permits (.appAddDestination mac metrics addrs)) :
      Transition s (.appAddDestination mac metrics addrs)
        { s with
          tx := s.tx.withPending mac .destinationUp
          destinations := s.destinations.insert mac
            { announced := false, pendingMetrics := false,
              metrics := effectiveMetrics s.sessionMetrics metrics,
              addrs := addrs.canonical, advertisedAddrs := addrs.canonical } }
        [.sendMessage
          (buildDestinationUp mac (effectiveMetrics s.sessionMetrics metrics) addrs.canonical)]
  | acknowledged {msg mac d} (hs : s.state = .inSession) (ha : s.Accepts msg)
      (ht : msg.messageType = .destinationUpResponse) (hmac : extractDestinationMac msg = some mac)
      (hstatus : extractStatus msg = some .success) (hd : s.destinations.lookup mac = some d)
      (hnew : d.announced = false) (hup : s.tx.pending mac = some .destinationUp) :
      Transition s (.recvMessage msg)
        { s with
          tx := s.tx.closeDestination mac
          destinations := s.destinations.insert mac (acknowledge mac d) }
        (((deferredUpdate mac d).map FsmAction.sendMessage).toList ++ s.heartbeatReset)
  | refused {msg mac d status} (hs : s.state = .inSession) (ha : s.Accepts msg)
      (ht : msg.messageType = .destinationUpResponse) (hmac : extractDestinationMac msg = some mac)
      (hstatus : extractStatus msg = some status) (hfail : status ≠ .success)
      (hd : s.destinations.lookup mac = some d) (hnew : d.announced = false)
      (hup : s.tx.pending mac = some .destinationUp) :
      Transition s (.recvMessage msg)
        { s with
          tx := s.tx.closeDestination mac
          destinations := s.destinations.insert mac d }
        s.heartbeatReset
  -- Destinations: updates.
  | metricsDeferred {mac metrics d} (hs : s.state = .inSession)
      (hp : s.Permits (.appUpdateMetrics mac metrics)) (hd : s.destinations.lookup mac = some d)
      (hnew : d.announced = false) :
      Transition s (.appUpdateMetrics mac metrics)
        { s with
          destinations := s.destinations.insert mac
            { d with metrics := effectiveMetrics d.metrics metrics, pendingMetrics := true } } []
  | metricsSent {mac metrics d} (hs : s.state = .inSession)
      (hp : s.Permits (.appUpdateMetrics mac metrics)) (hd : s.destinations.lookup mac = some d)
      (hannounced : d.announced = true) (hidle : s.tx.pending mac = none) :
      Transition s (.appUpdateMetrics mac metrics)
        { s with
          destinations := s.destinations.insert mac
            { d with metrics := effectiveMetrics d.metrics metrics } }
        [.sendMessage (buildDestinationUpdate mac metrics)]
  | addressesKept {mac changes d} (hs : s.state = .inSession)
      (hp : s.Permits (.appUpdateAddresses mac changes)) (hd : s.destinations.lookup mac = some d)
      (hkept : d.announced = false ∨
        (AddressChanges.between d.advertisedAddrs (changes.applyLenient d.addrs)).isEmpty = true) :
      Transition s (.appUpdateAddresses mac changes)
        { s with
          destinations := s.destinations.insert mac
            { d with addrs := changes.applyLenient d.addrs } } []
  | addressesSent {mac changes d} (hs : s.state = .inSession)
      (hp : s.Permits (.appUpdateAddresses mac changes)) (hd : s.destinations.lookup mac = some d)
      (hannounced : d.announced = true) (hidle : s.tx.pending mac = none) :
      Transition s (.appUpdateAddresses mac changes)
        { s with
          destinations := s.destinations.insert mac
            { d with
              addrs := changes.applyLenient d.addrs
              advertisedAddrs := changes.applyLenient d.addrs } }
        [.sendMessage
          ((AddressChanges.between d.advertisedAddrs (changes.applyLenient d.addrs)).appendTo
            ((Message.new .destinationUpdate).withItem (.macAddress mac)))]
  -- Destinations: Down and Announce.
  | forgotten {mac reason d} (hs : s.state = .inSession)
      (hp : s.Permits (.appDropDestination mac reason)) (hd : s.destinations.lookup mac = some d)
      (hnew : d.announced = false) (hidle : s.tx.pending mac = none)
      (hlink : mac ∉ s.pendingLinkRequests) :
      Transition s (.appDropDestination mac reason)
        { s with destinations := s.destinations.erase mac } []
  | dropSent {mac reason d} (hs : s.state = .inSession)
      (hp : s.Permits (.appDropDestination mac reason)) (hd : s.destinations.lookup mac = some d)
      (hannounced : d.announced = true) (hidle : s.tx.pending mac = none)
      (hlink : mac ∉ s.pendingLinkRequests) :
      Transition s (.appDropDestination mac reason)
        { s with tx := s.tx.withPending mac .destinationDown }
        [.sendMessage (buildDestinationDown mac reason)]
  | withdrawn {msg mac d} (hs : s.state = .inSession) (ha : s.Accepts msg)
      (ht : msg.messageType = .destinationDown) (hmac : extractDestinationMac msg = some mac)
      (hd : s.destinations.lookup mac = some d) (hannounced : d.announced = true)
      (hidle : s.tx.pending mac = none) (hlink : mac ∉ s.pendingLinkRequests) :
      Transition s (.recvMessage msg)
        { s with
          destinations := s.destinations.insert mac
            { d with announced := false, pendingMetrics := false } }
        ([.sendMessage (buildDestinationDownResponse mac .success),
          .emit (.destinationDown mac .success)] ++ s.heartbeatReset)
  | dropAnswered {msg mac} (hs : s.state = .inSession) (ha : s.Accepts msg)
      (ht : msg.messageType = .destinationDownResponse)
      (hmac : extractDestinationMac msg = some mac)
      (hdown : s.tx.pending mac = some .destinationDown) :
      Transition s (.recvMessage msg)
        { s with tx := s.tx.closeDestination mac, destinations := s.destinations.erase mac }
        s.heartbeatReset
  | announceDenied {msg mac} (hs : s.state = .inSession) (ha : s.Accepts msg)
      (ht : msg.messageType = .destinationAnnounce) (hmac : extractDestinationMac msg = some mac)
      (hd : s.destinations.lookup mac = none) :
      Transition s (.recvMessage msg) s
        ([.sendMessage (buildDestinationAnnounceResponse mac .requestDenied),
          .emit (.destinationAnnounced mac (AddressChanges.fromMessage msg))] ++ s.heartbeatReset)
  | announceGranted {msg mac d} (hs : s.state = .inSession) (ha : s.Accepts msg)
      (ht : msg.messageType = .destinationAnnounce) (hmac : extractDestinationMac msg = some mac)
      (hd : s.destinations.lookup mac = some d) (hnew : d.announced = false)
      (hidle : s.tx.pending mac = none) :
      Transition s (.recvMessage msg)
        { s with
          destinations := s.destinations.insert mac
            { d with announced := true, pendingMetrics := false, advertisedAddrs := d.addrs } }
        ([.sendMessage (announceSuccess mac d),
          .emit (.destinationAnnounced mac (AddressChanges.fromMessage msg))] ++ s.heartbeatReset)
  -- Link characteristics.
  | linkDeferred {msg mac d} (hs : s.state = .inSession) (ha : s.Accepts msg)
      (ht : msg.messageType = .linkCharacteristicsRequest)
      (hmac : extractDestinationMac msg = some mac) (hd : s.destinations.lookup mac = some d)
      (hannounced : d.announced = true) (hidle : s.tx.pending mac = none)
      (hlink : mac ∉ s.pendingLinkRequests)
      (hdefer : s.config.deferLinkCharacteristics = true) :
      Transition s (.recvMessage msg)
        { s with pendingLinkRequests := insert mac s.pendingLinkRequests }
        ([.emit (.linkCharacteristicsRequested mac (extractLinkCharacteristics msg) d.metrics true)]
          ++ s.heartbeatReset)
  | linkDenied {msg mac d} (hs : s.state = .inSession) (ha : s.Accepts msg)
      (ht : msg.messageType = .linkCharacteristicsRequest)
      (hmac : extractDestinationMac msg = some mac) (hd : s.destinations.lookup mac = some d)
      (hannounced : d.announced = true) (hidle : s.tx.pending mac = none)
      (hlink : mac ∉ s.pendingLinkRequests)
      (hdefer : s.config.deferLinkCharacteristics = false) :
      Transition s (.recvMessage msg) s
        ([.sendMessage (buildLinkCharacteristicsResponse mac .requestDenied d.metrics),
          .emit (.linkCharacteristicsRequested mac (extractLinkCharacteristics msg) d.metrics false)]
          ++ s.heartbeatReset)
  | linkAnswered {mac status text metrics d} (hs : s.state = .inSession)
      (hp : s.Permits (.appLinkCharacteristicsResponse mac status text metrics))
      (hd : s.destinations.lookup mac = some d) (hannounced : d.announced = true)
      (hidle : s.tx.pending mac = none) (hlink : mac ∈ s.pendingLinkRequests) :
      Transition s (.appLinkCharacteristicsResponse mac status text metrics)
        { s with
          pendingLinkRequests := s.pendingLinkRequests.erase mac
          destinations := s.destinations.insert mac
            { d with metrics := (metrics.map (effectiveMetrics d.metrics)).getD d.metrics } }
        [.sendMessage (buildLinkCharacteristicsReply mac status text
          ((metrics.map (effectiveMetrics d.metrics)).getD d.metrics))]
  -- Session updates.
  | sessionUpdated {msg peer} (hs : s.state = .inSession) (ha : s.Accepts msg)
      (ht : msg.messageType = .sessionUpdate)
      (hpeer : (AddressChanges.fromMessage msg).applyStrict s.peerAddresses = (.ok (), peer)) :
      Transition s (.recvMessage msg) { s with peerAddresses := peer }
        ([.sendMessage (buildSessionUpdateResponse .success)] ++
          (if (AddressChanges.fromMessage msg).isEmpty then []
            else [.emit (.sessionAddressesUpdate (AddressChanges.fromMessage msg) peer)]) ++
          s.heartbeatReset)
  | sessionAnswered {msg} (hs : s.state = .inSession) (ha : s.Accepts msg)
      (ht : msg.messageType = .sessionUpdateResponse) :
      Transition s (.recvMessage msg) { s with tx := s.tx.closeSession } s.heartbeatReset
  | sessionMetricsSent {metrics} (hs : s.state = .inSession)
      (hp : s.Permits (.appSessionUpdate metrics)) :
      Transition s (.appSessionUpdate metrics)
        { s with
          tx := { s.tx with sessionPending := some ⟨.sessionUpdate⟩ }
          sessionMetrics := effectiveMetrics s.sessionMetrics metrics
          destinations := s.destinations.mapValues fun d =>
            { d with metrics := effectiveMetrics d.metrics metrics } }
        [.sendMessage (buildSessionUpdate metrics)]
  | sessionAddressesKept {changes} (hs : s.state = .inSession) :
      Transition s (.appSessionAddresses changes) s []
  | sessionAddressesSent {changes} (hs : s.state = .inSession)
      (hp : s.Permits (.appSessionAddresses changes)) :
      Transition s (.appSessionAddresses changes)
        { s with
          tx := { s.tx with sessionPending := some ⟨.sessionUpdate⟩ }
          localAddresses := changes.applyLenient s.localAddresses }
        [.sendMessage ((AddressChanges.between s.localAddresses
          (changes.applyLenient s.localAddresses)).appendTo (.new .sessionUpdate))]

/-! ## Every step is a transition -/

/-- The call succeeds with a transition of `s` on `event`. -/
def Steps (s : ModemSessionFsm) (event : FsmEvent) (r : Result) : Prop :=
  ∃ s' actions, r = .ok (s', actions) ∧ s.Transition event s' actions

variable {s s' : ModemSessionFsm} {msg : Message} {event : FsmEvent} {actions : List FsmAction}

theorem Transition.steps (h : s.Transition event s' actions) :
    s.Steps event (.ok (s', actions)) := ⟨s', actions, rfl, h⟩

theorem steps_ends {phase : Phase} {reason : StatusCode}
    (h : Ending (s.Fault event) False s.view event phase reason actions) :
    s.Steps event
      (.ok ({ s with state := .ofPhase phase, terminationReason := reason }, actions)) :=
  (Transition.ends h).steps

theorem steps_abandonInit {cleanup : List FsmAction} {status : StatusCode}
    (hs : s.state = .awaitingSessionInit) (hcmd : event.command = none)
    (hactions : ∀ a ∈ cleanup, a = .closeTcp ∨ ∃ id, a = .cancelTimer id)
    (htimer : .cancelTimer TIMER_SESSION_INIT ∈ cleanup ∨
      ∃ id, event = .timerExpired id .sessionInit) :
    s.Steps event (s.abandonInit cleanup status) :=
  steps_ends (.abandons cleanup (phase_view hs) hcmd hactions (by simpa using htimer))

/-- A protocol error outside an unfinished initialization ends the session; inside
one it is silent. -/
theorem steps_protocolError {code : StatusCode} {text : String} (hcmd : event.command = none)
    (hcause : event = .protocolError code ∧ text = "" ∨
      ∃ msg, event = .recvMessage msg ∧ s.refusal msg = some (.status code text)) :
    s.Steps event (s.protocolError (.status code text)) := by
  simp only [protocolError]
  split
  · rename_i hs
    rcases hcause with ⟨rfl, rfl⟩ | ⟨msg, rfl, hr⟩
    · exact (Transition.ignored ⟨rfl, by simp, by simp, by simp [FsmEvent.awaitedIn]⟩).steps
    · rcases hs with hs | hs <;> simp [refusal, refuse, hs] at hr
  · rename_i hend
    split
    · rename_i hs
      exact steps_ends (.abandons [.cancelTimer TIMER_SESSION_INIT, .closeTcp] (phase_view hs) hcmd
        (by simp) (by simp))
    · rename_i hs
      refine steps_ends (.fails ?_ ⟨hs, hcause⟩)
      cases h : s.state <;> simp_all [view]

/-! ### Received messages -/

/-- A message about a destination names it. -/
theorem Accepts.mac (ha : s.Accepts msg)
    (ht : .macAddress ∈ requiredItems msg.messageType) : ∃ mac, extractDestinationMac msg = some mac :=
  extractDestinationMac_of_carries (ha.grammar.required _ ht)

theorem Accepts.status (ha : s.Accepts msg)
    (ht : .status ∈ requiredItems msg.messageType) : ∃ code, extractStatus msg = some code :=
  extractStatus_of_carries (ha.grammar.required _ ht)

theorem steps_upResponse (hc : s.Consistent) (hs : s.state = .inSession) (ha : s.Accepts msg)
    (ht : msg.messageType = .destinationUpResponse) :
    s.Steps (.recvMessage msg) (s.onDestinationUpResponse msg) := by
  obtain ⟨mac, hmac⟩ := ha.mac (by rw [ht]; decide)
  obtain ⟨status, hstatus⟩ := ha.status (by rw [ht]; decide)
  have hup : s.tx.pending mac = some .destinationUp :=
    ha.transacts.answer mac _ hmac (by rw [ht]; rfl)
  obtain ⟨d, hd, ⟨-, hnew⟩ | ⟨hkind, -⟩⟩ := hc.tracked mac _ hup
  · simp only [onDestinationUpResponse, hmac, hstatus, hd, Option.getD_some]
    split
    · rename_i hok
      subst hok
      exact (Transition.acknowledged hs ha ht hmac hstatus hd hnew hup).steps
    · rename_i hfail
      have heq : { d with announced := false } = d := by rw [← hnew]
      rw [heq]
      exact (Transition.refused hs ha ht hmac hstatus hfail hd hnew hup).steps
  · cases hkind

theorem steps_down (hs : s.state = .inSession) (ha : s.Accepts msg)
    (ht : msg.messageType = .destinationDown) :
    s.Steps (.recvMessage msg) (s.onDestinationDown msg) := by
  obtain ⟨mac, hmac⟩ := ha.mac (by rw [ht]; decide)
  obtain ⟨d, hd, hann⟩ := isAnnounced_eq_true.mp (ha.transacts.up mac hmac (by rw [ht]; decide))
  simp only [onDestinationDown, hmac, hd, expectSome_some, bind, Except.bind]
  exact (Transition.withdrawn hs ha ht hmac hd hann
    (ha.transacts.idle mac hmac (by rw [ht]; decide))
    (ha.undeferred mac hmac (by rw [ht]; decide))).steps

theorem steps_downResponse (hs : s.state = .inSession) (ha : s.Accepts msg)
    (ht : msg.messageType = .destinationDownResponse) :
    s.Steps (.recvMessage msg) (s.onDestinationDownResponse msg) := by
  obtain ⟨mac, hmac⟩ := ha.mac (by rw [ht]; decide)
  simp only [onDestinationDownResponse, hmac]
  exact (Transition.dropAnswered hs ha ht hmac
    (ha.transacts.answer mac _ hmac (by rw [ht]; rfl))).steps

theorem steps_sessionUpdate (hs : s.state = .inSession) (ha : s.Accepts msg)
    (ht : msg.messageType = .sessionUpdate) :
    s.Steps (.recvMessage msg) (s.onSessionUpdate msg) := by
  have hok := ha.addresses ht
  simp only [onSessionUpdate, hok, expectOk_ok, bind, Except.bind]
  exact (Transition.sessionUpdated hs ha ht (Prod.ext hok rfl)).steps

theorem steps_announce (hs : s.state = .inSession) (ha : s.Accepts msg)
    (ht : msg.messageType = .destinationAnnounce) :
    s.Steps (.recvMessage msg) (s.onDestinationAnnounce msg) := by
  obtain ⟨mac, hmac⟩ := ha.mac (by rw [ht]; decide)
  have hdown := ha.transacts.down mac hmac (by rw [ht]; decide)
  simp only [onDestinationAnnounce, hmac, expectSome_some, bind, Except.bind]
  cases hd : s.destinations.lookup mac with
  | none => exact (Transition.announceDenied hs ha ht hmac hd).steps
  | some d =>
    rw [isAnnounced_of_lookup hd] at hdown
    exact (Transition.announceGranted hs ha ht hmac hd hdown
      (ha.transacts.idle mac hmac (by rw [ht]; decide))).steps

theorem steps_link (hs : s.state = .inSession) (ha : s.Accepts msg)
    (ht : msg.messageType = .linkCharacteristicsRequest) :
    s.Steps (.recvMessage msg) (s.onLinkCharacteristicsRequest msg) := by
  obtain ⟨mac, hmac⟩ := ha.mac (by rw [ht]; decide)
  obtain ⟨d, hd, hann⟩ := isAnnounced_eq_true.mp (ha.transacts.up mac hmac (by rw [ht]; decide))
  have hidle := ha.transacts.idle mac hmac (by rw [ht]; decide)
  have hlink := ha.undeferred mac hmac (by rw [ht]; decide)
  simp only [onLinkCharacteristicsRequest, hmac, indexMap, hd, expectSome_some, bind, Except.bind]
  split
  · rename_i hdefer
    exact (Transition.linkDeferred hs ha ht hmac hd hann hidle hlink hdefer).steps
  · rename_i hdefer
    exact (Transition.linkDenied hs ha ht hmac hd hann hidle hlink (by simpa using hdefer)).steps

theorem steps_onMessage (hc : s.Consistent) (hs : s.state = .inSession) (ha : s.Accepts msg) :
    s.Steps (.recvMessage msg) (s.onMessage msg) := by
  have hexp := ha.grammar.expected
  simp only [expectedType, Bool.false_eq_true, if_false, Bool.or_eq_true, decide_eq_true_eq,
    List.mem_cons, List.not_mem_nil, or_false] at hexp
  unfold onMessage
  rcases hexp with (ht | ht | ht | ht) | ht | ht | ht | ht | ht <;> simp only [ht]
  · exact steps_sessionUpdate hs ha ht
  · exact (Transition.sessionAnswered hs ha ht).steps
  · exact steps_ends (.peerTerminated (phase_view hs) rfl ht)
  · exact (Transition.alive hs (.inr ⟨msg, rfl, ha, ht⟩)).steps
  · exact steps_upResponse hc hs ha ht
  · exact steps_announce hs ha ht
  · exact steps_down hs ha ht
  · exact steps_downResponse hs ha ht
  · exact steps_link hs ha ht

/-! ### Commands -/

/-- A destination with an open Up is not announced. -/
theorem Consistent.announced_of_up {mac : MacAddress} {d : ModemDestination} (hc : s.Consistent)
    (hd : s.destinations.lookup mac = some d)
    (hup : s.tx.pending mac = none ∨ s.tx.pending mac = some .destinationUp)
    (hann : d.announced = true) : s.tx.pending mac = none := by
  rcases hup with hidle | hup
  · exact hidle
  · obtain ⟨d', hd', ⟨-, hnew⟩ | ⟨hkind, -⟩⟩ := hc.tracked mac _ hup
    · rw [hd] at hd'
      cases hd'
      rw [hann] at hnew
      cases hnew
    · cases hkind

theorem steps_updateMetrics {mac : MacAddress} {metrics : LinkMetrics} (hc : s.Consistent)
    (hs : s.state = .inSession) (hp : s.Permits (.appUpdateMetrics mac metrics)) :
    s.Steps (.appUpdateMetrics mac metrics) (s.onUpdateMetrics mac metrics) := by
  cases id hp with
  | @updateMetrics _ _ d hup hd hmetrics =>
    simp only [onUpdateMetrics, hd, expectSome_some, bind, Except.bind]
    rcases Bool.eq_false_or_eq_true d.announced with hann | hann
    · have hidle := hc.announced_of_up hd hup hann
      have hbusy := (s.tx.pending_eq_none_iff mac).mp hidle
      rw [if_neg (by simp [hann, hbusy])]
      exact (Transition.metricsSent hs hp hd hann hidle).steps
    · rw [if_pos (by simp [hann])]
      exact (Transition.metricsDeferred hs hp hd hann).steps

theorem steps_updateAddresses {mac : MacAddress} {changes : AddressChanges} (hc : s.Consistent)
    (hs : s.state = .inSession) (hp : s.Permits (.appUpdateAddresses mac changes)) :
    s.Steps (.appUpdateAddresses mac changes) (s.onUpdateAddresses mac changes) := by
  cases id hp with
  | @updateAddresses _ _ d hup hd hvalid hencodes =>
    simp only [onUpdateAddresses, hd, expectSome_some, bind, Except.bind]
    rcases Bool.eq_false_or_eq_true d.announced with hann | hann
    · have hidle := hc.announced_of_up hd hup hann
      have hbusy := (s.tx.pending_eq_none_iff mac).mp hidle
      rw [if_neg (by simp [hann, hbusy])]
      split
      · rename_i hempty
        exact (Transition.addressesKept hs hp hd (.inr hempty)).steps
      · exact (Transition.addressesSent hs hp hd hann hidle).steps
    · rw [if_pos (by simp [hann])]
      exact (Transition.addressesKept hs hp hd (.inl hann)).steps

theorem steps_dropDestination {mac : MacAddress} {reason : StatusCode} (hs : s.state = .inSession)
    (hp : s.Permits (.appDropDestination mac reason)) :
    s.Steps (.appDropDestination mac reason) (s.onDropDestination mac reason) := by
  cases id hp with
  | @drop _ _ d hidle hlink hd =>
    have hbusy := (s.tx.pending_eq_none_iff mac).mp hidle
    simp only [onDropDestination, indexMap, hd, bind, Except.bind, hbusy,
      TransactionTracker.openDestination_of_idle hidle, expectOk_ok]
    rcases Bool.eq_false_or_eq_true d.announced with hann | hann
    · rw [if_neg (by simp [hann])]
      exact (Transition.dropSent hs hp hd hann hidle hlink).steps
    · rw [if_pos (by simp [hann])]
      exact (Transition.forgotten hs hp hd hann hidle hlink).steps

/-! ### Events -/

/-- Every arm of `dispatch`, in the order of the source. -/
theorem steps_dispatch (hc : s.Consistent)
    (hcommand : event.command.isSome = true → s.state = .inSession ∧ s.Permits event)
    (hmsg : ∀ msg, event = .recvMessage msg → s.refusal msg = none) :
    s.Steps event (s.dispatch event) := by
  have hp h := (hcommand h).2
  unfold dispatch
  split
  next hs => exact (Transition.accepted hs).steps
  next hs => exact steps_ends (.closes (phase_view hs) rfl (by simp))
  next hs => exact steps_ends (.closes (phase_view hs) rfl (by simp))
  next msg hs =>
    split
    · rename_i ht
      exact (Transition.initialized hs (hmsg msg rfl) ht).steps
    · exact steps_abandonInit hs rfl (by simp) (by simp)
  next hs => exact steps_abandonInit hs rfl (by simp) (by simp)
  next hs => exact steps_abandonInit hs rfl (by simp) (by simp)
  next hs => exact steps_abandonInit hs rfl (by simp) (by simp)
  next msg hs => exact steps_onMessage hc hs (accepts_of_refusal hs (hmsg msg rfl))
  next hs =>
    cases id (hp rfl) with
    | add hformat hidle hnew hmetrics hvalid hencodes =>
      simp only [onAddDestination, DestinationAddrs.canonical_canonical,
        TransactionTracker.openDestination_of_idle hidle, expectOk_ok, bind, Except.bind]
      exact (Transition.added hs (hp rfl)).steps
  next hs => exact steps_updateMetrics hc hs (hp rfl)
  next hs => exact steps_updateAddresses hc hs (hp rfl)
  next hs => exact steps_dropDestination hs (hp rfl)
  next hs =>
    cases id (hp rfl) with
    | linkResponse hidle hlink hd hstatus hmetrics hencodes =>
      obtain ⟨d', hd', hann⟩ := isAnnounced_eq_true.mp (hc.deferred _ hlink).2
      rw [hd] at hd'
      cases hd'
      simp only [onLinkCharacteristicsResponse, hd, expectSome_some, bind, Except.bind]
      exact (Transition.linkAnswered hs (hp rfl) hd hann hidle hlink).steps
  next hs =>
    cases id (hp rfl) with
    | sessionAddresses hidle hvalid =>
      unfold onSessionAddresses
      rcases applyLocalAddressUpdate_ok hidle hvalid with h | h <;> rw [h]
      · exact (Transition.sessionAddressesKept hs).steps
      · exact (Transition.sessionAddressesSent hs (hp rfl)).steps
  next hs => exact (Transition.alive hs (.inl rfl)).steps
  next hs => exact (Transition.beat hs).steps
  next hs => exact steps_ends (.missed (phase_view hs) rfl)
  next hs =>
    cases id (hp rfl) with
    | sessionUpdate hidle hmetrics =>
      simp only [onAppSessionUpdate, TransactionTracker.openSession_of_idle hidle,
        expectOk_ok, bind, Except.bind]
      exact (Transition.sessionMetricsSent hs (hp rfl)).steps
  next hs => exact steps_ends (.shutdown (phase_view hs) rfl)
  next hs => exact steps_ends (.transportClosed (phase_view hs) rfl)
  next msg hs =>
    split
    · rename_i ht
      exact steps_ends (.answered (phase_view hs) rfl ht)
    · rename_i ht
      exact (Transition.ignored (.of_message (.inr (.inr ⟨phase_view hs, ht⟩)))).steps
  next hs => exact steps_ends (.expired (phase_view hs) rfl)
  next hs => exact steps_ends (.dropped (phase_view hs) rfl)
  next =>
    -- Commands, and the messages to an open session, have an arm of their own.
    refine (Transition.ignored ⟨?_, ?_, ?_, ?_⟩).steps
    · refine Option.not_isSome_iff_eq_none.mp fun h => ?_
      obtain ⟨hs, hp⟩ := hcommand h
      cases hp <;> grind
    · rintro msg rfl
      cases hs : s.state <;> simp_all
    · rintro rfl
      cases hs : s.state <;> simp_all
    · intro h
      unfold FsmEvent.awaitedIn at h
      split at h <;> cases hs : s.state <;> rw [hs] at h <;> cases h
      all_goals simp_all

/-- From a consistent state every event is handled without reaching a failure
point, and the step is one of the listed transitions. -/
theorem step_spec (hc : s.Consistent) (event : FsmEvent) : s.Steps event (s.step event) := by
  cases hcmd : event.command with
  | some command =>
    simp only [step, hcmd]
    rcases checkCommand_cases hc hcmd with ⟨reason, hrej⟩ | ⟨hok, hs, hp⟩
    · simp only [hrej, bind, Except.bind]
      exact (Transition.rejected hcmd).steps
    · simp only [hok, bind, Except.bind]
      exact steps_dispatch hc (fun _ => ⟨hs, hp⟩) (by rintro msg rfl; cases hcmd)
  | none =>
    have hdispatch : (∀ msg, event = .recvMessage msg → s.refusal msg = none) →
        s.Steps event (s.dispatch event) := steps_dispatch hc (by simp [hcmd])
    simp only [step, hcmd]
    split
    next msg =>
      cases hr : s.refusal msg with
      | some item =>
        obtain ⟨code, text, rfl⟩ := refuse_status hr
        exact steps_protocolError rfl (.inr ⟨msg, rfl, hr⟩)
      | none => exact hdispatch (by rintro _ ⟨⟩; exact hr)
    next code => exact steps_protocolError rfl (.inl ⟨rfl, rfl⟩)
    next hmsg _ => exact hdispatch fun msg h => absurd h (hmsg msg)

/-! ## Consistency is invariant -/

theorem consistent_withConfig (config : SessionConfig) : (withConfig config).Consistent :=
  ⟨by simp [withConfig], by simp [withConfig], by simp [withConfig]⟩

/-- What consistency asks of one destination. -/
def CellConsistent (pending : Option RequestKind) (entry : Option ModemDestination)
    (deferred : Prop) : Prop :=
  (∀ kind, pending = some kind → ∃ d, entry = some d ∧
    (kind = .destinationUp ∧ d.announced = false ∨ kind = .destinationDown ∧ d.announced = true)) ∧
  (deferred → pending = none ∧ ∃ d, entry = some d ∧ d.announced = true)

theorem consistent_iff : s.Consistent ↔
    (∀ mac, CellConsistent (s.tx.pending mac) (s.destinations.lookup mac)
      (mac ∈ s.pendingLinkRequests)) ∧
    ∀ request, s.tx.sessionPending = some request → request = ⟨.sessionUpdate⟩ := by
  constructor
  · intro h
    exact ⟨fun mac => ⟨h.tracked mac, fun hm =>
      ⟨(h.deferred mac hm).1, isAnnounced_eq_true.mp (h.deferred mac hm).2⟩⟩, h.session⟩
  · rintro ⟨hcell, hsession⟩
    exact ⟨fun mac => (hcell mac).1, fun mac hm =>
      ⟨((hcell mac).2 hm).1, isAnnounced_eq_true.mpr ((hcell mac).2 hm).2⟩, hsession⟩

theorem Transition.consistent (h : s.Transition event s' actions) (hc : s.Consistent) :
    s'.Consistent := by
  rw [consistent_iff] at hc ⊢
  obtain ⟨hcell, hsession⟩ := hc
  cases h with
  | rejected | ignored | alive | beat | accepted | initialized | ends
  | announceDenied | linkDenied | sessionUpdated | sessionAddressesKept => exact ⟨hcell, hsession⟩
  | sessionAnswered => exact ⟨hcell, by simp⟩
  | sessionAddressesSent => exact ⟨hcell, by simp⟩
  | sessionMetricsSent =>
    refine ⟨fun m => ?_, by simp⟩
    have hm := hcell m
    simp only [FinMap.lookup_mapValues]
    cases hd : s.destinations.lookup m with
    | none => rwa [hd] at hm
    | some d =>
      simp only [hd, CellConsistent, Option.some.injEq, exists_eq_left'] at hm
      simpa [CellConsistent] using hm
  | added hs hp =>
    cases hp
    refine ⟨fun m => ?_, hsession⟩
    have hm := hcell m
    simp only [FinMap.lookup_insert_eq, TransactionTracker.pending_withPending]
    grind [CellConsistent]
  | _ =>
    refine ⟨fun m => ?_, hsession⟩
    have hm := hcell m
    simp only [FinMap.lookup_insert_eq, FinMap.lookup_erase_eq, TransactionTracker.pending_withPending,
      TransactionTracker.pending_closeDestination, Finset.mem_insert, Finset.mem_erase]
    grind [CellConsistent]

/-! ## Before the session -/

/-- Before the session begins nothing but the state has changed. -/
def Fresh (s : ModemSessionFsm) : Prop :=
  s.state = .listening ∨ s.state = .awaitingSessionInit →
    s = { withConfig s.config with state := s.state }

theorem fresh_withConfig (config : SessionConfig) : (withConfig config).Fresh := fun _ => rfl

theorem Transition.fresh (h : s.Transition event s' actions) (hf : s.Fresh) : s'.Fresh := by
  cases h with
  | rejected | ignored => exact hf
  | accepted hs =>
    intro _
    rw [hf (.inl hs)]
    rfl
  | initialized => exact fun h => by rcases h with h | h <;> cases h
  | ends hend =>
    intro h
    rcases hend.gone with rfl | rfl <;> rcases h with h | h <;> cases h
  | _ hs =>
    exact fun h => by rcases h with h | h <;> rw [hs] at h <;> cases h

end ModemSessionFsm

end Dlep
