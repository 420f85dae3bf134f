-- SUMMARY: The session state machines as transaction parties: message roles, ledgers, and every transition as an exchange.
import Dlep.Fsm.Content
import Dlep.Fsm.Safety
import Dlep.Lib.Transaction

/-!
# Transactions of the session state machines

RFC 8175 section 8 serializes requests per destination and per session. This file
gives every message its role in that model, reads each state machine's tracker as
a ledger, and shows that every transition is an exchange with it.
-/

namespace Dlep

variable {m : Message}

open MessageType

open Transaction (Ledger Turn Exchange)

/-! ## Roles -/

/-- The scopes in which requests are serialized. -/
inductive Scope where
  | session
  | destination (mac : MacAddress)
  deriving DecidableEq, Repr

abbrev Role : Type := Transaction.Role Scope RequestKind

/-- The kind of request a destination message type makes. -/
def requestKind (mt : MessageType) : Option RequestKind :=
  if mt = destinationUp then some .destinationUp
  else if mt = destinationDown then some .destinationDown
  else if mt = destinationAnnounce then some .destinationAnnounce
  else if mt = linkCharacteristicsRequest then some .linkCharacteristics
  else none

/-- The role of a message. Session Initialization and Session Termination are not
serialized against other requests and have none. -/
def Message.role (m : Message) : Role :=
  if m.messageType = sessionUpdate then .request .session .sessionUpdate
  else if m.messageType = sessionUpdateResponse then .response .session .sessionUpdate
  else
    match extractDestinationMac m with
    | none => .other
    | some mac =>
      match requestKind m.messageType, responseKind m.messageType with
      | some kind, _ => .request (.destination mac) kind
      | none, some kind => .response (.destination mac) kind
      | none, none => .other

/-- A received request about a destination. -/
theorem Message.role_request {mac : MacAddress} {mt : MessageType} {kind : RequestKind}
    (ht : m.messageType = mt) (hmac : extractDestinationMac m = some mac)
    (hkind : requestKind mt = some kind) : m.role = .request (.destination mac) kind := by
  subst ht
  have h₁ : m.messageType ≠ sessionUpdate := by
    intro h
    rw [h] at hkind
    cases hkind
  have h₂ : m.messageType ≠ sessionUpdateResponse := by
    intro h
    rw [h] at hkind
    cases hkind
  simp [role, h₁, h₂, hmac, hkind]

/-- A received response about a destination. -/
theorem Message.role_response {mac : MacAddress} {mt : MessageType} {kind : RequestKind}
    (ht : m.messageType = mt) (hmac : extractDestinationMac m = some mac)
    (hkind : responseKind mt = some kind) (hnot : requestKind mt = none) :
    m.role = .response (.destination mac) kind := by
  subst ht
  have h₁ : m.messageType ≠ sessionUpdate := by
    intro h
    rw [h] at hkind
    cases hkind
  have h₂ : m.messageType ≠ sessionUpdateResponse := by
    intro h
    rw [h] at hkind
    cases hkind
  simp [role, h₁, h₂, hmac, hkind, hnot]

/-- A message type outside the transaction model. -/
def MessageType.isNeutral (mt : MessageType) : Bool :=
  mt ≠ sessionUpdate && mt ≠ sessionUpdateResponse && requestKind mt = none && responseKind mt = none

theorem Message.role_neutral {mt : MessageType} (ht : m.messageType = mt) (h : mt.isNeutral = true)
    :
    m.role = .other := by
  subst ht
  simp only [MessageType.isNeutral, Bool.and_eq_true, decide_eq_true_eq] at h
  obtain ⟨⟨⟨h₁, h₂⟩, h₃⟩, h₄⟩ := h
  cases hmac : extractDestinationMac m <;> simp [role, h₁, h₂, h₃, h₄, hmac]

theorem role_buildDestinationUpResponse (mac : MacAddress) (status : StatusCode) :
    (buildDestinationUpResponse mac status).role =
      .response (.destination mac) .destinationUp := rfl

theorem role_buildDestinationDownResponse (mac : MacAddress) (status : StatusCode) :
    (buildDestinationDownResponse mac status).role =
      .response (.destination mac) .destinationDown := rfl

theorem role_buildDestinationAnnounceResponse (mac : MacAddress) (status : StatusCode) :
    (buildDestinationAnnounceResponse mac status).role =
      .response (.destination mac) .destinationAnnounce := rfl

theorem role_announceSuccess (mac : MacAddress) (d : ModemDestination) :
    (ModemSessionFsm.announceSuccess mac d).role =
      .response (.destination mac) .destinationAnnounce := rfl

theorem role_buildLinkCharacteristicsResponse (mac : MacAddress) (status : StatusCode)
    (metrics : LinkMetrics) :
    (buildLinkCharacteristicsResponse mac status metrics).role =
      .response (.destination mac) .linkCharacteristics := rfl

theorem role_sessionUpdate (h : m.messageType = sessionUpdate) :
    m.role = .request .session .sessionUpdate := by
  simp [Message.role, h]

theorem role_sessionUpdateResponse (h : m.messageType = sessionUpdateResponse) :
    m.role = .response .session .sessionUpdate := by
  have hne : sessionUpdateResponse ≠ sessionUpdate := by decide
  simp [Message.role, h, hne]

/-! ## Turns -/

namespace Observation

/-- The message the step received, if it left the machine in session. -/
def accepted (o : Observation) : Option Message :=
  match o.event with
  | .recvMessage msg => if o.after = .inSession then some msg else none
  | _ => none

/-- The step as a turn of a transaction party. -/
def turn (o : Observation) : Turn Scope RequestKind :=
  ⟨o.accepted.map Message.role, (sentMessages o.actions).map Message.role⟩

theorem accepted_eq_some {o : Observation} {msg : Message} (h : o.accepted = some msg) :
    o.event = .recvMessage msg ∧ o.after = .inSession := by
  unfold accepted at h
  split at h
  · split at h
    · cases h
      exact ⟨‹_›, ‹_›⟩
    · cases h
  · cases h

theorem accepted_eq_none_of_command {o : Observation} {command : CommandInfo}
    (h : o.event.command = some command) : o.accepted = none := by
  obtain ⟨before, event, actions, after⟩ := o
  cases event <;> first
    | rfl
    | cases h

theorem accepted_eq_none_of_after {o : Observation} (h : o.after ≠ .inSession) :
    o.accepted = none := by
  obtain ⟨before, event, actions, after⟩ := o
  cases event <;> first
    | rfl
    | exact if_neg h

variable {o : Observation} {l : Ledger Scope RequestKind} {defers : RequestKind → Prop}

/-- A step that accepts nothing and sends only messages outside the transaction model. -/
theorem exchange_of_unaccepted (ha : o.accepted = none)
    (hsent : ∀ m ∈ sentMessages o.actions, m.messageType.isNeutral = true) :
    Exchange defers l o.turn l := by
  refine Exchange.idle (.inl ?_) ?_
  · rw [ha, Option.map_none]
  · intro r hr
    obtain ⟨m, hm, rfl⟩ := List.mem_map.mp hr
    exact Message.role_neutral rfl (hsent m hm)

/-- A received message that the step accepts. -/
theorem turn_received {before after : Phase} {msg : Message} {actions : List FsmAction}
    (h : after = .inSession) :
    turn ⟨before, .recvMessage msg, actions, after⟩ =
      ⟨some msg.role, (sentMessages actions).map Message.role⟩ := by
  subst h
  rfl

end Observation

/-! ## Ledgers -/

/-- The open request of a scope. -/
def TransactionTracker.kindIn (tx : TransactionTracker) : Scope → Option RequestKind
  | .session => tx.sessionPending.map PendingRequest.kind
  | .destination mac => tx.pending mac

namespace TransactionTracker

variable (tx : TransactionTracker)

@[simp] theorem kindIn_withPending (mac : MacAddress) (kind : RequestKind) :
    (tx.withPending mac kind).kindIn =
      Function.update tx.kindIn (.destination mac) (some kind) := by
  funext scope
  cases scope <;> simp [kindIn, Function.update_apply]

@[simp] theorem kindIn_closeDestination (mac : MacAddress) :
    (tx.closeDestination mac).kindIn = Function.update tx.kindIn (.destination mac) none := by
  funext scope
  cases scope <;> simp [kindIn, Function.update_apply]

@[simp] theorem kindIn_closeSession :
    tx.closeSession.kindIn = Function.update tx.kindIn .session none := by
  funext scope
  cases scope <;> simp [kindIn]

@[simp] theorem kindIn_openSession (kind : RequestKind) :
    kindIn { tx with sessionPending := some ⟨kind⟩ } =
      Function.update tx.kindIn .session (some kind) := by
  funext scope
  cases scope <;> simp [kindIn]

end TransactionTracker

/-- The debts of a party that defers link requests. -/
def deferredDebts (pendingLinkRequests : Finset MacAddress) : Scope → Option RequestKind
  | .session => none
  | .destination mac => if mac ∈ pendingLinkRequests then some .linkCharacteristics else none

theorem deferredDebts_insert (pending : Finset MacAddress) (mac : MacAddress) :
    deferredDebts (insert mac pending) =
      Function.update (deferredDebts pending) (.destination mac) (some .linkCharacteristics) := by
  funext scope
  cases scope with
  | session => rfl
  | destination m =>
    simp only [deferredDebts, Finset.mem_insert, Function.update_apply, Scope.destination.injEq]
    grind

theorem deferredDebts_erase (pending : Finset MacAddress) (mac : MacAddress) :
    deferredDebts (pending.erase mac) =
      Function.update (deferredDebts pending) (.destination mac) none := by
  funext scope
  cases scope with
  | session => rfl
  | destination m =>
    simp only [deferredDebts, Finset.mem_erase, Function.update_apply, Scope.destination.injEq]
    grind

/-- The requests a party with this configuration answers later, on command. -/
def SessionConfig.defers (config : SessionConfig) (kind : RequestKind) : Prop :=
  kind = .linkCharacteristics ∧ config.deferLinkCharacteristics = true

def ModemSessionFsm.ledger (s : ModemSessionFsm) : Ledger Scope RequestKind :=
  ⟨s.tx.kindIn, deferredDebts s.pendingLinkRequests⟩

/-- The router answers every request at once. -/
def RouterSessionFsm.ledger (s : RouterSessionFsm) : Ledger Scope RequestKind :=
  ⟨s.tx.kindIn, fun _ => none⟩

/-! ## Every transition is an exchange -/

section

variable {defers : RequestKind → Prop} {l : Ledger Scope RequestKind} {event : FsmEvent}

theorem Phase.Ignores.exchange {phase : Phase} (h : phase.Ignores event) :
    Exchange defers l (Observation.turn ⟨phase, event, [], phase⟩) l := by
  refine Observation.exchange_of_unaccepted ?_ (by simp)
  cases event with
  | recvMessage msg =>
    exact Observation.accepted_eq_none_of_after fun hp => by cases h.received hp
  | _ => rfl

/-- The end of a session is not part of any transaction. -/
theorem Ending.exchange {fault : StatusCode → String → Prop} {leak : Prop} {v : LifeView}
    {before phase : Phase} {reason : StatusCode} {actions : List FsmAction}
    (h : Ending fault leak v event phase reason actions) :
    Exchange defers l (Observation.turn ⟨before, event, actions, phase⟩) l := by
  refine Observation.exchange_of_unaccepted (Observation.accepted_eq_none_of_after ?_) fun m hm => ?_
  · rcases h.gone with rfl | rfl <;> simp
  · rcases h.sent m hm with rfl | ⟨_, _, -, rfl⟩ <;> rfl

end

namespace ModemSessionFsm

variable {s s' : ModemSessionFsm} {event : FsmEvent} {actions : List FsmAction}

/-- A destination that is not announced has no deferred request. -/
theorem Consistent.owed_eq_none (hc : s.Consistent) {mac : MacAddress}
    (h : s.isAnnounced mac = false) : s.ledger.owed (.destination mac) = none := by
  refine if_neg fun hmem => ?_
  rw [(hc.deferred mac hmem).2] at h
  cases h

theorem sentMessages_sessionUpActions (s : ModemSessionFsm) :
    sentMessages s.sessionUpActions = [buildSessionInitializationResponse s.config] := by
  simp [sessionUpActions]

theorem sentMessages_deferredUpdate {mac : MacAddress} {d : ModemDestination} :
    ∀ r ∈ (sentMessages ((deferredUpdate mac d).map FsmAction.sendMessage).toList).map Message.role,
      r = .other := by
  cases h : deferredUpdate mac d with
  | none => simp
  | some m => simp [Message.role_neutral (messageType_deferredUpdate h) rfl]

theorem Transition.exchange (h : s.Transition event s' actions) (hc : s.Consistent) :
    Exchange s.config.defers s.ledger
      (Observation.turn ⟨s.state.phase, event, actions, s'.state.phase⟩) s'.ledger := by
  cases h with
  | rejected hcmd =>
    exact Observation.exchange_of_unaccepted (Observation.accepted_eq_none_of_command hcmd) (by simp)
  | ignored h => exact h.exchange
  | alive hs hevent =>
    rcases hevent with rfl | ⟨msg, rfl, -, ht⟩
    · exact Observation.exchange_of_unaccepted rfl (by simp)
    · rw [Observation.turn_received (by simp [hs]), Message.role_neutral ht rfl]
      exact .idle (.inr rfl) (by simp)
  | beat => exact Observation.exchange_of_unaccepted rfl (List.forall_mem_singleton.mpr rfl)
  | accepted => exact Observation.exchange_of_unaccepted rfl (by simp)
  | ends h =>
    simp only [ModemSessionState.phase_ofPhase]
    exact h.exchange
  | @initialized msg hs hok ht =>
    have hafter : (s.initialized msg).state.phase = .inSession := rfl
    rw [Observation.turn_received hafter, Message.role_neutral ht rfl, sentMessages_sessionUpActions]
    exact .idle (.inr rfl) (List.forall_mem_singleton.mpr
      (Message.role_neutral (messageType_buildSessionInitializationResponse _) rfl))
  | added hs hp =>
    cases hp with
    | add hformat hidle hnew =>
      simp only [ledger, TransactionTracker.kindIn_withPending]
      exact .ask hidle (hc.owed_eq_none (by simp [isAnnounced, hnew]))
  | acknowledged hs ha ht hmac hstatus hd hnew hup =>
    rw [Observation.turn_received (by simp [hs]), Message.role_response ht hmac rfl rfl]
    simp only [ledger, TransactionTracker.kindIn_closeDestination, sentMessages_append,
      sentMessages_reset, List.append_nil]
    exact .settle hup sentMessages_deferredUpdate
  | refused hs ha ht hmac hstatus hfail hd hnew hup =>
    rw [Observation.turn_received (by simp [hs]), Message.role_response ht hmac rfl rfl]
    simp only [ledger, TransactionTracker.kindIn_closeDestination]
    exact .settle hup (by simp)
  | metricsDeferred | addressesKept | forgotten | sessionAddressesKept =>
    exact Observation.exchange_of_unaccepted rfl (by simp)
  | metricsSent | addressesSent =>
    exact Observation.exchange_of_unaccepted rfl (List.forall_mem_singleton.mpr rfl)
  | dropSent hs hp hd hannounced hidle hlink =>
    simp only [ledger, TransactionTracker.kindIn_withPending]
    exact .ask hidle (if_neg hlink)
  | withdrawn hs ha ht hmac hd hannounced hidle hlink =>
    rw [Observation.turn_received (by simp [hs]), Message.role_request ht hmac rfl]
    simp only [sentMessages_append, sentMessages_reset]
    exact .answer (by simp [SessionConfig.defers]) (if_neg hlink)
  | dropAnswered hs ha ht hmac hdown =>
    rw [Observation.turn_received (by simp [hs]), Message.role_response ht hmac rfl rfl]
    simp only [ledger, TransactionTracker.kindIn_closeDestination]
    exact .settle hdown (by simp)
  | announceDenied hs ha ht hmac hd =>
    rw [Observation.turn_received (by simp [hs]), Message.role_request ht hmac rfl]
    simp only [sentMessages_append, sentMessages_reset]
    exact .answer (by simp [SessionConfig.defers]) (hc.owed_eq_none (by simp [isAnnounced, hd]))
  | announceGranted hs ha ht hmac hd hnew hidle =>
    rw [Observation.turn_received (by simp [hs]), Message.role_request ht hmac rfl]
    simp only [sentMessages_append, sentMessages_reset]
    exact .answer (by simp [SessionConfig.defers]) (hc.owed_eq_none (by simp [isAnnounced, hd, hnew]))
  | linkDeferred hs ha ht hmac hd hannounced hidle hlink hdefer =>
    rw [Observation.turn_received (by simp [hs]), Message.role_request ht hmac rfl]
    simp only [ledger, deferredDebts_insert, sentMessages_append, sentMessages_reset]
    exact .defer ⟨rfl, hdefer⟩ (if_neg hlink)
  | linkDenied hs ha ht hmac hd hannounced hidle hlink hdefer =>
    rw [Observation.turn_received (by simp [hs]), Message.role_request ht hmac rfl]
    simp only [sentMessages_append, sentMessages_reset]
    exact .answer (by simp [SessionConfig.defers, hdefer]) (if_neg hlink)
  | linkAnswered hs hp hd hannounced hidle hlink =>
    simp only [ledger, deferredDebts_erase]
    exact .release (if_pos hlink)
  | sessionUpdated hs ha ht =>
    rw [Observation.turn_received (by simp [hs]), role_sessionUpdate ht]
    simp only [sentMessages_append, sentMessages_reset]
    split <;> exact .answer (by simp [SessionConfig.defers]) rfl
  | sessionAnswered hs ha ht =>
    rw [Observation.turn_received (by simp [hs]), role_sessionUpdateResponse ht]
    simp only [ledger, TransactionTracker.kindIn_closeSession]
    exact .settle (ha.transacts.sessionAnswer ht) (by simp)
  | sessionMetricsSent hs hp =>
    cases hp with
    | sessionUpdate hidle =>
      simp only [ledger, TransactionTracker.kindIn_openSession]
      exact .ask (by simp [TransactionTracker.kindIn, hidle]) rfl
  | sessionAddressesSent hs hp =>
    cases hp with
    | sessionAddresses hidle =>
      simp only [ledger, TransactionTracker.kindIn_openSession]
      exact .ask (by simp [TransactionTracker.kindIn, hidle]) rfl

theorem Transition.config_eq (h : s.Transition event s' actions) : s'.config = s.config := by
  cases h <;> rfl

/-- A message that leaves the modem in session passed its checks. -/
theorem Transition.accepts {msg : Message} (h : s.Transition (.recvMessage msg) s' actions)
    (hs' : s'.state = .inSession) :
    msg.initializes = true ∨ s.Accepts msg := by
  cases h with
  | rejected hcmd => cases hcmd
  | ignored h => cases h.received (phase_view hs')
  | alive hs hevent =>
    rcases hevent with hext | ⟨_, hrecv, ha, -⟩
    · cases hext
    · cases hrecv
      exact .inr ha
  | ends h => rcases h.gone with rfl | rfl <;> cases hs'
  | initialized hs hok ht => exact .inl (by rw [Message.initializes, ht]; rfl)
  | acknowledged hs ha | refused hs ha | withdrawn hs ha | dropAnswered hs ha
  | announceDenied hs ha | announceGranted hs ha | linkDeferred hs ha | linkDenied hs ha
  | sessionUpdated hs ha | sessionAnswered hs ha => exact .inr ha

theorem ledger_withConfig (config : SessionConfig) : (withConfig config).ledger = .empty := by
  refine Ledger.ext ?_ ?_ <;>
    · funext scope
      cases scope <;> rfl

end ModemSessionFsm

namespace RouterSessionFsm

variable {s s' : RouterSessionFsm} {event : FsmEvent} {actions : List FsmAction}

theorem Transition.config_eq (h : s.Transition event s' actions) : s'.config = s.config := by
  cases h <;> rfl

theorem sentMessages_sessionUpActions (s : RouterSessionFsm) :
    sentMessages s.sessionUpActions = [] := by
  simp [sessionUpActions]

theorem Transition.exchange (h : s.Transition event s' actions) :
    Exchange (fun _ => False) s.ledger
      (Observation.turn ⟨s.state.phase, event, actions, s'.state.phase⟩) s'.ledger := by
  cases h with
  | rejected hcmd =>
    exact Observation.exchange_of_unaccepted (Observation.accepted_eq_none_of_command hcmd) (by simp)
  | ignored h => exact h.exchange
  | alive hs hevent =>
    rcases hevent with rfl | ⟨msg, rfl, -, ht⟩
    · exact Observation.exchange_of_unaccepted rfl (by simp)
    · rw [Observation.turn_received (by simp [hs]), Message.role_neutral ht rfl]
      exact .idle (.inr rfl) (by simp)
  | beat => exact Observation.exchange_of_unaccepted rfl (List.forall_mem_singleton.mpr rfl)
  | connected =>
    exact Observation.exchange_of_unaccepted rfl (List.forall_mem_singleton.mpr
      (by rw [messageType_buildSessionInitialization]; rfl))
  | ends h =>
    simp only [RouterSessionState.phase_ofPhase]
    exact h.exchange
  | @initialized msg hs hok ht =>
    have hafter : (s.initialized msg).state.phase = .inSession := rfl
    rw [Observation.turn_received hafter, Message.role_neutral ht rfl, sentMessages_sessionUpActions]
    exact .idle (.inr rfl) (by simp)
  | sessionAddressesKept => exact Observation.exchange_of_unaccepted rfl (by simp)
  | upReceived hs ha ht hmac hd hidle =>
    rw [Observation.turn_received (by simp [hs]), Message.role_request ht hmac rfl]
    simp only [sentMessages_append, sentMessages_reset]
    exact .answer id rfl
  | downReceived hs ha ht hmac hd hidle =>
    rw [Observation.turn_received (by simp [hs]), Message.role_request ht hmac rfl]
    simp only [sentMessages_append, sentMessages_reset]
    exact .answer id rfl
  | updateReceived hs ha ht hmac hd =>
    rw [Observation.turn_received (by simp [hs]), Message.role_neutral ht rfl]
    exact .idle (.inr rfl) (by simp)
  | dropSent hs hp =>
    cases hp with
    | drop hformat hidle hup =>
      simp only [ledger, TransactionTracker.kindIn_withPending]
      exact .ask hidle rfl
  | announceSent hs hp =>
    cases hp with
    | announce hformat hidle hup =>
      simp only [ledger, TransactionTracker.kindIn_withPending]
      exact .ask hidle rfl
  | linkSent hs hp =>
    cases hp with
    | requestLink hformat hidle hup =>
      simp only [ledger, TransactionTracker.kindIn_withPending]
      exact .ask hidle rfl
  | dropAnswered hs ha ht hmac hpending =>
    rw [Observation.turn_received (by simp [hs]), Message.role_response ht hmac rfl rfl]
    simp only [ledger, TransactionTracker.kindIn_closeDestination]
    exact .settle hpending (by simp)
  | announceGranted hs ha ht hmac hstatus hpending
  | announceDenied hs ha ht hmac hstatus hpending =>
    rw [Observation.turn_received (by simp [hs]), Message.role_response ht hmac rfl rfl]
    simp only [ledger, TransactionTracker.kindIn_closeDestination]
    exact .settle hpending (by simp)
  | linkAnswered hs ha ht hmac hd hpending =>
    rw [Observation.turn_received (by simp [hs]), Message.role_response ht hmac rfl rfl]
    simp only [ledger, TransactionTracker.kindIn_closeDestination]
    exact .settle hpending (by simp)
  | sessionUpdated hs ha ht =>
    rw [Observation.turn_received (by simp [hs]), role_sessionUpdate ht]
    simp only [sentMessages_append, sentMessages_reset]
    split <;> split <;> exact .answer id rfl
  | sessionAnswered hs ha ht =>
    rw [Observation.turn_received (by simp [hs]), role_sessionUpdateResponse ht]
    simp only [ledger, TransactionTracker.kindIn_closeSession]
    exact .settle (ha.transacts.sessionAnswer ht) (by simp)
  | sessionAddressesSent hs hp =>
    cases hp with
    | sessionAddresses hidle =>
      simp only [ledger, TransactionTracker.kindIn_openSession]
      exact .ask (by simp [TransactionTracker.kindIn, hidle]) rfl

/-- A message that leaves the router in session passed its checks. -/
theorem Transition.accepts {msg : Message} (h : s.Transition (.recvMessage msg) s' actions)
    (hs' : s'.state = .inSession) :
    msg.initializes = true ∨ s.Accepts msg := by
  cases h with
  | rejected hcmd => cases hcmd
  | ignored h => cases h.received (phase_view hs')
  | alive hs hevent =>
    rcases hevent with hext | ⟨_, hrecv, ha, -⟩
    · cases hext
    · cases hrecv
      exact .inr ha
  | ends h => rcases h.gone with rfl | rfl <;> cases hs'
  | initialized hs hok ht => exact .inl (by rw [Message.initializes, ht]; rfl)
  | upReceived hs ha | updateReceived hs ha | downReceived hs ha | dropAnswered hs ha
  | announceGranted hs ha | announceDenied hs ha | linkAnswered hs ha | sessionUpdated hs ha
  | sessionAnswered hs ha => exact .inr ha

theorem ledger_withConfig (config : SessionConfig) : (withConfig config).ledger = .empty := by
  refine Ledger.ext ?_ rfl
  funext scope
  cases scope <;> rfl

end RouterSessionFsm

end Dlep
