-- SUMMARY: Between conforming peers the only protocol error is a request that crosses the receiver's own.
import Dlep.Fsm.Welcome
import Dlep.System.Agreement
import Dlep.System.Conservation
import Dlep.System.Sound

/-!
# Crossing requests

A session is a conversation when the router mirrors the modem, the requests are
balanced, and the address updates under way fit. In a conversation every message at
the head of a queue passes the receiver's checks, unless it is a request in a scope
where the receiver has a request of its own open: the two have crossed.
-/

namespace Dlep

open MessageType

open RouterSessionFsm (learn)

variable {msg : Message} {tx : TransactionTracker} {mac : MacAddress}

/-! ## Conversations -/

/-- What the two sides of a session and the messages between them keep, for a modem with
the given configuration. -/
structure Conversing (modemConfig : SessionConfig) (r : RouterSessionFsm) (m : ModemSessionFsm)
    (toRouter toModem : List Message) : Prop where
  mirror : SessionMirror r m toRouter toModem
  ledgers : LedgersBalanced r m toRouter toModem
  peer : PeerExpectsAll m.peerAddresses toModem
  types : r.sessionMetricTypes = modemConfig.initialMetrics.types.toFinset

/-- What a router tells of its addresses fits behind what is under way. -/
theorem Conversing.peer_of_tells {modemConfig : SessionConfig} {r : RouterSessionFsm}
    {m : ModemSessionFsm} {toRouter toModem sent : List Message} {new : DestinationAddrs}
    (h : Conversing modemConfig r m toRouter toModem) (htells : RouterTells r.localAddresses new sent) :
    PeerExpectsAll m.peerAddresses (toModem ++ sent) :=
  Machine.expected_append h.peer (htells.expected _ h.mirror.addresses h.mirror.peer)

/-- The declared types do not change within a session. -/
theorem RouterSessionFsm.Transition.sessionMetricTypes_eq {s s' : RouterSessionFsm}
    {event : FsmEvent} {actions : List FsmAction} (h : s.Transition event s' actions)
    (hs : s.state = .inSession) : s'.sessionMetricTypes = s.sessionMetricTypes := by
  cases h with
  | initialized hpending => cases hs.symm.trans hpending
  | _ => rfl

theorem conversing_kept (routerConfig modemConfig : SessionConfig) :
    Joint.Kept (Conversing modemConfig) routerConfig modemConfig where
  init := {
    mirror := (sessionMirror_kept routerConfig modemConfig).init
    ledgers := (ledgersBalanced_kept routerConfig modemConfig).init
    peer := trivial
    types := by
      rw [← metricTypes_buildSessionInitializationResponse]
      rfl }
  routerLocal := by
    intro r m toRouter toModem event r' actions hs ht hl hin
    exact {
      mirror := (sessionMirror_kept routerConfig modemConfig).routerLocal
        (hs.weaken Conversing.mirror) ht hl hin
      ledgers := (ledgersBalanced_kept routerConfig modemConfig).routerLocal
        (hs.weaken Conversing.ledgers) ht hl hin
      peer := hs.joint.peer_of_tells (ht.tells hs.routerIn hin)
      types := (ht.sessionMetricTypes_eq hs.routerIn).trans hs.joint.types }
  modemLocal := by
    intro r m toRouter toModem event m' actions hs ht hl hin _
    exact {
      mirror := (sessionMirror_kept routerConfig modemConfig).modemLocal
        (hs.weaken Conversing.mirror) ht hl hin trivial
      ledgers := (ledgersBalanced_kept routerConfig modemConfig).modemLocal
        (hs.weaken Conversing.ledgers) ht hl hin trivial
      peer := by
        rw [ht.peer_local hl hs.modemIn]
        exact hs.joint.peer
      types := hs.joint.types }
  routerReceives := by
    intro r m msg toRouter toModem r' actions hs ht hin
    exact {
      mirror := (sessionMirror_kept routerConfig modemConfig).routerReceives
        (hs.weaken Conversing.mirror) ht hin
      ledgers := (ledgersBalanced_kept routerConfig modemConfig).routerReceives
        (hs.weaken Conversing.ledgers) ht hin
      peer := hs.joint.peer_of_tells (ht.tells hs.routerIn hin)
      types := (ht.sessionMetricTypes_eq hs.routerIn).trans hs.joint.types }
  modemReceives := by
    intro r m msg toRouter toModem m' actions hs ht hin _
    exact {
      mirror := (sessionMirror_kept routerConfig modemConfig).modemReceives
        (hs.weaken Conversing.mirror) ht hin trivial
      ledgers := (ledgersBalanced_kept routerConfig modemConfig).modemReceives
        (hs.weaken Conversing.ledgers) ht hin trivial
      peer := by
        rw [ht.peer_received hs.modemIn hin]
        exact hs.joint.peer.2
      types := hs.joint.types }

section

variable {modemConfig : SessionConfig} {r : RouterSessionFsm} {m : ModemSessionFsm}
  {toRouter toModem : List Message}

/-- The next message to the router suits its transactions. -/
theorem Session.suits_router (hs : Session (Conversing modemConfig) r m (msg :: toRouter) toModem)
    (hexpected : expectedType msg.messageType true false = true) : msg.Suits r.tx r.isUp := by
  have hbalanced := hs.joint.ledgers.1
  have hnews : r.learned.Expects msg := hs.joint.mirror.expected.1
  have hknown : ∀ mac, (r.destinations.lookup mac).isSome = true → r.isUp mac = true := by
    intro mac h
    rw [hs.routerConsistent.isUp_eq]
    exact h
  refine ⟨fun ht => ?_, fun mac kind hmac hkind => ?_, fun mac hmac ht => ?_,
    fun mac hmac _ ht => ?_, fun mac hmac _ ht => ?_⟩
  · show r.ledger.pending .session = some .sessionUpdate
    refine hbalanced.pending_of_response ?_
    rw [← role_sessionUpdateResponse ht]
    exact List.mem_cons_self
  · show r.ledger.pending (.destination mac) = some kind
    refine hbalanced.pending_of_response ?_
    rw [← Message.role_response rfl hmac hkind (requestKind_of_response hkind)]
    exact List.mem_cons_self
  · have hn : msg.news = .update mac := by simp only [Message.news, ht, hmac]; rfl
    simp only [RouterSessionFsm.Expects, hn] at hnews
    exact hknown mac hnews
  · simp only [List.mem_cons, List.not_mem_nil, or_false] at ht
    rcases ht with ht | ht
    · have hn : msg.news = .removal mac := by simp only [Message.news, ht, hmac]; rfl
      simp only [RouterSessionFsm.Expects, hn] at hnews
      exact hknown mac hnews
    · rw [ht] at hexpected
      cases hexpected
  · simp only [List.mem_cons, List.not_mem_nil, or_false] at ht
    rcases ht with ht | ht
    · have hn : msg.news = .report mac := by simp only [Message.news, ht, hmac]; rfl
      simp only [RouterSessionFsm.Expects, hn] at hnews
      have hnone : r.destinations.lookup mac = none := hnews
      rw [hs.routerConsistent.isUp_eq, hnone]
      rfl
    · rw [ht] at hexpected
      cases hexpected

/-- Only requests and responses report a destination or remove one. -/
theorem Message.role_of_news (h : msg.news = .removal mac ∨ msg.news = .report mac) :
    ∃ kind, msg.role = .request (.destination mac) kind ∨
      msg.role = .response (.destination mac) kind := by
  cases hmac : extractDestinationMac msg with
  | none =>
    simp only [Message.news, hmac] at h
    split_ifs at h <;> simp at h
  | some x =>
    simp only [Message.news, hmac] at h
    split_ifs at h with h₀ h₁ h₂ h₃ h₄ h₅ h₆ <;>
      simp only [or_false, false_or, News.removal.injEq, News.report.injEq] at h <;>
      subst h
    · exact ⟨_, .inl (Message.role_request h₁ hmac rfl)⟩
    · exact ⟨_, .inr (Message.role_response h₂ hmac rfl rfl)⟩
    · rcases h₆ with ht | ht
      · exact ⟨_, .inl (Message.role_request ht hmac rfl)⟩
      · exact ⟨_, .inr (Message.role_response ht hmac rfl rfl)⟩

namespace RouterSessionFsm

variable {v : RouterSessionFsm} {known : Bool}

/-- What is neither removed nor reported stays as known as it was. -/
theorem isSome_lookup_learn (hn : msg.news ≠ .removal mac ∧ msg.news ≠ .report mac)
    (h : (v.destinations.lookup mac).isSome = known) :
    ((v.learn msg).destinations.lookup mac).isSome = known := by
  cases hnews : msg.news with
  | session =>
    rw [learn_session hnews]
    simpa [FinMap.lookup_mapValues] using h
  | nothing =>
    rw [learn_of_nothing hnews]
    exact h
  | report x | update x | characteristics x | removal x =>
    by_cases hx : mac = x
    · subst hx
      first
        | exact absurd hnews hn.1
        | exact absurd hnews hn.2
        | cases hd : v.destinations.lookup mac <;> simpa [learn, hnews, hd] using h
    · rw [(learn_frame (by rw [hnews]; rfl) v).2.2 mac hx]
      exact h

theorem isSome_lookup_foldl {queue : List Message}
    (hn : ∀ msg ∈ queue, msg.news ≠ .removal mac ∧ msg.news ≠ .report mac)
    (h : (v.destinations.lookup mac).isSome = known) :
    ((queue.foldl learn v).destinations.lookup mac).isSome = known := by
  induction queue generalizing v with
  | nil => exact h
  | cons msg queue ih =>
    refine ih (fun m hm => hn m (List.mem_cons_of_mem _ hm)) ?_
    exact isSome_lookup_learn (hn msg List.mem_cons_self) h

end RouterSessionFsm

/-- A request of the router under way, in a scope that the modem has left idle: nothing
about it is under way to the router. -/
theorem Session.unmentioned (hs : Session (Conversing modemConfig) r m toRouter toModem) {kind : RequestKind}
    (hrole : .request (.destination mac) kind ∈ toModem.map Message.role)
    (hidle : m.tx.pending mac = none) :
    ∀ x ∈ toRouter, x.news ≠ .removal mac ∧ x.news ≠ .report mac := by
  have hask : ∀ x ∈ toRouter, ∀ other, x.role ≠ .request (.destination mac) other := by
    intro x hx other hrequest
    have hpending := hs.joint.ledgers.2.pending_of_request (List.mem_map.mpr ⟨x, hx, hrequest⟩)
    cases hidle.symm.trans hpending
  have hanswer : ∀ x ∈ toRouter, ∀ other, x.role ≠ .response (.destination mac) other := by
    intro x hx other hresponse
    exact hs.joint.ledgers.1.unanswered hrole other (List.mem_map.mpr ⟨x, hx, hresponse⟩)
  intro x hx
  rw [← not_or]
  intro hnews
  obtain ⟨kind, h | h⟩ := Message.role_of_news hnews
  · exact hask x hx kind h
  · exact hanswer x hx kind h

/-- The next message to the modem suits its transactions. -/
theorem Session.suits_modem (hs : Session (Conversing modemConfig) r m toRouter (msg :: toModem))
    (hexpected : expectedType msg.messageType false false = true) :
    msg.Suits m.tx m.isAnnounced := by
  have hbalanced := hs.joint.ledgers.2
  have hcell : ∀ mac, m.tx.pending mac = none →
      (((toRouter.foldl learn r.learned).destinations.lookup mac).isSome = true ↔
        m.isAnnounced mac = true) := by
    intro mac hidle
    have hmirrored := hs.joint.mirror.mirrored.cell mac
    rw [hidle] at hmirrored
    rw [ModemSessionFsm.isAnnounced_eq_true]
    exact hmirrored.agrees.1
  -- The request at the head is open at the router, so that the router is consistent with it.
  have hasked : ∀ mac kind, extractDestinationMac msg = some mac →
      requestKind msg.messageType = some kind →
      .request (.destination mac) kind ∈ (msg :: toModem).map Message.role ∧
        r.tx.pending mac = some kind := by
    intro mac kind hmac hkind
    have hrole : .request (.destination mac) kind ∈ (msg :: toModem).map Message.role := by
      rw [← Message.role_request rfl hmac hkind]
      exact List.mem_cons_self
    exact ⟨hrole, hs.joint.ledgers.1.pending_of_request hrole⟩
  refine ⟨fun ht => ?_, fun mac kind hmac hkind => ?_, fun mac hmac ht => ?_,
    fun mac hmac hidle ht => ?_, fun mac hmac hidle ht => ?_⟩
  · show m.ledger.pending .session = some .sessionUpdate
    refine hbalanced.pending_of_response ?_
    rw [← role_sessionUpdateResponse ht]
    exact List.mem_cons_self
  · show m.ledger.pending (.destination mac) = some kind
    refine hbalanced.pending_of_response ?_
    rw [← Message.role_response rfl hmac hkind (requestKind_of_response hkind)]
    exact List.mem_cons_self
  · rw [ht] at hexpected
    cases hexpected
  · have hkind : ∃ kind, requestKind msg.messageType = some kind ∧ kind ≠ .destinationAnnounce := by
      simp only [List.mem_cons, List.not_mem_nil, or_false] at ht
      rcases ht with ht | ht <;> rw [ht] <;> exact ⟨_, rfl, nofun⟩
    obtain ⟨kind, hkind, hne⟩ := hkind
    obtain ⟨hrole, hpending⟩ := hasked mac kind hmac hkind
    rcases hs.routerConsistent.tracked mac kind hpending with ⟨h, -⟩ | ⟨-, hknown⟩
    · exact absurd h hne
    · exact (hcell mac hidle).mp
        (RouterSessionFsm.isSome_lookup_foldl (hs.unmentioned hrole hidle) hknown)
  · simp only [List.mem_cons, List.not_mem_nil, or_false] at ht
    rcases ht with ht | ht
    · rw [ht] at hexpected
      cases hexpected
    · obtain ⟨hrole, hpending⟩ := hasked mac .destinationAnnounce hmac (by rw [ht]; rfl)
      rcases hs.routerConsistent.tracked mac _ hpending with ⟨-, hunknown⟩ | ⟨h, -⟩
      · have hnone : (r.learned.destinations.lookup mac).isSome = false :=
          Option.isSome_eq_false_iff.mpr (Option.isNone_iff_eq_none.mpr hunknown)
        refine Bool.eq_false_iff.mpr fun hann => ?_
        cases (RouterSessionFsm.isSome_lookup_foldl (hs.unmentioned hrole hidle) hnone).symm.trans
          ((hcell mac hidle).mpr hann)
      · rcases h with h | h <;> cases h

/-- Data is neither a farewell nor part of the handshake. -/
theorem Message.Passes.admissible_of_isData {router : Bool} {format : MacAddressFormat}
    (h : msg.Passes router format) (hdata : msg.isData = true) :
    msg.Admissible router format ∧ msg.initializes = false := by
  simp only [Message.isData, Bool.and_eq_true, Bool.not_eq_true'] at hdata
  refine ⟨h.resolve_left ?_, hdata.2⟩
  rintro rfl
  cases hdata.1

/-- The next data to the router is accepted, or crosses. -/
theorem Session.refusal_router
    (hs : Session (Conversing modemConfig) r m (msg :: toRouter) toModem)
    (hpasses : msg.Passes true r.config.macAddressFormat)
    (hdeclared : msg.Declared modemConfig.initialMetrics) :
    r.refusal msg = none ∨
      r.refusal msg = some (.status .unexpectedMessage "") ∧ msg.Crosses r.tx := by
  obtain ⟨hform, hopened⟩ :=
    hpasses.admissible_of_isData (hs.dataToRouter msg List.mem_cons_self)
  have hexpected := hform.wellFormed.expected
  rw [hopened] at hexpected
  refine RouterSessionFsm.Welcomes.refusal ⟨hform, hopened, fun ht => ?_, fun t ht => ?_,
    fun ht => ?_⟩ hs.routerIn (hs.suits_router hexpected)
  · have hnews : r.learned.Expects msg := hs.joint.mirror.expected.1
    have hn : msg.news = .session := by simp only [Message.news, ht, if_true]
    simp only [RouterSessionFsm.Expects, hn] at hnews
    exact hnews
  · rw [hs.joint.types, List.mem_toFinset]
    exact hdeclared.within t ht
  · rw [hs.joint.types]
    ext t
    rw [List.mem_toFinset, List.mem_toFinset]
    exact ⟨hdeclared.within t, hdeclared.complete (by simp [ht]) t⟩

/-- The next data to the modem is accepted, or crosses. -/
theorem Session.refusal_modem
    (hs : Session (Conversing modemConfig) r m toRouter (msg :: toModem))
    (hpasses : msg.Passes false m.config.macAddressFormat) :
    m.refusal msg = none ∨
      m.refusal msg = some (.status .unexpectedMessage "") ∧ msg.Crosses m.tx := by
  obtain ⟨hform, hopened⟩ :=
    hpasses.admissible_of_isData (hs.dataToModem msg List.mem_cons_self)
  have hexpected := hform.wellFormed.expected
  rw [hopened] at hexpected
  refine ModemSessionFsm.Welcomes.refusal ⟨hform, hopened, hs.joint.peer.1,
    fun mac hmac ht hdeferred => ?_⟩ hs.modemIn (hs.suits_modem hexpected)
  -- A deferred link request is the router's open one, which is not under way any more.
  obtain ⟨kind, hkind⟩ : ∃ kind, requestKind msg.messageType = some kind := by
    simp only [List.mem_cons, List.not_mem_nil, or_false] at ht
    rcases ht with ht | ht <;> rw [ht] <;> exact ⟨_, rfl⟩
  have hrole : .request (.destination mac) kind ∈ (msg :: toModem).map Message.role := by
    rw [← Message.role_request rfl hmac hkind]
    exact List.mem_cons_self
  have hunowed : deferredDebts m.pendingLinkRequests (.destination mac) = none :=
    hs.joint.ledgers.1.unowed hrole
  simp [deferredDebts, hdeferred] at hunowed

/-- A termination suits any transactions. -/
theorem Message.suits_of_termination (ht : msg.messageType = sessionTermination) :
    msg.Suits tx known := by
  refine ⟨?_, ?_, ?_, ?_, ?_⟩ <;> rw [ht]
  · exact fun h => absurd h (by decide)
  · exact fun mac kind _ h => absurd h (by cases kind <;> decide)
  · exact fun mac _ h => absurd h (by decide)
  · exact fun mac _ _ h => absurd h (by decide)
  · exact fun mac _ _ h => absurd h (by decide)

end

/-! ## Protocol errors -/

namespace RouterSessionFsm

variable {s : RouterSessionFsm} {code : StatusCode}

/-- A live router answers the message with a protocol error of the given status. -/
def Errs (s : RouterSessionFsm) (msg : Message) (code : StatusCode) : Prop :=
  (s.state ≠ .terminating ∧ s.state ≠ .terminated) ∧
    ∃ text, s.step (.recvMessage msg) = s.protocolError (.status code text)

/-- In a session the error is a refusal. -/
theorem Errs.refused (h : s.Errs msg code) (hc : s.Consistent) (hs : s.state = .inSession) :
    (FsmEvent.recvMessage msg).endingCode s.refusal = some code := by
  obtain ⟨-, text, hstep⟩ := h
  have herror : s.protocolError (.status code text) = .ok (_, _) := if_neg (by simp [hs])
  exact (lawful.trans hc (hstep.trans herror)).lifeStep.refused (phase_view hs) rfl

/-- A waiting router that does not refuse the response enters the session. -/
theorem not_errs_of_initialization (hs : s.state = .sessionInitPending)
    (hok : s.refusal msg = none) (ht : msg.messageType = sessionInitializationResponse)
    (hstatus : extractStatus msg = some .success) : ¬ s.Errs msg code := by
  rintro ⟨-, text, hstep⟩
  have henters : s.step (.recvMessage msg) = s.onSessionInitializationResponse msg := by
    simp [step, FsmEvent.command, hok, dispatch, hs, ht]
  have herror : s.protocolError (.status code text) = .ok (_, _) := if_neg (by simp [hs])
  rw [henters, herror] at hstep
  simp only [onSessionInitializationResponse, hstatus] at hstep
  have hstate := congrArg (fun r => r.map fun r => r.1.state) hstep
  cases hstate

end RouterSessionFsm

namespace ModemSessionFsm

variable {s : ModemSessionFsm} {code : StatusCode}

/-- A live modem answers the message with a protocol error of the given status. -/
def Errs (s : ModemSessionFsm) (msg : Message) (code : StatusCode) : Prop :=
  (s.state ≠ .terminating ∧ s.state ≠ .terminated) ∧
    ∃ text, s.step (.recvMessage msg) = s.protocolError (.status code text)

/-- In a session the error is a refusal. -/
theorem Errs.refused (h : s.Errs msg code) (hc : s.Consistent) (hs : s.state = .inSession) :
    (FsmEvent.recvMessage msg).endingCode s.refusal = some code := by
  obtain ⟨-, text, hstep⟩ := h
  have herror : s.protocolError (.status code text) = .ok (_, _) :=
    (if_neg (by simp [hs])).trans (if_neg (by simp [hs]))
  exact (lawful.trans hc (hstep.trans herror)).lifeStep.refused (phase_view hs) rfl

/-- A waiting modem that does not refuse the initialization enters the session. -/
theorem not_errs_of_initialization (hs : s.state = .awaitingSessionInit)
    (hok : s.refusal msg = none) (ht : msg.messageType = sessionInitialization) :
    ¬ s.Errs msg code := by
  rintro ⟨-, text, hstep⟩
  have henters : s.step (.recvMessage msg) = s.onSessionInitialization msg := by
    simp [step, FsmEvent.command, hok, dispatch, hs, ht]
  have herror : s.protocolError (.status code text) = .ok (_, _) :=
    (if_neg (by simp [hs])).trans (if_pos hs)
  rw [henters, herror] at hstep
  have hstate := congrArg (fun r => r.map fun r => r.1.state) hstep
  cases hstate

end ModemSessionFsm

/-- A refused message that crosses, or is not refused. -/
theorem Message.crosses_of_code {refusal : Message → Option DataItem} {code : StatusCode}
    (h : refusal msg = none ∨
      refusal msg = some (.status .unexpectedMessage "") ∧ msg.Crosses tx)
    (hcode : (FsmEvent.recvMessage msg).endingCode refusal = some code) :
    code = .unexpectedMessage ∧ msg.Crosses tx := by
  simp only [FsmEvent.endingCode] at hcode
  rcases h with hok | ⟨hbad, hcrosses⟩
  · rw [hok] at hcode
    cases hcode
  · rw [hbad] at hcode
    cases hcode
    exact ⟨rfl, hcrosses⟩

/-! ## The handshake -/

theorem extractStatus_buildSessionInitializationResponse (config : SessionConfig) :
    extractStatus (buildSessionInitializationResponse config) = some .success := by
  rw [buildSessionInitializationResponse_eq]
  rfl

/-- A waiting router does not refuse the answer of a modem with its MAC format. -/
theorem RouterSessionFsm.not_errs_of_response {s : RouterSessionFsm} {config : SessionConfig}
    {code : StatusCode} (hs : s.state = .sessionInitPending)
    (hform : (buildSessionInitializationResponse config).Admissible true
      s.config.macAddressFormat) :
    ¬ s.Errs (buildSessionInitializationResponse config) code := by
  have hopens : (buildSessionInitializationResponse config).initializes = true := by
    simp [Message.initializes, messageType_buildSessionInitializationResponse]
  have hvalid : ∀ extensions, validateMessage (buildSessionInitializationResponse config) true true
      extensions = .ok () := fun extensions => (hopens ▸ hform.wellFormed).validate
  have hcheck : s.checkMessage (buildSessionInitializationResponse config) = .ok () := by
    unfold RouterSessionFsm.checkMessage
    simp [hs, hvalid, hform.validateMacFormat, fromMessage_buildSessionInitializationResponse,
      AddressChanges.applyStrict_default, bind, Except.bind]
  have hok : s.refusal (buildSessionInitializationResponse config) = none := by
    exact (refuse_eq_none (.inl hs)).mpr ⟨hform.benign, hcheck⟩
  exact not_errs_of_initialization hs hok (messageType_buildSessionInitializationResponse config)
    (extractStatus_buildSessionInitializationResponse config)

/-- A waiting modem does not refuse the initialization of a router with its MAC format. -/
theorem ModemSessionFsm.not_errs_of_request {s : ModemSessionFsm} {config : SessionConfig}
    {code : StatusCode} (hs : s.state = .awaitingSessionInit)
    (hform : (buildSessionInitialization config).Admissible false s.config.macAddressFormat) :
    ¬ s.Errs (buildSessionInitialization config) code := by
  have hopens : (buildSessionInitialization config).initializes = true := by
    simp [Message.initializes, messageType_buildSessionInitialization]
  have hvalid : ∀ extensions, validateMessage (buildSessionInitialization config) false true
      extensions = .ok () := fun extensions => (hopens ▸ hform.wellFormed).validate
  have hcheck : s.checkMessage (buildSessionInitialization config) = .ok () := by
    unfold ModemSessionFsm.checkMessage
    simp [hs, hvalid, hform.validateMacFormat, fromMessage_buildSessionInitialization,
      AddressChanges.applyStrict_default, bind, Except.bind]
  have hok : s.refusal (buildSessionInitialization config) = none := by
    exact (refuse_eq_none (.inl hs)).mpr ⟨hform.benign, hcheck⟩
  exact not_errs_of_initialization hs hok (messageType_buildSessionInitialization config)

/-! ## The system -/

section

variable {rc mc : SessionConfig} {sys : System} {code : StatusCode} {rest : List Frame}

/-- A farewell message that passes the checks on form is a termination. -/
theorem Message.Passes.termination {router : Bool} {format : MacAddressFormat}
    (h : msg.Passes router format) (ht : msg.messageType = sessionTermination) :
    msg.Admissible router format ∧ msg.initializes = false := by
  refine ⟨h.resolve_left ?_, by rw [Message.initializes, ht]; rfl⟩
  rintro rfl
  cases ht

/-- The next message to the router is in order, or crosses. -/
theorem Coupled.errs_router (h : Coupled (Conversing mc) rc mc sys) (hc : sys.Consistent)
    (hsound : sys.Sound rc mc) (hformat : rc.macAddressFormat = mc.macAddressFormat)
    (hq : sys.toRouter = .message msg :: rest) (herrs : sys.router.Errs msg code) :
    code = .unexpectedMessage ∧ msg.Crosses sys.router.tx := by
  obtain ⟨hpasses, hdeclared⟩ := hsound.toRouter msg (by simp [hq])
  rw [← hformat, ← hsound.routerConfig] at hpasses
  cases h with
  | requested _ _ hempty =>
    rw [hempty] at hq
    cases hq
  | refused _ _ hclose => cases hclose (.message msg) (by simp [hq])
  | session hs hrouter _ =>
    cases hrouter with
    | joined hr tail hqueue htail =>
      subst hr
      have hrefusal : sys.router.refusal msg = none ∨
          sys.router.refusal msg = some (.status .unexpectedMessage "") ∧
            msg.Crosses sys.router.tx := by
        rcases queue_head (hq ▸ hqueue) hs.dataToRouter htail.1 with
          ⟨_, _, rfl, hmsg, -⟩ | ⟨-, -, hfarewell⟩
        · cases hmsg
          exact hs.refusal_router hpasses hdeclared
        · have ht : msg.messageType = sessionTermination := by
            simpa [Frame.isFarewell] using hfarewell
          obtain ⟨hform, hopened⟩ := hpasses.termination ht
          refine RouterSessionFsm.Welcomes.refusal ⟨hform, hopened, fun h => ?_, fun t h => ?_,
            fun h => ?_⟩ hs.routerIn (Message.suits_of_termination ht)
          · exact absurd (ht.symm.trans h) (by decide)
          · rw [hs.joint.types, List.mem_toFinset]
            exact hdeclared.within t h
          · exact absurd (ht.symm.trans h) (by decide)
      exact Message.crosses_of_code hrefusal (herrs.refused hc.router hs.routerIn)
    | joining hstart _ _ hqueue =>
      rw [hq] at hqueue
      cases hqueue
      have hpending : sys.router.state = .sessionInitPending := by rw [hstart]; rfl
      refine absurd herrs (RouterSessionFsm.not_errs_of_response hpending ?_)
      refine hpasses.resolve_left fun h => ?_
      have htype := congrArg Message.messageType h
      rw [messageType_buildSessionInitializationResponse] at htype
      cases htype
    | gone hgone =>
      obtain ⟨⟨h₁, h₂⟩, -⟩ := herrs
      revert hgone
      cases hstate : sys.router.state <;> simp_all [RouterSessionState.phase, Phase.isGone]

/-- The next message to the modem is in order, or crosses. -/
theorem Coupled.errs_modem (h : Coupled (Conversing mc) rc mc sys) (hc : sys.Consistent)
    (hsound : sys.Sound rc mc) (hformat : rc.macAddressFormat = mc.macAddressFormat)
    (hq : sys.toModem = .message msg :: rest) (herrs : sys.modem.Errs msg code) :
    code = .unexpectedMessage ∧ msg.Crosses sys.modem.tx := by
  have hpasses := hsound.toModem msg (by simp [hq])
  rw [hformat, ← hsound.modemConfig] at hpasses
  cases h with
  | requested hmodem _ _ _ hqueue =>
    rw [hq] at hqueue
    cases hqueue
    have hpending : sys.modem.state = .awaitingSessionInit := by rw [hmodem]; rfl
    refine absurd herrs (ModemSessionFsm.not_errs_of_request hpending ?_)
    refine hpasses.resolve_left fun h => ?_
    have htype := congrArg Message.messageType h
    rw [messageType_buildSessionInitialization] at htype
    cases htype
  | refused hterminated => exact absurd hterminated herrs.1.2
  | session hs _ hmodem =>
    cases hmodem with
    | joined hm tail hqueue htail =>
      subst hm
      have hrefusal : sys.modem.refusal msg = none ∨
          sys.modem.refusal msg = some (.status .unexpectedMessage "") ∧
            msg.Crosses sys.modem.tx := by
        rcases queue_head (hq ▸ hqueue) hs.dataToModem htail.1 with
          ⟨_, _, rfl, hmsg, -⟩ | ⟨-, -, hfarewell⟩
        · cases hmsg
          exact hs.refusal_modem hpasses
        · have ht : msg.messageType = sessionTermination := by
            simpa [Frame.isFarewell] using hfarewell
          obtain ⟨hform, hopened⟩ := hpasses.termination ht
          refine ModemSessionFsm.Welcomes.refusal ⟨hform, hopened, fun h => ?_,
            fun mac _ h => ?_⟩ hs.modemIn (Message.suits_of_termination ht)
          · exact absurd (ht.symm.trans h) (by decide)
          · rw [ht] at h
            exact absurd h (by decide)
      exact Message.crosses_of_code hrefusal (herrs.refused hc.modem hs.modemIn)
    | gone hgone =>
      obtain ⟨⟨h₁, h₂⟩, -⟩ := herrs
      revert hgone
      cases hstate : sys.modem.state <;> simp_all [ModemSessionState.phase, Phase.isGone]

end

/-- Between a router and a modem with one MAC format, whose initialization messages
encode, a message is answered with a protocol error only where it is a request that
crosses the receiver's own, and then with the status for an unexpected message. -/
theorem only_crossings_err (routerConfig modemConfig : SessionConfig)
    (hformat : routerConfig.macAddressFormat = modemConfig.macAddressFormat)
    (hrouter : (buildSessionInitialization routerConfig).Encodes)
    (hmodem : (buildSessionInitializationResponse modemConfig).Encodes)
    (inputs : List System.Input) :
    ∃ sys trace, System.run routerConfig modemConfig inputs = .ok (sys, trace) ∧
      (∀ msg rest code, sys.toRouter = .message msg :: rest → sys.router.Errs msg code →
        code = .unexpectedMessage ∧ msg.Crosses sys.router.tx) ∧
      ∀ msg rest code, sys.toModem = .message msg :: rest → sys.modem.Errs msg code →
        code = .unexpectedMessage ∧ msg.Crosses sys.modem.tx := by
  obtain ⟨sys, trace, hrun⟩ := System.run_ok routerConfig modemConfig inputs
  obtain ⟨hc, hcoupled⟩ := run_coupled (conversing_kept routerConfig modemConfig) hrun
  obtain ⟨-, hsound⟩ := System.run_moves
    (fun _ _ _ _ _ hs hm => hm.sound hrouter hmodem hformat hs)
    (System.sound_start hrouter hmodem) hrun
  refine ⟨sys, trace, hrun, fun msg rest code hq => ?_, fun msg rest code hq => ?_⟩
  · exact hcoupled.errs_router hc hsound hformat hq
  · exact hcoupled.errs_modem hc hsound hformat hq

/-- A Destination Up that meets an open Announce of the same destination. -/
theorem only_crossings_err_announce :
    ∃ mac sys trace msg rest, System.run .default .default [.deliverToModem, .deliverToRouter,
        .modem ⟨.appAddDestination mac .default .default, rfl⟩,
        .router ⟨.appAnnounceDestination mac, rfl⟩] = .ok (sys, trace) ∧
      sys.toRouter = .message msg :: rest ∧ sys.router.Errs msg .unexpectedMessage ∧
      msg.Crosses sys.router.tx := by
  let mac : MacAddress := .eui48 (.replicate 6 1)
  let inputs : List System.Input := [.deliverToModem, .deliverToRouter,
    .modem ⟨.appAddDestination mac .default .default, rfl⟩,
    .router ⟨.appAnnounceDestination mac, rfl⟩]
  obtain ⟨sys, trace, hrun, herrs, -⟩ := only_crossings_err .default .default rfl
    (Message.encodes_of_toBool (by decide +kernel)) (Message.encodes_of_toBool (by decide +kernel))
    inputs
  let msg := buildDestinationUp mac .default .default
  have hview : (System.run .default .default inputs).map (fun r =>
      decide (r.1.toRouter = [.message msg] ∧ r.1.router.state = .inSession ∧
        r.1.router.step (.recvMessage msg) =
          r.1.router.protocolError (.status .unexpectedMessage ""))) = .ok true := by
    decide +kernel
  rw [hrun] at hview
  have hlast := Except.ok.inj hview
  dsimp only at hlast
  obtain ⟨hq, hs, hstep⟩ := of_decide_eq_true hlast
  have hmsg : sys.router.Errs msg .unexpectedMessage := ⟨by simp [hs], "", hstep⟩
  exact ⟨mac, sys, trace, msg, [], hrun, hq, hmsg, (herrs msg [] _ hq hmsg).2⟩

end Dlep
