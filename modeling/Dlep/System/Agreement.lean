-- SUMMARY: In every quiescent state the two sides agree on destinations, metrics and addresses.
import Dlep.System.Mirror

/-!
# Agreement of the two sides

The mirror is an invariant of sessions. When nothing is under way the replay is
empty, and the mirror says that the router holds the modem's state.
-/

namespace Dlep

open RouterSessionFsm (learn)

/-! ## Mirrored sessions -/

/-- Each side's knowledge, completed by what is under way to it, is the other side's
state. -/
structure SessionMirror (r : RouterSessionFsm) (m : ModemSessionFsm)
    (toRouter toModem : List Message) : Prop where
  mirrored : Mirrored (toRouter.foldl learn r.learned) m
  expected : r.learned.ExpectsAll toRouter
  uniform : m.Uniform
  addresses : r.localAddresses.WellFormed
  peer : (toModem.foldl learnPeer m.peerAddresses).SameAs r.localAddresses
  accepted : ∀ msg ∈ toModem, msg.messageType = .destinationUpResponse →
    extractStatus msg = some .success

section

variable {r r' : RouterSessionFsm} {m m' : ModemSessionFsm} {toRouter toModem : List Message}
  {actions : List FsmAction} {event : FsmEvent}

theorem skipped_of_mem_pushExtensionsSupported {msg : Message} {ids : List ExtensionId}
    (h : ∀ i ∈ msg.dataItems, i.isAddressItem = false) :
    ∀ i ∈ (pushExtensionsSupported msg ids).dataItems, AddressChanges.Skipped i := by
  intro i hi
  refine skipped_of_not_address ?_
  unfold pushExtensionsSupported at hi
  split at hi
  · exact h i hi
  · rcases List.mem_append.mp hi with hi | hi
    · exact h i hi
    · rw [List.mem_singleton.mp hi]
      rfl

theorem fromMessage_buildSessionInitialization (config : SessionConfig) :
    AddressChanges.fromMessage (buildSessionInitialization config) = .default :=
  AddressChanges.fromMessage_of_skipped
    (skipped_of_mem_pushExtensionsSupported (by simp [DataItem.isAddressItem]))

theorem fromMessage_buildSessionInitializationResponse (config : SessionConfig) :
    AddressChanges.fromMessage (buildSessionInitializationResponse config) = .default := by
  rw [buildSessionInitializationResponse, fromMessage_pushMetricItems]
  exact AddressChanges.fromMessage_of_skipped
    (skipped_of_mem_pushExtensionsSupported (by simp [DataItem.isAddressItem]))

theorem mirrored_joined (routerConfig modemConfig : SessionConfig) :
    Mirrored (joinedRouter routerConfig modemConfig).learned
      (joinedModem routerConfig modemConfig) := by
  refine ⟨?_, ?_, fun mac => ?_⟩
  · simp only [RouterSessionFsm.learned, joinedRouter, RouterSessionFsm.initialized,
      mergeLinkMetrics_buildSessionInitializationResponse]
    exact LinkMetrics.overlay_default _
  · simp only [RouterSessionFsm.learned, joinedRouter, RouterSessionFsm.initialized,
      fromMessage_buildSessionInitializationResponse]
    exact .refl _
  · exact CellMirrored.unknown

/-- What the router learned does not depend on how the messages were cut. -/
theorem SessionMirror.routerStep {toRouter' : List Message}
    (h : SessionMirror r m toRouter toModem)
    (hreplay : toRouter'.foldl learn r'.learned = toRouter.foldl learn r.learned)
    (hexpected : r'.learned.ExpectsAll toRouter')
    (htells : RouterTells r.localAddresses r'.localAddresses (sentMessages actions)) :
    SessionMirror r' m toRouter' (toModem ++ sentMessages actions) where
  mirrored := hreplay ▸ h.mirrored
  expected := hexpected
  uniform := h.uniform
  addresses := htells.wellFormed h.addresses
  peer := by
    rw [List.foldl_append]
    exact htells.peer _ h.addresses h.peer
  accepted msg hmsg := by
    rcases List.mem_append.mp hmsg with hmsg | hmsg
    · exact h.accepted msg hmsg
    · exact htells.accepts msg hmsg

theorem SessionMirror.modemStep {toModem' : List Message}
    (h : SessionMirror r m toRouter toModem) (ht : m.Transition event m' actions)
    (hin : m.state = .inSession) (hin' : m'.state = .inSession)
    (hok : ∀ msg, event = .recvMessage msg → msg ∈ toModem)
    (hpeer : toModem'.foldl learnPeer m'.peerAddresses = toModem.foldl learnPeer m.peerAddresses)
    (hrest : ∀ msg ∈ toModem', msg ∈ toModem) :
    SessionMirror r m' (toRouter ++ sentMessages actions) toModem' := by
  have hinforms := ht.informs hin hin' h.uniform h.mirrored fun msg hmsg =>
    h.accepted msg (hok msg hmsg)
  refine ⟨?_, ?_, ht.uniform h.uniform, h.addresses, hpeer ▸ h.peer,
    fun msg hmsg => h.accepted msg (hrest msg hmsg)⟩
  · rw [List.foldl_append]
    exact hinforms.mirrored
  · exact Machine.expected_append h.expected hinforms.expected

end

theorem sessionMirror_kept (routerConfig modemConfig : SessionConfig) :
    Joint.Kept SessionMirror routerConfig modemConfig where
  init := {
    mirrored := mirrored_joined routerConfig modemConfig
    expected := trivial
    uniform := by
      have h := ModemSessionFsm.uniform_withConfig modemConfig
      exact ⟨h.session, h.cell, h.addresses⟩
    addresses := DestinationAddrs.wellFormed_default
    peer := by
      simp only [List.foldl_nil, joinedModem, ModemSessionFsm.initialized,
        fromMessage_buildSessionInitialization]
      exact .refl _
    accepted := by simp }
  routerLocal := by
    intro r m toRouter toModem event r' actions hs ht hl hin
    have hlearned := ht.learned_local hl hs.routerIn hin
    exact hs.joint.routerStep (by rw [hlearned]) (by rw [hlearned]; exact hs.joint.expected)
      (ht.tells hs.routerIn hin)
  modemLocal := by
    intro r m toRouter toModem event m' actions hs ht hl hin _
    exact hs.joint.modemStep ht hs.modemIn hin
      (fun msg hmsg => absurd hmsg (not_message_of_local hl))
      (by rw [ht.peer_local hl hs.modemIn]) fun _ h => h
  routerReceives := by
    intro r m msg toRouter toModem r' actions hs ht hin
    have hlearned := ht.learned_received hs.routerIn hin
    rw [RouterSessionFsm.learned_learn] at hlearned
    exact hs.joint.routerStep (by rw [hlearned]; rfl) (by rw [hlearned]; exact hs.joint.expected.2)
      (ht.tells hs.routerIn hin)
  modemReceives := by
    intro r m msg toRouter toModem m' actions hs ht hin _
    refine hs.joint.modemStep ht hs.modemIn hin ?_ ?_ fun _ h => List.mem_cons_of_mem _ h
    · rintro _ ⟨⟩
      exact List.mem_cons_self
    · rw [ht.peer_received hs.modemIn hin]
      rfl

/-! ## Quiescent states -/

/-- Both sides are in session, nothing is under way, open or deferred. -/
structure System.Quiescent (sys : System) : Prop where
  routerIn : sys.router.state = .inSession
  modemIn : sys.modem.state = .inSession
  toRouter : sys.toRouter = []
  toModem : sys.toModem = []
  routerIdle : ∀ scope, sys.router.tx.kindIn scope = none
  modemIdle : ∀ scope, sys.modem.tx.kindIn scope = none
  undeferred : sys.modem.pendingLinkRequests = ∅

/-- The two sides agree. -/
structure Agreement (sys : System) : Prop where
  destinations : ∀ mac, (sys.router.destinations.lookup mac).isSome = true ↔
    ∃ d, sys.modem.destinations.lookup mac = some d ∧ d.announced = true
  metrics : ∀ mac x d, sys.router.destinations.lookup mac = some x →
    sys.modem.destinations.lookup mac = some d → x.metrics = d.metrics
  session : sys.router.sessionMetrics = sys.modem.sessionMetrics
  routerPeer : sys.router.peerAddresses.SameAs sys.modem.localAddresses
  modemPeer : sys.modem.peerAddresses.SameAs sys.router.localAddresses

/-- An idle cell: known to the router exactly when announced, with equal metrics. -/
theorem CellMirrored.agrees {known : Option RouterDestination} {entry : Option ModemDestination}
    (h : CellMirrored known none entry) :
    (known.isSome = true ↔ ∃ d, entry = some d ∧ d.announced = true) ∧
      ∀ x d, known = some x → entry = some d → x.metrics = d.metrics := by
  cases h with
  | unknown => simp
  | idle h => simp [h]
  | granted h hmetrics => simp [h, hmetrics]

theorem SessionMirror.agreement {sys : System} (h : SessionMirror sys.router sys.modem [] [])
    (hidle : ∀ scope, sys.modem.tx.kindIn scope = none) : Agreement sys := by
  have hcell : ∀ mac, CellMirrored (sys.router.destinations.lookup mac) none
      (sys.modem.destinations.lookup mac) := by
    intro mac
    have hm := h.mirrored.cell mac
    rwa [show sys.modem.tx.pending mac = none from hidle (.destination mac)] at hm
  exact {
    destinations := fun mac => (hcell mac).agrees.1
    metrics := fun mac => (hcell mac).agrees.2
    session := h.mirrored.session
    routerPeer := h.mirrored.peer
    modemPeer := h.peer }

/-- In every reachable quiescent state the two sides agree. -/
theorem quiescent_agreement (routerConfig modemConfig : SessionConfig)
    (inputs : List System.Input) :
    ∃ sys trace, System.run routerConfig modemConfig inputs = .ok (sys, trace) ∧
      (sys.Quiescent → Agreement sys) := by
  obtain ⟨sys, trace, hrun⟩ := System.run_ok routerConfig modemConfig inputs
  refine ⟨sys, trace, hrun, fun hq => ?_⟩
  obtain ⟨-, hcoupled⟩ := run_coupled (sessionMirror_kept routerConfig modemConfig) hrun
  obtain ⟨toRouter, toModem, hqr, hqm, hs⟩ := hcoupled.session_of_inSession hq.routerIn hq.modemIn
  rw [hq.toRouter] at hqr
  rw [hq.toModem] at hqm
  obtain rfl := List.map_eq_nil_iff.mp hqr.symm
  obtain rfl := List.map_eq_nil_iff.mp hqm.symm
  exact hs.joint.agreement hq.modemIdle

/-- The system is in session, with nothing under way or open. -/
def System.settled (sys : System) : Bool :=
  decide ((sys.router.state = .inSession ∧ sys.modem.state = .inSession) ∧
    (sys.toRouter = [] ∧ sys.toModem = []) ∧
    sys.router.tx = .default ∧ sys.modem.tx = .default ∧ sys.modem.pendingLinkRequests = ∅)

theorem System.quiescent_of_settled {sys : System} (h : sys.settled = true) : sys.Quiescent := by
  obtain ⟨⟨hrin, hmin⟩, ⟨hqr, hqm⟩, hrtx, hmtx, hlink⟩ := of_decide_eq_true h
  refine ⟨hrin, hmin, hqr, hqm, fun scope => ?_, fun scope => ?_, hlink⟩
  · rw [hrtx]
    cases scope <;> rfl
  · rw [hmtx]
    cases scope <;> rfl

/-- A modem reports a destination, and the router has stored it. -/
theorem quiescent_agreement_reported :
    ∃ mac sys trace, System.run .default .default [.deliverToModem, .deliverToRouter,
        .modem ⟨.appAddDestination mac .default .default, rfl⟩, .deliverToRouter,
        .deliverToModem] = .ok (sys, trace) ∧
      sys.Quiescent ∧ (sys.router.destinations.lookup mac).isSome = true ∧ Agreement sys := by
  let mac : MacAddress := .eui48 (.replicate 6 1)
  obtain ⟨sys, trace, hrun, hagree⟩ := quiescent_agreement .default .default
    [.deliverToModem, .deliverToRouter, .modem ⟨.appAddDestination mac .default .default, rfl⟩,
      .deliverToRouter, .deliverToModem]
  have hview : (System.run .default .default [.deliverToModem, .deliverToRouter,
      .modem ⟨.appAddDestination mac .default .default, rfl⟩, .deliverToRouter, .deliverToModem]).map
        (fun r => decide (r.1.settled = true ∧ (r.1.router.destinations.lookup mac).isSome = true)) =
      .ok true := by
    decide +kernel
  rw [hrun] at hview
  obtain ⟨hsettled, hknown⟩ := of_decide_eq_true (Except.ok.inj hview)
  have hquiescent := System.quiescent_of_settled hsettled
  exact ⟨mac, sys, trace, hrun, hquiescent, hknown, hagree hquiescent⟩

end Dlep
