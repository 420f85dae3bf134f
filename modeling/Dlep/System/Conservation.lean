-- SUMMARY: Requests and responses between the two sides are conserved in every reachable state.
import Dlep.System.Coupling

/-!
# Conservation of requests and responses

Each side's transitions are exchanges with its ledger, and the two queues carry the
roles of what was sent. The conservation rule of the transaction library then says
where each open request is: under way, answered under way, or deferred by the
modem.
-/

namespace Dlep

open Transaction (balanced_empty)

/-! ## Balanced sessions -/

/-- Every open request of either side is in exactly one place. -/
def LedgersBalanced : Joint := fun r m toRouter toModem =>
  Transaction.Balanced r.ledger m.ledger (toModem.map Message.role) (toRouter.map Message.role) ∧
    Transaction.Balanced m.ledger r.ledger (toRouter.map Message.role) (toModem.map Message.role)

/-- The turn of an in-session step on a local event. -/
theorem turn_local {event : FsmEvent} {actions : List FsmAction} {before after : Phase}
    (hl : event.isLocal = true) :
    (Observation.turn ⟨before, event, actions, after⟩).accepted = none := by
  have ha : Observation.accepted ⟨before, event, actions, after⟩ = none := by
    cases event <;> first
      | rfl
      | cases hl
  simp [Observation.turn, ha]

theorem ledgersBalanced_kept (routerConfig modemConfig : SessionConfig) :
    LedgersBalanced.Kept routerConfig modemConfig where
  init := by
    have hr : (joinedRouter routerConfig modemConfig).ledger = .empty :=
      RouterSessionFsm.ledger_withConfig routerConfig
    have hm : (joinedModem routerConfig modemConfig).ledger = .empty :=
      ModemSessionFsm.ledger_withConfig modemConfig
    rw [LedgersBalanced, hr, hm]
    exact ⟨balanced_empty, balanced_empty⟩
  routerLocal := by
    intro r m toRouter toModem event r' actions hs ht hl _
    have hx := ht.exchange
    rw [LedgersBalanced, List.map_append]
    exact ⟨hx.balanced (by rw [turn_local hl]; rfl) hs.joint.1,
      hx.balanced_peer (by rw [turn_local hl]; rfl) hs.joint.2⟩
  modemLocal := by
    intro r m toRouter toModem event m' actions hs ht hl _ _
    have hx := ht.exchange hs.modemConsistent
    rw [LedgersBalanced, List.map_append]
    exact ⟨hx.balanced_peer (by rw [turn_local hl]; rfl) hs.joint.1,
      hx.balanced (by rw [turn_local hl]; rfl) hs.joint.2⟩
  routerReceives := by
    intro r m msg toRouter toModem r' actions hs ht hin
    have hx := ht.exchange
    rw [Observation.turn_received (by rw [hin]; rfl)] at hx
    rw [LedgersBalanced, List.map_append]
    exact ⟨hx.balanced rfl hs.joint.1, hx.balanced_peer rfl hs.joint.2⟩
  modemReceives := by
    intro r m msg toRouter toModem m' actions hs ht hin _
    have hx := ht.exchange hs.modemConsistent
    rw [Observation.turn_received (by rw [hin]; rfl)] at hx
    rw [LedgersBalanced, List.map_append]
    exact ⟨hx.balanced_peer rfl hs.joint.1, hx.balanced rfl hs.joint.2⟩

/-! ## The system -/

/-- How many messages of a role a queue holds. -/
def roleCount (queue : List Frame) (role : Role) : ℕ :=
  queue.countP fun
    | .message m => m.role = role
    | .close => false

theorem roleCount_map (messages : List Message) (role : Role) :
    roleCount (messages.map .message) role = (messages.map Message.role).count role := by
  simp only [roleCount, List.countP_map, List.count_eq_countP]
  rfl

/-- Each open request of a side is in exactly one place, and nothing else is under way:
the request to the peer, the response from the peer, or the modem's deferred link
requests. -/
structure Conserved (sys : System) : Prop where
  router : ∀ scope kind,
    roleCount sys.toModem (.request scope kind) + roleCount sys.toRouter (.response scope kind) +
        (if deferredDebts sys.modem.pendingLinkRequests scope = some kind then 1 else 0) =
      if sys.router.tx.kindIn scope = some kind then 1 else 0
  modem : ∀ scope kind,
    roleCount sys.toRouter (.request scope kind) + roleCount sys.toModem (.response scope kind) =
      if sys.modem.tx.kindIn scope = some kind then 1 else 0
  /-- With nothing under way and nothing deferred, nothing is open. -/
  settled : sys.toRouter = [] → sys.toModem = [] → sys.modem.pendingLinkRequests = ∅ →
    ∀ scope, sys.router.tx.kindIn scope = none ∧ sys.modem.tx.kindIn scope = none

theorem deferredDebts_empty (scope : Scope) : deferredDebts ∅ scope = none := by
  cases scope <;> rfl

/-- Nothing under way and nothing deferred leaves nothing open. -/
theorem eq_none_of_counts {pending : Option RequestKind}
    (h : ∀ kind, 0 = if pending = some kind then 1 else 0) : pending = none := by
  cases pending with
  | none => rfl
  | some kind => simp at h

theorem Conserved.of_counts {sys : System}
    (router : ∀ scope kind,
      roleCount sys.toModem (.request scope kind) + roleCount sys.toRouter (.response scope kind) +
          (if deferredDebts sys.modem.pendingLinkRequests scope = some kind then 1 else 0) =
        if sys.router.tx.kindIn scope = some kind then 1 else 0)
    (modem : ∀ scope kind,
      roleCount sys.toRouter (.request scope kind) + roleCount sys.toModem (.response scope kind) =
        if sys.modem.tx.kindIn scope = some kind then 1 else 0) : Conserved sys := by
  refine ⟨router, modem, fun hqr hqm hd scope => ⟨?_, ?_⟩⟩
  · refine eq_none_of_counts fun kind => ?_
    rw [← router scope kind, hqr, hqm, hd, deferredDebts_empty]
    rfl
  · refine eq_none_of_counts fun kind => ?_
    rw [← modem scope kind, hqr, hqm]
    rfl

/-- In every reachable state with both sides in session, requests and responses are
conserved. -/
theorem requests_conserved (routerConfig modemConfig : SessionConfig) (inputs : List System.Input) :
    ∃ sys trace, System.run routerConfig modemConfig inputs = .ok (sys, trace) ∧
      (sys.router.state = .inSession → sys.modem.state = .inSession → Conserved sys) := by
  obtain ⟨sys, trace, hrun⟩ := System.run_ok routerConfig modemConfig inputs
  refine ⟨sys, trace, hrun, fun hr hm => ?_⟩
  obtain ⟨-, hcoupled⟩ := run_coupled (ledgersBalanced_kept routerConfig modemConfig) hrun
  obtain ⟨toRouter, toModem, hqr, hqm, hs⟩ := hcoupled.session_of_inSession hr hm
  refine .of_counts (fun scope kind => ?_) fun scope kind => ?_
  · rw [hqr, hqm, roleCount_map, roleCount_map]
    exact hs.joint.1 scope kind
  · rw [hqr, hqm, roleCount_map, roleCount_map]
    exact hs.joint.2 scope kind

/-- A destination for each octet. -/
def numbered (n : UInt8) : MacAddress := .eui48 (.replicate 6 n)

/-- Each side sends requests and answers some, and the modem defers a link request. -/
def spreadRequests : List System.Input :=
  [.deliverToModem, .deliverToRouter,
    .modem ⟨.appAddDestination (numbered 1) .default .default, rfl⟩, .deliverToRouter, .deliverToModem,
    .router ⟨.appRequestLinkCharacteristics (numbered 1)
      { LinkCharacteristics.default with currentDataRateRxBps := some 1 }, rfl⟩, .deliverToModem,
    .modem ⟨.appAddDestination (numbered 2) .default .default, rfl⟩,
    .router ⟨.appAnnounceDestination (numbered 4), rfl⟩, .deliverToModem, .deliverToRouter,
    .router ⟨.appAnnounceDestination (numbered 5), rfl⟩,
    .modem ⟨.appAddDestination (numbered 3) .default .default, rfl⟩]

/-- A request of each side and a response to each are under way, and a request is deferred. -/
def System.spread (sys : System) : Bool :=
  decide (roleCount sys.toModem (.request (.destination (numbered 5)) .destinationAnnounce) = 1 ∧
    roleCount sys.toRouter (.response (.destination (numbered 4)) .destinationAnnounce) = 1 ∧
    deferredDebts sys.modem.pendingLinkRequests (.destination (numbered 1)) =
      some .linkCharacteristics ∧
    roleCount sys.toRouter (.request (.destination (numbered 3)) .destinationUp) = 1 ∧
    roleCount sys.toModem (.response (.destination (numbered 2)) .destinationUp) = 1)

theorem requests_conserved_spread :
    ∃ sys trace, System.run .default { SessionConfig.default with deferLinkCharacteristics := true }
        spreadRequests = .ok (sys, trace) ∧ sys.spread = true ∧ Conserved sys := by
  obtain ⟨sys, trace, hrun, hconserved⟩ := requests_conserved .default
    { SessionConfig.default with deferLinkCharacteristics := true } spreadRequests
  have hview : (System.run .default { SessionConfig.default with deferLinkCharacteristics := true }
      spreadRequests).map (fun r => decide (r.1.router.state = .inSession ∧
        r.1.modem.state = .inSession ∧ r.1.spread = true)) = .ok true := by
    decide +kernel
  rw [hrun] at hview
  obtain ⟨hr, hm, hspread⟩ := of_decide_eq_true (Except.ok.inj hview)
  exact ⟨sys, trace, hrun, hspread, hconserved hr hm⟩

end Dlep
