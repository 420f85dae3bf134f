-- SUMMARY: Without new commands the closed system falls silent under every fair delivery order, and the two sides then agree.
import Dlep.Lib.Quiescence
import Dlep.System.Agreement
import Dlep.System.Conservation

/-!
# The closed system falls silent

Every message a side sends on receiving one is owed by it: a request owes its
response, and the response to a Destination Up owes the update the modem deferred.
So a delivery either moves a side further along its life cycle or leaves less to be
delivered. With the invariants of sessions this is eventual consistency: once the
applications and timers are quiet, any fair delivery order empties both queues, and
two sides still in session then agree.
-/

namespace Dlep

/-! ## What a delivery costs -/

/-- How far a side is from the end of its life cycle. -/
def Phase.rank : Phase → ℕ
  | .idle => 4
  | .opening => 3
  | .inSession => 2
  | .terminating => 1
  | .terminated => 0

/-- A message and all that may be sent because of it. -/
def roleLoad : Transaction.Role Scope RequestKind → ℕ
  | .request _ .destinationUp => 3
  | .request _ _ => 2
  | .response _ .destinationUp => 2
  | .response _ _ => 1
  | .other => 1

def Frame.load : Frame → ℕ
  | .message m => roleLoad m.role
  | .close => 1

/-- What is still to be delivered from a queue, with all that may follow from it. -/
def wireLoad (queue : List Frame) : ℕ := (queue.map Frame.load).sum

@[simp] theorem wireLoad_nil : wireLoad [] = 0 := rfl

@[simp] theorem wireLoad_cons (f : Frame) (queue : List Frame) :
    wireLoad (f :: queue) = f.load + wireLoad queue := List.sum_cons

@[simp] theorem wireLoad_append (as bs : List Frame) :
    wireLoad (as ++ bs) = wireLoad as + wireLoad bs := by
  simp [wireLoad]

theorem Frame.load_pos (f : Frame) : 0 < f.load := by
  unfold Frame.load roleLoad
  split
  · split <;> decide
  · decide

/-- What receiving a frame costs a side: it moves on in its life cycle, or it sends less
than it received. -/
def Spends (before after : Phase) (received : Frame) (sent : List Frame) : Prop :=
  after.rank < before.rank ∨ after.rank = before.rank ∧ wireLoad sent < received.load

namespace Spends

variable {phase : Phase} {f : Frame} {sent : List Frame}

theorem quiet (h : sent = []) : Spends phase phase f sent := by
  subst h
  exact .inr ⟨rfl, f.load_pos⟩

/-- A request that is answered at once. -/
theorem answer {request response : Message} {scope : Scope} {kind : RequestKind}
    (hrequest : request.role = .request scope kind)
    (hresponse : response.role = .response scope kind) :
    wireLoad [.message response] < (Frame.message request).load := by
  simp only [wireLoad_cons, wireLoad_nil, Frame.load, hrequest, hresponse]
  cases kind <;> exact Nat.le_of_ble_eq_true rfl

end Spends

theorem Ending.rank_lt {fault : StatusCode → String → Prop} {leak : Prop} {v : LifeView}
    {event : FsmEvent} {phase : Phase} {reason : StatusCode} {actions : List FsmAction}
    (h : Ending fault leak v event phase reason actions) : phase.rank < v.phase.rank := by
  cases h with
  | abandons _ hp => rw [hp]; decide
  | fails hp => rcases hp with hp | hp | hp <;> rw [hp] <;> decide
  | _ hp => rw [hp]; decide

/-- Receiving a frame moves a side on, or it sends less than it received, if it does so while it
stays in session. -/
theorem LifeStep.spends {refusal : Message → Option DataItem} {leak same moved : Prop}
    {v v' : LifeView} {f : Frame} {actions : List FsmAction}
    (h : LifeStep refusal leak same moved v f.event v' actions)
    (hwork : ∀ m, f = .message m → v.phase = .inSession → v'.phase = .inSession →
      wireLoad (frames actions) < f.load) :
    Spends v.phase v'.phase f (frames actions) := by
  cases h with
  | rejected hcmd => cases f <;> cases hcmd
  | ignored => exact .quiet rfl
  | works hp hevent =>
    cases f with
    | message m => exact .inr ⟨rfl, hwork m rfl hp hp⟩
    | close => cases hevent
  | opens _ hp | enters hp =>
    rw [hp]
    exact .inl (Nat.le_of_ble_eq_true rfl)
  | ends _ h => exact .inl h.rank_lt

namespace ModemSessionFsm

variable {s s' : ModemSessionFsm} {actions : List FsmAction}

theorem Transition.load_lt {m : Message} (h : s.Transition (.recvMessage m) s' actions)
    (hs : s.state = .inSession) (hs' : s'.state = .inSession) :
    wireLoad (frames actions) < (Frame.message m).load := by
  cases h with
  | rejected hcmd => cases hcmd
  | ignored h => cases h.received (phase_view hs)
  | alive | refused | dropAnswered | linkDeferred | sessionAnswered =>
    simpa using Frame.load_pos _
  | initialized h => cases hs.symm.trans h
  | ends h => rcases h.gone with rfl | rfl <;> cases hs'
  | @acknowledged _ mac d _ _ ht hmac =>
    -- The response to an Up may release the update that was deferred.
    have hrole := Message.role_response ht hmac rfl rfl
    cases hupdate : deferredUpdate mac d with
    | none => simp [Frame.load, hrole, roleLoad]
    | some update =>
      have hneutral := Message.role_neutral (messageType_deferredUpdate hupdate) rfl
      simp [Frame.load, hrole, hneutral, roleLoad]
  | withdrawn _ _ ht hmac =>
    simpa using Spends.answer (Message.role_request ht hmac rfl)
      (role_buildDestinationDownResponse _ _)
  | announceDenied _ _ ht hmac =>
    simpa using Spends.answer (Message.role_request ht hmac rfl)
      (role_buildDestinationAnnounceResponse _ _)
  | announceGranted _ _ ht hmac =>
    simpa using Spends.answer (Message.role_request ht hmac rfl)
      (role_announceSuccess _ _)
  | linkDenied _ _ ht hmac =>
    simpa using Spends.answer (Message.role_request ht hmac rfl)
      (role_buildLinkCharacteristicsResponse _ _ _)
  | sessionUpdated _ _ ht =>
    have hanswer := Spends.answer (role_sessionUpdate ht)
      (role_sessionUpdateResponse (m := buildSessionUpdateResponse .success) rfl)
    simpa using hanswer

/-- Receiving a frame moves the modem on, or it sends less than it received. -/
theorem Transition.spends {f : Frame} (h : s.Transition f.event s' actions) :
    Spends s.state.phase s'.state.phase f (frames actions) := by
  refine h.lifeStep.spends ?_
  rintro m rfl hp hp'
  exact h.load_lt (phase_eq_inSession hp) (phase_eq_inSession hp')

end ModemSessionFsm

namespace RouterSessionFsm

variable {s s' : RouterSessionFsm} {actions : List FsmAction}

theorem Transition.load_lt {m : Message} (h : s.Transition (.recvMessage m) s' actions)
    (hs : s.state = .inSession) (hs' : s'.state = .inSession) :
    wireLoad (frames actions) < (Frame.message m).load := by
  cases h with
  | rejected hcmd => cases hcmd
  | ignored h => cases h.received (phase_view hs)
  | alive | updateReceived | dropAnswered | announceGranted | announceDenied | linkAnswered
  | sessionAnswered => simpa using Frame.load_pos _
  | initialized h => cases hs.symm.trans h
  | ends h => rcases h.gone with rfl | rfl <;> cases hs'
  | upReceived _ _ ht hmac =>
    simpa using Spends.answer (Message.role_request ht hmac rfl) (role_buildDestinationUpResponse _ _)
  | downReceived _ _ ht hmac =>
    simpa using Spends.answer (Message.role_request ht hmac rfl)
      (role_buildDestinationDownResponse _ _)
  | sessionUpdated _ _ ht =>
    have hanswer := Spends.answer (role_sessionUpdate ht)
      (role_sessionUpdateResponse (m := buildSessionUpdateResponse .success) rfl)
    simpa using hanswer

/-- Receiving a frame moves the router on, or it sends less than it received. -/
theorem Transition.spends {f : Frame} (h : s.Transition f.event s' actions) :
    Spends s.state.phase s'.state.phase f (frames actions) := by
  refine h.lifeStep.spends ?_
  rintro m rfl hp hp'
  exact h.load_lt (phase_eq_inSession hp) (phase_eq_inSession hp')

end RouterSessionFsm

/-! ## Deliveries -/

namespace System

/-- The inputs that only deliver what is under way. -/
def deliveries : List Input := [.deliverToRouter, .deliverToModem]

/-- The input delivers a frame. -/
def delivers (sys : System) : Input → Bool
  | .deliverToRouter => !sys.toRouter.isEmpty
  | .deliverToModem => !sys.toModem.isEmpty
  | _ => false

/-- The phases still to be passed, and what is still to be delivered. -/
def outstanding (sys : System) : ℕ × ℕ :=
  (sys.router.state.phase.rank + sys.modem.state.phase.rank,
    wireLoad sys.toRouter + wireLoad sys.toModem)

/-- Fewer phases to pass, or as many and less to deliver. -/
abbrev Nearer : ℕ × ℕ → ℕ × ℕ → Prop := Prod.Lex (· < ·) (· < ·)

variable {sys sys' : System} {input : Input} {actions : List FsmAction}

theorem nearer_of {m n : ℕ × ℕ} (h : m.1 < n.1 ∨ m.1 = n.1 ∧ m.2 < n.2) : Nearer m n :=
  Prod.lex_def.mpr h

/-- Delivering to the router: nothing is under way, or it handles the oldest frame. -/
theorem deliverToRouter_cases (hc : sys.Consistent)
    (h : sys.step .deliverToRouter = .ok (sys', actions)) :
    sys.toRouter = [] ∧ sys' = sys ∨
      ∃ f rest router, sys.toRouter = f :: rest ∧ sys.router.Transition f.event router actions ∧
        sys' = { sys with
          router := router, toRouter := rest, toModem := sys.toModem ++ frames actions } := by
  simp only [step] at h
  split at h
  · rename_i hq
    cases h
    exact .inl ⟨hq, rfl⟩
  · rename_i f rest hq
    obtain ⟨⟨router, as⟩, hstep, h⟩ := bind_eq_ok.mp h
    cases h
    exact .inr ⟨f, rest, router, hq, RouterSessionFsm.lawful.trans hc.router hstep, rfl⟩

/-- Delivering to the modem: nothing is under way, or it handles the oldest frame. -/
theorem deliverToModem_cases (hc : sys.Consistent)
    (h : sys.step .deliverToModem = .ok (sys', actions)) :
    sys.toModem = [] ∧ sys' = sys ∨
      ∃ f rest modem, sys.toModem = f :: rest ∧ sys.modem.Transition f.event modem actions ∧
        sys' = { sys with
          modem := modem, toModem := rest, toRouter := sys.toRouter ++ frames actions } := by
  simp only [step] at h
  split at h
  · rename_i hq
    cases h
    exact .inl ⟨hq, rfl⟩
  · rename_i f rest hq
    obtain ⟨⟨modem, as⟩, hstep, h⟩ := bind_eq_ok.mp h
    cases h
    exact .inr ⟨f, rest, modem, hq, ModemSessionFsm.lawful.trans hc.modem hstep, rfl⟩

/-- Deliveries settle: one with nothing to deliver changes nothing, every other brings the
system nearer to its end. -/
theorem settling_deliveries :
    Machine.Settling step deliveries delivers Consistent Nearer outstanding where
  wellFounded := WellFounded.prod_lex Nat.lt_wfRel.wf Nat.lt_wfRel.wf
  total := by
    intro sys input hc _
    obtain ⟨sys', actions, hstep, -⟩ := step_spec hc input
    exact ⟨sys', actions, hstep⟩
  keeps := by
    intro sys input sys' actions hc _ hstep
    exact (moves_of_step hc hstep).consistent hc
  idle := by
    intro sys input sys' actions hc hinput hstep hidle
    cases input with
    | router | modem => simp [deliveries] at hinput
    | deliverToRouter =>
      rcases deliverToRouter_cases hc hstep with ⟨-, h⟩ | ⟨f, rest, router, hq, -⟩
      · exact h
      · simp [delivers, hq] at hidle
    | deliverToModem =>
      rcases deliverToModem_cases hc hstep with ⟨-, h⟩ | ⟨f, rest, modem, hq, -⟩
      · exact h
      · simp [delivers, hq] at hidle
  falls := by
    intro sys input sys' actions hc hinput hstep hbusy
    cases input with
    | router | modem => simp [deliveries] at hinput
    | deliverToRouter =>
      rcases deliverToRouter_cases hc hstep with ⟨hq, -⟩ | ⟨f, rest, router, hq, ht, rfl⟩
      · simp [delivers, hq] at hbusy
      · have hspends := ht.spends
        unfold Spends at hspends
        refine nearer_of ?_
        simp only [outstanding, hq, wireLoad_append, wireLoad_cons]
        omega
    | deliverToModem =>
      rcases deliverToModem_cases hc hstep with ⟨hq, -⟩ | ⟨f, rest, modem, hq, ht, rfl⟩
      · simp [delivers, hq] at hbusy
      · have hspends := ht.spends
        unfold Spends at hspends
        refine nearer_of ?_
        simp only [outstanding, hq, wireLoad_append, wireLoad_cons]
        omega

theorem empty_of_silent (h : ∀ input ∈ deliveries, sys.delivers input = false) :
    sys.toRouter = [] ∧ sys.toModem = [] := by
  have hr := h .deliverToRouter (by simp [deliveries])
  have hm := h .deliverToModem (by simp [deliveries])
  simp only [delivers, Bool.not_eq_false', List.isEmpty_iff] at hr hm
  exact ⟨hr, hm⟩

/-! ## Eventual consistency -/

/-- The two sides agree, and the only requests still open are the link requests the
modem's application has deferred. -/
structure Converged (sys : System) : Prop where
  agreement : Agreement sys
  routerOpen : ∀ scope, sys.router.tx.kindIn scope =
    deferredDebts sys.modem.pendingLinkRequests scope
  modemIdle : ∀ scope, sys.modem.tx.kindIn scope = none

theorem eq_of_counts {pending debt : Option RequestKind}
    (h : ∀ kind, (if debt = some kind then 1 else 0) = if pending = some kind then 1 else 0) :
    pending = debt := by
  refine Option.ext fun kind => ?_
  have hkind := h kind
  by_cases hd : debt = some kind <;> by_cases hp : pending = some kind <;> simp_all

/-- Two sides in session with nothing under way have converged. -/
theorem converged_of_empty {routerConfig modemConfig : SessionConfig} {inputs : List Input}
    {trace : List Entry} (hrun : run routerConfig modemConfig inputs = .ok (sys, trace))
    (hqr : sys.toRouter = []) (hqm : sys.toModem = []) (hr : sys.router.state = .inSession)
    (hm : sys.modem.state = .inSession) : Converged sys := by
  have hledgers := (run_coupled (ledgersBalanced_kept routerConfig modemConfig) hrun).2
  have hmirror := (run_coupled (sessionMirror_kept routerConfig modemConfig) hrun).2
  obtain ⟨toRouter, toModem, hr₁, hm₁, hbalanced⟩ := hledgers.session_of_inSession hr hm
  obtain ⟨toRouter', toModem', hr₂, hm₂, hmirrored⟩ := hmirror.session_of_inSession hr hm
  rw [hqr] at hr₁ hr₂
  rw [hqm] at hm₁ hm₂
  obtain rfl := List.map_eq_nil_iff.mp hr₁.symm
  obtain rfl := List.map_eq_nil_iff.mp hm₁.symm
  obtain rfl := List.map_eq_nil_iff.mp hr₂.symm
  obtain rfl := List.map_eq_nil_iff.mp hm₂.symm
  have hrouter : ∀ scope, sys.router.tx.kindIn scope =
      deferredDebts sys.modem.pendingLinkRequests scope := by
    intro scope
    refine eq_of_counts fun kind => ?_
    rw [← Nat.zero_add (ite _ _ _)]
    exact hbalanced.joint.1 scope kind
  have hmodem : ∀ scope, sys.modem.tx.kindIn scope = none := by
    intro scope
    exact eq_none_of_counts fun kind => hbalanced.joint.2 scope kind
  exact ⟨hmirrored.joint.agreement hmodem, hrouter, hmodem⟩

/-- From every reachable state, once the applications and timers are quiet, every fair
order of deliveries empties both queues within a bounded number of deliveries; two sides
that are then in session have converged. -/
theorem deliveries_converge (routerConfig modemConfig : SessionConfig) (inputs : List Input) :
    ∃ sys trace, run routerConfig modemConfig inputs = .ok (sys, trace) ∧
      ∃ n, ∀ rounds : List (List Input),
        (∀ round ∈ rounds, Machine.Settling.Round deliveries round) → n ≤ rounds.length →
        ∃ t later, Machine.run step sys rounds.flatten = .ok (t, later) ∧
          Machine.effort delivers later ≤ n ∧ t.toRouter = [] ∧ t.toModem = [] ∧
          (t.router.state = .inSession → t.modem.state = .inSession → Converged t) := by
  obtain ⟨sys, trace, hrun⟩ := run_ok routerConfig modemConfig inputs
  have hc : sys.Consistent := (run_moves (I := fun _ => True) (by simp) trivial hrun).1
  obtain ⟨n, hn⟩ := settling_deliveries.settles hc
  refine ⟨sys, trace, hrun, n, fun rounds hrounds hlength => ?_⟩
  obtain ⟨t, later, hlater, heffort, hsilent⟩ := hn rounds hrounds hlength
  obtain ⟨hqr, hqm⟩ := empty_of_silent hsilent
  exact ⟨t, later, hlater, heffort, hqr, hqm,
    converged_of_empty (Machine.run_append hrun hlater) hqr hqm⟩

end System

end Dlep
