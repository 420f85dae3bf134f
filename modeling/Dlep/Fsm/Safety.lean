-- SUMMARY: Runs of the two session state machines: panic freedom and the shape of their traces.
import Dlep.Fsm.Content
import Dlep.Fsm.ModemStep
import Dlep.Fsm.RouterStep
import Dlep.Lib.Machine

/-!
# Safety of single state machines

Both machines run against an arbitrary peer and an arbitrary application: an
event sequence is any list of events. No run reaches a failure point, and every
run's trace has the shape of `TraceShape`.
-/

namespace Dlep

open EmittedEvent (isSessionUp isSessionDown isSessionData)

theorem LifeStep.stepShape {refusal : Message → Option DataItem} {leak same moved : Prop}
    {v v' : LifeView} {event : FsmEvent} {actions : List FsmAction}
    (h : LifeStep refusal leak same moved v event v' actions) :
    StepShape ⟨v.phase, event, actions, v'.phase⟩ := by
  cases h with
  | rejected => exact .stays rfl (by simp [isSessionUp, isSessionDown, isSessionData]) (by simp)
  | ignored => exact .stays rfl (by simp) (by simp)
  | works hp _ hactions =>
    exact .works hp hp fun e he => EmittedEvent.of_isSessionData (emits_of_works hactions e he)
  | opens sent hp =>
    refine .opens hp rfl ?_
    cases sent <;> rfl
  | enters hp _ _ _ _ hemit hrest =>
    exact .enters hp rfl _ _ hemit fun e he => EmittedEvent.of_isSessionData (hrest e he)
  | ends _ h =>
    cases h with
    | closes hp => exact .closes hp rfl rfl
    | @abandons status acts hp _ hacts =>
      refine .ends (.inl hp) rfl status ?_ (by simp [hp]) (by simp [hp])
      rw [emittedEvents_append, (quiet_of_control hacts).2]
      rfl
    | fails hp => exact .fails hp rfl rfl _ rfl rfl
    | missed hp | shutdown hp => exact .fails (.inr (.inr hp)) rfl rfl _ rfl rfl
    | peerTerminated hp =>
      exact .ends (.inr (.inl hp)) rfl _ rfl (by simp [hp]) fun _ _ => ⟨_, rfl, rfl⟩
    | transportClosed hp hevent =>
      exact .ends (.inr (.inl hp)) rfl _ rfl (by simp [hp]) (by simp [hevent])
    | answered hp | expired hp | dropped hp =>
      exact .ends (.inr (.inr hp)) rfl _ rfl (by simp) (by simp [hp])

/-! ## The modem -/

namespace ModemSessionFsm

/-- A recorded step. -/
abbrev Entry : Type := Machine.Entry ModemSessionFsm FsmEvent (List FsmAction)

/-- Feed a modem built from `config` the events one after another. -/
def run (config : SessionConfig) (events : List FsmEvent) :
    Outcome (ModemSessionFsm × List Entry) :=
  Machine.run step (withConfig config) events

def observe (e : Entry) : Observation := ⟨e.before.state.phase, e.input, e.output, e.after.state.phase⟩

variable {s s' : ModemSessionFsm} {event : FsmEvent} {actions : List FsmAction}

theorem phase_eq_inSession {state : ModemSessionState} (h : state.phase = .inSession) :
    state = .inSession := by
  cases state <;> first
    | rfl
    | cases h

@[simp] theorem emittedEvents_reset (s : ModemSessionFsm) : emittedEvents s.heartbeatReset = [] :=
  emittedEvents_heartbeatReset _ _

@[simp] theorem sentMessages_reset (s : ModemSessionFsm) : sentMessages s.heartbeatReset = [] :=
  sentMessages_heartbeatReset _ _

/-- The handshake's last step reports the session before anything else. -/
theorem emittedEvents_sessionUpActions (s : ModemSessionFsm) :
    ∃ rest, emittedEvents s.sessionUpActions = .sessionUp s.peerExtensions :: rest ∧
      ∀ e ∈ rest, e.isSessionData = true := by
  refine ⟨_, by simp only [sessionUpActions, emittedEvents_append, emittedEvents_reset]; rfl, ?_⟩
  split <;> simp [isSessionData]

theorem Transition.lifeStep (h : s.Transition event s' actions) :
    LifeStep s.refusal False (s' = s)
      (s' = { s with state := s'.state, terminationReason := s'.terminationReason }) s.view event
      s'.view actions := by
  cases h with
  | rejected hcmd => exact .rejected hcmd rfl
  | ignored h => exact .ignored h rfl
  | accepted hs => exact .opens none (phase_view hs) rfl rfl nofun
  | @initialized msg hs hok ht =>
    obtain ⟨d, hd, hvalid⟩ := (init_of_refusal hs hok).1.heartbeat (by rw [ht]; decide)
    have hinterval : (s.initialized msg).peerHeartbeatInterval = some d := hd
    obtain ⟨rest, hemit, hrest⟩ := emittedEvents_sessionUpActions (s.initialized msg)
    have hview : (s.initialized msg).view = { s.view with phase := .inSession, interval := some d } :=
      congrArg (LifeView.mk _ _) hd
    rw [hview]
    refine .enters (phase_view hs) rfl (by rw [Message.initializes, ht]; rfl) hd hvalid hemit hrest
      ?_ ?_ (by simp [sessionUpActions, heartbeatReset, hinterval]; rfl)
    · intro m hm
      have hm : m = buildSessionInitializationResponse (s.initialized msg).config := by
        simpa [sessionUpActions] using hm
      rw [hm, Message.initializes, messageType_buildSessionInitializationResponse]
      rfl
    · simp only [sessionUpActions, heartbeatReset]
      split <;> simp
  | ends h =>
    show LifeStep _ _ _ _ _ _ ⟨(ModemSessionState.ofPhase _).phase, _, _⟩ _
    rw [ModemSessionState.phase_ofPhase]
    refine .ends ?_ h rfl
    rintro code text ⟨-, ⟨rfl, -⟩ | ⟨msg, rfl, hrefused⟩⟩
    · exact ⟨nofun, fun _ => rfl⟩
    · exact ⟨nofun, fun _ => by rw [FsmEvent.endingCode, hrefused]⟩
  | alive hs hevent =>
    rcases hevent with rfl | ⟨msg, rfl, -, ht⟩
    · exact .works (phase_view hs) rfl (works_heartbeatReset _ _) (timerActions_heartbeatReset _ _)
    · exact .heard (phase_view hs) ht rfl [] rfl rfl
  | beat hs | added hs | metricsDeferred hs | metricsSent hs | addressesKept hs | addressesSent hs
  | forgotten hs | dropSent hs | linkAnswered hs | sessionMetricsSent hs | sessionAddressesKept hs
  | sessionAddressesSent hs => exact .works (phase_view hs) rfl rfl rfl
  | refused hs _ ht | dropAnswered hs _ ht | sessionAnswered hs _ ht =>
    exact .heard (phase_view hs) ht rfl [] rfl rfl
  | withdrawn hs _ ht | announceDenied hs _ ht | announceGranted hs _ ht
  | linkDeferred hs _ ht | linkDenied hs _ ht => exact .heard (phase_view hs) ht rfl _ rfl rfl
  | sessionUpdated hs _ ht =>
    refine .heard (phase_view hs) ht rfl _ ?_ ?_
    · split <;> rfl
    · split <;> rfl
  | @acknowledged msg mac d hs _ ht =>
    refine .heard (phase_view hs) ht rfl _ ?_ (timerActions_optional _)
    cases h : deferredUpdate mac d with
    | none => rfl
    | some m =>
      have hdata : m.isData = true := by
        rw [Message.isData, Message.isTermination, Message.initializes, messageType_deferredUpdate h]
        rfl
      simp [FsmAction.works, hdata]

theorem lawful : Machine.Lawful step Consistent Transition := ⟨step_spec, fun hc h => h.consistent hc⟩

theorem Transition.stepShape (h : s.Transition event s' actions) :
    StepShape ⟨s.state.phase, event, actions, s'.state.phase⟩ :=
  h.lifeStep.stepShape

theorem run_ok (config : SessionConfig) (events : List FsmEvent) :
    ∃ s trace, run config events = .ok (s, trace) :=
  Machine.run_total lawful.step_total events (consistent_withConfig config)

/-- Every run keeps the modem consistent and walks through the phases. -/
theorem run_walk {config : SessionConfig} {events : List FsmEvent} {t : ModemSessionFsm}
    {trace : List Entry} (h : run config events = .ok (t, trace)) :
    t.Consistent ∧ Walk .idle (trace.map observe) t.state.phase := by
  have hc := consistent_withConfig config
  refine ⟨lawful.run_inv hc h, lawful.run_history ?_ hc .nil h⟩
  intro s trace event s' actions hc hwalk ht
  rw [List.map_append]
  exact Walk.snoc (o := ⟨s.state.phase, event, actions, s'.state.phase⟩) hwalk ht.stepShape

end ModemSessionFsm

/-! ## The router -/

namespace RouterSessionFsm

/-- A recorded step. -/
abbrev Entry : Type := Machine.Entry RouterSessionFsm FsmEvent (List FsmAction)

/-- Feed a router built from `config` the events one after another. -/
def run (config : SessionConfig) (events : List FsmEvent) :
    Outcome (RouterSessionFsm × List Entry) :=
  Machine.run step (withConfig config) events

def observe (e : Entry) : Observation := ⟨e.before.state.phase, e.input, e.output, e.after.state.phase⟩

variable {s s' : RouterSessionFsm} {event : FsmEvent} {actions : List FsmAction}

theorem phase_eq_inSession {state : RouterSessionState} (h : state.phase = .inSession) :
    state = .inSession := by
  cases state <;> first
    | rfl
    | cases h

@[simp] theorem emittedEvents_reset (s : RouterSessionFsm) : emittedEvents s.heartbeatReset = [] :=
  emittedEvents_heartbeatReset _ _

@[simp] theorem sentMessages_reset (s : RouterSessionFsm) : sentMessages s.heartbeatReset = [] :=
  sentMessages_heartbeatReset _ _

/-- The handshake's last step reports the session before anything else. -/
theorem emittedEvents_sessionUpActions (s : RouterSessionFsm) :
    ∃ rest, emittedEvents s.sessionUpActions = .sessionUp s.peerExtensions :: rest ∧
      ∀ e ∈ rest, e.isSessionData = true := by
  refine ⟨_, by simp only [sessionUpActions, emittedEvents_append, emittedEvents_reset]; rfl, ?_⟩
  split <;> simp [isSessionData]

theorem Transition.lifeStep (h : s.Transition event s' actions) :
    LifeStep s.refusal (s.Leaks event) (s' = s)
      (s' = { s with state := s'.state, terminationReason := s'.terminationReason }) s.view event
      s'.view actions := by
  cases h with
  | rejected hcmd => exact .rejected hcmd rfl
  | ignored h => exact .ignored h rfl
  | connected hs => exact .opens (some _) (phase_view hs) rfl rfl nofun
  | @initialized msg hs hok ht =>
    obtain ⟨d, hd, hvalid⟩ := (init_of_refusal hs hok).1.heartbeat (by rw [ht]; decide)
    have hinterval : (s.initialized msg).peerHeartbeatInterval = some d := hd
    obtain ⟨rest, hemit, hrest⟩ := emittedEvents_sessionUpActions (s.initialized msg)
    have hview : (s.initialized msg).view = { s.view with phase := .inSession, interval := some d } :=
      congrArg (LifeView.mk _ _) hd
    rw [hview]
    refine .enters (phase_view hs) rfl (by rw [Message.initializes, ht]; rfl) hd hvalid hemit hrest
      ?_ ?_ (by simp [sessionUpActions, heartbeatReset, hinterval]; rfl)
    · simp [sessionUpActions]
    · simp only [sessionUpActions, heartbeatReset]
      split <;> simp
  | ends h =>
    show LifeStep _ _ _ _ _ _ ⟨(RouterSessionState.ofPhase _).phase, _, _⟩ _
    rw [RouterSessionState.phase_ofPhase]
    refine .ends ?_ h rfl
    rintro code text (⟨rfl, -⟩ | ⟨msg, rfl, hrefused | hinit⟩)
    · exact ⟨nofun, fun _ => rfl⟩
    · exact ⟨nofun, fun _ => by rw [FsmEvent.endingCode, hrefused]⟩
    · exact ⟨nofun, fun hp => by cases (phase_view hinit.pending).symm.trans hp⟩
  | alive hs hevent =>
    rcases hevent with rfl | ⟨msg, rfl, -, ht⟩
    · exact .works (phase_view hs) rfl (works_heartbeatReset _ _) (timerActions_heartbeatReset _ _)
    · exact .heard (phase_view hs) ht rfl [] rfl rfl
  | beat hs | dropSent hs | announceSent hs | linkSent hs | sessionAddressesKept hs
  | sessionAddressesSent hs => exact .works (phase_view hs) rfl rfl rfl
  | announceDenied hs _ ht | sessionAnswered hs _ ht =>
    exact .heard (phase_view hs) ht rfl [] rfl rfl
  | upReceived hs _ ht | downReceived hs _ ht | dropAnswered hs _ ht | announceGranted hs _ ht
  | linkAnswered hs _ ht => exact .heard (phase_view hs) ht rfl _ rfl rfl
  | updateReceived hs _ ht | sessionUpdated hs _ ht =>
    refine .heard (phase_view hs) ht rfl _ ?_ ?_
    · split <;> split <;> rfl
    · split <;> split <;> rfl

theorem lawful : Machine.Lawful step Consistent Transition := ⟨step_spec, fun hc h => h.consistent hc⟩

theorem Transition.stepShape (h : s.Transition event s' actions) :
    StepShape ⟨s.state.phase, event, actions, s'.state.phase⟩ :=
  h.lifeStep.stepShape

theorem run_ok (config : SessionConfig) (events : List FsmEvent) :
    ∃ s trace, run config events = .ok (s, trace) :=
  Machine.run_total lawful.step_total events (consistent_withConfig config)

/-- Every run keeps the router consistent and walks through the phases. -/
theorem run_walk {config : SessionConfig} {events : List FsmEvent} {t : RouterSessionFsm}
    {trace : List Entry} (h : run config events = .ok (t, trace)) :
    t.Consistent ∧ Walk .idle (trace.map observe) t.state.phase := by
  have hc := consistent_withConfig config
  refine ⟨lawful.run_inv hc h, lawful.run_history ?_ hc .nil h⟩
  intro s trace event s' actions hc hwalk ht
  rw [List.map_append]
  exact Walk.snoc (o := ⟨s.state.phase, event, actions, s'.state.phase⟩) hwalk ht.stepShape

end RouterSessionFsm

/-! ## Panic freedom -/

/-- Every run of either machine completes, and the state it reaches handles any
further event without reaching a failure point. -/
theorem session_never_panics (config : SessionConfig) (events : List FsmEvent) (event : FsmEvent) :
    (∃ s trace s' actions, RouterSessionFsm.run config events = .ok (s, trace) ∧
      s.step event = .ok (s', actions)) ∧
    (∃ s trace s' actions, ModemSessionFsm.run config events = .ok (s, trace) ∧
      s.step event = .ok (s', actions)) := by
  constructor
  · obtain ⟨s, trace, hrun⟩ := RouterSessionFsm.run_ok config events
    obtain ⟨s', actions, hstep, -⟩ :=
      RouterSessionFsm.step_spec (RouterSessionFsm.run_walk hrun).1 event
    exact ⟨s, trace, s', actions, hrun, hstep⟩
  · obtain ⟨s, trace, hrun⟩ := ModemSessionFsm.run_ok config events
    obtain ⟨s', actions, hstep, -⟩ :=
      ModemSessionFsm.step_spec (ModemSessionFsm.run_walk hrun).1 event
    exact ⟨s, trace, s', actions, hrun, hstep⟩

/-! ## Trace shape -/

/-- Every event sequence gives either machine a trace of the session shape. -/
theorem session_traceShape (config : SessionConfig) (events : List FsmEvent) :
    (∃ s trace, RouterSessionFsm.run config events = .ok (s, trace) ∧
      TraceShape (trace.map RouterSessionFsm.observe)) ∧
    (∃ s trace, ModemSessionFsm.run config events = .ok (s, trace) ∧
      TraceShape (trace.map ModemSessionFsm.observe)) := by
  constructor
  · obtain ⟨s, trace, hrun⟩ := RouterSessionFsm.run_ok config events
    exact ⟨s, trace, hrun, (RouterSessionFsm.run_walk hrun).2.traceShape⟩
  · obtain ⟨s, trace, hrun⟩ := ModemSessionFsm.run_ok config events
    exact ⟨s, trace, hrun, (ModemSessionFsm.run_walk hrun).2.traceShape⟩

end Dlep
