-- SUMMARY: Timed runs of both session state machines: the armed timers of every state and the exact missed-heartbeat deadline.
import Dlep.Fsm.Timers

/-!
# Timed runs

A timed run feeds a state machine events stamped with the time they are processed at,
and keeps the table of timers that its actions arm. Both results hold for arbitrary
stamps; what they ask of a run is that no timer expires that is not armed.
-/

namespace Dlep

open Timers Machine

/-! ## Roles -/

/-- What the timed results need of a session state machine. -/
structure TimedRole (σ : Type) where
  step : σ → FsmEvent → Outcome (σ × List FsmAction)
  start : SessionConfig → σ
  phase : σ → Phase
  interval : σ → Option Duration
  leaks : σ → FsmEvent → Prop
  Inv : σ → Prop
  inv_start : ∀ config, Inv (start config)
  idle_start : ∀ config, phase (start config) = .idle
  total : ∀ s event, Inv s → ∃ s' actions, step s event = .ok (s', actions) ∧ Inv s'
  timed : ∀ s event s' actions, Inv s → step s event = .ok (s', actions) →
    TimerStep (leaks s event) (phase s) (interval s) event (timerActions actions) (phase s')
      (interval s')

def modemRole : TimedRole ModemSessionFsm where
  step := ModemSessionFsm.step
  start := ModemSessionFsm.withConfig
  phase s := s.state.phase
  interval s := s.peerHeartbeatInterval
  leaks _ _ := False
  Inv := ModemSessionFsm.Consistent
  inv_start := ModemSessionFsm.consistent_withConfig
  idle_start _ := rfl
  total := ModemSessionFsm.lawful.step_total
  timed _ _ _ _ hc hstep := (ModemSessionFsm.lawful.trans hc hstep).lifeStep.timerStep

def routerRole : TimedRole RouterSessionFsm where
  step := RouterSessionFsm.step
  start := RouterSessionFsm.withConfig
  phase s := s.state.phase
  interval s := s.peerHeartbeatInterval
  leaks := RouterSessionFsm.Leaks
  Inv := RouterSessionFsm.Consistent
  inv_start := RouterSessionFsm.consistent_withConfig
  idle_start _ := rfl
  total := RouterSessionFsm.lawful.step_total
  timed _ _ _ _ hc hstep := (RouterSessionFsm.lawful.trans hc hstep).lifeStep.timerStep

namespace TimedRole

variable {σ : Type} (R : TimedRole σ)

/-- A state machine and the timers of its session task. -/
abbrev State (_ : TimedRole σ) : Type := Driven σ TimerId TimerKind

/-- A recorded step of a timed run. -/
abbrev Entry (R : TimedRole σ) : Type := Machine.Entry R.State (ℕ × FsmEvent) (List FsmAction)

/-- Feed a fresh state machine stamped events one after another. -/
def run (config : SessionConfig) (inputs : List (ℕ × FsmEvent)) : Outcome (R.State × List R.Entry) :=
  Machine.run (drive R.step FsmEvent.expiry timerOps) ⟨R.start config, ∅⟩ inputs

theorem run_ok (config : SessionConfig) (inputs : List (ℕ × FsmEvent)) :
    ∃ c trace, R.run config inputs = .ok (c, trace) :=
  run_drive_total R.total inputs (R.inv_start config)

theorem input_mem {R : TimedRole σ} {config : SessionConfig} {inputs : List (ℕ × FsmEvent)}
    {c : R.State} {trace : List R.Entry} (hrun : R.run config inputs = .ok (c, trace)) :
    ∀ e ∈ trace, e.input ∈ inputs := by
  intro e he
  rw [← run_inputs hrun]
  exact List.mem_map_of_mem he

/-- The table after a step, read off its timer actions. -/
theorem after_eq (now : ℕ) (t : TimerTable) (event : FsmEvent) (actions : List FsmAction) :
    after FsmEvent.expiry timerOps now t event actions =
      applyAll now (expired FsmEvent.expiry now t event) (timerOps (timerActions actions)) := by
  rw [timerOps_timerActions]
  rfl

/-! ## What is armed -/

/-- A machine in a valid state whose session, if it has one, has a usable interval. -/
structure Sane (s : σ) : Prop where
  inv : R.Inv s
  interval : R.phase s = .inSession → ∃ d, R.interval s = some d ∧ d.Heartbeat

variable {R}

theorem sane_start (config : SessionConfig) : R.Sane (R.start config) :=
  ⟨R.inv_start config, fun h => by rw [R.idle_start] at h; cases h⟩

theorem Sane.step {s s' : σ} {event : FsmEvent} {actions : List FsmAction} (h : R.Sane s)
    (hstep : R.step s event = .ok (s', actions)) : R.Sane s' := by
  refine ⟨?_, (R.timed s event s' actions h.inv hstep).heartbeat h.interval⟩
  obtain ⟨s'', actions', hstep', hinv⟩ := R.total s event h.inv
  cases hstep.symm.trans hstep'
  exact hinv

/-- Where no step leaks, what is armed is a function of the phase. -/
theorem run_armed {config : SessionConfig} {inputs : List (ℕ × FsmEvent)} {c : R.State}
    {trace : List R.Entry} (hrun : R.run config inputs = .ok (c, trace))
    (hgenuine : Genuine FsmEvent.expiry trace)
    (hleaks : ∀ e ∈ trace, ¬ R.leaks e.before.machine e.input.2) :
    armed c.timers = (R.phase c.machine).timers := by
  refine (run_genuine (J := fun c trace => R.Sane c.machine ∧
    ((∀ e ∈ trace, ¬ R.leaks e.before.machine e.input.2) →
      armed c.timers = (R.phase c.machine).timers)) ?_ ⟨sane_start config, ?_⟩ hrun hgenuine).2 hleaks
  · rintro c trace now event s' actions ⟨hsane, harmed⟩ - hfires hstep
    refine ⟨hsane.step hstep, fun hleaks => ?_⟩
    have hpast := harmed fun e he => hleaks e (List.mem_append_left _ he)
    have hleak := hleaks _ (List.mem_append_right _ List.mem_cons_self)
    rw [after_eq]
    exact (R.timed _ _ _ _ hsane.inv hstep).armed hleak hsane.interval hpast hfires
  · intro _
    rw [R.idle_start]
    rfl

/-! ## The missed-heartbeat deadline -/

variable (R)

/-- The step received a message and was in session after it. -/
def heard (e : R.Entry) : Bool :=
  e.input.2.received && decide (R.phase e.after.machine = .inSession)

/-- The step entered the session. -/
def enters (e : R.Entry) : Bool :=
  decide (R.phase e.before.machine ≠ .inSession) && decide (R.phase e.after.machine = .inSession)

/-- When the last such message arrived. -/
def lastHeard (trace : List R.Entry) : Option ℕ :=
  (trace.filter R.heard).getLast?.map fun e => e.input.1

/-- The interval announced in the message that opened the session. -/
def announced (trace : List R.Entry) : Option Duration :=
  (trace.find? R.enters).bind fun e =>
    match e.input.2 with
    | .recvMessage msg => extractHeartbeatInterval msg
    | _ => none

/-- The deadline is twice the peer's interval after its last message, every message
resets it exactly once, and nothing else moves it. -/
structure ExactDeadline (c : R.State) (trace : List R.Entry) : Prop where
  deadline : R.phase c.machine = .inSession →
    ∃ arrival d, R.lastHeard trace = some arrival ∧ R.announced trace = some d ∧
      10 ^ 9 ≤ d.nanos ∧
      c.timers.lookup TIMER_HEARTBEAT_MISSED =
        some ⟨.heartbeatMissed, arrival + d.nanos * 2, none⟩
  reset : ∀ e ∈ trace, R.heard e = true → e.output.countP FsmAction.isReset = 1
  steady : ∀ e ∈ trace, R.phase e.after.machine = .inSession → e.input.2.received = false →
    e.after.timers.lookup TIMER_HEARTBEAT_MISSED = e.before.timers.lookup TIMER_HEARTBEAT_MISSED

/-- What a run keeps besides: the interval in use is the announced one, and a session
that has not begun has not been entered. -/
structure DeadlineInv (c : R.State) (trace : List R.Entry) : Prop extends
    R.ExactDeadline c trace where
  sane : R.Sane c.machine
  inUse : R.phase c.machine = .inSession → R.announced trace = R.interval c.machine
  fresh : R.phase c.machine = .idle ∨ R.phase c.machine = .opening → trace.find? R.enters = none

variable {R}

/-- In a session, only its own expiry touches the armed deadline. -/
theorem lookup_missed_expired {t : TimerTable} {event : FsmEvent} {due : ℕ} (now : ℕ)
    (ht : t.lookup TIMER_HEARTBEAT_MISSED = some ⟨.heartbeatMissed, due, none⟩)
    (hfires : Fires FsmEvent.expiry t event)
    (hdeadline : ∀ id kind, event = .timerExpired id kind → kind ≠ .heartbeatMissed) :
    (expired FsmEvent.expiry now t event).lookup TIMER_HEARTBEAT_MISSED =
      t.lookup TIMER_HEARTBEAT_MISSED := by
  unfold expired
  split
  · rename_i id kind hexpiry
    obtain ⟨a, ha, hkind⟩ := hfires id kind hexpiry
    refine lookup_expire_of_ne now fun hid => ?_
    subst hid
    cases ht.symm.trans ha
    exact hdeadline _ _ (FsmEvent.expiry_eq_some.mp hexpiry) hkind.symm
  · rfl

section

variable {trace : List R.Entry} {e : R.Entry}

theorem lastHeard_snoc_of_heard (h : R.heard e = true) :
    R.lastHeard (trace ++ [e]) = some e.input.1 := by
  unfold lastHeard
  rw [List.filter_append, List.filter_cons_of_pos h, List.filter_nil, List.getLast?_concat]
  rfl

theorem lastHeard_snoc_of_not_heard (h : R.heard e = false) :
    R.lastHeard (trace ++ [e]) = R.lastHeard trace := by
  unfold lastHeard
  rw [List.filter_append, List.filter_cons_of_neg (by simp [h]), List.filter_nil, List.append_nil]

/-- The session is opened once. -/
theorem announced_snoc {d : Duration} (h : R.announced trace = some d) :
    R.announced (trace ++ [e]) = some d := by
  unfold announced at h ⊢
  obtain ⟨first, hfirst, -⟩ := Option.bind_eq_some_iff.mp h
  rw [List.find?_append, hfirst, Option.some_or, ← hfirst, h]

theorem announced_snoc_of_enters {msg : Message} (hfresh : trace.find? R.enters = none)
    (he : R.enters e = true) (hmsg : e.input.2 = .recvMessage msg) :
    R.announced (trace ++ [e]) = extractHeartbeatInterval msg := by
  unfold announced
  rw [List.find?_append, hfresh, Option.none_or, List.find?_cons_of_pos he, Option.bind_some, hmsg]

theorem find?_enters_snoc (hfresh : trace.find? R.enters = none)
    (he : R.phase e.after.machine ≠ .inSession) : (trace ++ [e]).find? R.enters = none := by
  have hnot : ¬ R.enters e = true := by
    intro henters
    exact he (of_decide_eq_true (Bool.and_eq_true_iff.mp henters).2)
  rw [List.find?_append, hfresh, Option.none_or, List.find?_cons_of_neg hnot, List.find?_nil]

end

/-- The deadline after a reset. -/
theorem lookup_missed_reset {d : Duration} (hd : d.Heartbeat) (t : TimerTable) (now : ℕ)
    (actions : List FsmAction) :
    (applyAll now t (timerOps (actions ++
      (heartbeatResetAction TIMER_HEARTBEAT_MISSED (some d)).toList))).lookup
        TIMER_HEARTBEAT_MISSED = some ⟨.heartbeatMissed, now + d.nanos * 2, none⟩ := by
  rw [timerOps, List.filterMap_append, applyAll_append, hd.reset]
  exact (lookup_arm ..).trans (if_pos rfl)

theorem DeadlineInv.start (config : SessionConfig) :
    R.DeadlineInv ⟨R.start config, ∅⟩ [] := by
  have hidle : R.phase (R.start config) ≠ .inSession := by
    rw [R.idle_start]
    exact fun h => nomatch h
  exact { deadline := fun h => absurd h hidle, reset := by simp, steady := by simp,
          sane := sane_start config, inUse := fun h => absurd h hidle, fresh := fun _ => rfl }

section

variable {c : R.State} {trace : List R.Entry} {now : ℕ} {event : FsmEvent} {s' : σ}
  {actions : List FsmAction} {t' : TimerTable}

/-- A step that ends outside a session has nothing to show for the deadline. -/
theorem DeadlineInv.leave (h : R.DeadlineInv c trace)
    (hstep : R.step c.machine event = .ok (s', actions)) (hs' : R.phase s' ≠ .inSession) :
    R.DeadlineInv ⟨s', t'⟩ (trace ++ [⟨c, (now, event), actions, ⟨s', t'⟩⟩]) where
  deadline hp := absurd hp hs'
  reset e he hheard := by
    rcases List.mem_append.mp he with he | he
    · exact h.reset e he hheard
    · rw [List.mem_singleton.mp he] at hheard
      exact absurd (of_decide_eq_true (Bool.and_eq_true_iff.mp hheard).2) hs'
  steady e he hp := by
    rcases List.mem_append.mp he with he | he
    · exact h.steady e he hp
    · rw [List.mem_singleton.mp he] at hp
      exact absurd hp hs'
  sane := h.sane.step hstep
  inUse hp := absurd hp hs'
  fresh hp := find?_enters_snoc
    (h.fresh ((R.timed _ _ _ _ h.sane.inv hstep).notBegun hp)) hs'

/-- A step that ends in the session, from what it does to the deadline. -/
theorem DeadlineInv.stay (h : R.DeadlineInv c trace)
    (hstep : R.step c.machine event = .ok (s', actions)) (hs' : R.phase s' = .inSession)
    {e : R.Entry} (he : e = ⟨c, (now, event), actions, ⟨s', t'⟩⟩) {arrival : ℕ} {d : Duration}
    (hlast : R.lastHeard (trace ++ [e]) = some arrival)
    (hannounced : R.announced (trace ++ [e]) = some d) (hinterval : R.interval s' = some d)
    (hd : d.Heartbeat)
    (hlookup : t'.lookup TIMER_HEARTBEAT_MISSED =
      some ⟨.heartbeatMissed, arrival + d.nanos * 2, none⟩)
    (hreset : event.received = true → actions.countP FsmAction.isReset = 1)
    (hsteady : event.received = false →
      t'.lookup TIMER_HEARTBEAT_MISSED = c.timers.lookup TIMER_HEARTBEAT_MISSED) :
    R.DeadlineInv ⟨s', t'⟩ (trace ++ [e]) where
  deadline _ := ⟨arrival, d, hlast, hannounced, hd.second, hlookup⟩
  reset e' he' hheard := by
    rcases List.mem_append.mp he' with he' | he'
    · exact h.reset e' he' hheard
    · rw [List.mem_singleton.mp he', he] at hheard ⊢
      exact hreset (Bool.and_eq_true_iff.mp hheard).1
  steady e' he' hp hreceived := by
    rcases List.mem_append.mp he' with he' | he'
    · exact h.steady e' he' hp hreceived
    · rw [List.mem_singleton.mp he', he] at hreceived ⊢
      exact hsteady hreceived
  sane := h.sane.step hstep
  inUse _ := hannounced.trans hinterval.symm
  fresh hp := by
    rcases hp with hp | hp <;> cases hs'.symm.trans hp

theorem DeadlineInv.step (h : R.DeadlineInv c trace) (hfires : Fires FsmEvent.expiry c.timers event)
    (hstep : R.step c.machine event = .ok (s', actions)) :
    R.DeadlineInv ⟨s', after FsmEvent.expiry timerOps now c.timers event actions⟩
      (trace ++ [⟨c, (now, event), actions,
        ⟨s', after FsmEvent.expiry timerOps now c.timers event actions⟩⟩]) := by
  by_cases hs' : R.phase s' = .inSession
  · have hsession := (R.timed _ _ _ _ h.sane.inv hstep).inSession hs'
    have hcount := countP_isReset_timerActions actions
    rw [after_eq]
    generalize timerActions actions = acts at hsession hcount ⊢
    generalize hinterval : R.interval s' = interval at hsession
    cases hsession with
    | kept hp hevent hdeadline =>
      obtain ⟨arrival, d, hlast, hannounced, -, hlookup⟩ := h.deadline hp
      obtain ⟨d', hd', hvalid⟩ := h.sane.interval hp
      obtain rfl : d = d' := Option.some.inj (hannounced.symm.trans ((h.inUse hp).trans hd'))
      have hkept := lookup_missed_expired now hlookup hfires hdeadline
      refine h.stay hstep hs' rfl (?_ : _ = some arrival) (announced_snoc hannounced)
        (hinterval.trans hd') hvalid (hkept.trans hlookup) ?_ fun _ => hkept
      · rw [lastHeard_snoc_of_not_heard (by simp [heard, hevent]), hlast]
      · intro hreceived
        cases hevent.symm.trans hreceived
    | heard hp hevent =>
      obtain ⟨d, hd, hvalid⟩ := h.sane.interval hp
      have hannounced := (h.inUse hp).trans hd
      rw [hd] at hcount ⊢
      refine h.stay hstep hs' rfl (lastHeard_snoc_of_heard (by simp [heard, hevent, hs']))
        (announced_snoc hannounced) (hinterval.trans hd) hvalid
        (lookup_missed_reset hvalid _ now []) ?_ ?_
      · intro _
        rw [← hcount, hvalid.reset]
        rfl
      · intro hreceived
        cases hevent.symm.trans hreceived
    | @entered msg d duration hp hevent hd hvalid =>
      subst hevent
      refine h.stay hstep hs' rfl (lastHeard_snoc_of_heard (by simp [heard, hs', FsmEvent.received]))
        ((announced_snoc_of_enters (h.fresh (.inr hp)) (by simp [enters, hp, hs']) rfl).trans hd)
        hinterval hvalid (lookup_missed_reset hvalid _ now _) ?_ ?_
      · intro _
        rw [← hcount, hvalid.reset]
        rfl
      · intro hreceived
        cases hreceived
  · exact h.leave hstep hs'

end

/-- Every timed run keeps the exact deadline. -/
theorem run_exactDeadline {config : SessionConfig} {inputs : List (ℕ × FsmEvent)} {c : R.State}
    {trace : List R.Entry} (hrun : R.run config inputs = .ok (c, trace))
    (hgenuine : Genuine FsmEvent.expiry trace) : R.ExactDeadline c trace :=
  (run_genuine (J := R.DeadlineInv) (fun _ _ _ _ _ _ h _ hfires hstep => h.step hfires hstep)
    (DeadlineInv.start config) hrun hgenuine).toExactDeadline

end TimedRole

/-! ## Results -/

/-- What is armed after every step is a function of the state: for the modem in every
run, for the router in every run in which its transport does not close while it waits
for the Session Initialization Response. -/
theorem armed_timers_of_state (config : SessionConfig) (inputs : List (ℕ × FsmEvent)) :
    (∃ c trace, modemRole.run config inputs = .ok (c, trace) ∧
      (Genuine FsmEvent.expiry trace → armed c.timers = c.machine.state.phase.timers)) ∧
    ∃ c trace, routerRole.run config inputs = .ok (c, trace) ∧
      (Genuine FsmEvent.expiry trace →
        (∀ e ∈ trace, e.before.machine.state = .sessionInitPending → e.input.2 ≠ .tcpClosed) →
        armed c.timers = c.machine.state.phase.timers) := by
  constructor
  · obtain ⟨c, trace, hrun⟩ := modemRole.run_ok config inputs
    refine ⟨c, trace, hrun, fun hgenuine => ?_⟩
    exact TimedRole.run_armed hrun hgenuine fun _ _ hleak => hleak
  · obtain ⟨c, trace, hrun⟩ := routerRole.run_ok config inputs
    refine ⟨c, trace, hrun, fun hgenuine hopen => ?_⟩
    exact TimedRole.run_armed hrun hgenuine fun e he hleak => hopen e he hleak.1 hleak.2

/-- The router's transport closes during the handshake: the session is over, and the
timer of the handshake is still armed. -/
theorem router_init_timer_outlives_handshake :
    ∃ c trace, routerRole.run .default [(0, .tcpConnected), (1, .tcpClosed)] = .ok (c, trace) ∧
      Genuine FsmEvent.expiry trace ∧ c.machine.state = .terminated ∧
      armed c.timers TIMER_SESSION_INIT = some (.sessionInit, false) := by
  refine ⟨_, _, rfl, ?_, rfl, ?_⟩
  · simp [Genuine, Fires, FsmEvent.expiry]
  · rfl

/-- A router in session with the heartbeat timers armed, and only those. -/
theorem armed_timers_of_state_session :
    ∃ c trace, routerRole.run .default [(0, .tcpConnected),
        (5, .recvMessage (buildSessionInitializationResponse .default))] = .ok (c, trace) ∧
      c.machine.state = .inSession ∧ armed c.timers = Phase.inSession.timers := by
  obtain ⟨-, c, trace, hrun, harmed⟩ := armed_timers_of_state .default [(0, .tcpConnected),
    (5, .recvMessage (buildSessionInitializationResponse .default))]
  have hstate : (routerRole.run .default [(0, .tcpConnected),
      (5, .recvMessage (buildSessionInitializationResponse .default))]).map
        (fun r => r.1.machine.state) = .ok .inSession := by decide +kernel
  rw [hrun] at hstate
  have hsession : c.machine.state = .inSession := Except.ok.inj hstate
  have hplain : ∀ e ∈ trace, e.input.2.expiry = none ∧ e.input.2 ≠ .tcpClosed := by
    intro e he
    have hmem := TimedRole.input_mem hrun e he
    simp only [List.mem_cons, List.not_mem_nil, or_false] at hmem
    rcases hmem with h | h <;> rw [h] <;> exact ⟨rfl, by simp⟩
  refine ⟨c, trace, hrun, hsession, ?_⟩
  rw [harmed ?_ fun e he _ => (hplain e he).2, hsession]
  · rfl
  · intro e he id kind hexpiry
    cases (hplain e he).1.symm.trans hexpiry

/-- Both roles keep the exact missed-heartbeat deadline in every timed run. -/
theorem missed_deadline_exact (config : SessionConfig) (inputs : List (ℕ × FsmEvent)) :
    (∃ c trace, modemRole.run config inputs = .ok (c, trace) ∧
      (Genuine FsmEvent.expiry trace → modemRole.ExactDeadline c trace)) ∧
    ∃ c trace, routerRole.run config inputs = .ok (c, trace) ∧
      (Genuine FsmEvent.expiry trace → routerRole.ExactDeadline c trace) := by
  constructor
  · obtain ⟨c, trace, hrun⟩ := modemRole.run_ok config inputs
    exact ⟨c, trace, hrun, TimedRole.run_exactDeadline hrun⟩
  · obtain ⟨c, trace, hrun⟩ := routerRole.run_ok config inputs
    exact ⟨c, trace, hrun, TimedRole.run_exactDeadline hrun⟩

/-- A Heartbeat 15 s after the Session Initialization Response puts the deadline of a
60 s interval at 135 s after it. -/
theorem missed_deadline_exact_heartbeat :
    ∃ c trace, routerRole.run .default [(0, .tcpConnected),
        (0, .recvMessage (buildSessionInitializationResponse .default)),
        (15 * 10 ^ 9, .recvMessage buildHeartbeat)] = .ok (c, trace) ∧
      c.timers.lookup TIMER_HEARTBEAT_MISSED = some ⟨.heartbeatMissed, 135 * 10 ^ 9, none⟩ := by
  obtain ⟨-, c, trace, hrun, hexact⟩ := missed_deadline_exact .default [(0, .tcpConnected),
    (0, .recvMessage (buildSessionInitializationResponse .default)),
    (15 * 10 ^ 9, .recvMessage buildHeartbeat)]
  have hview : (routerRole.run .default [(0, .tcpConnected),
      (0, .recvMessage (buildSessionInitializationResponse .default)),
      (15 * 10 ^ 9, .recvMessage buildHeartbeat)]).map (fun r =>
        (r.1.machine.state, routerRole.lastHeard r.2, routerRole.announced r.2)) =
      .ok (.inSession, some (15 * 10 ^ 9), some (.ofMillis 60000)) := by decide +kernel
  rw [hrun] at hview
  obtain ⟨hsession, hview⟩ := Prod.mk.inj (Except.ok.inj hview)
  obtain ⟨hlast, hannounced⟩ := Prod.mk.inj hview
  have hgenuine : Genuine FsmEvent.expiry trace := by
    intro e he id kind hexpiry
    have hmem := TimedRole.input_mem hrun e he
    simp only [List.mem_cons, List.not_mem_nil, or_false] at hmem
    rcases hmem with h | h | h <;> rw [h] at hexpiry <;> cases hexpiry
  obtain ⟨arrival, d, hlast', hannounced', -, hlookup⟩ :=
    (hexact hgenuine).deadline (congrArg RouterSessionState.phase hsession)
  cases hlast.symm.trans hlast'
  cases hannounced.symm.trans hannounced'
  exact ⟨c, trace, hrun, hlookup⟩

end Dlep
