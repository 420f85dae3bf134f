-- SUMMARY: Rejected commands and refused messages leave everything but the life cycle untouched.
import Dlep.Fsm.Safety

/-!
# Rejected input changes nothing

A command that fails its preflight is answered by `CommandRejected` and by nothing
else. A received message that is refused ends the session: it moves the state and
records the reason, and no part of it reaches the tables or the application.
-/

namespace Dlep

theorem emit_mem_iff {event : EmittedEvent} {actions : List FsmAction} :
    .emit event ∈ actions ↔ event ∈ emittedEvents actions := by
  constructor
  · intro h
    exact List.mem_filterMap.mpr ⟨_, h, rfl⟩
  · intro h
    obtain ⟨action, hmem, heq⟩ := List.mem_filterMap.mp h
    cases action <;> cases heq
    exact hmem

/-- How a protocol error, or the close of an unfinished initialization, ends a step. The
peer's Session Termination does not: it leads from the session straight to its end. -/
def Phase.FailsTo (before after : Phase) : Prop :=
  before ≠ .terminating ∧ after = .terminating ∨ before = .opening ∧ after = .terminated

namespace LifeStep

variable {refusal : Message → Option DataItem} {leak same moved : Prop} {v v' : LifeView}
  {event : FsmEvent} {actions : List FsmAction}

theorem rejected_only (h : LifeStep refusal leak same moved v event v' actions) :
    ∀ rejection, .emit (.commandRejected rejection) ∈ actions →
      actions = [.emit (.commandRejected rejection)] ∧ same := by
  intro rejection hmem
  rw [emit_mem_iff] at hmem
  cases h with
  | rejected _ hsame =>
    cases List.mem_singleton.mp hmem
    exact ⟨rfl, hsame⟩
  | ignored => cases hmem
  | works _ _ hactions => cases emits_of_works hactions _ hmem
  | opens sent => cases sent <;> cases hmem
  | enters _ _ _ _ _ hemit hrest =>
    rw [hemit, List.mem_cons] at hmem
    rcases hmem with h | h
    · cases h
    · cases hrest _ h
  | ends _ h =>
    obtain ⟨_, hdown⟩ := h.emitted _ hmem
    cases hdown

theorem failed_only (h : LifeStep refusal leak same moved v event v' actions)
    (hfails : v.phase.FailsTo v'.phase) :
    moved ∧ ∀ e ∈ emittedEvents actions, e.isSessionData = false := by
  cases h with
  | ends _ h hmoved =>
    refine ⟨hmoved, fun e he => ?_⟩
    obtain ⟨_, rfl⟩ := h.emitted e he
    rfl
  -- Every other step stays in its phase, opens the handshake or completes it.
  | rejected | ignored | works =>
    rcases hfails with ⟨hne, heq⟩ | ⟨heq, hne⟩
    · exact absurd heq hne
    · cases heq.symm.trans hne
  | opens | enters => rcases hfails with ⟨-, h⟩ | ⟨-, h⟩ <;> cases h

end LifeStep

/-! ## The router -/

namespace RouterSessionFsm

variable {s s' : RouterSessionFsm} {event : FsmEvent} {actions : List FsmAction}

def FailsTo (s s' : RouterSessionFsm) : Prop := s.state.phase.FailsTo s'.state.phase

/-- What a step may do with input it does not take. -/
structure Atomic (s : RouterSessionFsm) (event : FsmEvent) (s' : RouterSessionFsm)
    (actions : List FsmAction) : Prop where
  /-- A rejection is the only action, and the command has no effect. -/
  rejected : ∀ rejection, .emit (.commandRejected rejection) ∈ actions →
    actions = [.emit (.commandRejected rejection)] ∧ s' = s
  /-- A message that fails a check fails the session. -/
  refused : ∀ msg, event = .recvMessage msg → s.refusal msg ≠ none → s.FailsTo s'
  /-- A step that fails the session moves the state, and nothing is reported of its input. -/
  failed : s.FailsTo s' →
    s' = { s with state := s'.state, terminationReason := s'.terminationReason } ∧
      ∀ e ∈ emittedEvents actions, e.isSessionData = false

theorem failsTo_of_refusal {msg : Message} (hr : s.refusal msg ≠ none)
    (h : s.step (.recvMessage msg) = .ok (s', actions)) : s.FailsTo s' := by
  obtain ⟨item, hitem⟩ := Option.ne_none_iff_exists'.mp hr
  obtain ⟨code, text, rfl⟩ := refuse_status hitem
  rw [FailsTo, Phase.FailsTo]
  rcases (refuse_eq_some hitem).1 with hs | hs
  all_goals
    simp only [step, FsmEvent.command, hitem, protocolError, hs, reduceCtorEq, or_self, if_false]
      at h
    cases h
    exact .inl ⟨by simp [hs], rfl⟩

theorem atomic_of_step (hc : s.Consistent) (h : s.step event = .ok (s', actions)) :
    s.Atomic event s' actions := by
  have hlife := (lawful.trans hc h).lifeStep
  refine ⟨hlife.rejected_only, ?_, hlife.failed_only⟩
  rintro msg rfl hr
  exact failsTo_of_refusal hr h

end RouterSessionFsm

/-! ## The modem -/

namespace ModemSessionFsm

variable {s s' : ModemSessionFsm} {event : FsmEvent} {actions : List FsmAction}

def FailsTo (s s' : ModemSessionFsm) : Prop := s.state.phase.FailsTo s'.state.phase

/-- What a step may do with input it does not take. -/
structure Atomic (s : ModemSessionFsm) (event : FsmEvent) (s' : ModemSessionFsm)
    (actions : List FsmAction) : Prop where
  /-- A rejection is the only action, and the command has no effect. -/
  rejected : ∀ rejection, .emit (.commandRejected rejection) ∈ actions →
    actions = [.emit (.commandRejected rejection)] ∧ s' = s
  /-- A message that fails a check fails the session. -/
  refused : ∀ msg, event = .recvMessage msg → s.refusal msg ≠ none → s.FailsTo s'
  /-- A step that fails the session moves the state, and nothing is reported of its input. -/
  failed : s.FailsTo s' →
    s' = { s with state := s'.state, terminationReason := s'.terminationReason } ∧
      ∀ e ∈ emittedEvents actions, e.isSessionData = false

theorem failsTo_of_refusal {msg : Message} (hr : s.refusal msg ≠ none)
    (h : s.step (.recvMessage msg) = .ok (s', actions)) : s.FailsTo s' := by
  obtain ⟨item, hitem⟩ := Option.ne_none_iff_exists'.mp hr
  obtain ⟨code, text, rfl⟩ := refuse_status hitem
  rw [FailsTo, Phase.FailsTo]
  simp only [step, FsmEvent.command, hitem, protocolError] at h
  -- During initialization the modem closes without a message.
  rcases (refuse_eq_some hitem).1 with hs | hs
  · simp only [hs, reduceCtorEq, or_self, if_false, if_true] at h
    cases h
    exact .inr ⟨by rw [hs]; rfl, rfl⟩
  · simp only [hs, reduceCtorEq, or_self, if_false] at h
    cases h
    exact .inl ⟨by simp [hs], rfl⟩

theorem atomic_of_step (hc : s.Consistent) (h : s.step event = .ok (s', actions)) :
    s.Atomic event s' actions := by
  have hlife := (lawful.trans hc h).lifeStep
  refine ⟨hlife.rejected_only, ?_, hlife.failed_only⟩
  rintro msg rfl hr
  exact failsTo_of_refusal hr h

end ModemSessionFsm

/-! ## Both roles -/

/-- In every state that any run of either machine reaches, input that is not taken
leaves no trace: a rejected command none at all, a refused message only the state and
the reason of the termination. -/
theorem rejected_input_changes_nothing (config : SessionConfig) (events : List FsmEvent)
    (event : FsmEvent) :
    (∃ s trace s' actions, RouterSessionFsm.run config events = .ok (s, trace) ∧
      s.step event = .ok (s', actions) ∧ s.Atomic event s' actions) ∧
    (∃ s trace s' actions, ModemSessionFsm.run config events = .ok (s, trace) ∧
      s.step event = .ok (s', actions) ∧ s.Atomic event s' actions) := by
  constructor
  · obtain ⟨s, trace, hrun⟩ := RouterSessionFsm.run_ok config events
    have hc := (RouterSessionFsm.run_walk hrun).1
    obtain ⟨s', actions, hstep, -⟩ := RouterSessionFsm.step_spec hc event
    exact ⟨s, trace, s', actions, hrun, hstep, RouterSessionFsm.atomic_of_step hc hstep⟩
  · obtain ⟨s, trace, hrun⟩ := ModemSessionFsm.run_ok config events
    have hc := (ModemSessionFsm.run_walk hrun).1
    obtain ⟨s', actions, hstep, -⟩ := ModemSessionFsm.step_spec hc event
    exact ⟨s, trace, s', actions, hrun, hstep, ModemSessionFsm.atomic_of_step hc hstep⟩

end Dlep
