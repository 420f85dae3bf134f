-- SUMMARY: The closed system: one router and one modem session joined by two FIFO queues.
import Dlep.Fsm.Safety

/-!
# The closed system

One router and one modem session, joined by two FIFO queues that deliver every
message unchanged. An input of the system is a local event of one side (an
application command, a timer, a transport event) or the delivery of the oldest
frame of one queue. A `close_tcp` action travels behind the messages sent before
it and arrives as the peer's `TcpClosed`.
-/

namespace Dlep

/-! ## Frames -/

/-- What travels from one side to the other. -/
inductive Frame where
  | message (m : Message)
  | close
  deriving DecidableEq, Repr

/-- The event a frame is delivered as. -/
def Frame.event : Frame → FsmEvent
  | .message m => .recvMessage m
  | .close => .tcpClosed

/-- The frames a list of actions puts on the wire, in order. -/
def frames (actions : List FsmAction) : List Frame :=
  actions.filterMap fun
    | .sendMessage m => some (.message m)
    | .closeTcp => some .close
    | _ => none

section

variable (as bs : List FsmAction)

@[simp] theorem frames_nil : frames [] = [] := rfl
@[simp] theorem frames_append : frames (as ++ bs) = frames as ++ frames bs := List.filterMap_append
@[simp] theorem frames_sendMessage (m : Message) :
    frames (.sendMessage m :: as) = .message m :: frames as := rfl
@[simp] theorem frames_closeTcp : frames (.closeTcp :: as) = .close :: frames as := rfl
@[simp] theorem frames_emit (e : EmittedEvent) : frames (.emit e :: as) = frames as := rfl
@[simp] theorem frames_startTimer (i : TimerId) (k : TimerKind) (d : Duration) (p : Bool) :
    frames (.startTimer i k d p :: as) = frames as := rfl
@[simp] theorem frames_cancelTimer (i : TimerId) : frames (.cancelTimer i :: as) = frames as := rfl
@[simp] theorem frames_ite (c : Prop) [Decidable c] :
    frames (if c then as else bs) = if c then frames as else frames bs := apply_ite frames c as bs

end

/-! ## The system -/

/-- The events that do not come from the peer. -/
def FsmEvent.isLocal : FsmEvent → Bool
  | .recvMessage _ => false
  | _ => true

abbrev LocalEvent : Type := { event : FsmEvent // event.isLocal = true }

structure System where
  router : RouterSessionFsm
  modem : ModemSessionFsm
  toRouter : List Frame
  toModem : List Frame
  deriving DecidableEq

namespace System

inductive Input where
  | router (event : LocalEvent)
  | modem (event : LocalEvent)
  | deliverToRouter
  | deliverToModem
  deriving DecidableEq, Repr

/-- The router handles an event; `rest` is what it leaves in its queue. -/
def routerStep (sys : System) (event : FsmEvent) (rest : List Frame) :
    Outcome (System × List FsmAction) := do
  let (router, actions) ← sys.router.step event
  .ok ({ sys with router, toRouter := rest, toModem := sys.toModem ++ frames actions }, actions)

/-- The modem handles an event; `rest` is what it leaves in its queue. -/
def modemStep (sys : System) (event : FsmEvent) (rest : List Frame) :
    Outcome (System × List FsmAction) := do
  let (modem, actions) ← sys.modem.step event
  .ok ({ sys with modem, toModem := rest, toRouter := sys.toRouter ++ frames actions }, actions)

/-- One input; delivering from an empty queue does nothing. -/
def step (sys : System) : Input → Outcome (System × List FsmAction)
  | .router event => sys.routerStep event.1 sys.toRouter
  | .modem event => sys.modemStep event.1 sys.toModem
  | .deliverToRouter =>
    match sys.toRouter with
    | [] => .ok (sys, [])
    | frame :: rest => sys.routerStep frame.event rest
  | .deliverToModem =>
    match sys.toModem with
    | [] => .ok (sys, [])
    | frame :: rest => sys.modemStep frame.event rest

/-- The router connected, the modem accepted; Session Initialization is on its way. -/
def start (routerConfig modemConfig : SessionConfig) : System where
  router := { RouterSessionFsm.withConfig routerConfig with state := .sessionInitPending }
  modem := { ModemSessionFsm.withConfig modemConfig with state := .awaitingSessionInit }
  toRouter := []
  toModem := [.message (buildSessionInitialization routerConfig)]

/-- A recorded step. -/
abbrev Entry : Type := Machine.Entry System Input (List FsmAction)

/-- Feed the started system the inputs one after another. -/
def run (routerConfig modemConfig : SessionConfig) (inputs : List Input) :
    Outcome (System × List Entry) :=
  Machine.run step (start routerConfig modemConfig) inputs

/-! ## What a step can do -/

/-- Every step: a side moves on a local event or on the frame at the head of its queue,
or nothing happens. -/
inductive Moves (sys : System) : Input → System → List FsmAction → Prop where
  | nothing {input} : Moves sys input sys []
  | routerLocal {event : LocalEvent} {router actions}
      (ht : sys.router.Transition event.1 router actions) :
      Moves sys (.router event)
        { sys with router := router, toModem := sys.toModem ++ frames actions } actions
  | modemLocal {event : LocalEvent} {modem actions}
      (ht : sys.modem.Transition event.1 modem actions) :
      Moves sys (.modem event)
        { sys with modem := modem, toRouter := sys.toRouter ++ frames actions } actions
  | routerReceives {frame rest router actions} (hqueue : sys.toRouter = frame :: rest)
      (ht : sys.router.Transition frame.event router actions) :
      Moves sys .deliverToRouter
        { sys with
          router := router, toRouter := rest, toModem := sys.toModem ++ frames actions } actions
  | modemReceives {frame rest modem actions} (hqueue : sys.toModem = frame :: rest)
      (ht : sys.modem.Transition frame.event modem actions) :
      Moves sys .deliverToModem
        { sys with
          modem := modem, toModem := rest, toRouter := sys.toRouter ++ frames actions } actions

/-- Both sides keep the facts their handlers rely on. -/
structure Consistent (sys : System) : Prop where
  router : sys.router.Consistent
  modem : sys.modem.Consistent

variable {sys : System}

theorem consistent_start (routerConfig modemConfig : SessionConfig) :
    (start routerConfig modemConfig).Consistent := by
  have hr := RouterSessionFsm.consistent_withConfig routerConfig
  have hm := ModemSessionFsm.consistent_withConfig modemConfig
  exact ⟨⟨hr.tracked, hr.up, hr.session⟩, ⟨hm.tracked, hm.deferred, hm.session⟩⟩

/-- Every input is handled without a panic, by one of the listed moves. -/
theorem step_spec (hc : sys.Consistent) (input : Input) :
    ∃ sys' actions, sys.step input = .ok (sys', actions) ∧ sys.Moves input sys' actions := by
  cases input with
  | router event =>
    obtain ⟨router, actions, hstep, ht⟩ := RouterSessionFsm.step_spec hc.router event.1
    exact ⟨_, _, by simp only [step, routerStep, hstep, bind, Except.bind], .routerLocal ht⟩
  | modem event =>
    obtain ⟨modem, actions, hstep, ht⟩ := ModemSessionFsm.step_spec hc.modem event.1
    exact ⟨_, _, by simp only [step, modemStep, hstep, bind, Except.bind], .modemLocal ht⟩
  | deliverToRouter =>
    cases hq : sys.toRouter with
    | nil => exact ⟨sys, [], by simp only [step, hq], .nothing⟩
    | cons frame rest =>
      obtain ⟨router, actions, hstep, ht⟩ := RouterSessionFsm.step_spec hc.router frame.event
      exact ⟨_, _, by simp only [step, hq, routerStep, hstep, bind, Except.bind],
        .routerReceives hq ht⟩
  | deliverToModem =>
    cases hq : sys.toModem with
    | nil => exact ⟨sys, [], by simp only [step, hq], .nothing⟩
    | cons frame rest =>
      obtain ⟨modem, actions, hstep, ht⟩ := ModemSessionFsm.step_spec hc.modem frame.event
      exact ⟨_, _, by simp only [step, hq, modemStep, hstep, bind, Except.bind],
        .modemReceives hq ht⟩

theorem moves_of_step (hc : sys.Consistent) {input : Input} {sys' : System}
    {actions : List FsmAction} (h : sys.step input = .ok (sys', actions)) :
    sys.Moves input sys' actions := by
  obtain ⟨t, as, hstep, hm⟩ := step_spec hc input
  rw [hstep] at h
  cases h
  exact hm

theorem Moves.consistent {input : Input} {sys' : System} {actions : List FsmAction}
    (h : sys.Moves input sys' actions) (hc : sys.Consistent) : sys'.Consistent := by
  cases h with
  | nothing => exact hc
  | routerLocal ht | routerReceives _ ht => exact ⟨ht.consistent hc.router, hc.modem⟩
  | modemLocal ht | modemReceives _ ht => exact ⟨hc.router, ht.consistent hc.modem⟩

/-- Every input sequence is a run: no delivery order and no command makes either side
panic. -/
theorem run_ok (routerConfig modemConfig : SessionConfig) (inputs : List Input) :
    ∃ sys trace, run routerConfig modemConfig inputs = .ok (sys, trace) := by
  refine Machine.run_total (fun s i hc => ?_) inputs (consistent_start routerConfig modemConfig)
  obtain ⟨s', actions, hstep, hm⟩ := step_spec hc i
  exact ⟨s', actions, hstep, hm.consistent hc⟩

/-- What every move from a consistent system keeps holds at the end of every run. -/
theorem run_moves {I : System → Prop} {routerConfig modemConfig : SessionConfig}
    {inputs : List Input} {t : System} {trace : List Entry}
    (hstep : ∀ sys input sys' actions, sys.Consistent → I sys → sys.Moves input sys' actions → I sys')
    (hinit : I (start routerConfig modemConfig))
    (h : run routerConfig modemConfig inputs = .ok (t, trace)) : t.Consistent ∧ I t := by
  refine Machine.run_invariant (I := fun s => s.Consistent ∧ I s) ?_
    ⟨consistent_start routerConfig modemConfig, hinit⟩ h
  rintro s i s' o ⟨hc, hI⟩ hs
  have hm := moves_of_step hc hs
  exact ⟨hm.consistent hc, hstep s i s' o hc hI hm⟩

end System

end Dlep
