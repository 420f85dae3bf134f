-- SUMMARY: What a step of either session state machine is to the life cycle of its session.
import Dlep.Fsm.Accepted
import Dlep.Fsm.Observation
import Dlep.Lib.Timers

/-!
# The life cycle of a session

Both roles take a session through the same five phases, with the same timers and
the same farewells. What a step may be to that life cycle is said once, as
`LifeStep`, over the little that it depends on. Each role shows that its transitions
are such steps; what a step emits, what it puts on the wire and what it asks of the
timers follows from there for both.
-/

namespace Dlep

/-! ## Timer actions -/

abbrev TimerOp : Type := Timers.Op TimerId TimerKind

/-- What `process_actions` does to the timers. -/
def FsmAction.timerOp : FsmAction → Option TimerOp
  | .startTimer id kind duration periodic => some (.arm id kind duration.nanos periodic)
  | .cancelTimer id => some (.disarm id)
  | .resetHeartbeat timerId missedDeadline =>
    some (.arm timerId .heartbeatMissed missedDeadline.nanos false)
  | _ => none

def FsmAction.isTimer (a : FsmAction) : Bool := a.timerOp.isSome

/-- The timer actions of a step, in order. -/
def timerActions (actions : List FsmAction) : List FsmAction := actions.filter FsmAction.isTimer

section

variable (as bs : List FsmAction)

@[simp] theorem timerActions_nil : timerActions [] = [] := rfl
@[simp] theorem timerActions_append :
    timerActions (as ++ bs) = timerActions as ++ timerActions bs := List.filter_append ..
@[simp] theorem timerActions_sendMessage (m : Message) :
    timerActions (.sendMessage m :: as) = timerActions as := rfl
@[simp] theorem timerActions_emit (e : EmittedEvent) :
    timerActions (.emit e :: as) = timerActions as := rfl
@[simp] theorem timerActions_closeTcp : timerActions (.closeTcp :: as) = timerActions as := rfl
@[simp] theorem timerActions_startTimer (i : TimerId) (k : TimerKind) (d : Duration) (p : Bool) :
    timerActions (.startTimer i k d p :: as) = .startTimer i k d p :: timerActions as := rfl
@[simp] theorem timerActions_cancelTimer (i : TimerId) :
    timerActions (.cancelTimer i :: as) = .cancelTimer i :: timerActions as := rfl
@[simp] theorem timerActions_optional (m : Option Message) :
    timerActions (m.map FsmAction.sendMessage).toList = [] := by
  cases m <;> rfl
@[simp] theorem timerActions_ite (c : Prop) [Decidable c] :
    timerActions (if c then as else bs) = if c then timerActions as else timerActions bs := by
  split <;> rfl
@[simp] theorem timerActions_heartbeatReset (id : TimerId) (interval : Option Duration) :
    timerActions (heartbeatResetAction id interval).toList =
      (heartbeatResetAction id interval).toList := by
  refine List.filter_eq_self.mpr fun a ha => ?_
  obtain ⟨d, rfl⟩ := eq_resetHeartbeat_of_mem ha
  rfl

end

/-! ## Events and actions -/

/-- A message from the peer, for the core or for an extension. -/
def FsmEvent.received : FsmEvent → Bool
  | .recvMessage _ | .recvExtensionMessage => true
  | _ => false

/-- The events that do not end an established session by themselves. -/
def FsmEvent.ordinary : FsmEvent → Bool
  | .recvMessage msg => !msg.isTermination
  | .tcpClosed | .timerExpired _ .heartbeatMissed => false
  | _ => true

/-- The code with which an event ends an established session, if it does; `refusal` is what the
side answers a message with that it refuses. -/
def FsmEvent.endingCode (refusal : Message → Option DataItem) : FsmEvent → Option StatusCode
  | .appShutdown reason => some reason
  | .timerExpired _ .heartbeatMissed => some .timedOut
  | .protocolError code => some code
  | .recvMessage msg =>
    match refusal msg with
    | some (.status code _) => some code
    | _ => none
  | _ => none

/-- A message that neither opens nor ends a session. -/
def Message.isData (m : Message) : Bool := !m.isTermination && !m.initializes

/-- The actions of a step within the session, the timers' apart. -/
def FsmAction.works : FsmAction → Bool
  | .sendMessage m => m.isData
  | .emit e => e.isSessionData
  | .resetHeartbeat _ _ => true
  | _ => false

section

variable {actions : List FsmAction}

theorem isData_of_works (h : actions.all FsmAction.works = true) :
    ∀ m ∈ sentMessages actions, m.isData = true := by
  intro m hm
  obtain ⟨a, ha, hsend⟩ := List.mem_filterMap.mp hm
  cases a <;> cases hsend
  exact List.all_eq_true.mp h _ ha

theorem emits_of_works (h : actions.all FsmAction.works = true) :
    ∀ e ∈ emittedEvents actions, e.isSessionData = true := by
  intro e he
  obtain ⟨a, ha, hemit⟩ := List.mem_filterMap.mp he
  cases a <;> cases hemit
  exact List.all_eq_true.mp h _ ha

theorem works_heartbeatReset (id : TimerId) (interval : Option Duration) :
    (heartbeatResetAction id interval).toList.all FsmAction.works = true := by
  refine List.all_eq_true.mpr fun a ha => ?_
  obtain ⟨d, rfl⟩ := eq_resetHeartbeat_of_mem ha
  rfl

@[simp] theorem heartbeatResetAction_ne_closeTcp (id : TimerId) (interval : Option Duration) :
    heartbeatResetAction id interval ≠ some .closeTcp := by
  intro h
  obtain ⟨d, hd⟩ := eq_resetHeartbeat_of_mem (Option.mem_toList.mpr h)
  cases hd

theorem FsmEvent.ordinary_of_type {msg : Message} {t : MessageType} (ht : msg.messageType = t)
    (h : (decide (t = .sessionTermination) || decide (t = .sessionTerminationResponse)) = false) :
    (FsmEvent.recvMessage msg).ordinary = true := by
  rw [ordinary, Message.isTermination, ht, h]
  rfl

end

/-- An interval the peer may announce: at least a second, and far from overflow. -/
structure Duration.Heartbeat (d : Duration) : Prop where
  second : 10 ^ 9 ≤ d.nanos
  doubles : d.nanos * 2 < 2 ^ 64 * 10 ^ 9

/-- A heartbeat interval that passed the checks can be doubled. -/
theorem Grammatical.heartbeat {msg : Message} {router initializing : Bool}
    (h : Grammatical msg router initializing)
    (ht : .heartbeatInterval ∈ requiredItems msg.messageType) :
    ∃ d, extractHeartbeatInterval msg = some d ∧ d.Heartbeat := by
  obtain ⟨d, hd, hlow, hhigh⟩ := h.heartbeatInterval ht
  unfold Duration.asMillis u32Max at *
  exact ⟨d, hd, by omega, by omega⟩

/-- The kind of the one-shot timer a phase waits for. -/
def Phase.deadline : Phase → Option TimerKind
  | .opening => some .sessionInit
  | .inSession => some .heartbeatMissed
  | .terminating => some .termination
  | _ => none

/-! ## Steps -/

/-- What the life cycle of a session depends on. -/
structure LifeView where
  phase : Phase
  reason : StatusCode
  /-- The heartbeat interval of the peer. -/
  interval : Option Duration

/-- The phase in which an event has an arm of its own; messages, commands and the loss of the
connection apart. -/
def FsmEvent.awaitedIn : FsmEvent → Option Phase
  | .recvExtensionMessage | .timerExpired _ .heartbeat | .timerExpired _ .heartbeatMissed =>
    some .inSession
  | .timerExpired _ .sessionInit => some .opening
  | .timerExpired _ .termination => some .terminating
  | _ => none

/-- The events that change nothing. -/
structure Phase.Ignores (phase : Phase) (event : FsmEvent) : Prop where
  command : event.command = none
  message : ∀ msg, event = .recvMessage msg → phase = .idle ∨ phase = .terminated ∨
    phase = .terminating ∧ msg.messageType ≠ .sessionTerminationResponse
  closed : event = .tcpClosed → phase = .terminated
  awaited : event.awaitedIn ≠ some phase

/-- An established session ignores no message. -/
theorem Phase.Ignores.received {phase : Phase} {event : FsmEvent} (h : phase.Ignores event)
    (hp : phase = .inSession) : event.received = false := by
  subst hp
  cases event with
  | recvMessage msg => rcases h.message msg rfl with h | h | ⟨h, -⟩ <;> cases h
  | recvExtensionMessage => exact absurd rfl h.awaited
  | _ => rfl

theorem Phase.Ignores.of_message {phase : Phase} {msg : Message}
    (h : phase = .idle ∨ phase = .terminated ∨
      phase = .terminating ∧ msg.messageType ≠ .sessionTerminationResponse) :
    phase.Ignores (.recvMessage msg) := by
  refine ⟨rfl, ?_, by simp, by simp [FsmEvent.awaitedIn]⟩
  rintro _ ⟨⟩
  exact h

/-- How a session ends, or what was to become one: the phase and the reason that are left, and
the actions. `fault` holds for the failures the event reports; a step for which `leak` holds may
end the handshake without cancelling its timer. -/
inductive Ending (fault : StatusCode → String → Prop) (leak : Prop) (v : LifeView)
    (event : FsmEvent) : Phase → StatusCode → List FsmAction → Prop where
  -- Before the session.
  | closes (hp : v.phase = .idle) (hcmd : event.command = none)
      (hmsg : ∀ msg, event ≠ .recvMessage msg) :
      Ending fault leak v event .terminated v.reason []
  | abandons {status} (actions : List FsmAction) (hp : v.phase = .opening)
      (hcmd : event.command = none)
      (hactions : ∀ a ∈ actions, a = .closeTcp ∨ ∃ id, a = .cancelTimer id)
      (htimer : .cancelTimer TIMER_SESSION_INIT ∈ actions ∨
        (∃ id, event = .timerExpired id .sessionInit) ∨ leak) :
      Ending fault leak v event .terminated v.reason (actions ++ [.emit (.sessionDown status)])
  -- By this side.
  | fails {code text duration}
      (hp : v.phase = .idle ∨ v.phase = .opening ∨ v.phase = .inSession) (hfault : fault code text) :
      Ending fault leak v event .terminating code
        [.cancelTimer TIMER_SESSION_INIT, .cancelTimer TIMER_HEARTBEAT,
          .cancelTimer TIMER_HEARTBEAT_MISSED,
          .sendMessage ((Message.new .sessionTermination).withItem (.status code text)),
          .startTimer TIMER_TERMINATION .termination duration false]
  | missed {id duration} (hp : v.phase = .inSession)
      (hevent : event = .timerExpired id .heartbeatMissed) :
      Ending fault leak v event .terminating .timedOut
        [.cancelTimer TIMER_HEARTBEAT, .sendMessage (buildSessionTermination .timedOut),
          .startTimer TIMER_TERMINATION .termination duration false]
  | shutdown {reason duration} (hp : v.phase = .inSession) (hevent : event = .appShutdown reason) :
      Ending fault leak v event .terminating reason
        [.cancelTimer TIMER_HEARTBEAT, .cancelTimer TIMER_HEARTBEAT_MISSED,
          .sendMessage (buildSessionTermination reason),
          .startTimer TIMER_TERMINATION .termination duration false]
  | answered {msg} (hp : v.phase = .terminating) (hevent : event = .recvMessage msg)
      (ht : msg.messageType = .sessionTerminationResponse) :
      Ending fault leak v event .terminated v.reason
        [.cancelTimer TIMER_TERMINATION, .closeTcp, .emit (.sessionDown v.reason)]
  | expired {id} (hp : v.phase = .terminating) (hevent : event = .timerExpired id .termination) :
      Ending fault leak v event .terminated v.reason [.closeTcp, .emit (.sessionDown .timedOut)]
  | dropped (hp : v.phase = .terminating) (hevent : event = .tcpClosed) :
      Ending fault leak v event .terminated v.reason
        [.cancelTimer TIMER_TERMINATION, .emit (.sessionDown v.reason)]
  -- By the peer.
  | peerTerminated {msg} (hp : v.phase = .inSession) (hevent : event = .recvMessage msg)
      (ht : msg.messageType = .sessionTermination) :
      Ending fault leak v event .terminated v.reason
        [.cancelTimer TIMER_HEARTBEAT, .cancelTimer TIMER_HEARTBEAT_MISSED,
          .sendMessage buildSessionTerminationResponse, .closeTcp,
          .emit (.sessionDown ((extractStatus msg).getD .shuttingDown))]
  | transportClosed (hp : v.phase = .inSession) (hevent : event = .tcpClosed) :
      Ending fault leak v event .terminated v.reason
        [.cancelTimer TIMER_HEARTBEAT, .cancelTimer TIMER_HEARTBEAT_MISSED,
          .emit (.sessionDown .timedOut)]

namespace Ending

variable {fault : StatusCode → String → Prop} {leak : Prop} {v : LifeView} {event : FsmEvent}
  {phase : Phase} {reason : StatusCode} {actions : List FsmAction}

theorem gone (h : Ending fault leak v event phase reason actions) :
    phase = .terminating ∨ phase = .terminated := by
  cases h <;> simp

theorem alive (h : Ending fault leak v event phase reason actions) : v.phase ≠ .terminated := by
  intro hv
  cases h with
  | abandons _ hp => cases hv.symm.trans hp
  | fails hp => rcases hp with hp | hp | hp <;> cases hv.symm.trans hp
  | _ hp => cases hv.symm.trans hp

/-- It sends a Session Termination or the answer to one, if it sends anything. -/
theorem sent (h : Ending fault leak v event phase reason actions) :
    ∀ m ∈ sentMessages actions, m = buildSessionTerminationResponse ∨
      ∃ code text, (text = "" ∨ fault code text) ∧
        m = (Message.new .sessionTermination).withItem (.status code text) := by
  cases h with
  | abandons acts _ _ hacts => simp [(quiet_of_control hacts).1]
  | fails _ hfault => exact List.forall_mem_singleton.mpr (.inr ⟨_, _, .inr hfault, rfl⟩)
  | missed | shutdown => exact List.forall_mem_singleton.mpr (.inr ⟨_, _, .inl rfl, rfl⟩)
  | peerTerminated => exact List.forall_mem_singleton.mpr (.inl rfl)
  | _ => simp

/-- It reports the end of the session, if it reports anything. -/
theorem emitted (h : Ending fault leak v event phase reason actions) :
    ∀ e ∈ emittedEvents actions, ∃ status, e = .sessionDown status := by
  cases h with
  | abandons acts _ _ hacts => simp [(quiet_of_control hacts).2]
  | _ => simp

end Ending

/-- What a step is to the life cycle. It leaves the whole state the `same`, or it has `moved` the
phase and the reason only. -/
inductive LifeStep (refusal : Message → Option DataItem) (leak same moved : Prop) (v : LifeView)
    (event : FsmEvent) : LifeView → List FsmAction → Prop where
  | rejected {command reason} (hcmd : event.command = some command) (hsame : same) :
      LifeStep refusal leak same moved v event v [.emit (.commandRejected ⟨command, reason⟩)]
  | ignored (h : v.phase.Ignores event) (hsame : same) :
      LifeStep refusal leak same moved v event v []
  | works {actions} (hp : v.phase = .inSession) (hevent : event.ordinary = true)
      (hactions : actions.all FsmAction.works = true)
      (htimer : timerActions actions =
        if event.received then (heartbeatResetAction TIMER_HEARTBEAT_MISSED v.interval).toList
        else []) :
      LifeStep refusal leak same moved v event v actions
  | opens {duration} (sent : Option Message) (hp : v.phase = .idle) (hevent : event.ordinary = true)
      (hmsg : event.received = false) (hexpiry : ∀ id kind, event ≠ .timerExpired id kind) :
      LifeStep refusal leak same moved v event { v with phase := .opening }
        ((sent.map FsmAction.sendMessage).toList ++
          [.startTimer TIMER_SESSION_INIT .sessionInit duration false])
  | enters {msg d duration extensions rest actions} (hp : v.phase = .opening)
      (hevent : event = .recvMessage msg) (hinit : msg.initializes = true)
      (hd : extractHeartbeatInterval msg = some d) (hvalid : d.Heartbeat)
      (hemit : emittedEvents actions = .sessionUp extensions :: rest)
      (hrest : ∀ e ∈ rest, e.isSessionData = true)
      (hsent : ∀ m ∈ sentMessages actions, m.initializes = true) (hopen : .closeTcp ∉ actions)
      (htimer : timerActions actions =
        [.cancelTimer TIMER_SESSION_INIT, .startTimer TIMER_HEARTBEAT .heartbeat duration true] ++
          (heartbeatResetAction TIMER_HEARTBEAT_MISSED (some d)).toList) :
      LifeStep refusal leak same moved v event { v with phase := .inSession, interval := some d } actions
  | ends {fault phase reason actions}
      (hfault : ∀ code text, fault code text → event ≠ .tcpClosed ∧
        (v.phase = .inSession → event.endingCode refusal = some code))
      (h : Ending fault leak v event phase reason actions) (hmoved : moved) :
      LifeStep refusal leak same moved v event { v with phase := phase, reason := reason } actions

/-- A message on which an established session breaks off is refused. -/
theorem LifeStep.refused {refusal : Message → Option DataItem} {leak same moved : Prop}
    {v v' : LifeView} {msg : Message} {actions : List FsmAction}
    (h : LifeStep refusal leak same moved v (.recvMessage msg) v' actions)
    (hp : v.phase = .inSession) (hp' : v'.phase = .terminating) :
    (FsmEvent.recvMessage msg).endingCode refusal = some v'.reason := by
  cases h with
  | rejected | ignored | works => cases hp.symm.trans hp'
  | opens | enters => cases hp'
  | ends hfault h =>
    cases h with
    | fails _ h => exact (hfault _ _ h).2 hp
    | missed _ hevent | shutdown _ hevent => cases hevent
    | _ => cases hp'

/-- A message that an established session handles resets its deadline. -/
theorem LifeStep.heard {refusal : Message → Option DataItem} {leak same moved : Prop} {v : LifeView}
    {msg : Message} {t : MessageType} (hp : v.phase = .inSession) (ht : msg.messageType = t)
    (hordinary : (decide (t = .sessionTermination) || decide (t = .sessionTerminationResponse)) = false)
    (as : List FsmAction) (has : as.all FsmAction.works = true) (htimer : timerActions as = []) :
    LifeStep refusal leak same moved v (.recvMessage msg) v
      (as ++ (heartbeatResetAction TIMER_HEARTBEAT_MISSED v.interval).toList) := by
  refine .works hp (FsmEvent.ordinary_of_type ht hordinary) ?_ ?_
  · rw [List.all_append, has, works_heartbeatReset]
    rfl
  · rw [timerActions_append, htimer, timerActions_heartbeatReset]
    rfl

end Dlep
