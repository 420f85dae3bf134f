-- SUMMARY: When one side ends the session and nothing is under way any more, both have ended once, with its reason.
import Dlep.Lib.Closing
import Dlep.System.Wire

/-!
# Ending a session

Both session state machines are parties of a closing handshake: a Session
Termination announces the end with a status, its response and the close of the
transport conclude it. The handshake's progress is an invariant of the closed system
for a side that is the only one to terminate, whatever else is under way.
-/

namespace Dlep

open Closing (Party Side Arrives PairStep Progress)

/-! ## Signals -/

/-- What a message means to the closing handshake. -/
def Message.signal (msg : Message) : Closing.Signal StatusCode :=
  if msg.messageType = .sessionTermination then
    .terminate ((extractStatus msg).getD .shuttingDown)
  else if msg.messageType = .sessionTerminationResponse then .respond
  else .data

def Frame.signal : Frame → Closing.Signal StatusCode
  | .message msg => msg.signal
  | .close => .close

/-- What an event brings from the peer. -/
def FsmEvent.signal : FsmEvent → Option (Closing.Signal StatusCode)
  | .recvMessage msg => some msg.signal
  | .tcpClosed => some .close
  | _ => none

def signals (actions : List FsmAction) : List (Closing.Signal StatusCode) :=
  (frames actions).map Frame.signal

/-- The status codes of the Session Downs among the actions. -/
def downs (actions : List FsmAction) : List StatusCode :=
  (emittedEvents actions).filterMap fun
    | .sessionDown code => some code
    | _ => none

def Phase.stage : Phase → Closing.Stage
  | .idle | .opening => .opening
  | .inSession => .working
  | .terminating => .closing
  | .terminated => .closed

section

variable {phase : Phase}

theorem Phase.stage_eq_working : phase.stage = .working ↔ phase = .inSession := by
  cases phase <;> simp [stage]

theorem Phase.stage_eq_closing : phase.stage = .closing ↔ phase = .terminating := by
  cases phase <;> simp [stage]

theorem Phase.stage_eq_closed : phase.stage = .closed ↔ phase = .terminated := by
  cases phase <;> simp [stage]

end

section

variable {msg : Message} {event : FsmEvent} {actions : List FsmAction}

theorem Message.signal_eq_data (hterm : msg.messageType ≠ .sessionTermination)
    (hresponse : msg.messageType ≠ .sessionTerminationResponse) : msg.signal = .data := by
  rw [signal, if_neg hterm, if_neg hresponse]

theorem Message.signal_of_ordinary (h : msg.isTermination = false) : msg.signal = .data := by
  simp only [isTermination, Bool.or_eq_false_iff, decide_eq_false_iff_not] at h
  exact signal_eq_data h.1 h.2

theorem Frame.signal_event (f : Frame) : f.event.signal = some f.signal := by
  cases f <;> rfl

/-- Only messages and the close of the transport are signals. -/
theorem FsmEvent.signal_eq_none (hmsg : ∀ msg, event ≠ .recvMessage msg)
    (hclosed : event ≠ .tcpClosed) : event.signal = none := by
  cases event <;> first
    | rfl
    | exact absurd rfl (hmsg _)
    | exact absurd rfl hclosed

/-- Messages that do not end a session are data. -/
theorem signals_of_open (hopen : .closeTcp ∉ actions)
    (hsent : ∀ m ∈ sentMessages actions, m.isTermination = false) :
    ∀ s ∈ signals actions, s = .data := by
  intro s hs
  rw [signals, frames_of_open hopen, List.map_map] at hs
  obtain ⟨m, hm, rfl⟩ := List.mem_map.mp hs
  exact Message.signal_of_ordinary (hsent m hm)

theorem downs_eq_nil (h : ∀ e ∈ emittedEvents actions, e.isSessionDown = false) :
    downs actions = [] := by
  refine List.filterMap_eq_nil_iff.mpr fun e he => ?_
  have hdown := h e he
  cases e <;> first
    | rfl
    | cases hdown

theorem FsmEvent.signal_of_ordinary (h : event.ordinary = true) :
    ∀ sig, event.signal = some sig → sig = .data := by
  intro sig hsig
  cases event with
  | recvMessage msg =>
    cases hsig
    exact Message.signal_of_ordinary (Bool.eq_false_of_not_eq_true' h)
  | tcpClosed => cases h
  | _ => cases hsig

/-- No step into or within the session reports its end. -/
theorem StepShape.noDowns {o : Observation} (h : StepShape o) (hafter : o.after = .inSession) :
    downs o.actions = [] := by
  rcases h.noDown_or_ends with hnone | ⟨-, hend, -⟩
  · exact downs_eq_nil hnone
  · cases hend.symm.trans hafter

theorem downs_control {as : List FsmAction} {status : StatusCode}
    (h : ∀ a ∈ as, a = .closeTcp ∨ ∃ id, a = .cancelTimer id) :
    downs (as ++ [.emit (.sessionDown status)]) = [status] := by
  rw [downs, emittedEvents_append, (quiet_of_control h).2]
  rfl

end

/-! ## The life cycle as a party -/

def LifeView.party (v : LifeView) : Party StatusCode := ⟨v.phase.stage, v.reason⟩

section

variable {refusal : Message → Option DataItem} {leak same moved : Prop} {v v' : LifeView}
  {event : FsmEvent} {actions : List FsmAction}

theorem LifeView.stage_party {p : Phase} (hp : v.phase = p) : v.party.stage = p.stage :=
  congrArg Phase.stage hp

/-- A step that changes nothing and sends nothing. -/
theorem LifeView.party_quiet (v : LifeView) {asked : Option StatusCode}
    (hmsg : ∀ msg, event = .recvMessage msg → v.phase = .terminated ∨
      v.phase = .terminating ∧ msg.messageType ≠ .sessionTerminationResponse)
    (hclosed : event = .tcpClosed → v.phase = .terminated) :
    v.party.Step asked event.signal v.party [] [] := by
  have hnone : v.phase ≠ .terminated → v.phase ≠ .terminating → event.signal = none := by
    intro hgone hgoing
    refine FsmEvent.signal_eq_none (fun msg hevent => ?_) (fun hevent => hgone (hclosed hevent))
    rcases hmsg msg hevent with h | ⟨h, -⟩
    · exact hgone h
    · exact hgoing h
  cases hp : v.phase with
  | idle | opening =>
    rw [hnone (by simp [hp]) (by simp [hp])]
    exact .works (.inl (stage_party hp)) nofun nofun
  | inSession =>
    rw [hnone (by simp [hp]) (by simp [hp])]
    exact .works (.inr (stage_party hp)) nofun nofun
  | terminating =>
    refine .deaf (.inr ⟨stage_party hp, fun sig hsig => ?_⟩)
    cases event with
    | recvMessage msg =>
      rcases hmsg msg rfl with h | ⟨-, ht⟩
      · cases hp.symm.trans h
      · cases hsig
        unfold Message.signal
        rw [if_neg ht]
        split <;> exact ⟨nofun, nofun⟩
    | tcpClosed => cases hp.symm.trans (hclosed rfl)
    | _ => cases hsig
  | terminated => exact .deaf (.inl (stage_party hp))

/-- Every step of a session that has begun, the expiry of its termination timer apart, is one of
the handshake's. -/
theorem LifeStep.party (h : LifeStep refusal leak same moved v event v' actions) (hbegun : v.phase ≠ .idle)
    (hexpiry : ∀ id, event ≠ .timerExpired id .termination) :
    v.party.Step (event.endingCode refusal) event.signal v'.party (signals actions)
      (downs actions) := by
  have hdowns : v'.phase = .inSession → downs actions = [] := h.stepShape.noDowns
  cases h with
  | rejected hcmd =>
    refine v.party_quiet ?_ ?_
    · rintro msg rfl
      cases hcmd
    · rintro rfl
      cases hcmd
  | ignored h =>
    exact v.party_quiet (fun msg hevent => (h.message msg hevent).resolve_left hbegun) h.closed
  | works hp hevent hactions =>
    rw [hdowns hp]
    refine .works (.inr (LifeView.stage_party hp)) (FsmEvent.signal_of_ordinary hevent)
      (signals_of_open (fun hclose => ?_) fun m hm => ?_)
    · cases List.all_eq_true.mp hactions _ hclose
    · have hdata := isData_of_works hactions m hm
      rw [Message.isData, Bool.and_eq_true, Bool.not_eq_true'] at hdata
      exact hdata.1
  | opens _ hp => exact absurd hp hbegun
  | @enters msg _ _ _ _ _ hp hevent hinit _ _ _ _ hsent hopen =>
    have hordinary : ∀ m : Message, m.initializes = true → m.isTermination = false := by
      intro m hm
      simp only [Message.initializes, decide_eq_true_eq, List.mem_cons, List.not_mem_nil,
        or_false] at hm
      rcases hm with ht | ht <;> rw [Message.isTermination, ht] <;> rfl
    rw [hdowns rfl, hevent, FsmEvent.signal, Message.signal_of_ordinary (hordinary msg hinit)]
    exact .joins (LifeView.stage_party hp) (signals_of_open hopen fun m hm => hordinary m (hsent m hm))
  | ends hfault h =>
    cases h with
    | closes hp => exact absurd hp hbegun
    | abandons acts hp _ hacts =>
      rw [downs_control hacts]
      exact .abandons (LifeView.stage_party hp)
    | fails hp hcause =>
      rcases hp with hp | hp | hp
      · exact absurd hp hbegun
      · exact .fails (LifeView.stage_party hp)
      · rw [(hfault _ _ hcause).2 hp]
        exact .initiates (LifeView.stage_party hp)
    | missed hp hevent | shutdown hp hevent =>
      subst hevent
      exact .initiates (LifeView.stage_party hp)
    | @peerTerminated msg hp hevent ht =>
      have hsignal : msg.signal = .terminate ((extractStatus msg).getD .shuttingDown) := if_pos ht
      rw [hevent, FsmEvent.signal, hsignal]
      exact .answers (LifeView.stage_party hp)
    | transportClosed hp hevent =>
      subst hevent
      exact .loses (.inl (LifeView.stage_party hp))
    | @answered msg hp hevent ht =>
      have hsignal : msg.signal = .respond := by
        rw [Message.signal, ht]
        rfl
      rw [hevent, FsmEvent.signal, hsignal]
      exact .concludes (LifeView.stage_party hp)
    | expired _ hevent => exact absurd hevent (hexpiry _)
    | dropped hp hevent =>
      subst hevent
      exact .loses (.inr (LifeView.stage_party hp))

end

/-! ## Seats -/

/-- The environment ends the wait for an answer, or the transport. -/
def FsmEvent.disturbs : FsmEvent → Bool
  | .timerExpired _ .termination | .tcpClosed => true
  | _ => false

namespace System

variable {routerConfig modemConfig : SessionConfig}

def Input.disturbs : Input → Bool
  | .router event | .modem event => event.1.disturbs
  | .deliverToRouter | .deliverToModem => false

/-- Both sides are past their idle phase. -/
def Begun (sys : System) : Prop := sys.router.state.phase ≠ .idle ∧ sys.modem.state.phase ≠ .idle

/-- One side of the system, as the handshake sees it. -/
structure Seat where
  view : System → LifeView
  /-- What the side answers a message with that it refuses. -/
  refusal : System → Message → Option DataItem
  /-- The frames under way to the side. -/
  queue : System → List Frame
  /-- The event that an input is to the side. -/
  event : System → Input → Option FsmEvent

namespace Seat

def router : Seat where
  view sys := sys.router.view
  refusal sys := sys.router.refusal
  queue sys := sys.toRouter
  event sys
    | .router event => some event.1
    | .deliverToRouter => sys.toRouter.head?.map Frame.event
    | .modem _ | .deliverToModem => none

def modem : Seat where
  view sys := sys.modem.view
  refusal sys := sys.modem.refusal
  queue sys := sys.toModem
  event sys
    | .modem event => some event.1
    | .deliverToModem => sys.toModem.head?.map Frame.event
    | .router _ | .deliverToRouter => none

def phase (seat : Seat) (sys : System) : Phase := (seat.view sys).phase

/-- The codes of the Session Downs the side emitted, in order. -/
def downs (seat : Seat) (trace : List Entry) : List StatusCode :=
  trace.flatMap fun e =>
    if (seat.event e.before e.input).isSome then Dlep.downs e.output else []

/-- The code with which an input ends the side's session, if it does. -/
def asked (seat : Seat) (sys : System) (input : Input) : Option StatusCode :=
  (seat.event sys input).bind (·.endingCode (seat.refusal sys))

/-- What the side was asked to end with, in each step that took it from the session into its
termination. -/
def gave (seat : Seat) (trace : List Entry) : List (Option StatusCode) :=
  trace.flatMap fun e =>
    if seat.phase e.before = .inSession ∧ seat.phase e.after = .terminating then
      [seat.asked e.before e.input]
    else []

def party (seat : Seat) (sys : System) : Party StatusCode := (seat.view sys).party

/-- The side with its past. -/
def side (seat : Seat) (sys : System) (trace : List Entry) : Side StatusCode where
  party := seat.party sys
  joined := trace.any fun e => decide ((seat.party e.after).stage = .working)
  downs := seat.downs trace
  gave := seat.gave trace

def signals (seat : Seat) (sys : System) : List (Closing.Signal StatusCode) :=
  (seat.queue sys).map Frame.signal

theorem side_snoc (seat : Seat) (sys sys' : System) (trace : List Entry) (input : Input)
    (actions : List FsmAction) :
    seat.side sys' (trace ++ [⟨sys, input, actions, sys'⟩]) =
      (seat.side sys trace).next (seat.asked sys input) (seat.party sys')
        (if (seat.event sys input).isSome then Dlep.downs actions else []) := by
  have hstage : ∀ sys, (seat.party sys).stage = (seat.phase sys).stage := fun _ => rfl
  simp only [side, downs, gave, Side.next, hstage, Phase.stage_eq_working, Phase.stage_eq_closing]
  simp

/-- Every step of the system is one of the handshake between the two sides. -/
structure Facing (a b : Seat) : Prop where
  pairStep {sys : System} {input : Input} {sys' : System} {actions : List FsmAction}
    (trace : List Entry) (hm : sys.Moves input sys' actions) (hbegun : sys.Begun)
    (hcalm : input.disturbs = false) :
    PairStep (a.side sys trace) (b.side sys trace) (a.signals sys) (b.signals sys)
      (a.side sys' (trace ++ [⟨sys, input, actions, sys'⟩]))
      (b.side sys' (trace ++ [⟨sys, input, actions, sys'⟩])) (a.signals sys') (b.signals sys')

theorem Facing.swap {a b : Seat} (h : Facing a b) : Facing b a :=
  ⟨fun trace hm hbegun hcalm => (h.pairStep trace hm hbegun hcalm).swap⟩

end Seat

section

variable {sys sys' : System} {input : Input} {actions : List FsmAction}

theorem signal_of_local {event : LocalEvent} (hcalm : event.1.disturbs = false) :
    event.1.signal = none := by
  refine FsmEvent.signal_eq_none (fun msg hmsg => ?_) (fun hclosed => ?_)
  · have hlocal := event.2
    rw [hmsg] at hlocal
    cases hlocal
  · rw [hclosed] at hcalm
    cases hcalm

theorem unexpired_of_local {event : LocalEvent} (hcalm : event.1.disturbs = false) :
    ∀ id, event.1 ≠ .timerExpired id .termination := by
  intro id hevent
  rw [hevent] at hcalm
  cases hcalm

theorem unexpired_of_frame (frame : Frame) :
    ∀ id, frame.event ≠ .timerExpired id .termination := by
  cases frame <;> nofun

theorem facing_router_modem : Seat.Facing .router .modem := by
  refine ⟨fun {sys input sys' actions} trace hm ⟨hrouter, hmodem⟩ hcalm => ?_⟩
  rw [Seat.side_snoc, Seat.side_snoc]
  cases hm with
  | nothing =>
    have hnone : ∀ seat : Seat, (seat.side sys trace).next (seat.asked sys input) (seat.party sys)
        (if (seat.event sys input).isSome then Dlep.downs [] else []) = (seat.side sys trace).seen := by
      intro seat
      rw [show Dlep.downs [] = [] from rfl, ite_self]
      exact (seat.side sys trace).next_party _
    rw [hnone, hnone]
    exact .nothing
  | @routerLocal event router _ ht =>
    have hstep := ht.lifeStep.party hrouter (unexpired_of_local hcalm)
    rw [signal_of_local hcalm] at hstep
    exact .left .locally hstep List.map_append
  | @modemLocal event modem _ ht =>
    have hstep := ht.lifeStep.party hmodem (unexpired_of_local hcalm)
    rw [signal_of_local hcalm] at hstep
    exact .right .locally hstep List.map_append
  | @routerReceives frame rest router _ hqueue ht =>
    have hevent : Seat.router.event sys .deliverToRouter = some frame.event := by
      simp [Seat.router, hqueue]
    have hstep := ht.lifeStep.party hrouter (unexpired_of_frame frame)
    rw [frame.signal_event] at hstep
    rw [Seat.asked, hevent]
    exact .left (.delivered (congrArg (List.map Frame.signal) hqueue)) hstep List.map_append
  | @modemReceives frame rest modem _ hqueue ht =>
    have hevent : Seat.modem.event sys .deliverToModem = some frame.event := by
      simp [Seat.modem, hqueue]
    have hstep := ht.lifeStep.party hmodem (unexpired_of_frame frame)
    rw [frame.signal_event] at hstep
    rw [Seat.asked, Seat.asked, hevent]
    exact .right (.delivered (congrArg (List.map Frame.signal) hqueue)) hstep List.map_append

theorem Moves.begun (h : sys.Moves input sys' actions) (hb : sys.Begun) : sys'.Begun := by
  cases h with
  | nothing => exact hb
  | routerLocal ht | routerReceives _ ht =>
    exact ⟨fun hidle => hb.1 (ht.stepShape.phases.1 hidle), hb.2⟩
  | modemLocal ht | modemReceives _ ht =>
    exact ⟨hb.1, fun hidle => hb.2 (ht.stepShape.phases.1 hidle)⟩

end

/-! ## Runs -/

/-- How far the handshake is that only the side `a` initiates. -/
structure Closes (a b : Seat) (sys : System) (trace : List Entry) : Prop where
  progress : (∀ e ∈ trace, b.phase e.after ≠ .terminating) →
    Progress (a.side sys trace) (b.side sys trace) (b.signals sys) (a.signals sys)
  /-- The side that has left does not come back. -/
  left : ∀ e ∈ trace, a.phase e.after = .terminating →
    (a.party sys).stage = .closing ∨ (a.party sys).stage = .closed

section

variable {a b : Seat} {sys sys' : System} {input : Input} {actions : List FsmAction}
  {trace : List Entry}

theorem Closes.step (h : Closes a b sys trace)
    (hstep : PairStep (a.side sys trace) (b.side sys trace) (a.signals sys) (b.signals sys)
      (a.side sys' (trace ++ [⟨sys, input, actions, sys'⟩]))
      (b.side sys' (trace ++ [⟨sys, input, actions, sys'⟩])) (a.signals sys') (b.signals sys')) :
    Closes a b sys' (trace ++ [⟨sys, input, actions, sys'⟩]) where
  progress hnever := by
    rw [List.forall_mem_append, List.forall_mem_singleton] at hnever
    exact hstep.progress (h.progress hnever.1) fun hstage =>
      hnever.2 (Phase.stage_eq_closing.mp hstage)
  left := by
    rw [List.forall_mem_append, List.forall_mem_singleton]
    exact ⟨fun e he hphase => hstep.ended (h.left e he hphase),
      fun hphase => .inl (Phase.stage_eq_closing.mpr hphase)⟩

/-- Two facing sides close as the handshake does, in every run that nothing disturbs. -/
theorem Seat.Facing.run_closes (hfacing : Seat.Facing a b)
    {routerConfig modemConfig : SessionConfig} (hstart : Closes a b (start routerConfig modemConfig) [])
    {inputs : List Input} (hcalm : ∀ input ∈ inputs, input.disturbs = false)
    (hrun : run routerConfig modemConfig inputs = .ok (sys, trace)) : Closes a b sys trace := by
  have hinv := Machine.run_history (J := fun sys trace => (sys.Consistent ∧ sys.Begun) ∧
    ((∀ e ∈ trace, e.input.disturbs = false) → Closes a b sys trace)) ?_
      ⟨⟨consistent_start routerConfig modemConfig, nofun, nofun⟩, fun _ => hstart⟩ hrun
  · refine hinv.2 fun e he => hcalm e.input ?_
    rw [← Machine.run_inputs hrun]
    exact List.mem_map.mpr ⟨e, he, rfl⟩
  · rintro sys trace input sys' actions ⟨⟨hc, hb⟩, hcloses⟩ hstep
    have hm := moves_of_step hc hstep
    refine ⟨⟨hm.consistent hc, hm.begun hb⟩, fun hcalm => ?_⟩
    rw [List.forall_mem_append, List.forall_mem_singleton] at hcalm
    exact (hcloses hcalm.1).step (hfacing.pairStep trace hm hb hcalm.2)

/-- What the end of a handshake looks like. -/
structure Concluded (a b : Seat) (sys : System) (trace : List Entry) (code : StatusCode) : Prop where
  /-- The side left the session once, on an event that asked it to end with the code. -/
  gave : a.gave trace = [some code]
  ended : a.phase sys = .terminated
  peerEnded : b.phase sys = .terminated
  downs : a.downs trace = [code]
  peerDowns : b.downs trace = [code]

theorem Closes.concluded (h : Closes a b sys trace) (ha : ∃ e ∈ trace, a.phase e.after = .inSession)
    (hb : ∃ e ∈ trace, b.phase e.after = .inSession) (hqa : a.queue sys = []) (hqb : b.queue sys = [])
    (hinitiates : ∃ e ∈ trace, a.phase e.after = .terminating)
    (hnever : ∀ e ∈ trace, b.phase e.after ≠ .terminating) :
    ∃ code, Concluded a b sys trace code := by
  have hjoined : ∀ seat : Seat, (∃ e ∈ trace, seat.phase e.after = .inSession) →
      (seat.side sys trace).joined = true := by
    rintro seat ⟨e, he, hphase⟩
    exact List.any_eq_true.mpr ⟨e, he, decide_eq_true (Phase.stage_eq_working.mpr hphase)⟩
  have hprogress := h.progress hnever
  rw [Seat.signals, Seat.signals, hqa, hqb] at hprogress
  obtain ⟨e, he, hphase⟩ := hinitiates
  obtain ⟨haClosed, hbClosed, code, hgave, hadowns, hbdowns⟩ :=
    hprogress.settled (hjoined a ha) (hjoined b hb) (h.left e he hphase)
  exact ⟨code, hgave, Phase.stage_eq_closed.mp haClosed, Phase.stage_eq_closed.mp hbClosed, hadowns,
    hbdowns⟩

end

/-- At the start nothing but Session Initialization is under way. -/
theorem data_start (routerConfig modemConfig : SessionConfig) :
    (∀ s ∈ Seat.modem.signals (start routerConfig modemConfig), s = .data) ∧
      ∀ s ∈ Seat.router.signals (start routerConfig modemConfig), s = .data := by
  refine ⟨List.forall_mem_singleton.mpr ?_, nofun⟩
  have ht := messageType_buildSessionInitialization routerConfig
  exact Message.signal_eq_data (by rw [ht]; decide) (by rw [ht]; decide)

theorem live_start (routerConfig modemConfig : SessionConfig) :
    (Seat.router.side (start routerConfig modemConfig) []).Live ∧
      (Seat.modem.side (start routerConfig modemConfig) []).Live :=
  ⟨⟨.inl ⟨rfl, rfl⟩, rfl, rfl⟩, ⟨.inl ⟨rfl, rfl⟩, rfl, rfl⟩⟩

theorem closes_router {inputs : List Input} {sys : System} {trace : List Entry}
    (hcalm : ∀ input ∈ inputs, input.disturbs = false)
    (hrun : run routerConfig modemConfig inputs = .ok (sys, trace)) :
    Closes .router .modem sys trace := by
  obtain ⟨hout, hback⟩ := data_start routerConfig modemConfig
  obtain ⟨hrouter, hmodem⟩ := live_start routerConfig modemConfig
  exact facing_router_modem.run_closes
    ⟨fun _ => .talking hrouter hmodem hout hback, fun _ he => absurd he List.not_mem_nil⟩ hcalm hrun

theorem closes_modem {inputs : List Input} {sys : System} {trace : List Entry}
    (hcalm : ∀ input ∈ inputs, input.disturbs = false)
    (hrun : run routerConfig modemConfig inputs = .ok (sys, trace)) :
    Closes .modem .router sys trace := by
  obtain ⟨hout, hback⟩ := data_start routerConfig modemConfig
  obtain ⟨hrouter, hmodem⟩ := live_start routerConfig modemConfig
  exact facing_router_modem.swap.run_closes
    ⟨fun _ => .talking hmodem hrouter hback hout, fun _ he => absurd he List.not_mem_nil⟩ hcalm hrun

end System

/-- When only one side of a session terminates, and neither the transport nor the wait for the
answer is ended from outside, then both sides have ended once all frames are delivered: each
has emitted one Session Down, with the code of the event that made the first side terminate. -/
theorem termination_agreement (routerConfig modemConfig : SessionConfig)
    (inputs : List System.Input) (hcalm : ∀ input ∈ inputs, input.disturbs = false) :
    ∃ sys trace, System.run routerConfig modemConfig inputs = .ok (sys, trace) ∧
      ∀ a b : System.Seat, (a = .router ∧ b = .modem ∨ a = .modem ∧ b = .router) →
        (∃ e ∈ trace, a.phase e.after = .inSession) → (∃ e ∈ trace, b.phase e.after = .inSession) →
        a.queue sys = [] → b.queue sys = [] →
        (∃ e ∈ trace, a.phase e.after = .terminating) →
        (∀ e ∈ trace, b.phase e.after ≠ .terminating) →
        ∃ code, System.Concluded a b sys trace code := by
  obtain ⟨sys, trace, hrun⟩ := System.run_ok routerConfig modemConfig inputs
  refine ⟨sys, trace, hrun, ?_⟩
  rintro a b (⟨rfl, rfl⟩ | ⟨rfl, rfl⟩)
  · exact (System.closes_router hcalm hrun).concluded
  · exact (System.closes_modem hcalm hrun).concluded

/-- The router is told to shut down for a reason of its application, while a destination of the
modem is on its way to it. -/
theorem termination_agreement_shutdown :
    ∃ mac sys trace, System.run .default .default [.deliverToModem, .deliverToRouter,
        .modem ⟨.appAddDestination mac .default .default, rfl⟩,
        .router ⟨.appShutdown .requestDenied, rfl⟩, .deliverToModem, .deliverToRouter,
        .deliverToRouter, .deliverToRouter, .deliverToModem] = .ok (sys, trace) ∧
      System.Concluded .router .modem sys trace .requestDenied := by
  let mac : MacAddress := .eui48 (.replicate 6 1)
  let inputs : List System.Input := [.deliverToModem, .deliverToRouter,
    .modem ⟨.appAddDestination mac .default .default, rfl⟩,
    .router ⟨.appShutdown .requestDenied, rfl⟩, .deliverToModem, .deliverToRouter,
    .deliverToRouter, .deliverToRouter, .deliverToModem]
  obtain ⟨sys, trace, hrun, hconcluded⟩ := termination_agreement .default .default inputs (by decide)
  have hview : (System.run .default .default inputs).map (fun r => decide (
      (∃ e ∈ r.2, System.Seat.router.phase e.after = .inSession) ∧
      (∃ e ∈ r.2, System.Seat.modem.phase e.after = .inSession) ∧
      (System.Seat.router.queue r.1 = [] ∧ System.Seat.modem.queue r.1 = []) ∧
      (∃ e ∈ r.2, System.Seat.router.phase e.after = .terminating) ∧
      (∀ e ∈ r.2, System.Seat.modem.phase e.after ≠ .terminating) ∧
      System.Seat.router.gave r.2 = [some .requestDenied])) = .ok true := by
    decide +kernel
  rw [hrun] at hview
  obtain ⟨hrouter, hmodem, ⟨hqr, hqm⟩, hinitiates, hnever, hgave⟩ :=
    of_decide_eq_true (Except.ok.inj hview)
  obtain ⟨code, hcode⟩ :=
    hconcluded .router .modem (.inl ⟨rfl, rfl⟩) hrouter hmodem hqr hqm hinitiates hnever
  cases hcode.gave.symm.trans hgave
  exact ⟨mac, sys, trace, hrun, hcode⟩

end Dlep
