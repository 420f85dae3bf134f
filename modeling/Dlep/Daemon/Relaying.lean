-- SUMMARY: A session task without plug-ins relays between its peer and its state machine: what it feeds and what it writes.
import Dlep.Daemon.Lifecycle
import Dlep.Lib.Quiescence
import Dlep.Net.Framed
import Mathlib.Data.List.TakeWhile

/-!
# What a session task relays

Without plug-ins a session task is a relay: the inputs of its loop become the events
of a run of the state machine, in order, and the messages that run sends go out in
order. The relay of this file says so without await points, hooks and a log. A task
writes what the relay sends, up to the first message that does not encode and as far
as its await points complete, and its peer reads the bytes as those messages, whatever
chunks they arrive in.
-/

namespace Dlep

/-! ## The relay -/

/-- The messages that went out, in order. -/
def writtenIn (log : List Effect) : List Message :=
  log.filterMap fun
    | .written msg => some msg
    | _ => none

abbrev FsmTrace (F : Type) : Type := List (Machine.Entry F FsmEvent (List FsmAction))

/-- The actions of a run of the state machine. -/
def FsmTrace.actions {F : Type} (trace : FsmTrace F) : List FsmAction :=
  trace.flatMap Machine.Entry.output

/-- What a run of the state machine sends. -/
def sentIn {F : Type} (trace : FsmTrace F) : List Message := sentMessages (FsmTrace.actions trace)

theorem sentIn_append {F : Type} (first rest : FsmTrace F) :
    sentIn (first ++ rest) = sentIn first ++ sentIn rest := by
  simp only [sentIn, FsmTrace.actions, List.flatMap_append, sentMessages_append]

/-- What of `ms` goes out: up to one that does not encode, one await point for each. -/
def goesOut (budget : Budget) (ms : List Message) : List Message :=
  let encoded := ms.takeWhile fun m => m.encode.isOk
  match budget with
  | none => encoded
  | some n => encoded.take n

/-- What stays the same while a session runs. -/
structure Contact where
  sessionId : SessionId
  addr : SocketAddr
  format : MacAddressFormat

/-- The state of a session that the events depend on: its machine, whether it reads commands, its
timers and its link jobs. -/
structure Relay (F : Type) where
  fsm : F
  reads : Bool
  timers : TimerRuntime
  jobs : LinkJobs

def FsmAction.closes : FsmAction → Bool
  | .closeTcp => true
  | _ => false

/-- The end of the stream and a failed read end a session, whatever the state machine does. -/
def LoopInput.isLast : LoopInput → Bool
  | .eof => true
  | .readError => true
  | _ => false

def Afterwards.goesOn : Afterwards → Bool
  | .leave => false
  | _ => true

namespace Relay

variable {F : Type}

/-- What the actions do besides sending: timers are set, and deferred requests become jobs. -/
def perform (contact : Contact) (r : Relay F) : FsmAction → Relay F
  | .emit (.linkCharacteristicsRequested mac requested metrics true) =>
    { r with jobs := r.jobs.start ⟨contact.sessionId, contact.addr, mac, requested, metrics⟩ }
  | action =>
    match action.timerInput with
    | some input => { r with timers := (r.timers.step input).1 }
    | none => r

theorem foldl_perform_fsm (contact : Contact) (actions : List FsmAction) (r : Relay F) :
    (actions.foldl (perform contact) r).fsm = r.fsm := by
  induction actions generalizing r with
  | nil => rfl
  | cons action actions ih =>
    rw [List.foldl_cons, ih]
    unfold perform
    split
    · rfl
    · split <;> rfl

/-- What an input changes before its events are taken. -/
def note (r : Relay F) : LoopInput → Relay F
  | .command none => { r with reads := false }
  | .linkJob task outcome =>
    match r.jobs.next task outcome with
    | some (jobs, _) => { r with jobs }
    | none => r
  | .timerExpiry => { r with timers := r.timers.deliver.1 }
  | .fire task => { r with timers := (r.timers.step (.fire task)).1 }
  | _ => r

theorem note_fsm (r : Relay F) (input : LoopInput) : (r.note input).fsm = r.fsm := by
  unfold note
  split
  case h_2 => split <;> rfl
  all_goals rfl

/-- What a session did first, and what it does unless it is ended. -/
theorem eq_append_of_ended {ended : Bool} {first trace : FsmTrace F} {x : Outcome (FsmTrace F)}
    (h : (if ended then .ok first else do
      let rest ← x
      .ok (first ++ rest)) = Except.ok trace) :
    ∃ more, trace = first ++ more ∧ (ended = true → more = []) ∧ (ended = false → x = .ok more) := by
  cases ended with
  | true =>
    cases h
    exact ⟨[], (List.append_nil first).symm, fun _ => rfl, by simp⟩
  | false =>
    obtain ⟨more, hmore, heq⟩ := bind_eq_ok.mp h
    cases heq
    exact ⟨more, rfl, by simp, fun _ => hmore⟩

variable [SessionFsm F]

/-- The state machine finds the backend's answer invalid. -/
def invalid (r : Relay F) (event : FsmEvent) : Bool :=
  match SessionFsm.step r.fsm event with
  | .ok (_, actions) => rejectsInput actions
  | .error _ => false

/-- The events that an input becomes. -/
def events (contact : Contact) (r : Relay F) : LoopInput → List FsmEvent
  | .message msg =>
    -- Messages of the types the core knows are left to the state machine.
    if SessionFsm.inSession r.fsm && !isKnownMessageType msg.messageType &&
        !(validateMacFormat msg contact.format).isOk then
      [.protocolError .invalidData]
    else [.recvMessage msg]
  | .codecError => [.protocolError .invalidData]
  | .readError => []
  | .eof => [.tcpClosed]
  | .command none => if r.reads then [.appShutdown .shuttingDown] else []
  | .command (some request) =>
    if !r.reads || request.target.any fun target => target ≠ contact.sessionId then []
    else [request.command.event]
  | .linkJob task outcome =>
    match r.jobs.next task outcome with
    | some (_, event) => event :: if r.invalid event then (fallbackDenial event).toList else []
    | none => []
  | .timerExpiry => (r.timers.deliver.2.map fun expiry => .timerExpired expiry.id expiry.kind).toList
  | .fire _ => []

/-- The machine takes the events, and the actions are performed. -/
def take (contact : Contact) (r : Relay F) (events : List FsmEvent) :
    Outcome (Relay F × FsmTrace F) := do
  let (fsm, trace) ← Machine.run SessionFsm.step r.fsm events
  .ok ((FsmTrace.actions trace).foldl (perform contact) { r with fsm }, trace)

/-- The inputs, up to one that ends the session. -/
def run (contact : Contact) : List LoopInput → Relay F → Outcome (FsmTrace F)
  | [], _ => .ok []
  | input :: inputs, r => do
    let (next, trace) ← (r.note input).take contact (r.events contact input)
    if input.isLast || (FsmTrace.actions trace).any FsmAction.closes then .ok trace
    else do
      let rest ← run contact inputs next
      .ok (trace ++ rest)

/-- A whole session: the startup event, and the inputs. -/
def session (contact : Contact) (fsm : F) (backend : Bool) (initialEvent : FsmEvent)
    (inputs : List LoopInput) : Outcome (FsmTrace F) := do
  let (r, trace) ← take contact ⟨fsm, true, .init, .new backend⟩ [initialEvent]
  if (FsmTrace.actions trace).any FsmAction.closes then .ok trace
  else do
    let rest ← run contact inputs r
    .ok (trace ++ rest)

end Relay

/-! ## What goes out -/

section

variable {budget : Budget} {m : Message} {ms : List Message}

@[simp] theorem goesOut_nil : goesOut budget [] = [] := by cases budget <;> simp [goesOut]

theorem goesOut_zero : goesOut (some 0) ms = [] := rfl

theorem goesOut_stuck {e : CodecError} (h : m.encode = .error e) : goesOut budget (m :: ms) = [] := by
  cases budget <;> simp [goesOut, h, Except.isOk, Except.toBool]

theorem goesOut_cons {bytes : List UInt8} (h : m.encode = .ok bytes) :
    goesOut none (m :: ms) = m :: goesOut none ms := by
  simp [goesOut, h, Except.isOk, Except.toBool]

theorem goesOut_succ {bytes : List UInt8} {n : ℕ} (h : m.encode = .ok bytes) :
    goesOut (some (n + 1)) (m :: ms) = m :: goesOut (some n) ms := by
  simp [goesOut, h, Except.isOk, Except.toBool]

end

namespace SessionTask

variable {F χ : Type} {s t u : SessionTask F χ}

/-! ## Tasks without plug-ins -/

def contact (s : SessionTask F χ) : Contact := ⟨s.sessionId, s.peer.addr, s.macAddressFormat⟩

def relay (s : SessionTask F χ) : Relay F := ⟨s.fsm, s.commandsOpen, s.timers, s.linkJobs⟩

/-- Without plug-ins and with nothing queued. -/
structure Bare (s : SessionTask F χ) : Prop where
  registry : s.registry = []
  activeExts : s.activeExts = []
  pendingSends : s.pendingSends = []

/-- The task became `t` and its relay `r`, and nothing was written. -/
structure Moved (s t : SessionTask F χ) (r : Relay F) : Prop where
  bare : t.Bare
  contact : t.contact = s.contact
  relay : t.relay = r
  written : writtenIn t.log = writtenIn s.log

theorem Moved.trans {r : Relay F} (h : s.Moved t s.relay) (h' : t.Moved u r) : s.Moved u r :=
  ⟨h'.bare, h'.contact.trans h.contact, h'.relay, h'.written.trans h.written⟩

theorem Moved.fed {r : Relay F} (h : s.Moved t r) (fsm : F) : s.Moved { t with fsm } { r with fsm } :=
  ⟨⟨h.bare.registry, h.bare.activeExts, h.bare.pendingSends⟩, h.contact,
    congrArg (fun r : Relay F => { r with fsm }) h.relay, h.written⟩

theorem Bare.refl (h : s.Bare) : s.Moved s s.relay := ⟨h, rfl, rfl, rfl⟩

theorem Bare.flushPendingSends (h : s.Bare) (budget : Budget) :
    s.flushPendingSends budget = .ok (s, budget) := by
  have hpending := h.pendingSends
  cases s
  cases hpending
  rfl

theorem Bare.record (h : s.Bare) (effects : List Effect) (hquiet : writtenIn effects = []) :
    s.Moved (s.record effects) s.relay := by
  refine ⟨⟨h.registry, h.activeExts, h.pendingSends⟩, rfl, rfl, ?_⟩
  simp only [SessionTask.record, writtenIn, List.filterMap_append] at hquiet ⊢
  rw [hquiet, List.append_nil]

theorem Bare.prepare (h : s.Bare) (event : EmittedEvent) : s.Moved (s.prepare event) s.relay := by
  unfold SessionTask.prepare
  split
  · exact ⟨⟨h.registry, h.activeExts, h.pendingSends⟩, rfl, rfl, rfl⟩
  · rw [h.registry]
    have hquiet : s.Moved { s with registry := [], activeExts := [] } s.relay :=
      ⟨⟨rfl, rfl, h.pendingSends⟩, rfl, rfl, rfl⟩
    refine hquiet.trans (hquiet.bare.record
      (.negotiated [] :: if s.tracked then [.established] else []) ?_)
    split <;> rfl
  · exact h.refl

/-- A deferred request becomes a job. -/
theorem Bare.driveHooks (h : s.Bare) (event : EmittedEvent) :
    s.Moved (s.driveHooks event) (s.relay.perform s.contact (.emit event)) := by
  cases event with
  | sessionUp _ | destinationUp _ _ _ | destinationDown _ _ =>
    simp only [SessionTask.driveHooks, dispatchSessionState, dispatchDestinationState, h.activeExts,
      List.foldl_nil]
    exact h.refl
  | sessionDown _ =>
    simp only [SessionTask.driveHooks, dispatchSessionState, h.activeExts, List.foldl_nil]
    exact ⟨⟨h.registry, rfl, h.pendingSends⟩, rfl, rfl, rfl⟩
  | linkCharacteristicsRequested _ _ _ deferred =>
    cases deferred with
    | false => exact h.refl
    | true => exact ⟨⟨h.registry, h.activeExts, h.pendingSends⟩, rfl, rfl, rfl⟩
  | _ => exact h.refl

theorem Bare.emitted (h : s.Bare) (event : EmittedEvent) :
    s.Moved (s.emitted event) (s.relay.perform s.contact (.emit event)) := by
  have hprepare := h.prepare event
  have hbroadcast := hprepare.trans (hprepare.relay ▸ hprepare.bare.record
    (((s.prepare event).translateEmitted event).map Effect.broadcast).toList (by
      cases (s.prepare event).translateEmitted event <;> rfl))
  have hhooks := hbroadcast.bare.driveHooks event
  rw [hbroadcast.relay, hbroadcast.contact] at hhooks
  exact hbroadcast.trans hhooks

/-- The guard of a task without plug-ins writes nothing. -/
theorem writtenIn_drop (hactive : s.activeExts = []) : writtenIn s.drop.log = writtenIn s.log := by
  unfold SessionTask.drop
  split
  · rfl
  · simp only [dispatchSessionState, SessionTask.record, hactive, List.foldl_nil, writtenIn,
      List.filterMap_append, List.filterMap_cons, List.filterMap_nil, List.append_nil]

/-! ## Batches of actions -/

/-- The task stands for the relay `r`, and the relay still sends `rest`; `total` goes out in all. -/
structure Stands (contact : Contact) (total : List Message) (t : SessionTask F χ) (r : Relay F)
    (left : Budget) (rest : List Message) : Prop where
  bare : t.Bare
  contact : t.contact = contact
  relay : t.relay = r
  due : writtenIn t.log ++ goesOut left rest = total

/-- The task stopped, and wrote all of it. -/
structure Stopped (total : List Message) (t : SessionTask F χ) : Prop where
  activeExts : t.activeExts = []
  written : writtenIn t.log = total

variable {contact : Contact} {total rest : List Message} {r r' : Relay F} {left : Budget}
  {actions : List FsmAction}

theorem Stands.moved (h : Stands contact total t r left rest) (hmoved : t.Moved u r') :
    Stands contact total u r' left rest :=
  ⟨hmoved.bare, hmoved.contact.trans h.contact, hmoved.relay, hmoved.written ▸ h.due⟩

theorem Stands.stopped (h : Stands contact total t r left rest) (hrest : goesOut left rest = []) :
    Stopped total t := by
  refine ⟨h.bare.activeExts, ?_⟩
  rw [← h.due, hrest, List.append_nil]

theorem Stands.writeMessage {msg : Message} (h : Stands contact total t r left (msg :: rest)) :
    Ends (fun x => Stands contact total x.1 r x.2 rest) (Stopped total) (t.writeMessage msg left) := by
  unfold SessionTask.writeMessage
  cases hencode : msg.encode with
  | error e => exact h.stopped (goesOut_stuck hencode)
  | ok bytes =>
    have hlog : writtenIn (t.record [.written msg]).log = writtenIn t.log ++ [msg] :=
      List.filterMap_append
    have hbare : (t.record [.written msg]).Bare :=
      ⟨h.bare.registry, h.bare.activeExts, h.bare.pendingSends⟩
    cases left with
    | none =>
      refine ⟨hbare, h.contact, h.relay, ?_⟩
      rw [hlog, List.append_assoc, List.singleton_append, ← goesOut_cons hencode, h.due]
    | some n =>
      cases n with
      | zero => exact h.stopped goesOut_zero
      | succ n =>
        refine ⟨hbare, h.contact, h.relay, ?_⟩
        rw [hlog, List.append_assoc, List.singleton_append, ← goesOut_succ hencode, h.due]

theorem Stands.perform {action : FsmAction}
    (h : Stands contact total t r left (sentMessages [action] ++ rest)) :
    Ends (fun x => Stands contact total x.1 (r.perform contact action) x.2.2 rest ∧
      x.2.1 = action.closes) (Stopped total) (t.perform action left) := by
  have hquiet := h.bare
  cases action with
  | sendMessage msg => exact (h.writeMessage).bind fun _ hx => ⟨hx, rfl⟩
  | emit event =>
    have hemitted := h.bare.emitted event
    rw [h.relay, h.contact] at hemitted
    simp only [SessionTask.perform, hemitted.bare.flushPendingSends]
    exact ⟨h.moved hemitted, rfl⟩
  | closeTcp => exact ⟨h, rfl⟩
  | sendSignal _ _ => exact ⟨h, rfl⟩
  | _ =>
    refine ⟨h.moved ⟨⟨hquiet.registry, hquiet.activeExts, hquiet.pendingSends⟩, rfl, ?_, rfl⟩, rfl⟩
    rw [← h.relay]
    rfl

/-- A batch of actions; the connection is closed only after everything was sent. -/
theorem Stands.processActions (h : Stands contact total t r left (sentMessages actions ++ rest))
    (close : Bool) (hclose : (close || actions.any FsmAction.closes) = true → rest = []) :
    Ends (fun x => Stands contact total x.1 (actions.foldl (Relay.perform contact) r) x.2.2 rest ∧
      x.2.1 = (close || actions.any FsmAction.closes)) (Stopped total)
      (processActions actions t close left) := by
  induction actions generalizing t r close left with
  | nil =>
    cases close with
    | false => exact ⟨h, rfl⟩
    | true =>
      -- The writer is shut down.
      obtain rfl := hclose rfl
      cases left with
      | none => exact ⟨h, rfl⟩
      | some n =>
        cases n with
        | zero => exact h.stopped goesOut_zero
        | succ n => exact ⟨⟨h.bare, h.contact, h.relay, by simpa using h.due⟩, rfl⟩
  | cons action actions ih =>
    rw [List.any_cons, ← Bool.or_assoc] at hclose ⊢
    have hfirst : Stands contact total t r left
        (sentMessages [action] ++ (sentMessages actions ++ rest)) := by
      rw [← List.append_assoc, ← sentMessages_append]
      exact h
    refine hfirst.perform.bind fun x hx => ?_
    rw [← hx.2] at hclose ⊢
    exact ih hx.1 _ hclose

/-! ## The arms of the loop -/

theorem Bare.describePeer (h : s.Bare) (msg : Message) : s.Moved (s.describePeer msg) s.relay := by
  unfold SessionTask.describePeer
  split
  · exact ⟨⟨h.registry, h.activeExts, h.pendingSends⟩, rfl, rfl, rfl⟩
  · exact h.refl

theorem filterUnknownItems_nil (mt : MessageType) (items : List DataItem) (c : χ) :
    filterUnknownItems [] mt items c = (c, .none, items) := by
  induction items with
  | nil => rfl
  | cons item items ih =>
    cases item with
    | unknown raw =>
      simp only [filterUnknownItems, claimItem, ih]
      rfl
    | _ => simp only [filterUnknownItems, ih]

theorem absorb_none (s : SessionTask F χ) : s.absorb .none = s := by
  simp only [absorb, SessionTask.record, HookOutput.none, List.map_nil, List.append_nil]

variable [SessionFsm F]

/-- Without plug-ins a message is handed on as it is. -/
theorem Bare.receive (h : s.Bare) (msg : Message) :
    ∃ event, s.receive msg = (s, event) ∧ s.relay.events s.contact (.message msg) = [event] := by
  have hactive := h.activeExts
  obtain ⟨_, _, _, _, _, _, _, _, _, _, _, _, _, _⟩ := s
  cases hactive
  simp only [SessionTask.receive, dispatchUnknownMessage, absorb_none, filterUnknownItems_nil, ite_self,
    Bool.false_eq_true, if_false, Relay.events, SessionTask.relay, SessionTask.contact]
  split
  · rename_i hmisformatted
    exact ⟨_, rfl, if_pos hmisformatted⟩
  · rename_i hformat
    exact ⟨_, rfl, if_neg hformat⟩

variable {event : FsmEvent} {fsm : F} {trace : FsmTrace F}

theorem feed_of_run (h : Machine.run SessionFsm.step s.fsm [event] = .ok (fsm, trace)) :
    s.feed event = .ok ({ s with fsm }, FsmTrace.actions trace) := by
  obtain ⟨fsm', actions, rest, hstep, hrest, rfl⟩ := Machine.run_cons h
  cases hrest
  simp [SessionTask.feed, hstep, FsmTrace.actions]

/-- The backend's answer, and a denial after it if the machine finds it invalid. -/
theorem answerLink_of_run {denial : FsmEvent} (hfallback : fallbackDenial event = some denial)
    (h : Machine.run SessionFsm.step s.fsm
      (event :: if s.relay.invalid event then (fallbackDenial event).toList else []) =
        .ok (fsm, trace)) :
    s.answerLink event = .ok ({ s with fsm }, FsmTrace.actions trace) := by
  obtain ⟨fsm', actions, rest, hstep, hrest, rfl⟩ := Machine.run_cons h
  have hinvalid : s.relay.invalid event = rejectsInput actions := by
    simp only [Relay.invalid, SessionTask.relay, hstep]
  have hfeed : s.feed event = .ok ({ s with fsm := fsm' }, actions) := by
    simp only [SessionTask.feed, hstep]
  rw [hinvalid, hfallback] at hrest
  simp only [SessionTask.answerLink, hfeed, hfallback, bind, Except.bind]
  cases hrejects : rejectsInput actions with
  | false =>
    simp only [hrejects, Bool.false_eq_true, if_false] at hrest ⊢
    cases hrest
    simp [FsmTrace.actions]
  | true =>
    simp only [hrejects, if_true, Option.toList_some] at hrest ⊢
    have hdenial := feed_of_run (s := { s with fsm := fsm' }) hrest
    rw [hdenial]
    rfl

/-- What an arm does that is not a failed read. -/
def Arms (s : SessionTask F χ) (input : LoopInput) (fsm : F) (trace : FsmTrace F) : Prop :=
  ∃ t afterwards, s.arm input = .ok (t, FsmTrace.actions trace, afterwards) ∧
    s.Moved t { s.relay.note input with fsm } ∧ afterwards.goesOn = !input.isLast

theorem Bare.onMessage (h : s.Bare) {msg : Message} (hrun : Machine.run SessionFsm.step s.fsm
    (s.relay.events s.contact (.message msg)) = .ok (fsm, trace)) : s.Arms (.message msg) fsm trace := by
  have hquiet := h.describePeer msg
  obtain ⟨event, hreceive, hevents⟩ := hquiet.bare.receive msg
  have hfsm : (s.describePeer msg).fsm = s.fsm := congrArg Relay.fsm hquiet.relay
  rw [← hquiet.relay, ← hquiet.contact, hevents, ← hfsm] at hrun
  unfold Arms
  simp only [SessionTask.arm, SessionTask.onMessage, hreceive, feed_of_run hrun, bind, Except.bind]
  exact ⟨_, _, rfl, hquiet.fed fsm, by cases event <;> rfl⟩

/-- An input that becomes no event. -/
theorem Moved.idle {input : LoopInput} {afterwards : Afterwards}
    (h : s.Moved t (s.relay.note input)) (harm : s.arm input = .ok (t, [], afterwards))
    (hlast : afterwards.goesOn = !input.isLast) (hevents : s.relay.events s.contact input = [])
    (hrun : Machine.run SessionFsm.step s.fsm (s.relay.events s.contact input) = .ok (fsm, trace)) :
    s.Arms input fsm trace := by
  rw [hevents] at hrun
  cases hrun
  have hfsm : s.fsm = (s.relay.note input).fsm := (s.relay.note_fsm input).symm
  refine ⟨t, afterwards, harm, ?_, hlast⟩
  rw [hfsm]
  exact h

theorem Bare.onCommand (h : s.Bare) {request : Option SessionRequest}
    (hrun : Machine.run SessionFsm.step s.fsm (s.relay.events s.contact (.command request)) =
      .ok (fsm, trace)) : s.Arms (.command request) fsm trace := by
  cases hreads : s.commandsOpen with
  | false =>
    have hnote : s.relay.note (.command request) = s.relay := by
      cases request <;> simp [Relay.note, SessionTask.relay, hreads]
    have harm : s.arm (.command request) = .ok (s, [], .again) := by
      simp [SessionTask.arm, SessionTask.onCommand, hreads]
    refine Moved.idle ?_ harm rfl ?_ hrun
    · rw [hnote]
      exact h.refl
    · cases request <;> simp [Relay.events, SessionTask.relay, hreads]
  | true =>
    cases request with
    | none =>
      have hclosed : s.Moved { s with commandsOpen := false } (s.relay.note (.command none)) :=
        ⟨⟨h.registry, h.activeExts, h.pendingSends⟩, rfl, rfl, rfl⟩
      have hrun : Machine.run SessionFsm.step { s with commandsOpen := false }.fsm
          [.appShutdown .shuttingDown] = .ok (fsm, trace) := by
        simpa [Relay.events, SessionTask.relay, hreads] using hrun
      refine ⟨_, .again, ?_, hclosed.fed fsm, rfl⟩
      simp [SessionTask.arm, SessionTask.onCommand, hreads, feed_of_run hrun, bind, Except.bind]
    | some request =>
      by_cases hother : (request.target.any fun target => target ≠ s.sessionId) = true
      · have harm : s.arm (.command (some request)) =
            .ok (s, [], if request.receipt then .reply none else .again) := by
          simp only [SessionTask.arm, SessionTask.onCommand, hreads, hother, Bool.not_true,
            Bool.false_eq_true, if_true, if_false]
        have hevents : s.relay.events s.contact (.command (some request)) = [] :=
          if_pos ((Bool.or_eq_true _ _).mpr (.inr hother))
        exact Moved.idle h.refl harm (by split <;> rfl) hevents hrun
      · have hevents : s.relay.events s.contact (.command (some request)) = [request.command.event] :=
          if_neg fun h => ((Bool.or_eq_true _ _).mp h).elim (by simp [SessionTask.relay, hreads]) hother
        rw [hevents] at hrun
        refine ⟨_, if request.receipt then
          .reply (some (s.sessionId, commandOutcome (FsmTrace.actions trace))) else .again, ?_,
          h.refl.fed fsm, by split <;> rfl⟩
        simp only [SessionTask.arm, SessionTask.onCommand, hreads, hother, feed_of_run hrun,
          Bool.not_true, Bool.false_eq_true, if_false, bind, Except.bind]

theorem Bare.onLinkJob (h : s.Bare) {task : ℕ} {outcome : Option LinkResponse}
    (hrun : Machine.run SessionFsm.step s.fsm (s.relay.events s.contact (.linkJob task outcome)) =
      .ok (fsm, trace)) : s.Arms (.linkJob task outcome) fsm trace := by
  cases hnext : s.linkJobs.next task outcome with
  | none =>
    have harm : s.arm (.linkJob task outcome) = .ok (s, [], .again) := by
      simp only [SessionTask.arm, SessionTask.onLinkJob, hnext]
    refine Moved.idle ?_ harm rfl ?_ hrun
    · simp only [Relay.note, SessionTask.relay, hnext]
      exact h.refl
    · simp only [Relay.events, SessionTask.relay, hnext]
  | some next =>
    obtain ⟨mac, -, rfl⟩ := Option.map_eq_some_iff.mp hnext
    have htaken : s.Moved { s with linkJobs := { s.linkJobs with macs := s.linkJobs.macs.erase task } }
        (s.relay.note (.linkJob task outcome)) := by
      simp only [Relay.note, SessionTask.relay, hnext]
      exact ⟨⟨h.registry, h.activeExts, h.pendingSends⟩, rfl, rfl, rfl⟩
    refine ⟨_, .again, ?_, htaken.fed fsm, rfl⟩
    simp only [Relay.events, SessionTask.relay, hnext] at hrun
    have hanswer : { s with linkJobs := { s.linkJobs with macs := s.linkJobs.macs.erase task } }.answerLink
        ((s.linkJobs.response outcome).intoEvent mac) = .ok (_, _) := answerLink_of_run rfl hrun
    simp only [SessionTask.arm, SessionTask.onLinkJob, hnext, hanswer, bind, Except.bind]

theorem Bare.onTimerExpiry (h : s.Bare) (hrun : Machine.run SessionFsm.step s.fsm
    (s.relay.events s.contact .timerExpiry) = .ok (fsm, trace)) : s.Arms .timerExpiry fsm trace := by
  have htimers : s.Moved { s with timers := s.timers.deliver.1 } (s.relay.note .timerExpiry) :=
    ⟨⟨h.registry, h.activeExts, h.pendingSends⟩, rfl, rfl, rfl⟩
  cases hdeliver : s.timers.deliver.2 with
  | none =>
    have harm : s.arm .timerExpiry = .ok ({ s with timers := s.timers.deliver.1 }, [], .again) := by
      simp only [SessionTask.arm, SessionTask.onTimerExpiry]
      split <;> simp_all
    exact htimers.idle harm rfl (by simp [Relay.events, SessionTask.relay, hdeliver]) hrun
  | some expiry =>
    have hrun : Machine.run SessionFsm.step { s with timers := s.timers.deliver.1 }.fsm
        [.timerExpired expiry.id expiry.kind] = .ok (fsm, trace) := by
      simpa [Relay.events, SessionTask.relay, hdeliver] using hrun
    refine ⟨_, .again, ?_, htimers.fed fsm, rfl⟩
    have hfeed := feed_of_run hrun
    simp only [SessionTask.arm, SessionTask.onTimerExpiry]
    split
    · simp_all
    · rename_i timers expiry' heq
      rw [heq] at hfeed hdeliver
      cases hdeliver
      simp only [hfeed, heq, bind, Except.bind]

/-- Every arm but that of a failed read. -/
theorem Bare.arm (h : s.Bare) {input : LoopInput} (hinput : input ≠ .readError)
    (hrun : Machine.run SessionFsm.step s.fsm (s.relay.events s.contact input) = .ok (fsm, trace)) :
    s.Arms input fsm trace := by
  cases input with
  | message msg => exact h.onMessage hrun
  | codecError =>
    refine ⟨_, .again, ?_, h.refl.fed fsm, rfl⟩
    simp only [SessionTask.arm, feed_of_run hrun, bind, Except.bind]
  | readError => exact absurd rfl hinput
  | eof =>
    refine ⟨_, .leave, ?_, h.refl.fed fsm, rfl⟩
    simp only [SessionTask.arm, feed_of_run hrun, bind, Except.bind]
  | command request => exact h.onCommand hrun
  | linkJob task outcome => exact h.onLinkJob hrun
  | timerExpiry => exact h.onTimerExpiry hrun
  | fire task =>
    have hfired : s.Moved { s with timers := (s.timers.step (.fire task)).1 }
        (s.relay.note (.fire task)) := ⟨⟨h.registry, h.activeExts, h.pendingSends⟩, rfl, rfl, rfl⟩
    exact hfired.idle rfl rfl rfl hrun

/-! ## Turns and runs -/

theorem Stands.turn {input : LoopInput} (h : Stands contact total t r left (sentIn trace ++ rest))
    (htake : (r.note input).take contact (r.events contact input) = .ok (r', trace))
    (hover : (input.isLast || (FsmTrace.actions trace).any FsmAction.closes) = true → rest = []) :
    Ends (fun x => Stands contact total x.1 r' x.2.2.2 rest ∧
      (input.isLast || (FsmTrace.actions trace).any FsmAction.closes) = !x.2.2.1) (Stopped total)
      (t.turn input left) := by
  obtain ⟨⟨fsm, _⟩, hrun, heq⟩ := bind_eq_ok.mp htake
  cases heq
  by_cases hread : input = .readError
  · subst hread
    cases hrun
    obtain rfl := hover rfl
    exact h.stopped goesOut_nil
  · rw [Relay.note_fsm, ← h.relay, ← h.contact] at hrun
    obtain ⟨u, afterwards, harm, hmoved, hleave⟩ := h.bare.arm hread hrun
    rw [h.relay] at hmoved
    unfold SessionTask.turn
    rw [harm]
    refine ((h.moved hmoved).processActions false (fun hclose => hover ?_)).bind fun x hx => ?_
    · rw [Bool.or_eq_true]
      exact .inr hclose
    · obtain ⟨hstands, hclose⟩ := hx
      rw [Bool.false_or] at hclose
      rw [← hclose]
      cases afterwards with
      | again => exact ⟨hstands, by simp_all [Afterwards.goesOn]⟩
      | leave => exact ⟨hstands, by simp_all [Afterwards.goesOn]⟩
      | reply answer =>
        exact ⟨hstands.moved (hstands.relay ▸ hstands.bare.record [.receipt answer] rfl),
          by simp_all [Afterwards.goesOn]⟩
      | flush =>
        dsimp only
        split
        · exact ⟨hstands, by simp_all⟩
        · rw [hstands.bare.flushPendingSends]
          exact ⟨hstands, by simp_all [Afterwards.goesOn]⟩

theorem Stands.loop {inputs : List LoopInput} (h : Stands contact total t r left (sentIn trace))
    (hrun : r.run contact inputs = .ok trace) : Stopped total (SessionTask.loop inputs t left) := by
  induction inputs generalizing t r left trace with
  | nil =>
    cases hrun
    exact h.stopped goesOut_nil
  | cons input inputs ih =>
    obtain ⟨⟨next, first⟩, htake, hrun⟩ := bind_eq_ok.mp hrun
    obtain ⟨more, rfl, hover, hmore⟩ := Relay.eq_append_of_ended hrun
    rw [sentIn_append] at h
    have hturn := h.turn htake fun hlast => by rw [hover hlast]; rfl
    unfold SessionTask.loop
    split
    all_goals
      rename_i hresult
      have hends := hturn.of_eq hresult
    · exact hends
    · have hnone : more = [] := hover hends.2
      subst hnone
      exact hends.1.stopped goesOut_nil
    · exact ih hends.1 (hmore hends.2)

/-- The whole task: the startup event, the loop and the drop of the guard. -/
theorem Bare.runTracked {backend : Bool} (h : s.Bare)
    (hrelay : s.relay = ⟨s.fsm, true, .init, .new backend⟩) (hlog : s.log = [])
    {initialEvent : FsmEvent} {inputs : List LoopInput}
    (hrun : Relay.session s.contact s.fsm backend initialEvent inputs = .ok trace) (budget : Budget) :
    writtenIn (s.runTracked initialEvent inputs budget).log = goesOut budget (sentIn trace) := by
  obtain ⟨⟨next, first⟩, htake, hrun⟩ := bind_eq_ok.mp hrun
  obtain ⟨more, rfl, hover, hmore⟩ := Relay.eq_append_of_ended hrun
  obtain ⟨⟨fsm, _⟩, hfirst, heq⟩ := bind_eq_ok.mp htake
  cases heq
  have hmoved := h.refl.fed fsm
  rw [hrelay] at hmoved
  have hstands : Stands s.contact (goesOut budget (sentIn (first ++ more))) { s with fsm }
      ⟨fsm, true, .init, .new backend⟩ budget (sentIn first ++ sentIn more) :=
    ⟨hmoved.bare, rfl, hmoved.relay, by rw [hlog, sentIn_append]; rfl⟩
  have hbatch := hstands.processActions false fun hclose => by rw [hover hclose]; rfl
  have hstopped : ∃ u, s.runTracked initialEvent inputs budget = u.drop ∧
      Stopped (goesOut budget (sentIn (first ++ more))) u := by
    unfold SessionTask.runTracked
    simp only [feed_of_run hfirst, bind, Except.bind]
    split
    all_goals
      rename_i hresult
      have hends := hbatch.of_eq hresult
    · exact ⟨_, rfl, hends⟩
    · have hnone : more = [] := hover hends.2.symm
      subst hnone
      exact ⟨_, rfl, hends.1.stopped goesOut_nil⟩
    · exact ⟨_, rfl, hends.1.loop (hmore hends.2.symm)⟩
  obtain ⟨u, hdrop, hstopped⟩ := hstopped
  rw [hdrop, writtenIn_drop hstopped.activeExts, hstopped.written]

end SessionTask

/-! ## Every session is a run of the relay -/

namespace Relay

variable {F : Type} [SessionFsm F] [LawfulFsm F] {contact : Contact} {r : Relay F}

/-- The relay never panics, and the trace it returns is one of its state machine. -/
theorem take_total (hc : LawfulFsm.Consistent r.fsm) (events : List FsmEvent) :
    ∃ next trace, r.take contact events = .ok (next, trace) ∧ LawfulFsm.Consistent next.fsm ∧
      Machine.run SessionFsm.step r.fsm events = .ok (next.fsm, trace) := by
  obtain ⟨fsm, trace, hrun⟩ := Machine.run_total (I := LawfulFsm.Consistent)
    (fun f event hc =>
      have ⟨f', actions, hstep⟩ := LawfulFsm.step_total hc event
      ⟨f', actions, hstep, (LawfulFsm.step_shape hc hstep).1⟩) events hc
  have hc' : LawfulFsm.Consistent fsm := Machine.run_invariant
    (fun _ _ _ _ hc hstep => (LawfulFsm.step_shape hc hstep).1) hc hrun
  have htake : r.take contact events = .ok (_, trace) := bind_eq_ok.mpr ⟨_, hrun, rfl⟩
  refine ⟨_, trace, htake, ?_, ?_⟩
  all_goals rwa [foldl_perform_fsm]

omit [LawfulFsm F] in
theorem run_of_ended {f f' : F} {events : List FsmEvent} {first : FsmTrace F} (ended : Bool)
    {x : Outcome (FsmTrace F)} (hfirst : Machine.run SessionFsm.step f events = .ok (f', first))
    (hx : ∃ more fsm, x = .ok more ∧
      Machine.run SessionFsm.step f' (more.map Machine.Entry.input) = .ok (fsm, more)) :
    ∃ trace fsm, (if ended then .ok first else do
        let rest ← x
        .ok (first ++ rest)) = Except.ok trace ∧
      Machine.run SessionFsm.step f (trace.map Machine.Entry.input) = .ok (fsm, trace) := by
  obtain ⟨more, fsm, rfl, hmore⟩ := hx
  have hinputs := Machine.run_inputs hfirst
  cases ended with
  | true => exact ⟨first, f', rfl, by rwa [hinputs]⟩
  | false =>
    refine ⟨first ++ more, fsm, rfl, ?_⟩
    rw [List.map_append, hinputs]
    exact Machine.run_append hfirst hmore

theorem run_total (hc : LawfulFsm.Consistent r.fsm) (inputs : List LoopInput) :
    ∃ trace fsm, r.run contact inputs = .ok trace ∧
      Machine.run SessionFsm.step r.fsm (trace.map Machine.Entry.input) = .ok (fsm, trace) := by
  induction inputs generalizing r with
  | nil => exact ⟨[], r.fsm, rfl, rfl⟩
  | cons input inputs ih =>
    obtain ⟨next, first, htake, hc', hfirst⟩ : ∃ next first,
        (r.note input).take contact (r.events contact input) = .ok (next, first) ∧ _ :=
      take_total (by rwa [note_fsm]) _
    rw [note_fsm] at hfirst
    simp only [run, htake, bind, Except.bind]
    exact run_of_ended _ hfirst (ih hc')

end Relay

end Dlep
