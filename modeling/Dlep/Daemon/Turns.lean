-- SUMMARY: The rule for properties of a session task: what the parts of a turn keep, every run keeps.
import Dlep.Daemon.Session

/-!
# Turns of a session task

A turn can stop at every await point, so a property of a task is one of its state
before a batch of actions is processed, together with what remains of it where the
task may stop. The rules of this file ask that each part of a batch, and of a turn,
keeps such a property, and conclude that whole runs do.
-/

namespace Dlep

namespace SessionTask

/-- A property of a task, wherever a piece of it ended. -/
def Ends {F χ α : Type} (ok : α → Prop) (stopped : SessionTask F χ → Prop) :
    Attempt F χ α → Prop
  | .ok a => ok a
  | .error s => stopped s

section

variable {F χ α β : Type} {ok ok' : α → Prop} {stopped : SessionTask F χ → Prop}
  {x : Attempt F χ α}

theorem Ends.bind {ok' : β → Prop} {f : α → Attempt F χ β} (hx : Ends ok stopped x)
    (hf : ∀ a, ok a → Ends ok' stopped (f a)) : Ends ok' stopped (x >>= f) := by
  cases x with
  | ok a => exact hf a hx
  | error s => exact hx

theorem Ends.of_eq {y : Attempt F χ α} (h : x = y) (hx : Ends ok stopped x) :
    Ends ok stopped y := h ▸ hx

theorem Ends.mono (hx : Ends ok stopped x) (hok : ∀ a, ok a → ok' a) : Ends ok' stopped x := by
  cases x with
  | ok a => exact hok a hx
  | error s => exact hx

end

/-! ## Emitted events -/

variable {F χ : Type}

/-- The parts of an emission keep `P`; of the plug-ins, `Q` holds. -/
structure HookInvariant (P : SessionTask F χ → Prop) (Q : Registration χ → Prop) : Prop where
  registry : ∀ {s}, P s → ∀ r ∈ s.registry, Q r
  active : ∀ {s}, P s → ∀ r ∈ s.activeExts, Q r
  sessionState : ∀ {s r} (up : Bool), P s → Q r → P (sessionStateHook up s r)
  destinationState : ∀ {s r} (mac : MacAddress) (snap : DestinationStateSnapshot), P s → Q r →
    P (destinationStateHook mac snap s r)
  negotiated : ∀ {s} (remote : List ExtensionId), P s →
    (∀ r ∈ (negotiate remote s.registry s.plugins).2, Q r) →
      P { s with
        plugins := (negotiate remote s.registry s.plugins).1
        activeExts := (negotiate remote s.registry s.plugins).2 }
  record : ∀ {s effects}, P s → (∀ msg, .written msg ∉ effects) → P (s.record effects)
  ended : ∀ {s}, P s → P { s with activeExts := [] }
  downEmitted : ∀ {s}, P s → P { s with downEmitted := true }
  linkJobs : ∀ {s} (linkJobs : LinkJobs), P s → P { s with linkJobs }

namespace HookInvariant

variable {P : SessionTask F χ → Prop} {Q : Registration χ → Prop} {s : SessionTask F χ}

theorem foldl {hook : SessionTask F χ → Registration χ → SessionTask F χ}
    (hhook : ∀ {s r}, P s → Q r → P (hook s r)) {rs : List (Registration χ)}
    (hrs : ∀ r ∈ rs, Q r) (h : P s) : P (rs.foldl hook s) := by
  induction rs generalizing s with
  | nil => exact h
  | cons r rs ih =>
    obtain ⟨hr, hrs⟩ := List.forall_mem_cons.mp hrs
    exact ih hrs (hhook h hr)

theorem dispatchSessionState (hP : HookInvariant P Q) (h : P s) (up : Bool) :
    P (s.dispatchSessionState up) := foldl (hP.sessionState up) (hP.active h) h

theorem prepare (hP : HookInvariant P Q) (h : P s) (event : EmittedEvent) :
    P (s.prepare event) := by
  cases event with
  | sessionDown status => exact hP.downEmitted h
  | sessionUp extensions =>
    have hactive : ∀ r ∈ (negotiate extensions s.registry s.plugins).2, Q r := fun r hr =>
      hP.registry h r ((negotiate_sublist extensions s.registry s.plugins).subset hr)
    refine hP.record (hP.negotiated extensions h hactive) fun msg hmsg => ?_
    split at hmsg <;> simp at hmsg
  | _ => exact h

theorem driveHooks (hP : HookInvariant P Q) (h : P s) (event : EmittedEvent) :
    P (s.driveHooks event) := by
  unfold SessionTask.driveHooks
  split
  · exact hP.dispatchSessionState h true
  · exact hP.ended (hP.dispatchSessionState h false)
  · exact foldl (hP.destinationState _ _) (hP.active h) h
  · exact hP.linkJobs _ h
  · exact foldl (hP.destinationState _ _) (hP.active h) h
  · exact h

theorem emitted (hP : HookInvariant P Q) (h : P s) (event : EmittedEvent) : P (s.emitted event) := by
  refine hP.driveHooks (hP.record (hP.prepare h event) fun msg hmsg => ?_) event
  obtain ⟨translated, -, htranslated⟩ := Option.mem_map.mp (Option.mem_toList.mp hmsg)
  cases htranslated

end HookInvariant

/-- No emission steps the state machine. -/
theorem fsm_emitted (s : SessionTask F χ) (event : EmittedEvent) : (s.emitted event).fsm = s.fsm := by
  have hkeeps : HookInvariant (fun t : SessionTask F χ => t.fsm = s.fsm) fun _ => True := by
    constructor <;> intros <;> trivial
  exact hkeeps.emitted rfl event

/-! ## Batches -/

/-- The parts of a batch keep `I`, a property of a task with actions to process. Wherever the task
stops, `stopped` holds. -/
structure BatchInvariant (I : SessionTask F χ → List FsmAction → Prop)
    (stopped : SessionTask F χ → Prop) : Prop where
  stop : ∀ {s actions}, I s actions → stopped s
  write : ∀ {s msg actions}, I s (.sendMessage msg :: actions) → msg.Encodes →
    I (s.record [.written msg]) actions
  emit : ∀ {s event actions}, I s (.emit event :: actions) →
    I { s.emitted event with pendingSends := [] } actions
  skip : ∀ {s action actions}, I s (action :: actions) → (∀ msg, action ≠ .sendMessage msg) →
    (∀ event, action ≠ .emit event) → I s actions
  timers : ∀ {s actions} (timers : TimerRuntime), I s actions → I { s with timers } actions
  flush : ∀ {s msg actions}, I s actions → validateMacFormat msg s.macAddressFormat = .ok () →
    I (s.record [.written msg]) actions

namespace BatchInvariant

variable {I : SessionTask F χ → List FsmAction → Prop} {stopped : SessionTask F χ → Prop}
  {s : SessionTask F χ} {actions more : List FsmAction}

theorem await (hI : BatchInvariant I stopped) (h : I s actions) (budget : Budget) :
    Ends (fun r => r.1 = s) stopped (s.await budget) := by
  match budget with
  | none => exact rfl
  | some (n + 1) => exact rfl
  | some 0 => exact hI.stop h

theorem writeMessage (hI : BatchInvariant I stopped) (h : I s actions) {msg : Message}
    (hwrite : msg.Encodes → I (s.record [.written msg]) more) (budget : Budget) :
    Ends (fun r => I r.1 more) stopped (s.writeMessage msg budget) := by
  unfold SessionTask.writeMessage
  split
  · exact hI.stop h
  · rename_i bytes hencode
    refine (hI.await h budget).bind ?_
    rintro ⟨t, budget'⟩ rfl
    exact hwrite ⟨bytes, hencode⟩

/-- The messages of the plug-ins are checked one by one; the first that fails the check stops the
task. -/
theorem flushMessages (hI : BatchInvariant I stopped) (h : I s actions) (msgs : List Message)
    (budget : Budget) :
    Ends (fun r => I r.1 actions) stopped (SessionTask.flushMessages msgs s budget) := by
  induction msgs generalizing s budget with
  | nil => exact h
  | cons msg msgs ih =>
    unfold SessionTask.flushMessages
    split
    · exact hI.stop h
    · rename_i hvalid
      refine (hI.writeMessage h (fun _ => hI.flush h hvalid) budget).bind ?_
      rintro ⟨t, budget'⟩ ht
      exact ih ht budget'

theorem perform (hI : BatchInvariant I stopped) {action : FsmAction} (h : I s (action :: actions))
    (budget : Budget) : Ends (fun r => I r.1 actions) stopped (s.perform action budget) := by
  cases action with
  | sendMessage msg => exact (hI.writeMessage h (hI.write h) budget).bind fun _ ht => ht
  | emit event =>
    exact (hI.flushMessages (hI.emit h) (s.emitted event).pendingSends budget).bind fun _ ht => ht
  | closeTcp | sendSignal => exact hI.skip h (by simp) (by simp)
  | startTimer | cancelTimer | resetHeartbeat => exact hI.timers _ (hI.skip h (by simp) (by simp))

theorem processActions (hI : BatchInvariant I stopped) (h : I s actions) (close : Bool)
    (budget : Budget) :
    Ends (fun r => I r.1 []) stopped (SessionTask.processActions actions s close budget) := by
  induction actions generalizing s close budget with
  | nil =>
    cases close with
    | false => exact h
    | true =>
      refine (hI.await h budget).bind ?_
      rintro ⟨t, budget'⟩ rfl
      exact h
  | cons action actions ih =>
    refine (hI.perform h budget).bind ?_
    rintro ⟨t, closes, budget'⟩ ht
    exact ih ht _ budget'

end BatchInvariant

/-! ## Turns -/

variable [SessionFsm F]

/-- The parts of a turn keep `I`, too. -/
structure TurnInvariant (I : SessionTask F χ → List FsmAction → Prop) (stopped : SessionTask F χ → Prop) :
    Prop extends BatchInvariant I stopped where
  feed : ∀ {s actions event fsm more}, I s actions →
    SessionFsm.step s.fsm event = .ok (fsm, more) → I { s with fsm } (actions ++ more)
  drain : ∀ {s}, I s [] → I { s with pendingSends := [] } []
  peer : ∀ {s} (peer : PeerInfo), I s [] → I { s with peer } []
  receive : ∀ {s} (msg : Message), I s [] → I (s.receive msg).1 []
  commandsOpen : ∀ {s} (commandsOpen : Bool), I s [] → I { s with commandsOpen } []
  linkJobs : ∀ {s} (linkJobs : LinkJobs), I s [] → I { s with linkJobs } []
  receipt : ∀ {s} (answer : Option (SessionId × Except CommandRejection Unit)), I s [] →
    I (s.record [.receipt answer]) []

namespace TurnInvariant

variable {I : SessionTask F χ → List FsmAction → Prop} {stopped : SessionTask F χ → Prop}
  {s : SessionTask F χ}

theorem ends_feed (hI : TurnInvariant I stopped) {actions : List FsmAction} (h : I s actions)
    (event : FsmEvent) : Ends (fun r => I r.1 (actions ++ r.2)) stopped (s.feed event) := by
  unfold SessionTask.feed
  split
  · rename_i hstep
    exact hI.feed h hstep
  · exact hI.stop h

theorem answerLink (hI : TurnInvariant I stopped) (h : I s []) (event : FsmEvent) :
    Ends (fun r => I r.1 r.2) stopped (s.answerLink event) := by
  unfold SessionTask.answerLink
  refine (hI.ends_feed h event).bind ?_
  rintro ⟨t, actions⟩ ht
  dsimp only
  split
  · split
    · exact hI.stop ht
    · refine (hI.ends_feed ht _).bind ?_
      rintro ⟨u, denial⟩ hu
      exact hu
  · exact ht

theorem onCommand (hI : TurnInvariant I stopped) (h : I s []) (request : Option SessionRequest) :
    Ends (fun r => I r.1 r.2.1) stopped (s.onCommand request) := by
  unfold SessionTask.onCommand
  split
  · exact h
  · cases request with
    | none => exact (hI.ends_feed (hI.commandsOpen false h) _).bind fun _ hr => hr
    | some request =>
      dsimp only
      split
      · exact h
      · exact (hI.ends_feed h _).bind fun _ hr => hr

theorem onLinkJob (hI : TurnInvariant I stopped) (h : I s []) (task : ℕ) (outcome : Option LinkResponse) :
    Ends (fun r => I r.1 r.2.1) stopped (s.onLinkJob task outcome) := by
  unfold SessionTask.onLinkJob
  split
  · exact h
  · exact (hI.answerLink (hI.linkJobs _ h) _).bind fun _ hr => hr

theorem onTimerExpiry (hI : TurnInvariant I stopped) (h : I s []) :
    Ends (fun r => I r.1 r.2.1) stopped s.onTimerExpiry := by
  unfold SessionTask.onTimerExpiry
  split
  · exact hI.timers _ h
  · exact (hI.ends_feed (hI.timers _ h) _).bind fun _ hr => hr

theorem describePeer (hI : TurnInvariant I stopped) (h : I s []) (msg : Message) :
    I (s.describePeer msg) [] := by
  unfold SessionTask.describePeer
  split
  · exact hI.peer _ h
  · exact h

theorem arm (hI : TurnInvariant I stopped) (h : I s []) (input : LoopInput) :
    Ends (fun r => I r.1 r.2.1) stopped (s.arm input) := by
  cases input with
  | message msg =>
    exact (hI.ends_feed (hI.receive msg (hI.describePeer h msg)) _).bind fun _ hr => hr
  | codecError => exact (hI.ends_feed h _).bind fun _ hr => hr
  | readError => exact hI.stop h
  | eof => exact (hI.ends_feed h _).bind fun _ hr => hr
  | command request => exact hI.onCommand h request
  | linkJob task outcome => exact hI.onLinkJob h task outcome
  | timerExpiry => exact hI.onTimerExpiry h
  | fire task => exact hI.timers _ h

theorem turn (hI : TurnInvariant I stopped) (h : I s []) (input : LoopInput) (budget : Budget) :
    Ends (fun r => I r.1 []) stopped (s.turn input budget) := by
  refine (hI.arm h input).bind ?_
  rintro ⟨t, actions, afterwards⟩ ht
  refine (hI.processActions ht false budget).bind ?_
  rintro ⟨u, close, budget'⟩ hu
  cases afterwards with
  | again => exact hu
  | leave => exact hu
  | reply answer => exact hI.receipt answer hu
  | flush =>
    dsimp only
    split
    · exact hu
    · exact (hI.flushMessages (hI.drain hu) u.pendingSends budget').bind fun _ hv => hv

theorem loop (hI : TurnInvariant I stopped) (h : I s []) (inputs : List LoopInput) (budget : Budget) :
    stopped (SessionTask.loop inputs s budget) := by
  induction inputs generalizing s budget with
  | nil => exact hI.stop h
  | cons input inputs ih =>
    have hturn := hI.turn h input budget
    unfold SessionTask.loop
    split
    · rename_i hresult
      rw [hresult] at hturn
      exact hturn
    · rename_i hresult
      rw [hresult] at hturn
      exact hI.stop hturn
    · rename_i hresult
      rw [hresult] at hturn
      exact ih hturn _

/-- However a task ends, it is dropped where it stopped. -/
theorem runTracked (hI : TurnInvariant I stopped) (h : I s []) (initialEvent : FsmEvent)
    (inputs : List LoopInput) (budget : Budget) :
    ∃ t, stopped t ∧ s.runTracked initialEvent inputs budget = t.drop := by
  unfold SessionTask.runTracked
  dsimp only
  split
  all_goals
    rename_i hresult
    have hstart := Ends.of_eq hresult
      ((hI.ends_feed h initialEvent).bind fun _ ht => hI.processActions ht false budget)
  · exact ⟨_, hstart, rfl⟩
  · exact ⟨_, hI.stop hstart, rfl⟩
  · exact ⟨_, hI.loop hstart _ _, rfl⟩

end TurnInvariant

end SessionTask

end Dlep
