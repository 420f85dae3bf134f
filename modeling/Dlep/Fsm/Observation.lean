-- SUMMARY: Observed session traces: phases, the shape every step has, and the shape of a whole trace that follows.
import Dlep.Fsm.Events

/-!
# Observed traces

An observation is one step of a session state machine seen from outside: the
phase before and after it, the event, and the actions. The two roles have the
same five phases, so what a trace looks like is stated and proved once, from the
shape of single steps.
-/

namespace Dlep

/-- The common reading of the two roles' session states. -/
inductive Phase where
  | idle
  | opening
  | inSession
  | terminating
  | terminated
  deriving DecidableEq, Repr

structure Observation where
  before : Phase
  event : FsmEvent
  actions : List FsmAction
  after : Phase
  deriving DecidableEq, Repr

/-! ## Kinds of emitted events -/

namespace EmittedEvent

def isSessionUp : EmittedEvent → Bool
  | .sessionUp _ => true
  | _ => false

def isSessionDown : EmittedEvent → Bool
  | .sessionDown _ => true
  | _ => false

/-- The destination, metric, address and link events. -/
def isSessionData : EmittedEvent → Bool
  | .destinationUp .. | .destinationDown .. | .destinationUpdate .. | .destinationAddressesUpdate ..
  | .sessionAddressesUpdate .. | .linkCharacteristicsResponse .. | .linkCharacteristicsRequested ..
  | .sessionMetricsUpdate .. | .destinationAnnounced .. => true
  | _ => false

theorem of_isSessionData {e : EmittedEvent} (h : e.isSessionData = true) :
    e.isSessionUp = false ∧ e.isSessionDown = false := by
  cases e <;> cases h <;> exact ⟨rfl, rfl⟩

end EmittedEvent

namespace Observation

/-- The events a trace emits, in order. -/
def emitted (trace : List Observation) : List EmittedEvent :=
  trace.flatMap fun o => emittedEvents o.actions

/-- The messages a trace sends, in order. -/
def sent (trace : List Observation) : List Message :=
  trace.flatMap fun o => sentMessages o.actions

@[simp] theorem emitted_snoc (trace : List Observation) (o : Observation) :
    emitted (trace ++ [o]) = emitted trace ++ emittedEvents o.actions := by
  simp [emitted]

@[simp] theorem sent_snoc (trace : List Observation) (o : Observation) :
    sent (trace ++ [o]) = sent trace ++ sentMessages o.actions := by
  simp [sent]

/-- The step leaves the session. -/
def leaves (o : Observation) : Bool := o.before = .inSession && o.after ≠ .inSession

end Observation

/-- A Session Termination or its response. -/
def Message.isTermination (m : Message) : Bool :=
  m.messageType = .sessionTermination || m.messageType = .sessionTerminationResponse

/-- The message opens a session. -/
def Message.initializes (m : Message) : Bool :=
  m.messageType ∈ [MessageType.sessionInitialization, .sessionInitializationResponse]

/-! ## The shape of a trace -/

open Observation EmittedEvent in
/-- What an observer of one session can rely on. -/
structure TraceShape (trace : List Observation) : Prop where
  oneUp : (emitted trace).countP isSessionUp ≤ 1
  oneDown : (emitted trace).countP isSessionDown ≤ 1
  /-- No Session Up comes after a Session Down. -/
  upFirst : (emitted trace).Pairwise fun e u => e.isSessionDown = true → u.isSessionUp = false
  /-- Session data is emitted after the Session Up, in a step that stays in session,
  before any step that leaves it. -/
  dataInSession : ∀ past o before e after, past ++ [o] <+: trace →
    emittedEvents o.actions = before ++ e :: after → e.isSessionData = true →
    (∃ u ∈ emitted past ++ before, u.isSessionUp = true) ∧ o.after = .inSession ∧
      ∀ p ∈ past, p.leaves = false
  downOnClose : ∀ o ∈ trace, o.after = .terminated → o.before ≠ .terminated → o.before ≠ .idle →
    (emittedEvents o.actions).countP isSessionDown = 1
  silent : ∀ o ∈ trace, o.before = .terminating ∨ o.before = .terminated →
    sentMessages o.actions = []
  lastWord : (∃ o ∈ trace, o.leaves = true ∧ o.event ≠ .tcpClosed) →
    ∃ m, (sent trace).getLast? = some m ∧ m.isTermination = true

/-! ## The shape of a step -/

/-- What one step can emit and send, by the phases before and after it. -/
inductive StepShape (o : Observation) : Prop where
  | stays (hphase : o.after = o.before)
      (hemit : ∀ e ∈ emittedEvents o.actions, e.isSessionUp = false ∧ e.isSessionDown = false ∧
        e.isSessionData = false)
      (hsent : o.before = .terminating ∨ o.before = .terminated → sentMessages o.actions = [])
  | works (hbefore : o.before = .inSession) (hafter : o.after = .inSession)
      (hemit : ∀ e ∈ emittedEvents o.actions, e.isSessionUp = false ∧ e.isSessionDown = false)
  | opens (hbefore : o.before = .idle) (hafter : o.after = .opening)
      (hemit : emittedEvents o.actions = [])
  | closes (hbefore : o.before = .idle) (hafter : o.after = .terminated)
      (hemit : emittedEvents o.actions = [])
  | enters (hbefore : o.before = .opening) (hafter : o.after = .inSession)
      (extensions : List ExtensionId) (rest : List EmittedEvent)
      (hemit : emittedEvents o.actions = .sessionUp extensions :: rest)
      (hrest : ∀ e ∈ rest, e.isSessionUp = false ∧ e.isSessionDown = false)
  | fails (hbefore : o.before = .idle ∨ o.before = .opening ∨ o.before = .inSession)
      (hafter : o.after = .terminating) (hemit : emittedEvents o.actions = [])
      (m : Message) (hsent : sentMessages o.actions = [m]) (hm : m.isTermination = true)
  | ends (hbefore : o.before = .opening ∨ o.before = .inSession ∨ o.before = .terminating)
      (hafter : o.after = .terminated) (status : StatusCode)
      (hemit : emittedEvents o.actions = [.sessionDown status])
      (hsent : o.before = .terminating → sentMessages o.actions = [])
      (hlast : o.before = .inSession → o.event ≠ .tcpClosed →
        ∃ m, sentMessages o.actions = [m] ∧ m.isTermination = true)

/-- A trace of such steps from one phase to another. -/
inductive Walk (start : Phase) : List Observation → Phase → Prop where
  | nil : Walk start [] start
  | snoc {trace o} (h : Walk start trace o.before) (hstep : StepShape o) :
      Walk start (trace ++ [o]) o.after

namespace StepShape

open EmittedEvent

variable {o : Observation}

/-- Only the step that enters the session emits a Session Up, and does so first. -/
theorem noUp_or_enters (h : StepShape o) :
    (∀ e ∈ emittedEvents o.actions, e.isSessionUp = false) ∨
      o.before = .opening ∧ o.after = .inSession ∧ ∃ extensions rest,
        emittedEvents o.actions = .sessionUp extensions :: rest ∧
        ∀ e ∈ rest, e.isSessionUp = false ∧ e.isSessionDown = false := by
  cases h with
  | stays _ hemit _ => exact .inl fun e he => (hemit e he).1
  | works _ _ hemit => exact .inl fun e he => (hemit e he).1
  | enters hbefore hafter extensions rest hemit hrest =>
    exact .inr ⟨hbefore, hafter, extensions, rest, hemit, hrest⟩
  | opens _ _ hemit | closes _ _ hemit | fails _ _ hemit => exact .inl (by simp [hemit])
  | ends _ _ status hemit => exact .inl (by simp [hemit, isSessionUp])

/-- Only a step into the last phase emits a Session Down, and nothing else. -/
theorem noDown_or_ends (h : StepShape o) :
    (∀ e ∈ emittedEvents o.actions, e.isSessionDown = false) ∨
      o.before ≠ .terminated ∧ o.after = .terminated ∧
        ∃ status, emittedEvents o.actions = [.sessionDown status] := by
  cases h with
  | stays _ hemit _ => exact .inl fun e he => (hemit e he).2.1
  | works _ _ hemit => exact .inl fun e he => (hemit e he).2
  | enters _ _ extensions rest hemit hrest =>
    refine .inl fun e he => ?_
    rw [hemit] at he
    rcases List.mem_cons.mp he with rfl | he
    · rfl
    · exact (hrest e he).2
  | opens _ _ hemit | closes _ _ hemit | fails _ _ hemit => exact .inl (by simp [hemit])
  | ends hbefore hafter status hemit =>
    exact .inr ⟨by rcases hbefore with h | h | h <;> simp [h], hafter, status, hemit⟩

/-- Session data is emitted in session, or behind the Session Up that enters it. -/
theorem data (h : StepShape o) {before after : List EmittedEvent} {e : EmittedEvent}
    (hemit : emittedEvents o.actions = before ++ e :: after) (he : e.isSessionData = true) :
    o.after = .inSession ∧
      (o.before = .inSession ∨ o.before = .opening ∧ ∃ u ∈ before, u.isSessionUp = true) := by
  have hmem : e ∈ emittedEvents o.actions := by simp [hemit]
  cases h with
  | stays _ hquiet _ =>
    rw [(hquiet e hmem).2.2] at he
    cases he
  | works hbefore hafter _ => exact ⟨hafter, .inl hbefore⟩
  | enters hbefore hafter extensions rest hup hrest =>
    refine ⟨hafter, .inr ⟨hbefore, ?_⟩⟩
    rw [hup] at hemit
    cases before with
    | nil =>
      cases hemit
      cases he
    | cons u before =>
      cases hemit
      exact ⟨_, List.mem_cons_self, rfl⟩
  | opens _ _ hnil | closes _ _ hnil | fails _ _ hnil => simp [hnil] at hmem
  | ends _ _ status hdown =>
    rw [hdown] at hmem
    rw [List.mem_singleton.mp hmem] at he
    cases he

/-- A step that enters or leaves the session starts where it can. -/
theorem phases (h : StepShape o) :
    (o.after = .idle → o.before = .idle) ∧
      (o.after = .opening → o.before = .idle ∨ o.before = .opening) ∧
      (o.after = .inSession → o.before = .opening ∨ o.before = .inSession) ∧
      (o.after ≠ .terminated → o.before ≠ .terminated) ∧
      (o.after ≠ .terminating → o.after ≠ .terminated →
        o.before ≠ .terminating ∧ o.leaves = false) := by
  cases h <;> grind [Observation.leaves]

end StepShape

/-! ## From steps to traces -/

theorem countP_eq_zero_of_quiet {events : List EmittedEvent} {p : EmittedEvent → Bool}
    (h : ∀ e ∈ events, p e = false) : events.countP p = 0 :=
  List.countP_eq_zero.mpr fun e he => by simp [h e he]

section Walks

open Observation EmittedEvent

/-- What the phase reached says about the past. -/
structure PastOf (trace : List Observation) (phase : Phase) : Prop where
  noUp : phase = .idle ∨ phase = .opening → ∀ e ∈ emitted trace, e.isSessionUp = false
  up : phase = .inSession → ∃ u ∈ emitted trace, u.isSessionUp = true
  noDown : phase ≠ .terminated → ∀ e ∈ emitted trace, e.isSessionDown = false
  stayed : phase ≠ .terminating → phase ≠ .terminated → ∀ p ∈ trace, p.leaves = false

variable {trace : List Observation} {phase : Phase}

theorem Walk.past (h : Walk .idle trace phase) : PastOf trace phase := by
  induction h with
  | nil => exact ⟨by simp [emitted], by simp, by simp [emitted], by simp⟩
  | @snoc trace o _ hstep ih =>
    obtain ⟨hidle, hopening, hsession, hended, hleft⟩ := hstep.phases
    refine ⟨fun hp e he => ?_, fun hp => ?_, fun hp e he => ?_, fun hp hp' q hq => ?_⟩
    · rcases List.mem_append.mp (emitted_snoc trace o ▸ he) with he | he
      · exact ih.noUp (hp.elim (fun h => .inl (hidle h)) hopening) e he
      · rcases hstep.noUp_or_enters with hquiet | ⟨-, hafter, -⟩
        · exact hquiet e he
        · rcases hp with hp | hp <;> rw [hafter] at hp <;> cases hp
    · rw [emitted_snoc]
      rcases hsession hp with hbefore | hbefore
      · rcases hstep.noUp_or_enters with hquiet | ⟨-, -, extensions, rest, hemit, -⟩
        · cases hstep <;> simp_all [isSessionUp]
        · exact ⟨.sessionUp extensions, by simp [hemit], rfl⟩
      · obtain ⟨u, hu, hisup⟩ := ih.up hbefore
        exact ⟨u, List.mem_append_left _ hu, hisup⟩
    · rcases List.mem_append.mp (emitted_snoc trace o ▸ he) with he | he
      · exact ih.noDown (hended hp) e he
      · rcases hstep.noDown_or_ends with hquiet | ⟨-, hafter, -⟩
        · exact hquiet e he
        · exact absurd hafter hp
    · rcases List.mem_append.mp hq with hq | hq
      · exact ih.stayed (hleft hp hp').1 (hended hp') q hq
      · rw [List.mem_singleton.mp hq]
        exact (hleft hp hp').2

theorem Walk.oneUp (h : Walk .idle trace phase) : (emitted trace).countP isSessionUp ≤ 1 := by
  induction h with
  | nil => simp [emitted]
  | @snoc trace o hwalk hstep ih =>
    rw [emitted_snoc, List.countP_append]
    rcases hstep.noUp_or_enters with hquiet | ⟨hbefore, -, extensions, rest, hemit, hrest⟩
    · rw [countP_eq_zero_of_quiet hquiet]
      exact ih
    · rw [countP_eq_zero_of_quiet (hwalk.past.noUp (.inr hbefore)), hemit, List.countP_cons,
        countP_eq_zero_of_quiet fun e he => (hrest e he).1]
      simp [isSessionUp]

theorem Walk.oneDown (h : Walk .idle trace phase) : (emitted trace).countP isSessionDown ≤ 1 := by
  induction h with
  | nil => simp [emitted]
  | @snoc trace o hwalk hstep ih =>
    rw [emitted_snoc, List.countP_append]
    rcases hstep.noDown_or_ends with hquiet | ⟨hbefore, -, status, hemit⟩
    · rw [countP_eq_zero_of_quiet hquiet]
      exact ih
    · rw [countP_eq_zero_of_quiet (hwalk.past.noDown hbefore), hemit]
      simp [isSessionDown]

theorem Walk.upFirst (h : Walk .idle trace phase) :
    (emitted trace).Pairwise fun e u => e.isSessionDown = true → u.isSessionUp = false := by
  induction h with
  | nil => simp [emitted]
  | @snoc trace o hwalk hstep ih =>
    rw [emitted_snoc, List.pairwise_append]
    rcases hstep.noUp_or_enters with hquiet | ⟨hbefore, -, extensions, rest, hemit, hrest⟩
    · exact ⟨ih, List.pairwise_of_forall_mem_list fun e _ u hu _ => hquiet u hu,
        fun e _ u hu _ => hquiet u hu⟩
    · -- The Session Up comes first in its step, and no Session Down came before.
      have hnoDown := hwalk.past.noDown (by rw [hbefore]; nofun)
      refine ⟨ih, ?_, fun e he u _ hdown => ?_⟩
      · rw [hemit, List.pairwise_cons]
        exact ⟨fun u _ hdown => (nomatch hdown),
          List.pairwise_of_forall_mem_list fun e _ u hu _ => (hrest u hu).1⟩
      · rw [hnoDown e he] at hdown
        cases hdown

theorem Walk.dataInSession (h : Walk .idle trace phase) :
    ∀ past o before e after, past ++ [o] <+: trace →
      emittedEvents o.actions = before ++ e :: after → e.isSessionData = true →
      (∃ u ∈ emitted past ++ before, u.isSessionUp = true) ∧ o.after = .inSession ∧
        ∀ p ∈ past, p.leaves = false := by
  induction h with
  | nil => simp
  | @snoc trace o hwalk hstep ih =>
    intro past o' before e after hpre hemit he
    rcases List.prefix_concat_iff.mp hpre with heq | hpre
    · obtain ⟨hpast, ho⟩ := List.append_inj' heq rfl
      subst hpast
      cases ho
      obtain ⟨hafter, hbefore⟩ := hstep.data hemit he
      have hstayed := hwalk.past.stayed
      rcases hbefore with hbefore | ⟨hbefore, u, hu, hisup⟩
      · obtain ⟨u, hu, hisup⟩ := hwalk.past.up hbefore
        exact ⟨⟨u, List.mem_append_left _ hu, hisup⟩, hafter,
          hstayed (by simp [hbefore]) (by simp [hbefore])⟩
      · exact ⟨⟨u, List.mem_append_right _ hu, hisup⟩, hafter,
          hstayed (by simp [hbefore]) (by simp [hbefore])⟩
    · exact ih past o' before e after hpre hemit he

/-- Every recorded step has the shape of a step. -/
theorem Walk.steps (h : Walk .idle trace phase) : ∀ o ∈ trace, StepShape o := by
  induction h with
  | nil => simp
  | snoc _ hstep ih =>
    intro o ho
    rcases List.mem_append.mp ho with ho | ho
    · exact ih o ho
    · rw [List.mem_singleton.mp ho]
      exact hstep

theorem Walk.lastWord (h : Walk .idle trace phase)
    (hleft : ∃ o ∈ trace, o.leaves = true ∧ o.event ≠ .tcpClosed) :
    ∃ m, (sent trace).getLast? = some m ∧ m.isTermination = true := by
  induction h with
  | nil => simp at hleft
  | @snoc trace o hwalk hstep ih =>
    obtain ⟨l, hl, hleaves, hevent⟩ := hleft
    rw [sent_snoc]
    rcases List.mem_append.mp hl with hl | hl
    · -- The session was left earlier, so this step sends nothing.
      obtain ⟨m, hlast, hm⟩ := ih ⟨l, hl, hleaves, hevent⟩
      have hbefore : o.before = .terminating ∨ o.before = .terminated := by
        by_contra hne
        rw [not_or] at hne
        rw [hwalk.past.stayed hne.1 hne.2 l hl] at hleaves
        cases hleaves
      have hsent : sentMessages o.actions = [] := by
        cases hstep <;> grind
      exact ⟨m, by rw [hsent, List.append_nil]; exact hlast, hm⟩
    · rw [List.mem_singleton.mp hl] at hleaves hevent
      have hsent : ∃ m, sentMessages o.actions = [m] ∧ m.isTermination = true := by
        cases hstep <;> grind [leaves]
      obtain ⟨m, hsent, hm⟩ := hsent
      exact ⟨m, by rw [hsent]; simp, hm⟩

theorem Walk.traceShape (h : Walk .idle trace phase) : TraceShape trace where
  oneUp := h.oneUp
  oneDown := h.oneDown
  upFirst := h.upFirst
  dataInSession := h.dataInSession
  downOnClose o ho hafter hbefore hidle := by
    cases h.steps o ho <;> simp_all [isSessionDown]
  silent o ho hbefore := by
    cases h.steps o ho <;> grind
  lastWord := h.lastWord

end Walks

end Dlep
