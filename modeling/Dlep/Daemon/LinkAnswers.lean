-- SUMMARY: Every deferred link request has one job, and the job's result sends exactly one encodable response.
import Dlep.Daemon.Turns
import Dlep.Fsm.Encoding

/-!
# Link answers

A modem that defers link requests keeps the requested destinations in a pending set, and
its session task keeps one backend job for each of them. When a job ends, the state
machine checks the backend's answer; an answer it finds invalid is replaced by a denial.
The denial itself is never rejected: the destination of a pending request is announced
and idle, and the metrics stored for it are in range.
-/

namespace Dlep

/-! ## The state machine's part -/

namespace ModemSessionFsm

/-- The metrics of a destination after an answer. -/
def answered (d : ModemDestination) (answer : Option LinkMetrics) : LinkMetrics :=
  (answer.map (effectiveMetrics d.metrics)).getD d.metrics

/-- The response that carries an answer to the router. -/
def linkReply (mac : MacAddress) (d : ModemDestination) (r : LinkResponse) : Message :=
  buildLinkCharacteristicsReply mac r.status r.text (answered d r.metrics)

/-- An answer is valid if its status keeps the session open, its metrics are declared and in range,
and the response fits into a message. -/
def validAnswer (s : ModemSessionFsm) (mac : MacAddress) (d : ModemDestination) (r : LinkResponse) :
    Bool :=
  !r.status.terminatesSession && r.metrics.all s.validMetrics && (linkReply mac d r).encode.isOk

/-- The answer that goes out. -/
def finalAnswer (s : ModemSessionFsm) (mac : MacAddress) (d : ModemDestination) (r : LinkResponse) :
    LinkResponse :=
  if s.validAnswer mac d r then r else .denied

/-- The state after an answer went out. -/
def settled (s : ModemSessionFsm) (mac : MacAddress) (d : ModemDestination) (r : LinkResponse) :
    ModemSessionFsm :=
  { s with
    pendingLinkRequests := s.pendingLinkRequests.erase mac
    destinations := s.destinations.insert mac { d with metrics := answered d r.metrics } }

variable {s s' : ModemSessionFsm} {mac : MacAddress} {d : ModemDestination}

theorem checkArguments_link (r : LinkResponse) (hd : s.destinations.lookup mac = some d) :
    s.checkArguments (r.intoEvent mac) =
      .ok (if s.validAnswer mac d r then .ok () else .error .invalidInput) := by
  obtain ⟨status, text, metrics⟩ := r
  simp only [LinkResponse.intoEvent, checkArguments, validAnswer, indexMap, hd, bind, Except.bind]
  rcases Bool.eq_false_or_eq_true status.terminatesSession with hstatus | hstatus
  · simp only [hstatus, if_true, Bool.not_true, Bool.false_and, Bool.false_eq_true, if_false]
  · simp only [hstatus, Bool.false_eq_true, if_false, Bool.not_false, Bool.true_and]
    cases metrics with
    | none =>
      simp only [linkReply, answered, Option.map_none, Option.getD_none, Option.all_none, Bool.true_and]
      cases (buildLinkCharacteristicsReply mac status text d.metrics).encode <;> rfl
    | some m =>
      simp only [linkReply, answered, Option.map_some, Option.getD_some, Option.all_some]
      rcases Bool.eq_false_or_eq_true (s.validMetrics m) with hm | hm
      · simp only [hm, Bool.not_true, Bool.false_eq_true, if_false, Bool.true_and]
        cases (buildLinkCharacteristicsReply mac status text (effectiveMetrics d.metrics m)).encode
          <;> rfl
      · simp only [hm, Bool.not_false, if_true, Bool.false_and, Bool.false_eq_true, if_false]

/-- Nothing but its own arguments can make an answer to a pending request fail. -/
theorem checkCommand_link (r : LinkResponse) (hc : s.Consistent) (hs : s.Sound)
    (hin : s.state = .inSession) (hmem : mac ∈ s.pendingLinkRequests)
    (hd : s.destinations.lookup mac = some d) :
    s.checkCommand (r.intoEvent mac) =
      .ok (if s.validAnswer mac d r then .ok () else .error .invalidInput) := by
  have hidle : s.tx.perDestination.lookup mac = none :=
    Option.map_eq_none_iff.mp (hc.deferred mac hmem).1
  have hscope : s.checkScope (r.intoEvent mac) mac = .ok () := by
    simp [checkScope, checkLink, LinkResponse.intoEvent, (hs.cell mac d hd).format, hmem, hidle]
  have hcmd : (r.intoEvent mac).command = some ⟨.linkCharacteristicsResponse, some mac⟩ := rfl
  rw [checkCommand_destination hin hcmd (by decide), hscope]
  exact checkArguments_link r hd

theorem step_link_valid (r : LinkResponse) (hc : s.Consistent) (hs : s.Sound)
    (hin : s.state = .inSession) (hmem : mac ∈ s.pendingLinkRequests)
    (hd : s.destinations.lookup mac = some d) (hvalid : s.validAnswer mac d r = true) :
    s.step (r.intoEvent mac) = .ok (s.settled mac d r, [.sendMessage (linkReply mac d r)]) := by
  have hcheck := checkCommand_link r hc hs hin hmem hd
  rw [if_pos hvalid] at hcheck
  have hdispatch : s.dispatch (r.intoEvent mac) =
      s.onLinkCharacteristicsResponse mac r.status r.text r.metrics := by
    simp only [LinkResponse.intoEvent, dispatch, hin]
  have hstep : s.step (r.intoEvent mac) = s.dispatch (r.intoEvent mac) := by
    simp only [step, hcheck, bind, Except.bind]
    rfl
  rw [hstep, hdispatch]
  simp only [onLinkCharacteristicsResponse, hd, expectSome_some, bind, Except.bind]
  rfl

theorem step_link_invalid (r : LinkResponse) (hc : s.Consistent) (hs : s.Sound)
    (hin : s.state = .inSession) (hmem : mac ∈ s.pendingLinkRequests)
    (hd : s.destinations.lookup mac = some d) (hvalid : s.validAnswer mac d r = false) :
    s.step (r.intoEvent mac) = .ok (s, [.emit (.commandRejected
      ⟨⟨.linkCharacteristicsResponse, some mac⟩, .invalidInput⟩)]) := by
  have hcheck := checkCommand_link r hc hs hin hmem hd
  rw [hvalid, if_neg Bool.false_ne_true] at hcheck
  simp only [step, hcheck, bind, Except.bind]
  rfl

/-- An empty text leaves the status item as it is. -/
theorem linkReply_denied :
    linkReply mac d .denied = buildLinkCharacteristicsResponse mac .requestDenied d.metrics := by
  have hfill : ∀ items, fillStatusText "" (.macAddress mac :: .status .requestDenied "" :: items) =
      .macAddress mac :: .status .requestDenied "" :: items := fun _ => rfl
  unfold linkReply buildLinkCharacteristicsReply
  simp [LinkResponse.denied, answered, buildLinkCharacteristicsResponse, pushMetricItems, hfill]

theorem validAnswer_denied (hs : s.Sound) (hd : s.destinations.lookup mac = some d) :
    s.validAnswer mac d .denied = true := by
  obtain ⟨bytes, hencode⟩ := encodes_buildLinkCharacteristicsResponse mac .requestDenied
    (hs.cell mac d hd).metrics
  simp only [validAnswer, linkReply_denied, hencode]
  rfl

/-! ## Steps and the pending set -/

end ModemSessionFsm

/-- The destinations whose link requests a batch hands to the backend. -/
def deferredBy (actions : List FsmAction) : List MacAddress :=
  (emittedEvents actions).filterMap fun
    | .linkCharacteristicsRequested mac _ _ true => some mac
    | _ => none

/-- A batch that sends no link response. -/
def AnswersNoLink (actions : List FsmAction) : Prop :=
  ∀ m ∈ sentMessages actions, m.messageType ≠ .linkCharacteristicsResponse

namespace ModemSessionFsm

variable {s s' : ModemSessionFsm} {event : FsmEvent} {actions : List FsmAction}

/-- What a step of a deferring modem does to its link requests. -/
inductive LinkStep (s : ModemSessionFsm) (event : FsmEvent) (s' : ModemSessionFsm)
    (actions : List FsmAction) : Prop where
  | kept (hpending : s'.pendingLinkRequests = s.pendingLinkRequests)
      (hdefers : deferredBy actions = []) (hsilent : AnswersNoLink actions)
  | deferred {mac : MacAddress} (hin : s.state = .inSession) (hin' : s'.state = .inSession)
      (hnew : mac ∉ s.pendingLinkRequests)
      (hpending : s'.pendingLinkRequests = insert mac s.pendingLinkRequests)
      (hdefers : deferredBy actions = [mac]) (hsilent : AnswersNoLink actions)
  | answered {mac : MacAddress} {r : LinkResponse} (hevent : event = r.intoEvent mac)

theorem answersNoLink_of_type {m : Message} (hsent : sentMessages actions = [m])
    (h : decide (m.messageType = .linkCharacteristicsResponse) = false) : AnswersNoLink actions := by
  unfold AnswersNoLink
  rw [hsent]
  exact List.forall_mem_singleton.mpr (of_decide_eq_false h)

theorem Transition.linkStep (h : s.Transition event s' actions)
    (hdefer : s.config.deferLinkCharacteristics = true) : s.LinkStep event s' actions := by
  cases h with
  | @linkAnswered mac status text metrics =>
    exact .answered (r := ⟨status, text, metrics⟩) rfl
  | linkDenied _ _ _ _ _ _ _ _ hnot => cases hdefer.symm.trans hnot
  | linkDeferred hs _ _ _ _ _ _ hlink =>
    refine .deferred hs hs hlink rfl ?_ ?_
    · simp [deferredBy]
    · simp [AnswersNoLink]
  | initialized =>
    refine .kept rfl ?_ ?_
    · simp only [deferredBy, sessionUpActions, emittedEvents_append, emittedEvents_reset]
      split <;> rfl
    · refine answersNoLink_of_type (sentMessages_sessionUpActions _) ?_
      rw [messageType_buildSessionInitializationResponse]
      rfl
  | ends h =>
    refine .kept rfl (List.filterMap_eq_nil_iff.mpr fun e he => ?_) fun m hm => ?_
    · obtain ⟨_, rfl⟩ := h.emitted e he
      rfl
    · rcases h.sent m hm with rfl | ⟨_, _, -, rfl⟩ <;> exact of_decide_eq_false rfl
  | @acknowledged _ mac d =>
    refine .kept rfl ?_ ?_
    · simp only [deferredBy, emittedEvents_append, emittedEvents_reset, List.append_nil]
      cases deferredUpdate mac d <;> rfl
    · simp only [AnswersNoLink, sentMessages_append, sentMessages_reset, sentMessages_optional,
        List.append_nil, Option.mem_toList]
      intro m hm
      rw [messageType_deferredUpdate hm]
      decide
  | sessionUpdated =>
    refine .kept rfl ?_ (answersNoLink_of_type (m := buildSessionUpdateResponse .success) ?_ rfl)
    · simp only [deferredBy, emittedEvents_append, emittedEvents_reset]
      split <;> rfl
    · simp only [sentMessages_append, sentMessages_reset]
      split <;> rfl
  | beat | added | metricsSent | addressesSent | dropSent | sessionMetricsSent | sessionAddressesSent =>
    exact .kept rfl rfl (answersNoLink_of_type rfl rfl)
  | withdrawn | announceDenied | announceGranted =>
    refine .kept rfl (by simp [deferredBy]) ?_
    simp only [AnswersNoLink, sentMessages_append, sentMessages_reset, List.append_nil,
      sentMessages_sendMessage, sentMessages_emit, sentMessages_nil]
    exact List.forall_mem_singleton.mpr (of_decide_eq_false rfl)
  | _ => exact .kept rfl (by simp [deferredBy]) (by simp [AnswersNoLink])

/-- Only the handshake leads into a session, and it sends the initialization response. -/
theorem Transition.opens_session (h : s.Transition event s' actions) (hin : s'.state = .inSession) :
    s.state = .inSession ∨
      sentMessages actions = [buildSessionInitializationResponse s.config] := by
  cases h with
  | initialized => exact .inr (sentMessages_sessionUpActions _)
  | rejected | ignored => exact .inl hin
  | accepted => cases hin
  | ends h => rcases h.gone with rfl | rfl <;> cases hin
  | _ => exact .inl ‹_›

/-- A session that is ending never comes back. -/
theorem Transition.ended (h : s.Transition event s' actions)
    (hs : s.state = .terminating ∨ s.state = .terminated) :
    s'.state = .terminating ∨ s'.state = .terminated := by
  cases h with
  | rejected | ignored => exact hs
  | ends h => rcases h.gone with rfl | rfl <;> simp [ModemSessionState.ofPhase]
  | initialized hs' | accepted hs' => rcases hs with hs | hs <;> cases hs.symm.trans hs'
  | _ =>
    have hin : s.state = .inSession := ‹_›
    rcases hs with hs | hs <;> cases hs.symm.trans hin

theorem step_notReady {command : CommandInfo} (hcmd : event.command = some command)
    (hs : s.state ≠ .inSession) :
    s.step event = .ok (s, [.emit (.commandRejected ⟨command, .notReady⟩)]) := by
  have hcheck : s.checkCommand event = .ok (.error .notReady) := by
    unfold checkCommand
    rw [if_pos hs]
  unfold step
  rw [hcmd]
  simp only [hcheck, bind, Except.bind]

end ModemSessionFsm

/-! ## Jobs -/

namespace LinkJobs

variable {j : LinkJobs} {pending : Finset MacAddress} {mac : MacAddress} {task : ℕ}

def enlist (j : LinkJobs) (mac : MacAddress) : LinkJobs :=
  { j with macs := j.macs.insert j.nextTask mac, nextTask := j.nextTask + 1 }

/-- Every pending request has exactly one job. -/
structure Covers (j : LinkJobs) (pending : Finset MacAddress) : Prop where
  known : ∀ task mac, j.macs.lookup task = some mac → task < j.nextTask
  pending : ∀ mac, mac ∈ pending ↔ ∃ task, j.macs.lookup task = some mac
  distinct : ∀ task task' mac, j.macs.lookup task = some mac → j.macs.lookup task' = some mac →
    task = task'

theorem lookup_enlist (j : LinkJobs) (mac : MacAddress) (task : ℕ) :
    (j.enlist mac).macs.lookup task = if task = j.nextTask then some mac else j.macs.lookup task :=
  FinMap.lookup_insert_eq _ _ _ _

theorem Covers.enlist (h : j.Covers pending) (hnew : mac ∉ pending) :
    (j.enlist mac).Covers (insert mac pending) where
  known task m htask := by
    rw [lookup_enlist] at htask
    change task < j.nextTask + 1
    split at htask
    · omega
    · have := h.known task m htask
      omega
  pending m := by
    simp only [Finset.mem_insert, h.pending m, lookup_enlist]
    constructor
    · rintro (rfl | ⟨task, htask⟩)
      · exact ⟨j.nextTask, if_pos rfl⟩
      · refine ⟨task, ?_⟩
        rw [if_neg (h.known task m htask).ne]
        exact htask
    · rintro ⟨task, htask⟩
      split at htask
      · cases htask
        exact .inl rfl
      · exact .inr ⟨task, htask⟩
  distinct task task' m htask htask' := by
    -- The new job's destination had none before.
    have hfresh : ∀ t, j.macs.lookup t ≠ some mac := fun t ht => hnew ((h.pending mac).mpr ⟨t, ht⟩)
    rw [lookup_enlist] at htask htask'
    split at htask <;> split at htask'
    · omega
    · cases htask
      exact absurd htask' (hfresh task')
    · cases htask'
      exact absurd htask (hfresh task)
    · exact h.distinct task task' m htask htask'

theorem Covers.finish (h : j.Covers pending) (htask : j.macs.lookup task = some mac) :
    { j with macs := j.macs.erase task }.Covers (pending.erase mac) where
  known task' m hm := by
    rw [FinMap.lookup_erase_eq] at hm
    split at hm
    · cases hm
    · exact h.known task' m hm
  pending m := by
    simp only [Finset.mem_erase, h.pending m, FinMap.lookup_erase_eq]
    constructor
    · rintro ⟨hne, task', hm⟩
      refine ⟨task', ?_⟩
      rw [if_neg]
      · exact hm
      · rintro rfl
        exact hne (Option.some.inj (hm.symm.trans htask))
    · rintro ⟨task', hm⟩
      split at hm
      · cases hm
      · rename_i hne
        refine ⟨?_, task', hm⟩
        rintro rfl
        exact hne (h.distinct task' task m hm htask)
  distinct task' task'' m hm hm' := by
    rw [FinMap.lookup_erase_eq] at hm hm'
    split at hm
    · cases hm
    · split at hm'
      · cases hm'
      · exact h.distinct task' task'' m hm hm'

end LinkJobs

/-! ## The session task's part -/

namespace SessionTask

section Batches

variable {F χ : Type} {s t u : SessionTask F χ} {budget budget' : Budget}

/-- What only a step, a deferred request or the end of a job changes. -/
structure Keeps (s t : SessionTask F χ) : Prop where
  fsm : t.fsm = s.fsm
  linkJobs : t.linkJobs = s.linkJobs

theorem Keeps.refl (s : SessionTask F χ) : s.Keeps s := ⟨rfl, rfl⟩

theorem Keeps.trans (h : s.Keeps t) (h' : t.Keeps u) : s.Keeps u :=
  ⟨h'.fsm.trans h.fsm, h'.linkJobs.trans h.linkJobs⟩

/-- An emitted event starts a job if it defers a request. -/
theorem linkJobs_emitted (s : SessionTask F χ) (event : EmittedEvent) :
    (s.emitted event).linkJobs = (deferredBy [.emit event]).foldl .enlist s.linkJobs := by
  have hsession (t : SessionTask F χ) (up : Bool) :
      (t.dispatchSessionState up).linkJobs = t.linkJobs := by
    refine HookInvariant.foldl (P := fun u => u.linkJobs = t.linkJobs) (Q := fun _ => True) ?_
      (fun _ _ => trivial) rfl
    exact fun h _ => h
  have hdestination (t : SessionTask F χ) (mac : MacAddress) (snap : DestinationStateSnapshot) :
      (t.dispatchDestinationState mac snap).linkJobs = t.linkJobs := by
    refine HookInvariant.foldl (P := fun u => u.linkJobs = t.linkJobs) (Q := fun _ => True) ?_
      (fun _ _ => trivial) rfl
    exact fun h _ => h
  have hs : (s.prepare event).linkJobs = s.linkJobs := by cases event <;> rfl
  unfold emitted driveHooks
  split
  · exact (hsession _ true).trans hs
  · exact (hsession _ false).trans hs
  · exact (hdestination _ _ _).trans hs
  · rfl
  · exact (hdestination _ _ _).trans hs
  · rename_i hlink _
    have hnone : deferredBy [.emit event] = [] := by
      cases event with
      | linkCharacteristicsRequested mac requested metrics pending =>
        cases pending with
        | true => exact absurd rfl (hlink mac requested metrics)
        | false => rfl
      | _ => rfl
    rw [hnone]
    exact hs

/-- What a processed batch did: its messages encoded, and its deferred requests have jobs. -/
structure Processed (actions : List FsmAction) (s t : SessionTask F χ) : Prop where
  fsm : t.fsm = s.fsm
  linkJobs : t.linkJobs = (deferredBy actions).foldl .enlist s.linkJobs
  encodes : ∀ m ∈ sentMessages actions, m.Encodes
  flushed : s.pendingSends = [] → t.pendingSends = []

theorem Processed.trans {actions more : List FsmAction} (h : Processed actions s t)
    (h' : Processed more t u) : Processed (actions ++ more) s u where
  fsm := h'.fsm.trans h.fsm
  linkJobs := by
    have happend : deferredBy (actions ++ more) = deferredBy actions ++ deferredBy more := by
      simp [deferredBy]
    rw [happend, List.foldl_append, ← h.linkJobs, h'.linkJobs]
  encodes := by
    rw [sentMessages_append]
    exact List.forall_mem_append.mpr ⟨h.encodes, h'.encodes⟩
  flushed hs := h'.flushed (h.flushed hs)

/-- What is left to process keeps track of what was done. -/
theorem keeps_processed (s : SessionTask F χ) (actions : List FsmAction) :
    BatchInvariant (fun t rest => ∃ done, done ++ rest = actions ∧ Processed done s t)
      fun _ => True where
  stop _ := trivial
  write := by
    rintro t msg rest ⟨done, hdone, h⟩ hencodes
    refine ⟨done ++ [.sendMessage msg], by simpa using hdone, h.trans ?_⟩
    exact ⟨rfl, rfl, List.forall_mem_singleton.mpr hencodes, id⟩
  emit := by
    rintro t event rest ⟨done, hdone, h⟩
    refine ⟨done ++ [.emit event], by simpa using hdone, h.trans ?_⟩
    exact ⟨fsm_emitted t event, linkJobs_emitted t event, List.forall_mem_nil _, fun _ => rfl⟩
  skip := by
    rintro t action rest ⟨done, hdone, h⟩ hsend hemit
    refine ⟨done ++ [action], by simpa using hdone, h.trans ?_⟩
    cases action with
    | sendMessage msg => exact absurd rfl (hsend msg)
    | emit event => exact absurd rfl (hemit event)
    | _ => exact ⟨rfl, rfl, List.forall_mem_nil _, id⟩
  timers := by
    rintro t rest timers ⟨done, hdone, h⟩
    exact ⟨done, hdone, h.fsm, h.linkJobs, h.encodes, h.flushed⟩
  flush := by
    rintro t msg rest ⟨done, hdone, h⟩ -
    exact ⟨done, hdone, h.fsm, h.linkJobs, h.encodes, h.flushed⟩

theorem processActions_ok {actions : List FsmAction} {close close' : Bool}
    (h : processActions actions s close budget = .ok (t, close', budget')) :
    Processed actions s t := by
  obtain ⟨done, rfl, hdone⟩ := ((keeps_processed s actions).processActions
    ⟨[], rfl, rfl, rfl, List.forall_mem_nil _, id⟩ close budget).of_eq h
  rwa [List.append_nil]

theorem flushPendingSends_ok (h : s.flushPendingSends budget = .ok (t, budget')) :
    s.Keeps t ∧ t.pendingSends = [] := by
  obtain ⟨done, hnil, hdone⟩ := ((keeps_processed { s with pendingSends := [] } []).flushMessages
    ⟨[], rfl, rfl, rfl, List.forall_mem_nil _, id⟩ s.pendingSends budget).of_eq h
  obtain rfl := (List.append_eq_nil_iff.mp hnil).1
  exact ⟨⟨hdone.fsm, hdone.linkJobs⟩, hdone.flushed rfl⟩

end Batches

section Arms

variable {F χ : Type} [SessionFsm F] {s t : SessionTask F χ} {actions : List FsmAction}
  {afterwards : Afterwards} {input : LoopInput}

theorem feed_ok {event : FsmEvent} (h : s.feed event = .ok (t, actions)) :
    ∃ fsm, SessionFsm.step s.fsm event = .ok (fsm, actions) ∧ t = { s with fsm } := by
  unfold feed at h
  split at h
  · rename_i fsm actions' hstep
    cases h
    exact ⟨fsm, hstep, rfl⟩
  · cases h

/-- A received message never becomes an application's event, and only a message that goes on to the
state machine lets the plug-ins queue messages. -/
theorem receive_ok (s : SessionTask F χ) (msg : Message) :
    s.Keeps (s.receive msg).1 ∧ (s.receive msg).2.command = none ∧
      ((∃ code, (s.receive msg).2 = .protocolError code) →
        (s.receive msg).1.pendingSends = s.pendingSends) := by
  unfold receive
  dsimp only
  repeat' split
  all_goals first
    | exact ⟨⟨rfl, rfl⟩, rfl, fun _ => rfl⟩
    | exact ⟨⟨rfl, rfl⟩, rfl, fun ⟨_, h⟩ => nomatch h⟩

/-- What an arm hands over, apart from the end of a job: at most one step, on an event that is not
a link answer. -/
structure Stepped (s t : SessionTask F χ) (actions : List FsmAction) (afterwards : Afterwards) :
    Prop where
  fsm : t.fsm = s.fsm ∧ actions = [] ∨
    ∃ event, (∀ mac (r : LinkResponse), event ≠ r.intoEvent mac) ∧
      SessionFsm.step s.fsm event = .ok (t.fsm, actions)
  linkJobs : t.linkJobs = s.linkJobs
  sends : afterwards = .flush ∨ t.pendingSends = s.pendingSends

theorem stepped_feed {u : SessionTask F χ} {event : FsmEvent} (h : u.feed event = .ok (t, actions))
    (hkeeps : s.Keeps u) (hother : ∀ mac (r : LinkResponse), event ≠ r.intoEvent mac)
    (hsends : afterwards = .flush ∨ u.pendingSends = s.pendingSends) :
    Stepped s t actions afterwards := by
  obtain ⟨fsm, hstep, rfl⟩ := feed_ok h
  rw [hkeeps.fsm] at hstep
  exact ⟨.inr ⟨event, hother, hstep⟩, hkeeps.linkJobs, hsends⟩

theorem not_answer_of_command {event : FsmEvent} (h : event.command = none) (mac : MacAddress)
    (r : LinkResponse) : event ≠ r.intoEvent mac := by
  rintro rfl
  cases h

/-- No command of the daemon is a link answer. -/
theorem not_answer_of_request (c : SessionCommand) (mac : MacAddress) (r : LinkResponse) :
    c.event ≠ r.intoEvent mac := by
  cases c <;> exact nofun

theorem onMessage_ok {msg : Message} (h : s.onMessage msg = .ok (t, actions, afterwards)) :
    Stepped s t actions afterwards := by
  obtain ⟨⟨u, acts⟩, hfeed, h⟩ := bind_eq_ok.mp h
  cases h
  obtain ⟨hkeeps, hcmd, hsends⟩ := receive_ok (s.describePeer msg) msg
  have hpeer : s.Keeps (s.describePeer msg) ∧ (s.describePeer msg).pendingSends = s.pendingSends := by
    unfold describePeer
    split <;> exact ⟨⟨rfl, rfl⟩, rfl⟩
  refine stepped_feed hfeed (hpeer.1.trans hkeeps) (not_answer_of_command hcmd) ?_
  split
  · rename_i code hcode
    exact .inr ((hsends ⟨code, hcode⟩).trans hpeer.2)
  · exact .inl rfl

theorem onCommand_ok {request : Option SessionRequest}
    (h : s.onCommand request = .ok (t, actions, afterwards)) : Stepped s t actions afterwards := by
  unfold onCommand at h
  split at h
  · cases h
    exact ⟨.inl ⟨rfl, rfl⟩, rfl, .inr rfl⟩
  · split at h
    · obtain ⟨⟨u, acts⟩, hfeed, h⟩ := bind_eq_ok.mp h
      cases h
      exact stepped_feed hfeed ⟨rfl, rfl⟩ (not_answer_of_command rfl) (.inr rfl)
    · split at h
      · cases h
        exact ⟨.inl ⟨rfl, rfl⟩, rfl, .inr rfl⟩
      · rename_i request _
        obtain ⟨⟨u, acts⟩, hfeed, h⟩ := bind_eq_ok.mp h
        cases h
        exact stepped_feed hfeed (.refl s) (not_answer_of_request request.command) (.inr rfl)

theorem onTimerExpiry_ok (h : s.onTimerExpiry = .ok (t, actions, afterwards)) :
    Stepped s t actions afterwards := by
  unfold onTimerExpiry at h
  split at h
  · cases h
    exact ⟨.inl ⟨rfl, rfl⟩, rfl, .inr rfl⟩
  · obtain ⟨⟨u, acts⟩, hfeed, h⟩ := bind_eq_ok.mp h
    cases h
    exact stepped_feed hfeed ⟨rfl, rfl⟩ (not_answer_of_command rfl) (.inr rfl)

/-- The input is not the end of one of the task's jobs. -/
def EndsNoJob (s : SessionTask F χ) (input : LoopInput) : Prop :=
  ∀ task outcome, input = .linkJob task outcome → s.linkJobs.macs.lookup task = none

omit [SessionFsm F] in
theorem exists_job (h : ¬ s.EndsNoJob input) :
    ∃ task outcome mac, input = .linkJob task outcome ∧ s.linkJobs.macs.lookup task = some mac := by
  unfold EndsNoJob at h
  push Not at h
  obtain ⟨task, outcome, rfl, hlookup⟩ := h
  obtain ⟨mac, htask⟩ := Option.ne_none_iff_exists'.mp hlookup
  exact ⟨task, outcome, mac, rfl, htask⟩

theorem arm_ok (hinput : s.EndsNoJob input) (h : s.arm input = .ok (t, actions, afterwards)) :
    Stepped s t actions afterwards := by
  cases input with
  | message msg => exact onMessage_ok h
  | codecError =>
    obtain ⟨⟨u, acts⟩, hfeed, h⟩ := bind_eq_ok.mp h
    cases h
    exact stepped_feed hfeed (.refl s) (not_answer_of_command rfl) (.inr rfl)
  | readError => cases h
  | eof =>
    obtain ⟨⟨u, acts⟩, hfeed, h⟩ := bind_eq_ok.mp h
    cases h
    exact stepped_feed hfeed (.refl s) (not_answer_of_command rfl) (.inr rfl)
  | command request => exact onCommand_ok h
  | linkJob task outcome =>
    have hnone : s.linkJobs.next task outcome = none := by
      unfold LinkJobs.next
      rw [hinput task outcome rfl]
      rfl
    have harm : s.onLinkJob task outcome = .ok (t, actions, afterwards) := h
    unfold onLinkJob at harm
    rw [hnone] at harm
    cases harm
    exact ⟨.inl ⟨rfl, rfl⟩, rfl, .inr rfl⟩
  | timerExpiry => exact onTimerExpiry_ok h
  | fire task =>
    cases h
    exact ⟨.inl ⟨rfl, rfl⟩, rfl, .inr rfl⟩

/-- A turn processes the batch of its arm, and a loop that goes on has nothing left to send. -/
theorem turn_ok {budget budget' : Budget} {goesOn : Bool}
    (h : s.turn input budget = .ok (t, actions, goesOn, budget')) :
    ∃ u v afterwards, s.arm input = .ok (u, actions, afterwards) ∧ Processed actions u v ∧
      v.Keeps t ∧ (goesOn = true → afterwards = .flush ∨ u.pendingSends = [] →
        t.pendingSends = []) := by
  obtain ⟨⟨u, acts, afterwards⟩, harm, h⟩ := bind_eq_ok.mp h
  obtain ⟨⟨v, close, b⟩, hprocess, h⟩ := bind_eq_ok.mp h
  have hprocessed := processActions_ok hprocess
  cases afterwards with
  | again =>
    cases h
    exact ⟨u, t, _, harm, hprocessed, .refl t, fun _ hsends =>
      hprocessed.flushed (hsends.resolve_left nofun)⟩
  | leave =>
    cases h
    exact ⟨u, t, _, harm, hprocessed, .refl t, nofun⟩
  | reply answer =>
    cases h
    exact ⟨u, v, _, harm, hprocessed, ⟨rfl, rfl⟩, fun _ hsends =>
      hprocessed.flushed (hsends.resolve_left nofun)⟩
  | flush =>
    dsimp only at h
    split at h
    · cases h
      exact ⟨u, t, _, harm, hprocessed, .refl t, nofun⟩
    · obtain ⟨⟨w, b'⟩, hflush, h⟩ := bind_eq_ok.mp h
      cases h
      obtain ⟨hkeeps, hsends⟩ := flushPendingSends_ok hflush
      exact ⟨u, v, _, harm, hprocessed, hkeeps, fun _ _ => hsends⟩

theorem turn_linkJobs {budget budget' : Budget} {goesOn : Bool} (hinput : s.EndsNoJob input)
    (h : s.turn input budget = .ok (t, actions, goesOn, budget')) :
    t.linkJobs = (deferredBy actions).foldl .enlist s.linkJobs := by
  obtain ⟨u, v, afterwards, harm, hprocessed, hkeeps, -⟩ := turn_ok h
  rw [hkeeps.linkJobs, hprocessed.linkJobs, (arm_ok hinput harm).linkJobs]

end Arms

/-! ## The end of a job -/

section Answers

variable {χ : Type} {s t : SessionTask ModemSessionFsm χ} {mac : MacAddress} {d : ModemDestination}
  {actions : List FsmAction}

open ModemSessionFsm (linkReply)

/-- The batch of a job's end: the rejection of an invalid answer, and the one response. -/
def answerActions (fsm : ModemSessionFsm) (mac : MacAddress) (d : ModemDestination)
    (r : LinkResponse) : List FsmAction :=
  (if fsm.validAnswer mac d r then []
    else [.emit (.commandRejected ⟨⟨.linkCharacteristicsResponse, some mac⟩, .invalidInput⟩)]) ++
  [.sendMessage (linkReply mac d (fsm.finalAnswer mac d r))]

theorem deferredBy_answerActions (fsm : ModemSessionFsm) (mac : MacAddress) (d : ModemDestination)
    (r : LinkResponse) : deferredBy (answerActions fsm mac d r) = [] := by
  unfold answerActions
  split <;> rfl

theorem validAnswer_finalAnswer {fsm : ModemSessionFsm} (hs : fsm.Sound)
    (hd : fsm.destinations.lookup mac = some d) (r : LinkResponse) :
    fsm.validAnswer mac d (fsm.finalAnswer mac d r) = true := by
  unfold ModemSessionFsm.finalAnswer
  split
  · assumption
  · exact ModemSessionFsm.validAnswer_denied hs hd

theorem encodes_of_validAnswer {fsm : ModemSessionFsm} {r : LinkResponse}
    (h : fsm.validAnswer mac d r = true) : (linkReply mac d r).Encodes := by
  simp only [ModemSessionFsm.validAnswer, Bool.and_eq_true] at h
  cases hencode : (linkReply mac d r).encode with
  | ok bytes => exact ⟨bytes, hencode⟩
  | error e =>
    rw [hencode] at h
    cases h.2

/-- The state machine takes the answer, or refuses it and takes the denial. -/
theorem answerLink_eq (hc : s.fsm.Consistent) (hs : s.fsm.Sound) (hin : s.fsm.state = .inSession)
    (hmem : mac ∈ s.fsm.pendingLinkRequests) (hd : s.fsm.destinations.lookup mac = some d)
    (r : LinkResponse) : s.answerLink (r.intoEvent mac) =
      .ok ({ s with fsm := s.fsm.settled mac d (s.fsm.finalAnswer mac d r) },
        answerActions s.fsm mac d r) := by
  rcases Bool.eq_false_or_eq_true (s.fsm.validAnswer mac d r) with hvalid | hvalid
  · have hstep : SessionFsm.step s.fsm (r.intoEvent mac) = _ :=
      ModemSessionFsm.step_link_valid r hc hs hin hmem hd hvalid
    simp only [answerLink, feed, hstep, bind, Except.bind, answerActions,
      ModemSessionFsm.finalAnswer, hvalid, if_true]
    rfl
  · have hstep : SessionFsm.step s.fsm (r.intoEvent mac) = _ :=
      ModemSessionFsm.step_link_invalid r hc hs hin hmem hd hvalid
    have hdenied : SessionFsm.step s.fsm (LinkResponse.denied.intoEvent mac) = _ :=
      ModemSessionFsm.step_link_valid .denied hc hs hin hmem hd
        (ModemSessionFsm.validAnswer_denied hs hd)
    have hfallback : fallbackDenial (r.intoEvent mac) = some (LinkResponse.denied.intoEvent mac) := rfl
    simp only [answerLink, feed, hstep, hfallback, hdenied, bind, Except.bind, answerActions,
      ModemSessionFsm.finalAnswer, hvalid, Bool.false_eq_true, if_false]
    rfl

theorem processActions_send {m : Message} (h : m.Encodes) (s : SessionTask ModemSessionFsm χ) :
    processActions [.sendMessage m] s false none = .ok (s.record [.written m], false, none) := by
  obtain ⟨bytes, hencode⟩ := h
  simp only [processActions, perform, writeMessage, hencode, await, bind, Except.bind, Bool.or_false]

/-- Nothing can stop the batch of a job's end. -/
theorem processActions_answerActions (hs : s.pendingSends = []) (fsm : ModemSessionFsm)
    (r : LinkResponse) (h : (linkReply mac d (fsm.finalAnswer mac d r)).Encodes) :
    ∃ t, processActions (answerActions fsm mac d r) s false none = .ok (t, false, none) := by
  unfold answerActions
  split
  · exact ⟨_, processActions_send h s⟩
  · -- The rejection is broadcast; no hook runs, so there is nothing to flush.
    have hrejection : ∀ rejection, ∃ u,
        s.perform (.emit (.commandRejected rejection)) none = .ok (u, false, none) := by
      intro rejection
      refine ⟨{ s.emitted (.commandRejected rejection) with pendingSends := [] }, ?_⟩
      have hqueue : (s.emitted (.commandRejected rejection)).pendingSends = [] := hs
      simp only [perform, flushPendingSends, hqueue, flushMessages, bind, Except.bind]
    obtain ⟨u, hu⟩ := hrejection
      ⟨⟨.linkCharacteristicsResponse, some mac⟩, .invalidInput⟩
    refine ⟨u.record [.written (linkReply mac d (fsm.finalAnswer mac d r))], ?_⟩
    simp only [List.singleton_append, processActions, hu, bind, Except.bind, Bool.or_false]
    exact processActions_send h u

theorem turn_linkJob {task : ℕ} (outcome : Option LinkResponse) (hc : s.fsm.Consistent)
    (hs : s.fsm.Sound) (hin : s.fsm.state = .inSession) (hsends : s.pendingSends = [])
    (htask : s.linkJobs.macs.lookup task = some mac) (hmem : mac ∈ s.fsm.pendingLinkRequests)
    (hd : s.fsm.destinations.lookup mac = some d) :
    ∃ t, s.turn (.linkJob task outcome) none =
        .ok (t, answerActions s.fsm mac d (s.linkJobs.response outcome), true, none) ∧
      t.fsm = s.fsm.settled mac d (s.fsm.finalAnswer mac d (s.linkJobs.response outcome)) ∧
      t.linkJobs = { s.linkJobs with macs := s.linkJobs.macs.erase task } ∧ t.pendingSends = [] := by
  have harm : s.arm (.linkJob task outcome) = .ok
      ({ s with
          linkJobs := { s.linkJobs with macs := s.linkJobs.macs.erase task }
          fsm := s.fsm.settled mac d (s.fsm.finalAnswer mac d (s.linkJobs.response outcome)) },
        answerActions s.fsm mac d (s.linkJobs.response outcome), .again) := by
    have hnext : s.linkJobs.next task outcome =
        some ({ s.linkJobs with macs := s.linkJobs.macs.erase task },
          (s.linkJobs.response outcome).intoEvent mac) := by
      unfold LinkJobs.next
      rw [htask]
      rfl
    have hanswer := answerLink_eq
      (s := { s with linkJobs := { s.linkJobs with macs := s.linkJobs.macs.erase task } })
      hc hs hin hmem hd (s.linkJobs.response outcome)
    change s.onLinkJob task outcome = _
    simp only [onLinkJob, hnext, hanswer, bind, Except.bind]
  have hencodes := encodes_of_validAnswer
    (validAnswer_finalAnswer hs hd (s.linkJobs.response outcome))
  obtain ⟨t, hprocess⟩ := processActions_answerActions (s := { s with
    linkJobs := { s.linkJobs with macs := s.linkJobs.macs.erase task }
    fsm := s.fsm.settled mac d (s.fsm.finalAnswer mac d (s.linkJobs.response outcome)) })
    hsends s.fsm (s.linkJobs.response outcome) hencodes
  have hprocessed := processActions_ok hprocess
  refine ⟨t, ?_, hprocessed.fsm, ?_, hprocessed.flushed hsends⟩
  · simp only [turn, harm, hprocess, bind, Except.bind, Bool.not_false]
  · rw [hprocessed.linkJobs, deferredBy_answerActions]
    rfl

end Answers

/-! ## Every state of the loop -/

/-- The task at the loop's first turn. -/
def started {F χ : Type} [SessionFsm F] (s : SessionTask F χ) (initialEvent : FsmEvent) :
    Except Unit (SessionTask F χ) :=
  let batch : Attempt F χ (SessionTask F χ × Bool × Budget) := do
    let (s, actions) ← s.feed initialEvent
    processActions actions s false none
  match batch with
  | .ok (t, false, _) => .ok t
  | _ => .error ()

section Loop

variable {χ : Type} {s t : SessionTask ModemSessionFsm χ} {config : SessionConfig}
  {actions : List FsmAction} {mac : MacAddress}

/-- The invariant of a deferring modem's loop. -/
structure Serves (config : SessionConfig) (s : SessionTask ModemSessionFsm χ) : Prop where
  consistent : s.fsm.Consistent
  fresh : s.fsm.Fresh
  config_eq : s.fsm.config = config
  sound : (buildSessionInitializationResponse config).Encodes → s.fsm.Sound
  established : s.fsm.state = .inSession → (buildSessionInitializationResponse config).Encodes
  flushed : s.pendingSends = []
  covers : s.fsm.state ≠ .terminating → s.fsm.state ≠ .terminated →
    s.linkJobs.Covers s.fsm.pendingLinkRequests

/-- A step whose batch was processed keeps the invariant. -/
theorem Serves.step {event : FsmEvent} (h : s.Serves config)
    (hdefer : config.deferLinkCharacteristics = true)
    (hother : ∀ mac (r : LinkResponse), event ≠ r.intoEvent mac)
    (hstep : s.fsm.step event = .ok (t.fsm, actions))
    (hjobs : t.linkJobs = (deferredBy actions).foldl .enlist s.linkJobs)
    (hencodes : ∀ m ∈ sentMessages actions, m.Encodes) (hsends : t.pendingSends = []) :
    t.Serves config := by
  have ht := ModemSessionFsm.lawful.trans h.consistent hstep
  refine ⟨ht.consistent h.consistent, ht.fresh h.fresh, ht.config_eq.trans h.config_eq,
    fun hinit => ht.sound (h.sound hinit), ?_, hsends, ?_⟩
  · intro hin
    rcases ht.opens_session hin with hin | hsent
    · exact h.established hin
    · rw [hsent, h.config_eq] at hencodes
      exact List.forall_mem_singleton.mp hencodes
  · intro hne hne'
    have hlive : s.linkJobs.Covers s.fsm.pendingLinkRequests := by
      refine h.covers ?_ ?_
      · intro hs
        exact (ht.ended (.inl hs)).elim hne hne'
      · intro hs
        exact (ht.ended (.inr hs)).elim hne hne'
    have hlink := ht.linkStep (by rw [h.config_eq]; exact hdefer)
    cases hlink with
    | kept hpending hdefers =>
      rw [hjobs, hdefers, hpending]
      exact hlive
    | deferred _ _ hnew hpending hdefers =>
      rw [hjobs, hdefers, hpending]
      exact hlive.enlist hnew
    | answered hevent => exact absurd hevent (hother _ _)

/-- A destination with a pending request is known. -/
theorem Serves.destination (h : s.Serves config) (hmem : mac ∈ s.fsm.pendingLinkRequests) :
    ∃ d, s.fsm.destinations.lookup mac = some d := by
  obtain ⟨d, hd, -⟩ := ModemSessionFsm.isAnnounced_eq_true.mp (h.consistent.deferred mac hmem).2
  exact ⟨d, hd⟩

theorem Serves.covers_inSession (h : s.Serves config) (hin : s.fsm.state = .inSession) :
    s.linkJobs.Covers s.fsm.pendingLinkRequests :=
  h.covers (by rw [hin]; decide) (by rw [hin]; decide)

theorem Serves.job (h : s.Serves config) (hin : s.fsm.state = .inSession) {task : ℕ}
    (outcome : Option LinkResponse) (htask : s.linkJobs.macs.lookup task = some mac) :
    ∃ d t, s.fsm.destinations.lookup mac = some d ∧
      s.turn (.linkJob task outcome) none =
        .ok (t, answerActions s.fsm mac d (s.linkJobs.response outcome), true, none) ∧
      t.fsm = s.fsm.settled mac d (s.fsm.finalAnswer mac d (s.linkJobs.response outcome)) ∧
      t.linkJobs = { s.linkJobs with macs := s.linkJobs.macs.erase task } ∧ t.pendingSends = [] := by
  have hmem := ((h.covers_inSession hin).pending mac).mpr ⟨task, htask⟩
  obtain ⟨d, hd⟩ := h.destination hmem
  obtain ⟨t, hturn⟩ := turn_linkJob outcome h.consistent (h.sound (h.established hin)) hin h.flushed
    htask hmem hd
  exact ⟨d, t, hd, hturn⟩

theorem Serves.settled {task : ℕ} {d : ModemDestination} {r : LinkResponse} (h : s.Serves config)
    (hin : s.fsm.state = .inSession) (htask : s.linkJobs.macs.lookup task = some mac)
    (hd : s.fsm.destinations.lookup mac = some d) (hsound : s.fsm.Sound)
    (hfsm : t.fsm = s.fsm.settled mac d (s.fsm.finalAnswer mac d r))
    (hjobs : t.linkJobs = { s.linkJobs with macs := s.linkJobs.macs.erase task })
    (hsends : t.pendingSends = []) : t.Serves config := by
  have hmem := ((h.covers_inSession hin).pending mac).mpr ⟨task, htask⟩
  have ht := ModemSessionFsm.lawful.trans h.consistent
    (ModemSessionFsm.step_link_valid _ h.consistent hsound hin hmem hd
      (validAnswer_finalAnswer hsound hd r))
  rw [← hfsm] at ht
  refine ⟨ht.consistent h.consistent, ht.fresh h.fresh, ht.config_eq.trans h.config_eq,
    fun hinit => ht.sound (h.sound hinit), fun _ => h.established hin, hsends, fun _ _ => ?_⟩
  rw [hfsm, hjobs]
  exact (h.covers_inSession hin).finish htask

/-- Before and after the session there is no job to end, or nothing it could change. -/
theorem Serves.arm_linkJob {task : ℕ} (outcome : Option LinkResponse) (h : s.Serves config)
    (hout : s.fsm.state ≠ .inSession) (htask : s.linkJobs.macs.lookup task = some mac) :
    (s.fsm.state = .terminating ∨ s.fsm.state = .terminated) ∧
    ∃ linkJobs actions, s.arm (.linkJob task outcome) = .ok ({ s with linkJobs }, actions, .again) := by
  constructor
  · by_contra hlive
    rw [not_or] at hlive
    have hpending := ((h.covers hlive.1 hlive.2).pending mac).mpr ⟨task, htask⟩
    have hearly : s.fsm.state = .listening ∨ s.fsm.state = .awaitingSessionInit := by
      cases hs : s.fsm.state <;> simp_all
    rw [h.fresh hearly] at hpending
    exact absurd hpending (Finset.notMem_empty mac)
  · have hcmd : ((s.linkJobs.response outcome).intoEvent mac).command =
        some ⟨.linkCharacteristicsResponse, some mac⟩ := rfl
    have hstep : SessionFsm.step s.fsm ((s.linkJobs.response outcome).intoEvent mac) = _ :=
      ModemSessionFsm.step_notReady hcmd hout
    refine ⟨{ s.linkJobs with macs := s.linkJobs.macs.erase task },
      [.emit (.commandRejected ⟨⟨.linkCharacteristicsResponse, some mac⟩, .notReady⟩)], ?_⟩
    change s.onLinkJob task outcome = _
    simp only [onLinkJob, LinkJobs.next, htask, Option.map_some, answerLink, feed, hstep, bind,
      Except.bind]
    rfl

theorem Serves.turn {input : LoopInput} {budget : Budget} (h : s.Serves config)
    (hdefer : config.deferLinkCharacteristics = true)
    (hturn : s.turn input none = .ok (t, actions, true, budget)) : t.Serves config := by
  obtain ⟨u, v, afterwards, harm, hprocessed, hkeeps, hsends⟩ := turn_ok hturn
  have hfsm : t.fsm = u.fsm := hkeeps.fsm.trans hprocessed.fsm
  by_cases hinput : s.EndsNoJob input
  · have hstepped := arm_ok hinput harm
    have hjobs := turn_linkJobs hinput hturn
    have hflushed : t.pendingSends = [] := by
      refine hsends rfl (hstepped.sends.imp_right fun heq => ?_)
      rw [heq, h.flushed]
    rcases hstepped.fsm with ⟨hsame, rfl⟩ | ⟨event, hother, hstep⟩
    · have hsame : t.fsm = s.fsm := hfsm.trans hsame
      exact ⟨hsame ▸ h.consistent, hsame ▸ h.fresh, hsame ▸ h.config_eq, hsame ▸ h.sound,
        hsame ▸ h.established, hflushed, by rw [hsame, hjobs]; exact h.covers⟩
    · rw [← hfsm] at hstep
      exact h.step hdefer hother hstep hjobs hprocessed.encodes hflushed
  · obtain ⟨task, outcome, mac, rfl, htask⟩ := exists_job hinput
    by_cases hin : s.fsm.state = .inSession
    · obtain ⟨d, t', hd, hturn', hfsm', hjobs', hsends'⟩ := h.job hin outcome htask
      cases hturn.symm.trans hturn'
      exact h.settled hin htask hd (h.sound (h.established hin)) hfsm' hjobs' hsends'
    · obtain ⟨hended, linkJobs, acts, harm'⟩ := h.arm_linkJob outcome hin htask
      cases harm.symm.trans harm'
      have hsame : t.fsm = s.fsm := hfsm
      refine ⟨hsame ▸ h.consistent, hsame ▸ h.fresh, hsame ▸ h.config_eq, hsame ▸ h.sound,
        hsame ▸ h.established, hsends rfl (.inr h.flushed), ?_⟩
      intro hne hne'
      rw [hsame] at hne hne'
      exact (hended.elim hne hne').elim

theorem Serves.started (h : s.Serves config) (hdefer : config.deferLinkCharacteristics = true)
    (hstart : s.started .tcpAccepted = .ok t) : t.Serves config := by
  unfold SessionTask.started at hstart
  dsimp only at hstart
  split at hstart
  · rename_i budget hbatch
    cases hstart
    obtain ⟨⟨u, actions⟩, hfeed, hprocess⟩ := bind_eq_ok.mp hbatch
    obtain ⟨fsm, hstep, rfl⟩ := feed_ok hfeed
    have hprocessed := processActions_ok hprocess
    have hfsm : t.fsm = fsm := hprocessed.fsm
    rw [← hfsm] at hstep
    exact h.step hdefer (not_answer_of_command rfl) hstep hprocessed.linkJobs hprocessed.encodes
      (hprocessed.flushed h.flushed)
  · cases hstart

end Loop

section Theorem

variable {χ : Type} {s t : SessionTask ModemSessionFsm χ} {config : SessionConfig}

end Theorem

end SessionTask

end Dlep
