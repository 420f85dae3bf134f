-- SUMMARY: The router's metrics against the history of accepted messages: every field is the last one written.
import Dlep.Fsm.Metrics
import Dlep.Fsm.Safety
import Dlep.Lib.LastWriter

/-!
# Metrics and the message history

The router keeps only current values: a session-wide message is merged into the
session metrics and into every destination, a report starts from the session metrics.
Against the history of accepted messages, each field of a destination has the value of
the last message that carries it, among the session-wide ones and those about the
destination since it was last brought up.
-/

namespace Dlep

open LastWriter

namespace RouterSessionFsm

/-! ## The history -/

/-- The message a step accepted, if it did. -/
def accepted (e : Entry) : Option Message :=
  match e.input with
  | .recvMessage msg => if e.after.state = .inSession then some msg else none
  | _ => none

/-- The messages a run has accepted, in order. -/
def acceptedMessages (trace : List Entry) : List Message := trace.filterMap accepted

def isSessionWide (msg : Message) : Bool :=
  msg.messageType ∈ [.sessionInitializationResponse, .sessionUpdate]

/-- A message that may carry metrics of the destination. -/
def isAbout (mac : MacAddress) (msg : Message) : Bool :=
  extractDestinationMac msg = some mac &&
    msg.messageType ∈ [.destinationUp, .destinationAnnounceResponse, .destinationUpdate,
      .linkCharacteristicsResponse]

/-- A message that brings the destination up. -/
def bringsUp (mac : MacAddress) (msg : Message) : Bool :=
  extractDestinationMac msg = some mac &&
    (msg.messageType = .destinationUp ||
      msg.messageType = .destinationAnnounceResponse && extractStatus msg = some .success)

/-- How messages write the metrics of a destination. -/
def metricScope (mac : MacAddress) : Scope Message where
  shared := isSessionWide
  own := isAbout mac
  births := bringsUp mac

section

variable {mac : MacAddress} {msg : Message} {history : List Message} {f : MetricField}

theorem isAbout_of_bringsUp (h : bringsUp mac msg = true) : isAbout mac msg = true := by
  simp only [bringsUp, isAbout, Bool.and_eq_true, Bool.or_eq_true, decide_eq_true_eq] at h ⊢
  rcases h with ⟨hmac, ht | ⟨ht, -⟩⟩ <;> exact ⟨hmac, by simp [ht]⟩

/-- A message about something else leaves the history of a destination alone. -/
theorem latest_aside (hwide : isSessionWide msg = false) (habout : isAbout mac msg = false)
    (alive : Bool) :
    latest (metricScope mac) f.carried alive (history ++ [msg]) =
      latest (metricScope mac) f.carried alive history := by
  have hbirth : bringsUp mac msg = false :=
    Bool.eq_false_iff.mpr fun h => absurd (isAbout_of_bringsUp h) (by simp [habout])
  rw [latest_snoc]
  simp [metricScope, hwide, habout, hbirth]

/-- What is session-wide is not touched by a message about a destination. -/
theorem latest_session (hwide : isSessionWide msg = false) :
    latest (metricScope mac) f.carried false (history ++ [msg]) =
      latest (metricScope mac) f.carried false history := by
  rw [latest_snoc]
  simp [metricScope, hwide]

theorem latest_wide (hwide : isSessionWide msg = true) (hbirth : bringsUp mac msg = false)
    (alive : Bool) :
    latest (metricScope mac) f.carried alive (history ++ [msg]) =
      (f.carried msg).or (latest (metricScope mac) f.carried alive history) := by
  rw [latest_snoc]
  simp [metricScope, hwide, hbirth]

theorem latest_about (habout : isAbout mac msg = true) :
    latest (metricScope mac) f.carried true (history ++ [msg]) =
      (f.carried msg).or
        (latest (metricScope mac) f.carried (!bringsUp mac msg) history) := by
  rw [latest_snoc]
  simp [metricScope, habout]

end

/-! ## The invariant -/

/-- The metrics are those of the history. -/
structure Remembers (s : RouterSessionFsm) (history : List Message) : Prop where
  session : s.state = .inSession → ∀ mac (f : MetricField),
    f.get s.sessionMetrics = latest (metricScope mac) f.carried false history
  cell : ∀ mac d, s.destinations.lookup mac = some d → ∀ f : MetricField,
    f.get d.metrics = latest (metricScope mac) f.carried true history

variable {s s' : RouterSessionFsm} {event : FsmEvent} {actions : List FsmAction} {msg : Message}
  {mac : MacAddress} {history : List Message}

/-- A step that accepts no message and leaves the metrics alone. -/
theorem Remembers.kept (hr : s.Remembers history) (hs : s'.state = .inSession → s.state = .inSession)
    (hsession : s'.sessionMetrics = s.sessionMetrics) (hcell : s'.destinations = s.destinations) :
    s'.Remembers history where
  session hs' := by
    rw [hsession]
    exact hr.session (hs hs')
  cell := by
    rw [hcell]
    exact hr.cell

/-- A message that is not about any destination that stays. -/
theorem Remembers.aside (hr : s.Remembers history) (hs : s.state = .inSession)
    (hwide : isSessionWide msg = false) (hsession : s'.sessionMetrics = s.sessionMetrics)
    (hcell : ∀ m d, s'.destinations.lookup m = some d →
      s.destinations.lookup m = some d ∧ isAbout m msg = false) :
    s'.Remembers (history ++ [msg]) where
  session _ m f := by
    rw [latest_session hwide, hsession]
    exact hr.session hs m f
  cell m d hd f := by
    obtain ⟨hold, habout⟩ := hcell m d hd
    rw [latest_aside hwide habout]
    exact hr.cell m d hold f

/-- A message about one destination writes its metrics. -/
theorem Remembers.written (hr : s.Remembers history) (hs : s.state = .inSession)
    (hwide : isSessionWide msg = false) (hmac : extractDestinationMac msg = some mac)
    (hsession : s'.sessionMetrics = s.sessionMetrics) {d' : RouterDestination}
    (hcell : s'.destinations = s.destinations.insert mac d')
    (hd' : ∀ f : MetricField,
      f.get d'.metrics = latest (metricScope mac) f.carried true (history ++ [msg])) :
    s'.Remembers (history ++ [msg]) where
  session _ m f := by
    rw [latest_session hwide, hsession]
    exact hr.session hs m f
  cell m d hd f := by
    rw [hcell, FinMap.lookup_insert_eq] at hd
    split at hd
    · rename_i hm
      cases hd
      rw [hm]
      exact hd' f
    · rename_i hm
      have habout : isAbout m msg = false := by
        simp [isAbout, hmac, Ne.symm hm]
      rw [latest_aside hwide habout]
      exact hr.cell m d hd f

/-- A report starts from the session metrics. -/
theorem Remembers.reported (hr : s.Remembers history) (hs : s.state = .inSession)
    (hup : bringsUp mac msg = true) (f : MetricField) :
    f.get (s.reported mac msg).metrics =
      latest (metricScope mac) f.carried true (history ++ [msg]) := by
  rw [latest_about (isAbout_of_bringsUp hup), hup, RouterSessionFsm.reported, get_mergeLinkMetrics,
    hr.session hs mac f]
  rfl

/-- An update starts from what is stored. -/
theorem Remembers.updated (hr : s.Remembers history) {d : RouterDestination}
    (hd : s.destinations.lookup mac = some d) (habout : isAbout mac msg = true)
    (hup : bringsUp mac msg = false) (f : MetricField) :
    f.get (mergeLinkMetrics msg d.metrics).1 =
      latest (metricScope mac) f.carried true (history ++ [msg]) := by
  rw [latest_about habout, hup, get_mergeLinkMetrics, hr.cell mac d hd f]
  rfl

theorem isSessionWide_of_type {t : MessageType} (ht : msg.messageType = t) :
    isSessionWide msg = decide (t ∈ [MessageType.sessionInitializationResponse, .sessionUpdate]) := by
  rw [← ht]
  rfl

theorem isAbout_of_type {t : MessageType} (ht : msg.messageType = t)
    (h : t ∉ [MessageType.destinationUp, .destinationAnnounceResponse, .destinationUpdate,
      .linkCharacteristicsResponse]) (m : MacAddress) : isAbout m msg = false := by
  unfold isAbout
  rw [ht, decide_eq_false h, Bool.and_false]

theorem bringsUp_of_type {t : MessageType} (ht : msg.messageType = t)
    (h : t ≠ .destinationUp ∧ t ≠ .destinationAnnounceResponse) (m : MacAddress) :
    bringsUp m msg = false := by
  unfold bringsUp
  rw [ht, decide_eq_false h.1, decide_eq_false h.2, Bool.false_and, Bool.or_false, Bool.and_false]

/-- The first report of a session leaves no default standing. -/
theorem get_initialized (hg : Grammatical msg true true)
    (ht : msg.messageType = .sessionInitializationResponse) (f : MetricField) :
    f.get (mergeLinkMetrics msg .default).1 = f.carried msg := by
  rw [get_mergeLinkMetrics]
  have hmandatory : f.get .default = none ∨ f.type ∈ requiredItems .sessionInitializationResponse := by
    cases f <;> first
      | exact .inl rfl
      | exact .inr (by decide)
  rcases hmandatory with hnone | hrequired
  · rw [hnone, Option.or_none]
  · have hcarried := MetricField.carried_isSome_iff.mpr (hg.required f.type (ht ▸ hrequired))
    obtain ⟨v, hv⟩ := Option.isSome_iff_exists.mp hcarried
    rw [hv, Option.some_or]

/-- A session-wide update is merged into the session metrics and into every destination. -/
theorem Remembers.widened (hr : s.Remembers history) (hs : s.state = .inSession)
    (ht : msg.messageType = .sessionUpdate)
    (hsession : s'.sessionMetrics = (mergeLinkMetrics msg s.sessionMetrics).1)
    (hcell : s'.destinations = if (mergeLinkMetrics msg s.sessionMetrics).2 then
      s.destinations.mapValues fun d => { d with metrics := (mergeLinkMetrics msg d.metrics).1 }
      else s.destinations) : s'.Remembers (history ++ [msg]) := by
  have hwide : isSessionWide msg = true := isSessionWide_of_type ht
  have hup := bringsUp_of_type ht (by decide)
  refine ⟨fun _ m f => ?_, fun m d hd f => ?_⟩
  · rw [latest_wide hwide (hup m), hsession, get_mergeLinkMetrics, hr.session hs m f]
  · rw [latest_wide hwide (hup m)]
    rw [hcell] at hd
    split at hd
    · obtain ⟨e, he, rfl⟩ := Option.map_eq_some_iff.mp ((FinMap.lookup_mapValues _ _ m) ▸ hd)
      rw [get_mergeLinkMetrics, hr.cell m e he f]
    · -- the message carries no metric, so that merging it would change nothing
      rename_i hflag
      have hnone := mergeLinkMetrics_of_not_metric
        (mergeLinkMetrics_of_flag (by simpa using hflag)) d.metrics
      have hmerge := get_mergeLinkMetrics f msg d.metrics
      rw [hnone] at hmerge
      rw [← hr.cell m d hd f, ← hmerge]

/-- The router merges an accepted message into the metrics as the history does. -/
theorem Transition.remembers_accepted (h : s.Transition (.recvMessage msg) s' actions)
    (hs' : s'.state = .inSession) (hc : s.Consistent) (hf : s.Fresh) (hr : s.Remembers history)
    (hnew : s.state = .sessionInitPending → history = []) : s'.Remembers (history ++ [msg]) := by
  cases h with
  | rejected hcmd => cases hcmd
  | ignored h => cases h.received (phase_view hs')
  | alive hs hevent =>
    rcases hevent with hevent | ⟨msg', hevent, -, ht⟩ <;> cases hevent
    exact hr.aside hs ((isSessionWide_of_type ht).trans rfl) rfl fun m d hd =>
      ⟨hd, isAbout_of_type ht (by decide) m⟩
  | initialized hs hok ht hstatus =>
    have hempty : s = { withConfig s.config with state := s.state } := hf (.inr hs)
    have hwide : isSessionWide msg = true := isSessionWide_of_type ht
    rw [hnew hs]
    refine ⟨fun _ m f => ?_, fun m d hd => ?_⟩
    · rw [latest_wide hwide (bringsUp_of_type ht (by decide) m), latest_nil, Option.or_none]
      show f.get (mergeLinkMetrics msg s.sessionMetrics).1 = _
      rw [hempty]
      exact get_initialized (init_of_refusal hs hok).1 ht f
    · have hd : s.destinations.lookup m = some d := hd
      rw [hempty] at hd
      simp [withConfig] at hd
  | ends h => rcases h.gone with rfl | rfl <;> cases hs'
  | upReceived hs ha ht hmac =>
    exact hr.written hs ((isSessionWide_of_type ht).trans rfl) hmac rfl rfl
      (hr.reported hs (by simp [bringsUp, hmac, ht]))
  | announceGranted hs ha ht hmac hstatus =>
    exact hr.written hs ((isSessionWide_of_type ht).trans rfl) hmac rfl rfl
      (hr.reported hs (by simp [bringsUp, hmac, ht, hstatus]))
  | updateReceived hs ha ht hmac hd =>
    exact hr.written hs ((isSessionWide_of_type ht).trans rfl) hmac rfl rfl
      (hr.updated hd (by simp [isAbout, hmac, ht]) (bringsUp_of_type ht (by decide) _))
  | linkAnswered hs ha ht hmac hd =>
    exact hr.written hs ((isSessionWide_of_type ht).trans rfl) hmac rfl rfl
      (hr.updated hd (by simp [isAbout, hmac, ht]) (bringsUp_of_type ht (by decide) _))
  | downReceived hs ha ht | dropAnswered hs ha ht =>
    refine hr.aside hs ((isSessionWide_of_type ht).trans rfl) rfl fun m d hd =>
      ⟨?_, isAbout_of_type ht (by decide) m⟩
    exact FinMap.of_lookup_erase (fun _ _ h => h) m d hd
  | @announceDenied _ mac hs ha ht hmac hstatus hannounce =>
    refine hr.aside hs ((isSessionWide_of_type ht).trans rfl) rfl fun m d hd => ⟨hd, ?_⟩
    -- the destination is unknown while its Announce is open
    have hne : mac ≠ m := by
      rintro rfl
      rcases hc.tracked mac _ hannounce with ⟨-, hunknown⟩ | ⟨hkind, -⟩
      · cases hunknown.symm.trans hd
      · rcases hkind with hkind | hkind <;> cases hkind
    simp [isAbout, hmac, hne]
  | sessionUpdated hs ha ht hpeer => exact hr.widened hs ht rfl rfl
  | sessionAnswered hs ha ht =>
    exact hr.aside hs ((isSessionWide_of_type ht).trans rfl) rfl fun m d hd =>
      ⟨hd, isAbout_of_type ht (by decide) m⟩

/-- No other step touches the metrics. -/
theorem Transition.remembers_other (h : s.Transition event s' actions)
    (hother : ∀ msg, event = .recvMessage msg → s'.state ≠ .inSession) (hr : s.Remembers history) :
    s'.Remembers history := by
  cases h with
  | rejected | ignored | beat | dropSent | announceSent | linkSent | sessionAddressesKept
  | sessionAddressesSent => exact hr.kept id rfl rfl
  | alive hs => exact hr.kept id rfl rfl
  | connected => exact hr.kept (by simp) rfl rfl
  | ends h => rcases h.gone with rfl | rfl <;> exact hr.kept nofun rfl rfl
  | initialized => exact absurd rfl (hother _ rfl)
  | _ hs => exact absurd hs (hother _ rfl)

/-- The handshake is not returned to. -/
theorem Transition.notBegun (h : s.Transition event s' actions)
    (hs' : s'.state = .closed ∨ s'.state = .sessionInitPending) :
    s.state = .closed ∨ s.state = .sessionInitPending := by
  cases h with
  | rejected | ignored => exact hs'
  | connected hs => exact .inl hs
  | initialized hs => exact .inr hs
  | ends h => rcases h.gone with rfl | rfl <;> rcases hs' with hs' | hs' <;> cases hs'
  | _ hs => exact hs'

/-! ## Runs -/

/-- A run remembers the messages it has accepted, and has accepted none before its
session began. -/
structure Recalls (s : RouterSessionFsm) (trace : List Entry) : Prop where
  fresh : s.Fresh
  remembers : s.Remembers (acceptedMessages trace)
  unheard : s.state = .closed ∨ s.state = .sessionInitPending → acceptedMessages trace = []

theorem recalls_withConfig (config : SessionConfig) : (withConfig config).Recalls [] where
  fresh := fresh_withConfig config
  remembers := ⟨fun h => (by cases h), fun mac d hd => (by simp [withConfig] at hd)⟩
  unheard _ := rfl

theorem Recalls.step {trace : List Entry} (h : s.Recalls trace) (hc : s.Consistent)
    (ht : s.Transition event s' actions) : s'.Recalls (trace ++ [⟨s, event, actions, s'⟩]) := by
  have hsnoc : acceptedMessages (trace ++ [⟨s, event, actions, s'⟩]) =
      acceptedMessages trace ++ (accepted ⟨s, event, actions, s'⟩).toList := by
    unfold acceptedMessages
    rw [List.filterMap_append]
    cases haccepted : accepted ⟨s, event, actions, s'⟩ <;> simp [haccepted]
  refine ⟨ht.fresh h.fresh, ?_, fun hs' => ?_⟩
  · rw [hsnoc]
    by_cases hheard : ∃ msg, event = .recvMessage msg ∧ s'.state = .inSession
    · obtain ⟨msg, rfl, hs'⟩ := hheard
      rw [show accepted ⟨s, .recvMessage msg, actions, s'⟩ = some msg from if_pos hs']
      exact ht.remembers_accepted hs' hc h.fresh h.remembers fun hs => h.unheard (.inr hs)
    · have hother : ∀ msg, event = .recvMessage msg → s'.state ≠ .inSession :=
        fun msg hevent hs' => hheard ⟨msg, hevent, hs'⟩
      have hnone : accepted ⟨s, event, actions, s'⟩ = none := by
        unfold accepted
        split
        · rename_i msg hevent
          exact if_neg (hother msg hevent)
        · rfl
      rw [hnone, Option.toList_none, List.append_nil]
      exact ht.remembers_other hother h.remembers
  · have hnone : accepted ⟨s, event, actions, s'⟩ = none := by
      unfold accepted
      split
      · refine if_neg fun hin => ?_
        rcases hs' with hs' | hs' <;> cases hs'.symm.trans hin
      · rfl
    rw [hsnoc, h.unheard (ht.notBegun hs'), hnone]
    rfl

theorem run_recalls {config : SessionConfig} {events : List FsmEvent} {t : RouterSessionFsm}
    {trace : List Entry} (h : run config events = .ok (t, trace)) : t.Recalls trace :=
  lawful.run_history (fun _ _ _ _ _ hc hrecalls ht => Recalls.step hrecalls hc ht)
    (consistent_withConfig config) (recalls_withConfig config) h

end RouterSessionFsm

/-- In every state a router reaches, each field of each destination has the value of
the last accepted message that carries the field, among the session-wide messages and
those about the destination that are not older than the one that last brought it up;
an optional field that no such message carries is missing. -/
theorem router_metrics_last_writer (config : SessionConfig) (events : List FsmEvent) :
    ∃ s trace, RouterSessionFsm.run config events = .ok (s, trace) ∧
      ∀ mac d, s.destinations.lookup mac = some d → ∀ (f : MetricField) (v : f.Value),
        f.get d.metrics = some v ↔
          IsLatest (RouterSessionFsm.metricScope mac) f.carried true
            (RouterSessionFsm.acceptedMessages trace) v := by
  obtain ⟨s, trace, hrun⟩ := RouterSessionFsm.run_ok config events
  refine ⟨s, trace, hrun, fun mac d hd f v => ?_⟩
  rw [(RouterSessionFsm.run_recalls hrun).remembers.cell mac d hd f]
  exact latest_eq_some_iff

end Dlep
