-- SUMMARY: What the modem tells the router about one destination, for every event sequence.
import Dlep.Fsm.Transactions

/-!
# Reports about a destination

The router accepts a destination with a successful Destination Up Response, or by
announcing it; it stops accepting it when either side takes it down or the Up is
refused. This file follows the messages about one destination through a modem's
trace and shows that the modem reports on a destination only while the router
accepts it, and falls silent about it otherwise.
-/

namespace Dlep

open MessageType

/-! ## Occurrences -/

/-- A message of a trace: received, and whether the receiver stayed in session, or sent. -/
inductive Occurrence where
  | received (m : Message) (accepted : Bool)
  | sent (m : Message)
  deriving DecidableEq, Repr

namespace Occurrence

def message : Occurrence → Message
  | received m _ => m
  | sent m => m

/-- The router accepts the destination from here on. -/
def grants : Occurrence → Bool
  | received m accepted =>
    accepted && m.messageType = destinationUpResponse && extractStatus m = some .success
  | sent m => m.messageType = destinationAnnounceResponse && extractStatus m = some .success

/-- The destination is withdrawn or refused. -/
def withdraws : Occurrence → Bool
  | received m _ => m.messageType = destinationDown ||
      (m.messageType = destinationUpResponse && extractStatus m ≠ some .success)
  | sent m => m.messageType = destinationDown

theorem withdraws_sent {m : Message} {mt : MessageType} (ht : m.messageType = mt)
    (hne : mt ≠ destinationDown) : (sent m).withdraws = false := by
  simp [withdraws, ht, hne]

theorem withdraws_received {m : Message} {mt : MessageType} {accepted : Bool}
    (ht : m.messageType = mt) (hne : mt ≠ destinationDown ∧ mt ≠ destinationUpResponse) :
    (received m accepted).withdraws = false := by
  simp [withdraws, ht, hne]

def sentMessage : Occurrence → Option Message
  | received _ _ => none
  | sent m => some m

end Occurrence

namespace Observation

/-- The messages of a step in order: the received one, then those sent. -/
def occurrences (o : Observation) : List Occurrence :=
  (match o.event with
    | .recvMessage msg => [.received msg (o.after = .inSession)]
    | _ => []) ++ (sentMessages o.actions).map .sent

/-- The messages of a step that are about a destination. -/
def about (mac : MacAddress) (o : Observation) : List Occurrence :=
  o.occurrences.filter fun x => extractDestinationMac x.message = some mac

end Observation

/-- The messages of a trace that are about a destination, in order. -/
def occurrencesAbout (mac : MacAddress) (trace : List Observation) : List Occurrence :=
  trace.flatMap (Observation.about mac)

/-! ## What the trace promises -/

/-- The latest acceptance is later than every withdrawal. -/
def Standing (past : List Occurrence) : Prop :=
  ∃ before g after, past = before ++ g :: after ∧ g.grants = true ∧
    ∀ w ∈ after, w.withdraws = false

/-- The messages sent after a withdrawal, without the Down Response that answers it. -/
def afterAnswer (w : Occurrence) (sent : List Message) : List Message :=
  match w, sent with
  | .received m _, r :: rest =>
    if m.messageType = destinationDown ∧ r.messageType = destinationDownResponse then rest else sent
  | _, _ => sent

/-- The messages about one destination, as the router may rely on them. -/
structure ReportDiscipline (messages : List Occurrence) : Prop where
  /-- A report is sent only while the destination is accepted. -/
  reports : ∀ past m rest, messages = past ++ .sent m :: rest →
    m.messageType ∈ [destinationUpdate, linkCharacteristicsResponse] → Standing past
  /-- The first word after a withdrawal, its answer apart, starts anew. -/
  restarts : ∀ past w rest m, messages = past ++ w :: rest → w.withdraws = true →
    (afterAnswer w (rest.filterMap Occurrence.sentMessage)).head? = some m →
    m.messageType ∈ [destinationAnnounceResponse, destinationUp]

/-! ## The standing of a destination -/

theorem Standing.of_grant (past : List Occurrence) {g : Occurrence} (h : g.grants = true) :
    Standing (past ++ [g]) :=
  ⟨past, g, [], rfl, h, by simp⟩

theorem Standing.append {past more : List Occurrence} (h : Standing past)
    (hmore : ∀ w ∈ more, w.withdraws = false) : Standing (past ++ more) := by
  obtain ⟨before, g, after, rfl, hg, hafter⟩ := h
  refine ⟨before, g, after ++ more, by simp, hg, fun w hw => ?_⟩
  rcases List.mem_append.mp hw with hw | hw
  · exact hafter w hw
  · exact hmore w hw

/-- What the modem holds a destination for. -/
inductive ReportStatus where
  /-- Not offered, refused, withdrawn, or out of session. -/
  | quiet
  /-- Offered by an Up that is not answered yet. -/
  | asking
  /-- Accepted by the router. -/
  | granted
  deriving DecidableEq, Repr

open ReportStatus Occurrence in
/-- The messages about a destination in one step, by its status before and after. -/
inductive Report : ReportStatus → List Occurrence → ReportStatus → Prop where
  | nothing {x} : Report x [] x
  | lost {x} : Report x [] quiet
  | turnedDown {x msg} : Report x [received msg false] quiet
  | heard {x msg} (ht : msg.messageType ≠ destinationDown ∧ msg.messageType ≠ destinationUpResponse) :
      Report x [received msg true] x
  | asked {m} (ht : m.messageType = destinationUp) : Report quiet [sent m] asking
  | accepted {msg} {updates : List Message} (ht : msg.messageType = destinationUpResponse)
      (hstatus : extractStatus msg = some .success)
      (hupdates : ∀ m ∈ updates, m.messageType = destinationUpdate) :
      Report asking (received msg true :: updates.map sent) granted
  | refused {msg} (ht : msg.messageType = destinationUpResponse) :
      Report asking [received msg true] quiet
  | reported {m} (ht : m.messageType = destinationUpdate ∨ m.messageType = linkCharacteristicsResponse) :
      Report granted [sent m] granted
  | dropped {m} (ht : m.messageType = destinationDown) : Report granted [sent m] quiet
  | withdrawn {msg r} (ht : msg.messageType = destinationDown)
      (hr : r.messageType = destinationDownResponse) :
      Report granted [received msg true, sent r] quiet
  | announceDenied {msg r} (ht : msg.messageType = destinationAnnounce)
      (hr : r.messageType = destinationAnnounceResponse) :
      Report quiet [received msg true, sent r] quiet
  | announceGranted {msg r} (ht : msg.messageType = destinationAnnounce)
      (hr : r.messageType = destinationAnnounceResponse) (hstatus : extractStatus r = some .success) :
      Report quiet [received msg true, sent r] granted
  | linkDenied {msg r} (ht : msg.messageType = linkCharacteristicsRequest)
      (hr : r.messageType = linkCharacteristicsResponse) :
      Report granted [received msg true, sent r] granted

/-- The messages about a destination in a sequence of steps. -/
inductive Reports : List Occurrence → ReportStatus → Prop where
  | nil : Reports [] .quiet
  | snoc {past x more y} (h : Reports past x) (hx : Report x more y) : Reports (past ++ more) y

/-- A split of two lists in a row lies in the second or in the first. -/
theorem append_eq_append_cons {α : Type} {as bs past rest : List α} {x : α}
    (h : as ++ bs = past ++ x :: rest) :
    (∃ mid, past = as ++ mid ∧ bs = mid ++ x :: rest) ∨
      ∃ mid, as = past ++ x :: mid ∧ rest = mid ++ bs := by
  rcases List.append_eq_append_iff.mp h with ⟨mid, hpast, hbs⟩ | ⟨mid, has, hrest⟩
  · exact .inl ⟨mid, hpast, hbs⟩
  · cases mid with
    | nil =>
      rw [List.nil_append] at hrest
      exact .inl ⟨[], by simp [has], by simp [hrest]⟩
    | cons y mid =>
      cases hrest
      exact .inr ⟨mid, has, rfl⟩

theorem singleton_split {α : Type} {before after : List α} {a x : α}
    (h : [a] = before ++ x :: after) : before = [] ∧ x = a ∧ after = [] := by
  obtain ⟨rfl, h⟩ | ⟨_, -, h⟩ := List.cons_eq_append_iff.mp h
  · cases h
    exact ⟨rfl, rfl, rfl⟩
  · simp at h

theorem pair_split {α : Type} {before after : List α} {a b x : α}
    (h : [a, b] = before ++ x :: after) :
    before = [] ∧ x = a ∧ after = [b] ∨ before = [a] ∧ x = b ∧ after = [] := by
  obtain ⟨rfl, hcons⟩ | ⟨before, rfl, htail⟩ := List.cons_eq_append_iff.mp h
  · cases hcons
    exact .inl ⟨rfl, rfl, rfl⟩
  · obtain ⟨rfl, rfl, rfl⟩ := singleton_split htail
    exact .inr ⟨rfl, rfl, rfl⟩

theorem Reports.standing {past : List Occurrence} {x : ReportStatus} (h : Reports past x)
    (hx : x = .granted) : Standing past := by
  induction h with
  | nil => cases hx
  | @snoc past x more y h hr ih =>
    cases hr with
    | nothing => simpa using ih hx
    | lost | turnedDown | asked | refused | dropped | withdrawn | announceDenied => cases hx
    | heard ht =>
      exact (ih hx).append (List.forall_mem_singleton.mpr (Occurrence.withdraws_received rfl ht))
    | accepted ht hstatus hupdates =>
      rw [List.append_cons]
      refine (Standing.of_grant past (by simp [Occurrence.grants, ht, hstatus])).append ?_
      intro w hw
      obtain ⟨m, hm, rfl⟩ := List.mem_map.mp hw
      exact Occurrence.withdraws_sent (hupdates m hm) (by decide)
    | reported ht =>
      refine (ih rfl).append (List.forall_mem_singleton.mpr ?_)
      rcases ht with ht | ht <;> exact Occurrence.withdraws_sent ht (by decide)
    | announceGranted ht hr hstatus =>
      rw [List.append_cons]
      exact Standing.of_grant _ (by simp [Occurrence.grants, hr, hstatus])
    | linkDenied ht hr =>
      refine (ih rfl).append (List.forall_mem_cons.mpr ⟨?_, List.forall_mem_singleton.mpr ?_⟩)
      · exact Occurrence.withdraws_received ht (by decide)
      · exact Occurrence.withdraws_sent hr (by decide)

open Occurrence in
/-- Within one step, a report goes out only while the destination is accepted. -/
theorem Report.standing {past more before after : List Occurrence} {x y : ReportStatus} {m : Message}
    (hpast : x = .granted → Standing past) (h : Report x more y)
    (hsplit : more = before ++ sent m :: after)
    (ht : m.messageType ∈ [destinationUpdate, linkCharacteristicsResponse]) :
    Standing (past ++ before) := by
  cases h with
  | nothing | lost => simp at hsplit
  | turnedDown | heard | refused =>
    obtain ⟨-, h, -⟩ := singleton_split hsplit
    cases h
  | asked hm | dropped hm =>
    obtain ⟨-, h, -⟩ := singleton_split hsplit
    cases h
    rw [hm] at ht
    exact absurd ht (by decide)
  | reported =>
    obtain ⟨rfl, -⟩ := singleton_split hsplit
    simpa using hpast rfl
  | accepted hm hstatus hupdates =>
    obtain ⟨-, h⟩ | ⟨before, rfl, h⟩ := List.cons_eq_append_iff.mp hsplit
    · cases h
    · rw [List.append_cons]
      refine (Standing.of_grant past (by simp [grants, hm, hstatus])).append fun w hw => ?_
      obtain ⟨u, hu, rfl⟩ := List.mem_map.mp (h ▸ List.mem_append_left _ hw)
      exact withdraws_sent (hupdates u hu) (by decide)
  | withdrawn _ hr | announceDenied _ hr | announceGranted _ hr =>
    obtain ⟨-, h, -⟩ | ⟨-, h, -⟩ := pair_split hsplit
    · cases h
    · cases h
      rw [hr] at ht
      exact absurd ht (by decide)
  | linkDenied hm hr =>
    obtain ⟨-, h, -⟩ | ⟨rfl, -, -⟩ := pair_split hsplit
    · cases h
    · exact (hpast rfl).append (List.forall_mem_singleton.mpr (withdraws_received hm (by decide)))

open Occurrence in
/-- From a quiet status a step sends nothing about the destination or starts anew. -/
theorem Report.quiet_sends {more : List Occurrence} {y : ReportStatus} (h : Report .quiet more y) :
    more.filterMap sentMessage = [] ∧ y = .quiet ∨
      ∃ m, more.filterMap sentMessage = [m] ∧
        m.messageType ∈ [destinationAnnounceResponse, destinationUp] := by
  cases h with
  | nothing | lost | turnedDown | heard => exact .inl ⟨rfl, rfl⟩
  | asked ht => exact .inr ⟨_, rfl, by simp [ht]⟩
  | announceDenied ht hr => exact .inr ⟨_, rfl, by simp [hr]⟩
  | announceGranted ht hr => exact .inr ⟨_, rfl, by simp [hr]⟩

open Occurrence in
/-- A withdrawal leaves the destination quiet, and only its answer follows it in the step. -/
theorem Report.withdrawal {more before after : List Occurrence} {x y : ReportStatus} {w : Occurrence}
    (h : Report x more y) (hsplit : more = before ++ w :: after) (hw : w.withdraws = true) :
    y = .quiet ∧ afterAnswer w (after.filterMap sentMessage) = [] := by
  cases h with
  | nothing | lost => simp at hsplit
  | turnedDown | refused | dropped =>
    obtain ⟨-, rfl, rfl⟩ := singleton_split hsplit
    exact ⟨rfl, rfl⟩
  | heard hm =>
    obtain ⟨-, rfl, -⟩ := singleton_split hsplit
    rw [withdraws_received rfl hm] at hw
    cases hw
  | asked hm =>
    obtain ⟨-, rfl, -⟩ := singleton_split hsplit
    rw [withdraws_sent hm (by decide)] at hw
    cases hw
  | reported hm =>
    obtain ⟨-, rfl, -⟩ := singleton_split hsplit
    rcases hm with hm | hm <;> rw [withdraws_sent hm (by decide)] at hw <;> cases hw
  | accepted hm hstatus hupdates =>
    obtain ⟨-, h⟩ | ⟨_, rfl, h⟩ := List.cons_eq_append_iff.mp hsplit
    · cases h
      have hne : destinationUpResponse ≠ destinationDown := by decide
      simp [withdraws, hm, hstatus, hne] at hw
    · obtain ⟨u, hu, rfl⟩ := List.mem_map.mp (h ▸ List.mem_append_right _ List.mem_cons_self)
      rw [withdraws_sent (hupdates u hu) (by decide)] at hw
      cases hw
  | withdrawn hm hr =>
    obtain ⟨-, rfl, rfl⟩ | ⟨-, rfl, -⟩ := pair_split hsplit
    · exact ⟨rfl, by simp [afterAnswer, sentMessage, hm, hr]⟩
    · rw [withdraws_sent hr (by decide)] at hw
      cases hw
  | announceDenied hm hr | announceGranted hm hr | linkDenied hm hr =>
    obtain ⟨-, rfl, -⟩ | ⟨-, rfl, -⟩ := pair_split hsplit
    · rw [withdraws_received hm (by decide)] at hw
      cases hw
    · rw [withdraws_sent hr (by decide)] at hw
      cases hw

/-! ## From steps to the whole trace -/

/-- Taking off the answer commutes with saying more, once something was said or what
comes next is not an answer. -/
theorem afterAnswer_append (w : Occurrence) (said : List Message) {more : List Message}
    (h : said ≠ [] ∨ ∀ m, more.head? = some m → m.messageType ≠ destinationDownResponse) :
    afterAnswer w (said ++ more) = afterAnswer w said ++ more := by
  cases w with
  | sent => rfl
  | received d a =>
    cases said with
    | cons r rest =>
      simp only [afterAnswer, List.cons_append]
      split <;> rfl
    | nil =>
      cases more with
      | nil => rfl
      | cons m more =>
        have hm := h.resolve_left (by simp) m rfl
        simp [afterAnswer, hm]

theorem Reports.discipline {messages : List Occurrence} {x : ReportStatus}
    (h : Reports messages x) : ReportDiscipline messages := by
  refine ⟨?_, ?_⟩
  · induction h with
    | nil => simp
    | @snoc past x more y h hr ih =>
      intro before m rest hsplit ht
      rcases append_eq_append_cons hsplit with ⟨mid, rfl, hmore⟩ | ⟨mid, hpast, -⟩
      · exact hr.standing h.standing hmore ht
      · exact ih before m mid hpast ht
  · -- After a withdrawal either nothing new was said and the destination is quiet, or
    -- the first word is as promised; each step keeps this.
    suffices hword : ∀ past w rest, messages = past ++ w :: rest → w.withdraws = true →
        afterAnswer w (rest.filterMap Occurrence.sentMessage) = [] ∧ x = .quiet ∨
          ∃ m said, afterAnswer w (rest.filterMap Occurrence.sentMessage) = m :: said ∧
            m.messageType ∈ [destinationAnnounceResponse, destinationUp] by
      intro past w rest m hsplit hw hm
      rcases hword past w rest hsplit hw with ⟨hnil, -⟩ | ⟨m', said, hsaid, hm'⟩
      · rw [hnil] at hm
        cases hm
      · rw [hsaid] at hm
        cases hm
        exact hm'
    induction h with
    | nil => simp
    | @snoc past x more y h hr ih =>
      intro before w rest hsplit hw
      rcases append_eq_append_cons hsplit with ⟨mid, rfl, hmore⟩ | ⟨mid, hpast, rfl⟩
      · obtain ⟨hy, hsaid⟩ := hr.withdrawal hmore hw
        exact .inl ⟨hsaid, hy⟩
      · rw [List.filterMap_append]
        rcases ih before w mid hpast hw with ⟨hnil, rfl⟩ | ⟨m, said, hsaid, hm⟩
        · rcases hr.quiet_sends with ⟨hmore, hy⟩ | ⟨m, hmore, hm⟩
          · exact .inl ⟨by rw [hmore, List.append_nil, hnil], hy⟩
          · refine .inr ⟨m, [], ?_, hm⟩
            rw [hmore, afterAnswer_append _ _ (.inr ?_), hnil, List.nil_append]
            rintro _ ⟨⟩ hdown
            rw [hdown] at hm
            exact absurd hm (by decide)
        · refine .inr ⟨m, said ++ more.filterMap Occurrence.sentMessage, ?_, hm⟩
          rw [afterAnswer_append _ _ (.inl ?_), hsaid, List.cons_append]
          intro hnil
          rw [hnil] at hsaid
          cases w <;> cases hsaid

/-! ## Every transition of the modem is a report -/

/-- The sent messages that are about a destination. -/
def sentAbout (mac : MacAddress) (sent : List Message) : List Message :=
  sent.filter fun m => extractDestinationMac m = some mac

theorem filter_sent (mac : MacAddress) (sent : List Message) :
    (sent.map Occurrence.sent).filter (fun x => extractDestinationMac x.message = some mac) =
      (sentAbout mac sent).map .sent := List.filter_map

theorem sentAbout_of_none (mac : MacAddress) {sent : List Message}
    (h : ∀ m ∈ sent, extractDestinationMac m = none) : sentAbout mac sent = [] := by
  refine List.filter_eq_nil_iff.mpr fun m hm => ?_
  simp [h m hm]

theorem sentAbout_other {sent : List Message} {mac mac' : MacAddress}
    (h : ∀ m ∈ sent, extractDestinationMac m = some mac) (hne : mac ≠ mac') :
    sentAbout mac' sent = [] := by
  refine List.filter_eq_nil_iff.mpr fun m hm => ?_
  simpa [h m hm] using hne

namespace Observation

variable {o : Observation} {mac : MacAddress}

theorem about_local (h : ∀ msg, o.event ≠ .recvMessage msg) :
    o.about mac = (sentAbout mac (sentMessages o.actions)).map .sent := by
  obtain ⟨before, event, actions, after⟩ := o
  cases event with
  | recvMessage msg => exact absurd rfl (h msg)
  | _ => exact filter_sent mac (sentMessages actions)

theorem about_received {before after : Phase} {msg : Message} {actions : List FsmAction} :
    about mac ⟨before, .recvMessage msg, actions, after⟩ =
      (if extractDestinationMac msg = some mac then [.received msg (after = .inSession)] else []) ++
        (sentAbout mac (sentMessages actions)).map .sent := by
  unfold about occurrences
  rw [List.filter_append, filter_sent]
  by_cases hmac : extractDestinationMac msg = some mac <;> simp [Occurrence.message, hmac]

end Observation

namespace ModemSessionFsm

variable {mac : MacAddress}

/-- What the modem holds a destination for. -/
def reportStatus (s : ModemSessionFsm) (mac : MacAddress) : ReportStatus :=
  if s.state ≠ .inSession then .quiet
  else
    match s.tx.pending mac with
    | some .destinationUp => .asking
    | none => if s.isAnnounced mac then .granted else .quiet
    | some _ => .quiet

variable {s s' : ModemSessionFsm} {event : FsmEvent} {actions : List FsmAction}

theorem reportStatus_of_ne (h : s.state ≠ .inSession) (mac : MacAddress) :
    s.reportStatus mac = .quiet := if_pos h

theorem reportStatus_congr (hstate : s'.state = s.state)
    (hpending : s'.tx.pending mac = s.tx.pending mac)
    (hannounced : s'.isAnnounced mac = s.isAnnounced mac) :
    s'.reportStatus mac = s.reportStatus mac := by
  unfold reportStatus
  rw [hstate, hpending, hannounced]

theorem reportStatus_asking (hs : s.state = .inSession) (h : s.tx.pending mac = some .destinationUp)
    :
    s.reportStatus mac = .asking := by
  simp [reportStatus, hs, h]

theorem reportStatus_down (hs : s.state = .inSession) (h : s.tx.pending mac = some .destinationDown)
    :
    s.reportStatus mac = .quiet := by
  simp [reportStatus, hs, h]

theorem reportStatus_granted (hs : s.state = .inSession) (h : s.tx.pending mac = none)
    (ha : s.isAnnounced mac = true) : s.reportStatus mac = .granted := by
  simp [reportStatus, hs, h, ha]

theorem reportStatus_quiet (h : s.tx.pending mac = none) (ha : s.isAnnounced mac = false) :
    s.reportStatus mac = .quiet := by
  simp [reportStatus, h, ha]

/-- Rewriting an entry without touching its announced flag. -/
theorem isAnnounced_insert {mac0 : MacAddress} {d d' : ModemDestination}
    (hd : s.destinations.lookup mac0 = some d) (h : d'.announced = d.announced) (mac : MacAddress) :
    ((s.destinations.insert mac0 d').lookup mac).any ModemDestination.announced =
      s.isAnnounced mac := by
  by_cases hm : mac = mac0
  · subst hm
    simp [isAnnounced, hd, h]
  · simp [isAnnounced, hm]

theorem reportStatus_initialized (hf : s.Fresh) (hs : s.state = .awaitingSessionInit)
    (msg : Message) (mac : MacAddress) : (s.initialized msg).reportStatus mac = .quiet := by
  refine reportStatus_quiet ?_ ?_ <;> rw [initialized, hf (.inr hs)] <;> rfl

/-- A step that leaves the session, or stays outside it, says nothing about any
destination and holds none. -/
theorem report_outside {x : ReportStatus} (hs' : s'.state ≠ .inSession)
    (hsent : ∀ m ∈ sentMessages actions, extractDestinationMac m = none) :
    Report x (Observation.about mac ⟨s.state.phase, event, actions, s'.state.phase⟩)
      (s'.reportStatus mac) := by
  rw [reportStatus_of_ne hs']
  have hphase : s'.state.phase ≠ .inSession := fun h => hs' (phase_eq_inSession h)
  cases event with
  | recvMessage msg =>
    rw [Observation.about_received, sentAbout_of_none mac hsent, decide_eq_false hphase]
    split
    · exact .turnedDown
    · exact .lost
  | _ =>
    rw [Observation.about_local (by simp), sentAbout_of_none mac hsent]
    exact .lost

/-- An in-session step about another destination, or about none. -/
theorem report_elsewhere (hmsg : ∀ msg, event ≠ .recvMessage msg)
    (hsent : sentAbout mac (sentMessages actions) = [])
    (hstatus : s'.reportStatus mac = s.reportStatus mac) :
    Report (s.reportStatus mac)
      (Observation.about mac ⟨s.state.phase, event, actions, s'.state.phase⟩)
      (s'.reportStatus mac) := by
  rw [Observation.about_local hmsg, hsent, hstatus]
  exact .nothing

/-- An accepted message that neither answers an Up nor withdraws. -/
theorem report_heard {msg : Message} (hs' : s'.state = .inSession)
    (ht : msg.messageType ≠ destinationDown ∧ msg.messageType ≠ destinationUpResponse ∨
      extractDestinationMac msg ≠ some mac) (hsent : sentAbout mac (sentMessages actions) = [])
    (hstatus : s'.reportStatus mac = s.reportStatus mac) :
    Report (s.reportStatus mac)
      (Observation.about mac ⟨s.state.phase, .recvMessage msg, actions, s'.state.phase⟩)
      (s'.reportStatus mac) := by
  rw [Observation.about_received, hsent, hstatus, hs']
  split
  · rename_i hmac
    exact .heard (ht.resolve_right fun hne => hne hmac)
  · exact .nothing

/-- The message an event delivers. -/
def deliveries : FsmEvent → List Occurrence
  | .recvMessage msg => [.received msg true]
  | _ => []

@[simp] theorem deliveries_recvMessage (msg : Message) :
    deliveries (.recvMessage msg) = [.received msg true] := rfl

/-- An in-session step about `mac0` reports on it, and leaves every other destination
alone. -/
theorem report_at (mac : MacAddress) {mac0 : MacAddress} {x y : ReportStatus}
    (hs : s.state = .inSession) (hs' : s'.state = .inSession)
    (hpending : ∀ m, m ≠ mac0 → s'.tx.pending m = s.tx.pending m)
    (hannounced : ∀ m, m ≠ mac0 → s'.isAnnounced m = s.isAnnounced m)
    (hmsg : ∀ msg, event = .recvMessage msg → extractDestinationMac msg = some mac0)
    (hsent : ∀ m ∈ sentMessages actions, extractDestinationMac m = some mac0)
    (hx : s.reportStatus mac0 = x) (hy : s'.reportStatus mac0 = y)
    (hreport : Report x (deliveries event ++ (sentMessages actions).map .sent) y) :
    Report (s.reportStatus mac)
      (Observation.about mac ⟨s.state.phase, event, actions, s'.state.phase⟩)
      (s'.reportStatus mac) := by
  by_cases hne : mac = mac0
  · subst hne
    have hall : sentAbout mac (sentMessages actions) = sentMessages actions :=
      List.filter_eq_self.mpr fun m hm => by simp [hsent m hm]
    rw [hx, hy]
    cases event with
    | recvMessage msg =>
      rw [Observation.about_received, if_pos (hmsg msg rfl), hall, hs']
      exact hreport
    | _ =>
      rw [Observation.about_local (by simp), hall]
      exact hreport
  · have hstatus : s'.reportStatus mac = s.reportStatus mac :=
      reportStatus_congr (hs'.trans hs.symm) (hpending mac hne) (hannounced mac hne)
    have hnone := sentAbout_other hsent (Ne.symm hne)
    by_cases hrecv : ∃ msg, event = .recvMessage msg
    · obtain ⟨msg, rfl⟩ := hrecv
      refine report_heard hs' (.inr ?_) hnone hstatus
      rw [hmsg msg rfl]
      simpa using Ne.symm hne
    · exact report_elsewhere (fun msg h => hrecv ⟨msg, h⟩) hnone hstatus

/-- What an acknowledged Up left to report is about its destination. -/
theorem sentMessages_acknowledged {d : ModemDestination} :
    ∀ m ∈ sentMessages (((deferredUpdate mac d).map FsmAction.sendMessage).toList ++ s.heartbeatReset),
      extractDestinationMac m = some mac ∧ m.messageType = destinationUpdate := by
  rw [sentMessages_append, sentMessages_reset, List.append_nil]
  cases h : deferredUpdate mac d with
  | none => simp
  | some m =>
    exact List.forall_mem_singleton.mpr
      ⟨extractDestinationMac_deferredUpdate h, messageType_deferredUpdate h⟩

theorem Transition.report (h : s.Transition event s' actions) (hf : s.Fresh)
    (mac : MacAddress) :
    Report (s.reportStatus mac)
      (Observation.about mac ⟨s.state.phase, event, actions, s'.state.phase⟩)
      (s'.reportStatus mac) := by
  cases h with
  | rejected hcmd => exact report_elsewhere (by rintro msg rfl; cases hcmd) rfl rfl
  | ignored h =>
    by_cases hs : s.state = .inSession
    · refine report_elsewhere (fun msg hm => ?_) rfl rfl
      subst hm
      cases h.received (phase_view hs)
    · exact report_outside hs (by simp)
  | alive hs hevent =>
    rcases hevent with rfl | ⟨msg, rfl, -, ht⟩
    · exact report_elsewhere (by simp) (by simp [sentAbout]) rfl
    · refine report_heard hs (.inl ?_) (by simp [sentAbout]) rfl
      rw [ht]
      decide
  | beat hs => exact report_elsewhere (by simp) rfl rfl
  | accepted => exact report_outside (by simp) (by simp)
  | ends h =>
    refine report_outside ?_ fun m hm => ?_
    · rcases h.gone with rfl | rfl <;> nofun
    · rcases h.sent m hm with rfl | ⟨_, _, -, rfl⟩ <;> rfl
  | @initialized msg hs hok ht =>
    have hquiet := reportStatus_initialized hf hs msg mac
    refine report_heard rfl (.inl ?_) ?_ (hquiet.trans (reportStatus_of_ne (by simp [hs]) mac).symm)
    · rw [ht]
      decide
    · rw [sentMessages_sessionUpActions]
      exact sentAbout_of_none mac (List.forall_mem_singleton.mpr
        (extractDestinationMac_buildSessionInitializationResponse _))
  | added hs hp =>
    cases hp with
    | add hformat hidle hnew =>
      refine report_at mac hs hs ?_ ?_ (by simp) (List.forall_mem_singleton.mpr rfl)
        (reportStatus_quiet hidle ?_) (reportStatus_asking hs ?_) (.asked rfl)
      · intro m hm
        simp [hm]
      · intro m hm
        simp [isAnnounced, hm]
      · simp [isAnnounced, hnew]
      · simp
  | acknowledged hs ha ht hmac hstatus hd hnew hup =>
    refine report_at mac hs hs ?_ ?_ (by simpa using hmac)
      (fun m hm => (sentMessages_acknowledged m hm).1) (reportStatus_asking hs hup)
      (reportStatus_granted hs ?_ ?_)
      (.accepted ht hstatus fun m hm => (sentMessages_acknowledged m hm).2)
    · intro m hm
      simp [hm]
    · intro m hm
      simp [isAnnounced, hm]
    · simp
    · simp [isAnnounced]
  | refused hs ha ht hmac hstatus hfail hd hnew hup =>
    refine report_at mac hs hs ?_ ?_ (by simpa using hmac) (by simp) (reportStatus_asking hs hup)
      (reportStatus_quiet ?_ ?_) ?_
    · intro m hm
      simp [hm]
    · intro m hm
      simp [isAnnounced, hm]
    · simp
    · simp [isAnnounced, hnew]
    · simpa using Report.refused ht
  | metricsDeferred hs hp hd hnew =>
    refine report_elsewhere (by simp) rfl (reportStatus_congr rfl rfl ?_)
    exact isAnnounced_insert hd (by rfl) mac
  | metricsSent hs hp hd hannounced hidle =>
    refine report_at mac hs hs (fun _ _ => rfl) ?_ (by simp) (List.forall_mem_singleton.mpr rfl)
      (reportStatus_granted hs hidle ?_) (reportStatus_granted hs hidle ?_) (.reported (.inl rfl))
    · intro m hm
      simp [isAnnounced, hm]
    · simp [isAnnounced, hd, hannounced]
    · simp [isAnnounced, hannounced]
  | addressesKept hs hp hd hkept =>
    refine report_elsewhere (by simp) rfl (reportStatus_congr rfl rfl ?_)
    exact isAnnounced_insert hd (by rfl) mac
  | addressesSent hs hp hd hannounced hidle =>
    refine report_at mac hs hs (fun _ _ => rfl) ?_ (by simp) (List.forall_mem_singleton.mpr rfl)
      (reportStatus_granted hs hidle ?_) (reportStatus_granted hs hidle ?_) (.reported (.inl rfl))
    · intro m hm
      simp [isAnnounced, hm]
    · simp [isAnnounced, hd, hannounced]
    · simp [isAnnounced, hannounced]
  | @forgotten mac0 reason d hs hp hd hnew hidle hlink =>
    refine report_elsewhere (by simp) rfl (reportStatus_congr rfl rfl ?_)
    by_cases hm : mac = mac0
    · subst hm
      simp [isAnnounced, hd, hnew]
    · simp [isAnnounced, hm]
  | dropSent hs hp hd hannounced hidle hlink =>
    refine report_at mac hs hs ?_ (fun _ _ => rfl) (by simp) (List.forall_mem_singleton.mpr rfl)
      (reportStatus_granted hs hidle ?_) (reportStatus_down hs ?_) (.dropped rfl)
    · intro m hm
      simp [hm]
    · simp [isAnnounced, hd, hannounced]
    · simp
  | withdrawn hs ha ht hmac hd hannounced hidle hlink =>
    refine report_at mac hs hs (fun _ _ => rfl) ?_ (by simpa using hmac) ?_
      (reportStatus_granted hs hidle ?_) (reportStatus_quiet hidle ?_) ?_
    · intro m hm
      simp [isAnnounced, hm]
    · simp only [sentMessages_append, sentMessages_reset]
      exact List.forall_mem_singleton.mpr rfl
    · simp [isAnnounced, hd, hannounced]
    · simp [isAnnounced]
    · simp only [sentMessages_append, sentMessages_reset]
      exact .withdrawn ht rfl
  | @dropAnswered msg mac0 hs ha ht hmac hdown =>
    refine report_at mac hs hs ?_ ?_ (by simpa using hmac) (by simp) (reportStatus_down hs hdown)
      (reportStatus_quiet ?_ ?_) ?_
    · intro m hm
      simp [hm]
    · intro m hm
      simp [isAnnounced, hm]
    · simp
    · simp [isAnnounced]
    · have hheard : msg.messageType ≠ destinationDown ∧ msg.messageType ≠ destinationUpResponse := by
        rw [ht]
        decide
      simpa using Report.heard hheard
  | announceDenied hs ha ht hmac hd =>
    have hidle := ha.transacts.idle _ hmac (by simp [ht, destinationRequests])
    have hquiet := reportStatus_quiet hidle (by simp [isAnnounced, hd])
    refine report_at mac hs hs (fun _ _ => rfl) (fun _ _ => rfl) (by simpa using hmac) ?_
      hquiet hquiet ?_
    · simp only [sentMessages_append, sentMessages_reset]
      exact List.forall_mem_singleton.mpr rfl
    · simp only [sentMessages_append, sentMessages_reset]
      exact .announceDenied ht rfl
  | announceGranted hs ha ht hmac hd hnew hidle =>
    refine report_at mac hs hs (fun _ _ => rfl) ?_ (by simpa using hmac) ?_
      (reportStatus_quiet hidle ?_) (reportStatus_granted hs hidle ?_) ?_
    · intro m hm
      simp [isAnnounced, hm]
    · simp only [sentMessages_append, sentMessages_reset]
      exact List.forall_mem_singleton.mpr rfl
    · simp [isAnnounced, hd, hnew]
    · simp [isAnnounced]
    · simp only [sentMessages_append, sentMessages_reset]
      exact .announceGranted ht rfl (extractStatus_announceSuccess _ _)
  | @linkDeferred msg mac0 d hs ha ht hmac hd hannounced hidle =>
    refine report_heard hs (.inl ?_) (by simp [sentAbout]) rfl
    rw [ht]
    decide
  | linkDenied hs ha ht hmac hd hannounced hidle =>
    have hgranted := reportStatus_granted hs hidle (by simp [isAnnounced, hd, hannounced])
    refine report_at mac hs hs (fun _ _ => rfl) (fun _ _ => rfl) (by simpa using hmac) ?_
      hgranted hgranted ?_
    · simp only [sentMessages_append, sentMessages_reset]
      exact List.forall_mem_singleton.mpr rfl
    · simp only [sentMessages_append, sentMessages_reset]
      exact .linkDenied ht rfl
  | linkAnswered hs hp hd hannounced hidle hlink =>
    refine report_at mac hs hs (fun _ _ => rfl) ?_ (by simp) (List.forall_mem_singleton.mpr rfl)
      (reportStatus_granted hs hidle ?_) (reportStatus_granted hs hidle ?_) (.reported (.inr rfl))
    · intro m hm
      simp [isAnnounced, hm]
    · simp [isAnnounced, hd, hannounced]
    · simp [isAnnounced, hannounced]
  | sessionUpdated hs ha ht =>
    refine report_heard hs (.inl ?_) ?_ rfl
    · rw [ht]
      decide
    · simp only [sentMessages_append, sentMessages_reset]
      split <;> rfl
  | sessionAnswered hs ha ht =>
    refine report_heard hs (.inl ?_) (by simp [sentAbout]) rfl
    rw [ht]
    decide
  | sessionMetricsSent hs hp =>
    refine report_elsewhere (by simp) ?_ (reportStatus_congr rfl rfl ?_)
    · exact sentAbout_of_none mac (List.forall_mem_singleton.mpr
        (extractDestinationMac_pushMetricItems _ _))
    · simp only [isAnnounced, FinMap.lookup_mapValues]
      cases s.destinations.lookup mac <;> rfl
  | sessionAddressesKept hs => exact report_elsewhere (by simp) rfl rfl
  | sessionAddressesSent hs hp =>
    refine report_elsewhere (by simp) ?_ rfl
    exact sentAbout_of_none mac (List.forall_mem_singleton.mpr (extractDestinationMac_appendTo _ _))

/-! ## Whole runs -/

theorem run_reports {config : SessionConfig} {events : List FsmEvent} {t : ModemSessionFsm}
    {trace : List Entry} (h : run config events = .ok (t, trace)) (mac : MacAddress) :
    Reports (occurrencesAbout mac (trace.map observe)) (t.reportStatus mac) := by
  suffices hJ : t.Fresh ∧ Reports (occurrencesAbout mac (trace.map observe)) (t.reportStatus mac) from
    hJ.2
  refine lawful.run_history ?_ (consistent_withConfig config)
    ⟨fresh_withConfig config, .nil⟩ h
  rintro s trace event s' actions hc ⟨hf, hreports⟩ ht
  refine ⟨ht.fresh hf, ?_⟩
  rw [List.map_append, occurrencesAbout, List.flatMap_append, List.map_singleton,
    List.flatMap_singleton]
  exact hreports.snoc (ht.report hf mac)

end ModemSessionFsm

/-- Against any router and any application, for every destination, the modem reports
only while the router accepts it, and speaks of it after a withdrawal only to start
anew. -/
theorem modem_reportDiscipline (config : SessionConfig) (events : List FsmEvent) :
    ∃ s trace, ModemSessionFsm.run config events = .ok (s, trace) ∧
      ∀ mac, ReportDiscipline (occurrencesAbout mac (trace.map ModemSessionFsm.observe)) := by
  obtain ⟨s, trace, hrun⟩ := ModemSessionFsm.run_ok config events
  exact ⟨s, trace, hrun, fun mac => (ModemSessionFsm.run_reports hrun mac).discipline⟩

end Dlep
