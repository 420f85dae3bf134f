-- SUMMARY: Dispatch of a command to the sessions' channels: which receipts come back and what they add up to.
import Dlep.Daemon.Commands

/-!
# Command dispatch

`dispatch_command` with the sessions it sends to. A first loop queues the request
at every session and keeps the receivers, a second one waits for the receipts.
What a session does with a queued request is the command branch of its loop: a
request for another session is answered with no outcome, any other with the
outcome of the FSM. The two loops together count every session once.
-/

namespace Dlep

variable {senders : List Sender} {sender : Sender}

/-! ## What the two loops count -/

namespace Sender

def isClosed (s : Sender) : Bool :=
  match s.fate with
  | .closed => true
  | _ => false

def isLost (s : Sender) : Bool :=
  match s.fate with
  | .lost => true
  | _ => false

/-- The session accepted the command. -/
def accepts (target : Option SessionId) (s : Sender) : Option SessionId :=
  match s.receipt target with
  | some (some (id, .ok ())) => some id
  | _ => none

/-- The session refused the command. -/
def refuses (target : Option SessionId) (s : Sender) : Option (SessionId × CommandRejection) :=
  match s.receipt target with
  | some (some (id, .error reason)) => some (id, reason)
  | _ => none

end Sender

/-- Every session once: where it accepted, refused, was closed or lost. -/
def tally (target : Option SessionId) (senders : List Sender) : CommandReport where
  accepted := senders.filterMap (Sender.accepts target)
  rejected := senders.filterMap (Sender.refuses target)
  undelivered := senders.countP Sender.isClosed
  unknown := senders.countP Sender.isLost

/-- Two reports of different sessions. -/
def CommandReport.append (r r' : CommandReport) : CommandReport where
  accepted := r.accepted ++ r'.accepted
  rejected := r.rejected ++ r'.rejected
  undelivered := r.undelivered + r'.undelivered
  unknown := r.unknown + r'.unknown

/-- The part of one session in the report. -/
def Sender.share (target : Option SessionId) (s : Sender) : CommandReport where
  accepted := (s.accepts target).toList
  rejected := (s.refuses target).toList
  undelivered := if s.isClosed then 1 else 0
  unknown := if s.isLost then 1 else 0

theorem tally_cons (target : Option SessionId) (sender : Sender) (senders : List Sender) :
    tally target (sender :: senders) = (sender.share target).append (tally target senders) := by
  unfold tally CommandReport.append Sender.share
  cases haccepts : sender.accepts target <;> cases hrefuses : sender.refuses target <;>
    simp [List.countP_cons, haccepts, hrefuses, Nat.add_comm]

theorem append_assoc (r₁ r₂ r₃ : CommandReport) :
    (r₁.append r₂).append r₃ = r₁.append (r₂.append r₃) := by
  simp [CommandReport.append, Nat.add_assoc]

theorem sendRequests_eq (target : Option SessionId) (senders : List Sender)
    (report : CommandReport) (receipts : List (Option CommandReceipt)) :
    sendRequests target senders report receipts =
      ({ report with undelivered := report.undelivered + senders.countP Sender.isClosed },
        receipts ++ (senders.filter fun s => !s.isClosed).map (Sender.receipt target)) := by
  induction senders generalizing report receipts with
  | nil => simp [sendRequests]
  | cons sender senders ih =>
    cases hfate : sender.fate with
    | closed =>
      have hclosed : sender.isClosed = true := by rw [Sender.isClosed, hfate]
      simp only [sendRequests, hfate, ih, List.countP_cons_of_pos hclosed]
      simp [hclosed, Nat.add_assoc, Nat.add_comm 1]
    | lost | taken =>
      have hopen : sender.isClosed = false := by rw [Sender.isClosed, hfate]
      simp only [sendRequests, hfate, ih]
      simp [hopen]

/-- One receipt adds the share of its session. -/
theorem count_receipt (hopen : sender.isClosed = false) (target : Option SessionId)
    (report : CommandReport) :
    report.count (sender.receipt target) = report.append (sender.share target) := by
  unfold Sender.share Sender.accepts Sender.refuses Sender.isLost Sender.receipt
  rw [hopen]
  cases hfate : sender.fate with
  | closed =>
    rw [Sender.isClosed, hfate] at hopen
    cases hopen
  | lost => simp [CommandReport.count, CommandReport.append]
  | taken outcome =>
    dsimp only
    split
    · simp [CommandReport.count, CommandReport.append]
    · cases outcome with
      | ok => simp [CommandReport.count, CommandReport.append]
      | error reason => simp [CommandReport.count, CommandReport.append]

/-- The part of a report that comes from receipts. -/
def CommandReport.received (r : CommandReport) : CommandReport := { r with undelivered := 0 }

theorem received_append (r r' : CommandReport) :
    (r.append r').received = r.received.append r'.received := rfl

theorem received_share (target : Option SessionId) :
    (sender.share target).received =
      if sender.isClosed then ⟨[], [], 0, 0⟩ else sender.share target := by
  unfold Sender.share Sender.accepts Sender.refuses Sender.isLost Sender.isClosed Sender.receipt
  cases hfate : sender.fate <;> rfl

theorem awaitReceipts_eq (target : Option SessionId) (senders : List Sender)
    (report : CommandReport) :
    awaitReceipts ((senders.filter fun s => !s.isClosed).map (Sender.receipt target)) report =
      report.append (tally target senders).received := by
  unfold awaitReceipts
  induction senders generalizing report with
  | nil => simp [CommandReport.received, tally, CommandReport.append]
  | cons sender senders ih =>
    rw [tally_cons, received_append, ← append_assoc, ← ih, received_share]
    cases hclosed : sender.isClosed with
    | true => simp [hclosed, CommandReport.append]
    | false => simp [hclosed, count_receipt hclosed]

/-- The two loops count every session once. -/
theorem dispatchSenders_eq {command : SessionCommand} {target : Option SessionId}
    (hconsistent : target.isSome → command.target.isSome → target = command.target) :
    dispatchSenders senders command target =
      ((tally (target.or command.target) senders).selected (target.or command.target)).result := by
  have hsame : ¬ (target.isSome ∧ command.target.isSome ∧ target ≠ command.target) :=
    fun h => h.2.2 (hconsistent h.1 h.2.1)
  rw [dispatchSenders, if_neg hsame]
  dsimp only
  rw [sendRequests_eq, List.nil_append]
  dsimp only
  rw [awaitReceipts_eq]
  simp [CommandReport.append, CommandReport.received, tally]

/-! ## Targeted commands -/

/-- Among sessions with unique ids, the targeted one is the only one with an outcome. -/
theorem filterMap_of_unique {β : Type} {f : Sender → Option β}
    (hids : (senders.map Sender.id).Nodup) (hmem : sender ∈ senders)
    (hother : ∀ s, s.id ≠ sender.id → f s = none) : senders.filterMap f = (f sender).toList := by
  induction senders with
  | nil => cases hmem
  | cons s senders ih =>
    obtain ⟨hnew, hids⟩ := List.nodup_cons.mp hids
    rcases List.mem_cons.mp hmem with rfl | hmem
    · have hrest : senders.filterMap f = [] := by
        refine List.filterMap_eq_nil_iff.mpr fun s hs => hother s fun heq => hnew ?_
        exact heq ▸ List.mem_map_of_mem hs
      cases h : f sender <;> simp [h, hrest]
    · have hs : s.id ≠ sender.id := fun heq => hnew (heq ▸ List.mem_map_of_mem hmem)
      rw [List.filterMap_cons_none (hother s hs), ih hids hmem]

theorem receipt_of_other {t : SessionId} {s : Sender} (h : s.id ≠ t) :
    s.receipt (some t) = none ∨ s.receipt (some t) = some none := by
  unfold Sender.receipt
  cases s.fate with
  | closed | lost => exact .inl rfl
  | taken outcome =>
    refine .inr ?_
    simp [Ne.symm h]

theorem accepts_of_other {t : SessionId} {s : Sender} (h : s.id ≠ t) :
    s.accepts (some t) = none := by
  rcases receipt_of_other h with h | h <;> rw [Sender.accepts, h]

theorem refuses_of_other {t : SessionId} {s : Sender} (h : s.id ≠ t) :
    s.refuses (some t) = none := by
  rcases receipt_of_other h with h | h <;> rw [Sender.refuses, h]

/-- What a targeted command comes to when its session answered. -/
def answered (t : SessionId) : Except CommandRejection Unit → Except DaemonError Unit
  | .ok () => .ok ()
  | .error reason => .error (.commandRejected ⟨[], [(t, reason)], 0, 0⟩)

theorem targeted_result {outcome : Except CommandRejection Unit}
    (hids : (senders.map Sender.id).Nodup) (hmem : sender ∈ senders)
    (hfate : sender.fate = .taken outcome) :
    ((tally (some sender.id) senders).selected (some sender.id)).result =
      answered sender.id outcome := by
  have haccepts := filterMap_of_unique hids hmem fun _ => accepts_of_other
  have hrefuses := filterMap_of_unique hids hmem fun _ => refuses_of_other
  unfold tally CommandReport.selected
  rw [haccepts, hrefuses]
  cases outcome with
  | ok => simp [Sender.accepts, Sender.refuses, Sender.receipt, hfate, CommandReport.result, answered]
  | error reason =>
    simp [Sender.accepts, Sender.refuses, Sender.receipt, hfate, CommandReport.result, answered]

/-! ## Commands for every session -/

theorem share_none (sender : Sender) :
    (sender.share none).accepted.length + (sender.share none).rejected.length +
      (sender.share none).undelivered + (sender.share none).unknown = 1 := by
  unfold Sender.share Sender.accepts Sender.refuses Sender.isLost Sender.isClosed Sender.receipt
  cases hfate : sender.fate with
  | closed | lost => rfl
  | taken outcome => cases outcome <;> rfl

/-- Every session is in exactly one part of the report. -/
theorem tally_partition (senders : List Sender) :
    (tally none senders).accepted.length + (tally none senders).rejected.length +
      (tally none senders).undelivered + (tally none senders).unknown = senders.length := by
  induction senders with
  | nil => rfl
  | cons sender senders ih =>
    have hshare := share_none sender
    rw [tally_cons]
    simp only [CommandReport.append, List.length_append, List.length_cons]
    omega

/-- The session accepted a command that is for every session. -/
def Sender.Accepted (s : Sender) : Prop := s.fate = .taken (.ok ())

theorem accepted_iff_share : sender.Accepted ↔ (sender.share none).accepted.length = 1 := by
  unfold Sender.share Sender.accepts Sender.Accepted Sender.receipt
  cases hfate : sender.fate with
  | closed | lost => simp
  | taken outcome => cases outcome <;> simp

theorem all_accepted_iff (senders : List Sender) :
    (∀ s ∈ senders, s.Accepted) ↔ (tally none senders).accepted.length = senders.length := by
  induction senders with
  | nil => exact iff_of_true nofun rfl
  | cons sender senders ih =>
    have hshare := share_none sender
    have hrest := tally_partition senders
    rw [List.forall_mem_cons, ih, accepted_iff_share, tally_cons]
    simp only [CommandReport.append, List.length_append, List.length_cons]
    omega

/-- The result of a command that is for every session. -/
theorem untargeted_result (senders : List Sender) :
    let result := ((tally none senders).selected none).result
    (result = .ok () ↔ senders ≠ [] ∧ ∀ s ∈ senders, s.Accepted) ∧
    (result = .error .noMatchingSession ↔ senders = []) ∧
    (senders ≠ [] → (¬ ∀ s ∈ senders, s.Accepted) →
      result = .error (.commandRejected (tally none senders))) := by
  have hpartition := tally_partition senders
  have hselected : (tally none senders).selected none = tally none senders := if_neg nofun
  rw [hselected, all_accepted_iff, ← List.length_pos_iff, ← List.length_eq_zero_iff]
  unfold CommandReport.result
  split
  · rename_i hfailed
    have hfailed : 0 < (tally none senders).rejected.length ∨
        0 < (tally none senders).undelivered ∨ 0 < (tally none senders).unknown := by
      rwa [List.length_pos_iff, Nat.pos_iff_ne_zero, Nat.pos_iff_ne_zero]
    refine ⟨iff_of_false nofun ?_, iff_of_false nofun ?_, fun _ _ => rfl⟩
    · omega
    · omega
  · rename_i hclean
    have hrejected : (tally none senders).rejected.length = 0 :=
      List.length_eq_zero_iff.mpr (not_not.mp fun h => hclean (.inl h))
    have hundelivered : (tally none senders).undelivered = 0 :=
      not_not.mp fun h => hclean (.inr (.inl h))
    have hunknown : (tally none senders).unknown = 0 :=
      not_not.mp fun h => hclean (.inr (.inr h))
    split
    · rename_i hempty
      have hempty := List.length_eq_zero_iff.mpr hempty
      refine ⟨iff_of_false nofun ?_, iff_of_true rfl ?_, ?_⟩
      · omega
      · omega
      · omega
    · rename_i hsome
      have hsome := List.length_pos_iff.mpr hsome
      refine ⟨iff_of_true rfl ?_, iff_of_false nofun ?_, ?_⟩
      · omega
      · omega
      · omega

/-- A targeted command comes to what its session answered, whatever the other sessions do. A
command for every session succeeds when all accept it, and reports each session once otherwise. -/
theorem dispatch_outcome_exact {command : SessionCommand} {target : Option SessionId}
    (hids : (senders.map Sender.id).Nodup)
    (hconsistent : target.isSome → command.target.isSome → target = command.target) :
    (∀ sender ∈ senders, target.or command.target = some sender.id →
      (sender.fate = .taken (.ok ()) → dispatchSenders senders command target = .ok ()) ∧
      (∀ reason, sender.fate = .taken (.error reason) →
        dispatchSenders senders command target =
          .error (.commandRejected ⟨[], [(sender.id, reason)], 0, 0⟩))) ∧
    (target.or command.target = none →
      (dispatchSenders senders command target = .ok () ↔
        senders ≠ [] ∧ ∀ s ∈ senders, s.Accepted) ∧
      (dispatchSenders senders command target = .error .noMatchingSession ↔ senders = []) ∧
      (senders ≠ [] → (¬ ∀ s ∈ senders, s.Accepted) →
        ∃ report, dispatchSenders senders command target = .error (.commandRejected report) ∧
          report = tally none senders ∧
          report.accepted.length + report.rejected.length + report.undelivered + report.unknown =
            senders.length)) := by
  rw [dispatchSenders_eq hconsistent]
  constructor
  · intro sender hmem htarget
    rw [htarget]
    refine ⟨fun hfate => ?_, fun reason hfate => ?_⟩
    · exact targeted_result hids hmem hfate
    · exact targeted_result hids hmem hfate
  · intro htarget
    rw [htarget]
    obtain ⟨hok, hnone, hreport⟩ := untargeted_result senders
    refine ⟨hok, hnone, fun hsenders hrefused => ?_⟩
    exact ⟨_, hreport hsenders hrefused, rfl, tally_partition senders⟩

/-- One of three sessions is asked; of the others one is closed and one is lost. -/
theorem dispatch_outcome_exact_targeted :
    dispatchSenders [⟨⟨1⟩, .closed⟩, ⟨⟨2⟩, .taken (.ok ())⟩, ⟨⟨3⟩, .lost⟩]
      (.sessionUpdate .default) (some ⟨2⟩) = .ok () :=
  ((dispatch_outcome_exact (by decide) (fun _ h => by cases h)).1 ⟨⟨2⟩, .taken (.ok ())⟩
    (List.mem_cons_of_mem _ List.mem_cons_self) rfl).1 rfl

end Dlep
