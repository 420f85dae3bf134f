-- SUMMARY: Session timers: the timer actions of every step, what is armed in each state, and the missed-heartbeat deadline.
import Dlep.Fsm.Safety
import Dlep.Lib.Timers

/-!
# Session timers

The session task arms and disarms timers as the state machine tells it, and feeds an
expiry back as an event. Both roles use the same four timer ids in the same five
phases, so what a step may ask of the timers is said once, as `TimerStep`, for every
step of the life cycle.

A run is stamped with the time at which each event is processed. That an expiry is
of the timer armed last under its id is the business of the task's generations; here
it is a property of the run, `Timers.Genuine`.
-/

namespace Dlep

open Timers Machine

abbrev TimerTable : Type := Timers.Table TimerId TimerKind

/-! ## Timer actions -/

def FsmAction.isReset : FsmAction → Bool
  | .resetHeartbeat _ _ => true
  | _ => false

/-- What a step's actions ask of the timers. -/
def timerOps (actions : List FsmAction) : List TimerOp := actions.filterMap FsmAction.timerOp

namespace FsmEvent

def expiry : FsmEvent → Option (TimerId × TimerKind)
  | .timerExpired id kind => some (id, kind)
  | _ => none

theorem expiry_eq_some {event : FsmEvent} {id : TimerId} {kind : TimerKind} :
    event.expiry = some (id, kind) ↔ event = .timerExpired id kind := by
  cases event <;> simp [expiry]

theorem expiry_of_received {event : FsmEvent} (h : event.received = true) : event.expiry = none := by
  cases event <;> first
    | rfl
    | cases h

end FsmEvent

section

variable (as bs : List FsmAction)

theorem timerOps_timerActions : timerOps (timerActions as) = timerOps as := by
  unfold timerOps timerActions
  rw [List.filterMap_filter]
  congr 1
  funext a
  cases a <;> rfl

theorem countP_isReset_timerActions :
    (timerActions as).countP FsmAction.isReset = as.countP FsmAction.isReset := by
  unfold timerActions
  rw [List.countP_filter]
  congr 1
  funext a
  cases a <;> rfl

variable {as}

theorem timerActions_of_control (h : ∀ a ∈ as, a = .closeTcp ∨ ∃ id, a = .cancelTimer id) :
    ∀ a ∈ timerActions as, ∃ id, a = .cancelTimer id := by
  intro a ha
  obtain ⟨ha, htimer⟩ := List.mem_filter.mp ha
  rcases h a ha with rfl | hcancel
  · cases htimer
  · exact hcancel

theorem timerOps_of_cancel (h : ∀ a ∈ as, ∃ id, a = .cancelTimer id) :
    ∀ op ∈ timerOps as, ∃ id, op = .disarm id := by
  intro op hop
  obtain ⟨a, ha, hop⟩ := List.mem_filterMap.mp hop
  obtain ⟨id, rfl⟩ := h a ha
  cases hop
  exact ⟨id, rfl⟩

theorem disarm_mem_timerOps {id : TimerId} (h : .cancelTimer id ∈ as) : .disarm id ∈ timerOps as :=
  List.mem_filterMap.mpr ⟨_, h, rfl⟩

end

/-! ## The missed-heartbeat deadline -/

theorem Duration.Heartbeat.reset {d : Duration} (h : d.Heartbeat) :
    heartbeatResetAction TIMER_HEARTBEAT_MISSED (some d) =
      some (.resetHeartbeat TIMER_HEARTBEAT_MISSED ⟨d.nanos * 2, h.doubles⟩) := by
  have hmin : ¬ d.nanos < (Duration.ofMillis MIN_HEARTBEAT_INTERVAL_MS.toUInt64).nanos :=
    Nat.not_lt.mpr h.second
  simp only [heartbeatResetAction, if_neg hmin, Duration.checkedMul, dif_pos h.doubles,
    Option.map_some]

/-! ## The timers of a phase -/

/-- What is armed in a phase: the kind of each timer, and whether it repeats. -/
def Phase.timers (p : Phase) (id : TimerId) : Option (TimerKind × Bool) :=
  match p with
  | .opening => if id = TIMER_SESSION_INIT then some (.sessionInit, false) else none
  | .inSession =>
    if id = TIMER_HEARTBEAT then some (.heartbeat, true)
    else if id = TIMER_HEARTBEAT_MISSED then some (.heartbeatMissed, false)
    else none
  | .terminating => if id = TIMER_TERMINATION then some (.termination, false) else none
  | .idle | .terminated => none

/-- The timers of a phase are told apart by their kinds, and the one-shot one is its
deadline. -/
theorem Phase.timers_eq_some {p : Phase} {id : TimerId} {kind : TimerKind} {periodic : Bool}
    (h : p.timers id = some (kind, periodic)) :
    (p.deadline = some kind ↔ periodic = false) ∧
      ∀ id' periodic', p.timers id' = some (kind, periodic') → id' = id := by
  unfold Phase.timers at h ⊢
  cases p <;> simp only [Phase.deadline] at h ⊢
  case idle | terminated => cases h
  all_goals grind

/-! ## The timer actions of a step -/

/-- A step with the timer actions `actions` leaves nothing of the phase armed, except
what expired at this very event. -/
def Clears (p : Phase) (event : FsmEvent) (actions : List FsmAction) : Prop :=
  ∀ id kind periodic, p.timers id = some (kind, periodic) →
    .cancelTimer id ∈ actions ∨ p.deadline = some kind ∧ ∃ id', event = .timerExpired id' kind

/-- The timer actions of one step, by the phases before and after it and the peer's
heartbeat interval. A step for which `leak` holds may end the handshake without
cancelling its timer. -/
inductive TimerStep (leak : Prop) (p : Phase) (interval : Option Duration) (event : FsmEvent) :
    List FsmAction → Phase → Option Duration → Prop where
  | kept (hdeadline : ∀ id kind, event = .timerExpired id kind → p.deadline ≠ some kind)
      (hheard : p = .inSession → event.received = false) :
      TimerStep leak p interval event [] p interval
  | heard (hp : p = .inSession) (hevent : event.received = true) :
      TimerStep leak p interval event
        (heartbeatResetAction TIMER_HEARTBEAT_MISSED interval).toList .inSession interval
  | opened {duration} (hp : p = .idle) (hevent : event.expiry = none) :
      TimerStep leak p interval event [.startTimer TIMER_SESSION_INIT .sessionInit duration false]
        .opening interval
  | entered {msg d duration} (hp : p = .opening) (hevent : event = .recvMessage msg)
      (hd : extractHeartbeatInterval msg = some d) (hvalid : d.Heartbeat) :
      TimerStep leak p interval event
        ([.cancelTimer TIMER_SESSION_INIT, .startTimer TIMER_HEARTBEAT .heartbeat duration true] ++
          (heartbeatResetAction TIMER_HEARTBEAT_MISSED (some d)).toList) .inSession (some d)
  | failed {duration} (actions : List FsmAction)
      (hactions : ∀ a ∈ actions, ∃ id, a = .cancelTimer id) (hclears : Clears p event actions) :
      TimerStep leak p interval event
        (actions ++ [.startTimer TIMER_TERMINATION .termination duration false])
        .terminating interval
  | ended (actions : List FsmAction) (hactions : ∀ a ∈ actions, ∃ id, a = .cancelTimer id)
      (hclears : Clears p event actions) :
      TimerStep leak p interval event actions .terminated interval
  | leaked {actions} (hleak : leak) :
      TimerStep leak p interval event actions .terminated interval

section

variable {leak : Prop} {p p' : Phase} {interval interval' : Option Duration} {event : FsmEvent}
  {actions : List FsmAction} {t : TimerTable} {now : ℕ}

/-- What expires in a phase, and of which kind. -/
theorem Phase.timers_of_fires (ht : armed t = p.timers) (hfires : Fires FsmEvent.expiry t event)
    {id : TimerId} {kind : TimerKind} (hevent : event = .timerExpired id kind) :
    ∃ periodic, p.timers id = some (kind, periodic) := by
  obtain ⟨a, ha, rfl⟩ := hfires id kind (FsmEvent.expiry_eq_some.mpr hevent)
  refine ⟨a.period.isSome, ?_⟩
  rw [← ht]
  unfold armed
  rw [ha]
  rfl

/-- Only the expiry of its deadline changes what a phase has armed. -/
theorem armed_expired_of_kept (ht : armed t = p.timers) (hfires : Fires FsmEvent.expiry t event)
    (hdeadline : ∀ id kind, event = .timerExpired id kind → p.deadline ≠ some kind) :
    armed (expired FsmEvent.expiry now t event) = p.timers := by
  unfold expired
  split
  · rename_i id kind hexpiry
    have hevent := FsmEvent.expiry_eq_some.mp hexpiry
    obtain ⟨periodic, hid⟩ := Phase.timers_of_fires ht hfires hevent
    obtain rfl : periodic = true := by
      cases periodic
      · exact absurd ((Phase.timers_eq_some hid).1.mpr rfl) (hdeadline id kind hevent)
      · rfl
    rw [armed_expire, ht, spent, hid]
    exact Function.update_eq_self_iff.mpr hid.symm
  · exact ht

/-- What a step that clears its phase has to cancel, it cancels. -/
theorem Clears.cancel_mem (hclears : Clears p event actions) (ht : armed t = p.timers)
    (hfires : Fires FsmEvent.expiry t event) {id : TimerId}
    (hid : armed (expired FsmEvent.expiry now t event) id ≠ none) : .cancelTimer id ∈ actions := by
  have hkept : armed (expired FsmEvent.expiry now t event) id = p.timers id := by
    rcases armed_expired_or FsmEvent.expiry now t event id with hnone | hkept
    · exact absurd hnone hid
    · rw [hkept, ht]
  obtain ⟨⟨kind, periodic⟩, htimer⟩ := Option.ne_none_iff_exists'.mp (hkept ▸ hid)
  rcases hclears id kind periodic htimer with hmem | ⟨hdeadline, id', rfl⟩
  · exact hmem
  · -- the deadline itself expired: it is no longer armed
    obtain ⟨periodic', htimer'⟩ := Phase.timers_of_fires ht hfires rfl
    obtain rfl := (Phase.timers_eq_some htimer).2 id' periodic' htimer'
    obtain rfl := (Phase.timers_eq_some htimer).1.mp hdeadline
    refine absurd ?_ hid
    show armed (expire now t id') id' = none
    rw [armed_expire, spent, Function.update_self, ht, htimer]
    rfl

/-- A step that clears its phase leaves nothing armed. -/
theorem Clears.armed (hclears : Clears p event actions)
    (hactions : ∀ a ∈ actions, ∃ id, a = .cancelTimer id) (ht : Timers.armed t = p.timers)
    (hfires : Fires FsmEvent.expiry t event) :
    (timerOps actions).foldl Op.effect (Timers.armed (expired FsmEvent.expiry now t event)) =
      fun _ => none :=
  foldl_effect_cleared (timerOps_of_cancel hactions) fun _ hid =>
    disarm_mem_timerOps (hclears.cancel_mem ht hfires hid)

/-- Every step keeps the timers of the phases, the leak apart. -/
theorem TimerStep.armed (h : TimerStep leak p interval event actions p' interval') (hleak : ¬ leak)
    (hinterval : p = .inSession → ∃ d, interval = some d ∧ d.Heartbeat)
    (ht : Timers.armed t = p.timers) (hfires : Fires FsmEvent.expiry t event) :
    Timers.armed (applyAll now (expired FsmEvent.expiry now t event) (timerOps actions)) =
      p'.timers := by
  rw [armed_applyAll]
  cases h with
  | kept hdeadline => exact armed_expired_of_kept ht hfires hdeadline
  | heard hp hevent =>
    obtain ⟨d, rfl, hd⟩ := hinterval hp
    rw [expired_of_none (FsmEvent.expiry_of_received hevent), ht, hd.reset, hp]
    exact Function.update_eq_self TIMER_HEARTBEAT_MISSED _
  | opened hp hevent =>
    rw [expired_of_none hevent, ht, hp]
    funext id
    exact Function.update_apply (fun _ => none) TIMER_SESSION_INIT _ id
  | entered hp hevent hd hvalid =>
    subst hevent hp
    rw [expired_of_none rfl, ht, hvalid.reset]
    funext id
    simp only [timerOps, List.cons_append, List.nil_append, Option.toList, List.filterMap_cons,
      FsmAction.timerOp, List.filterMap_nil, List.foldl_cons, List.foldl_nil, Op.effect,
      Function.update_apply, Phase.timers]
    split_ifs <;> simp_all [TIMER_HEARTBEAT, TIMER_HEARTBEAT_MISSED]
  | failed actions hactions hclears =>
    rw [timerOps, List.filterMap_append, List.foldl_append]
    rw [← timerOps, hclears.armed hactions ht hfires]
    funext id
    exact Function.update_apply (fun _ => none) TIMER_TERMINATION _ id
  | ended actions hactions hclears => exact hclears.armed hactions ht hfires
  | leaked h => exact absurd h hleak

/-- The interval that a session works with was announced and passed its checks. -/
theorem TimerStep.heartbeat (h : TimerStep leak p interval event actions p' interval')
    (hinterval : p = .inSession → ∃ d, interval = some d ∧ d.Heartbeat) :
    p' = .inSession → ∃ d, interval' = some d ∧ d.Heartbeat := by
  intro hp'
  cases h with
  | kept => exact hinterval hp'
  | heard hp => exact hinterval hp
  | entered hp hevent hd hvalid => exact ⟨_, rfl, hvalid⟩
  | opened | failed | ended | leaked => cases hp'

/-- The steps that end in a session: one that touches no timer, one that hears the peer,
and the one that opens it. -/
inductive SessionStep (p : Phase) (interval : Option Duration) (event : FsmEvent) :
    List FsmAction → Option Duration → Prop where
  | kept (hp : p = .inSession) (hevent : event.received = false)
      (hdeadline : ∀ id kind, event = .timerExpired id kind → kind ≠ .heartbeatMissed) :
      SessionStep p interval event [] interval
  | heard (hp : p = .inSession) (hevent : event.received = true) :
      SessionStep p interval event (heartbeatResetAction TIMER_HEARTBEAT_MISSED interval).toList
        interval
  | entered {msg d duration} (hp : p = .opening) (hevent : event = .recvMessage msg)
      (hd : extractHeartbeatInterval msg = some d) (hvalid : d.Heartbeat) :
      SessionStep p interval event
        ([.cancelTimer TIMER_SESSION_INIT, .startTimer TIMER_HEARTBEAT .heartbeat duration true] ++
          (heartbeatResetAction TIMER_HEARTBEAT_MISSED (some d)).toList) (some d)

theorem TimerStep.inSession (h : TimerStep leak p interval event actions p' interval')
    (hp' : p' = .inSession) : SessionStep p interval event actions interval' := by
  cases h with
  | kept hdeadline hheard =>
    subst hp'
    refine .kept rfl (hheard rfl) fun id kind hevent hkind => ?_
    exact hdeadline id kind hevent (by rw [hkind]; rfl)
  | heard hp hevent => exact .heard hp hevent
  | entered hp hevent hd hvalid => exact .entered hp hevent hd hvalid
  | opened | failed | ended | leaked => cases hp'

/-- A session that has begun never returns to its beginning. -/
theorem TimerStep.notBegun (h : TimerStep leak p interval event actions p' interval')
    (hp' : p' = .idle ∨ p' = .opening) : p = .idle ∨ p = .opening := by
  cases h with
  | kept => exact hp'
  | opened hp => exact .inl hp
  | heard | entered | failed | ended | leaked => rcases hp' with hp' | hp' <;> cases hp'

theorem clears_of_nothing (h : ∀ id, p.timers id = none) (event : FsmEvent)
    (actions : List FsmAction) : Clears p event actions := by
  intro id kind periodic hid
  cases (h id).symm.trans hid

theorem clears_opening
    (h : .cancelTimer TIMER_SESSION_INIT ∈ actions ∨ ∃ id, event = .timerExpired id .sessionInit) :
    Clears .opening event actions := by
  intro id kind periodic hid
  simp only [Phase.timers] at hid
  split at hid <;> cases hid
  rename_i hid
  subst hid
  exact h.imp_right fun h => ⟨rfl, h⟩

theorem clears_inSession (hheartbeat : .cancelTimer TIMER_HEARTBEAT ∈ actions)
    (h : .cancelTimer TIMER_HEARTBEAT_MISSED ∈ actions ∨ ∃ id, event = .timerExpired id .heartbeatMissed)
    :
    Clears .inSession event actions := by
  intro id kind periodic hid
  simp only [Phase.timers] at hid
  split at hid
  · rename_i hid'
    subst hid'
    exact .inl hheartbeat
  · split at hid <;> cases hid
    rename_i hid
    subst hid
    exact h.imp_right fun h => ⟨rfl, h⟩

theorem clears_terminating
    (h : .cancelTimer TIMER_TERMINATION ∈ actions ∨ ∃ id, event = .timerExpired id .termination) :
    Clears .terminating event actions := by
  intro id kind periodic hid
  simp only [Phase.timers] at hid
  split at hid <;> cases hid
  rename_i hid
  subst hid
  exact h.imp_right fun h => ⟨rfl, h⟩

/-- What a step of the life cycle asks of the timers. -/
theorem LifeStep.timerStep {refusal : Message → Option DataItem} {same moved : Prop}
    {v v' : LifeView} (h : LifeStep refusal leak same moved v event v' actions) :
    TimerStep leak v.phase v.interval event (timerActions actions) v'.phase v'.interval := by
  cases h with
  | rejected hcmd =>
    refine .kept (fun id kind hevent => ?_) fun _ => ?_
    · subst hevent
      cases hcmd
    · cases event <;> first
        | rfl
        | cases hcmd
  | ignored h =>
    refine .kept (fun id kind hevent hdeadline => h.awaited ?_) h.received
    subst hevent
    cases hp : v.phase <;> rw [hp] at hdeadline <;> cases hdeadline <;> rfl
  | works hp hevent _ htimer =>
    rw [htimer, hp]
    split
    · rename_i hreceived
      exact .heard rfl hreceived
    · rename_i hreceived
      refine .kept ?_ fun _ => Bool.eq_false_iff.mpr hreceived
      rintro id kind rfl ⟨⟩
      cases hevent
  | opens sent hp _ _ hexpiry =>
    rw [timerActions_append, timerActions_optional, hp]
    refine .opened rfl ?_
    cases h : event.expiry with
    | none => rfl
    | some e => exact absurd (FsmEvent.expiry_eq_some.mp h) (hexpiry _ _)
  | enters hp hevent _ hd hvalid _ _ _ _ htimer =>
    rw [htimer, hp]
    exact .entered rfl hevent hd hvalid
  | ends _ h =>
    cases h with
    | closes hp =>
      rw [hp]
      exact .ended [] (by simp) (clears_of_nothing (fun _ => rfl) _ _)
    | abandons as hp _ hactions htimer =>
      rw [timerActions_append, timerActions_emit, timerActions_nil, List.append_nil, hp]
      have hcancels := timerActions_of_control hactions
      rcases htimer with hcancel | hexpired | hleak
      · exact .ended _ hcancels (clears_opening (.inl (List.mem_filter.mpr ⟨hcancel, rfl⟩)))
      · exact .ended _ hcancels (clears_opening (.inr hexpired))
      · exact .leaked hleak
    | fails hp =>
      refine .failed [.cancelTimer TIMER_SESSION_INIT, .cancelTimer TIMER_HEARTBEAT,
        .cancelTimer TIMER_HEARTBEAT_MISSED] (by simp) ?_
      rcases hp with hp | hp | hp <;> rw [hp]
      · exact clears_of_nothing (fun _ => rfl) _ _
      · exact clears_opening (.inl (by simp))
      · exact clears_inSession (by simp) (.inl (by simp))
    | missed hp hevent =>
      rw [hp]
      exact .failed [.cancelTimer TIMER_HEARTBEAT] (by simp)
        (clears_inSession (by simp) (.inr ⟨_, hevent⟩))
    | shutdown hp =>
      rw [hp]
      exact .failed [.cancelTimer TIMER_HEARTBEAT, .cancelTimer TIMER_HEARTBEAT_MISSED] (by simp)
        (clears_inSession (by simp) (.inl (by simp)))
    | peerTerminated hp | transportClosed hp =>
      rw [hp]
      exact .ended [.cancelTimer TIMER_HEARTBEAT, .cancelTimer TIMER_HEARTBEAT_MISSED] (by simp)
        (clears_inSession (by simp) (.inl (by simp)))
    | answered hp | dropped hp =>
      rw [hp]
      exact .ended [.cancelTimer TIMER_TERMINATION] (by simp) (clears_terminating (.inl (by simp)))
    | expired hp hevent =>
      rw [hp]
      exact .ended [] (by simp) (clears_terminating (.inr ⟨_, hevent⟩))

end

end Dlep
