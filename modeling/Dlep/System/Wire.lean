-- SUMMARY: What every step of either side puts on the wire: data while in session, farewells when it leaves.
import Dlep.Fsm.Transactions
import Dlep.System.Model

/-!
# Steps on the wire

Seen from the peer, a step of either side is one of a few shapes: it waits for the
handshake, enters the session, works with data, or leaves with a farewell. The
inversions at the end are all that the two-party arguments need to know about
phases.
-/

namespace Dlep

variable {as : List FsmAction}

/-! ## What a move puts on the wire -/

/-- A frame that only a side that leaves sends. -/
def Frame.isFarewell : Frame → Bool
  | .message m => m.messageType = .sessionTermination
  | .close => true

/-- The side has left, or failed to reach, the session. -/
def Phase.isGone : Phase → Bool
  | .terminating | .terminated => true
  | _ => false

/-- What a step puts on the wire, by the phases before and after it. -/
inductive WireShape (event : FsmEvent) (actions : List FsmAction) : Phase → Phase → Prop where
  | idles {after} : WireShape event actions .idle after
  | waits (hsent : frames actions = []) : WireShape event actions .opening .opening
  | enters : WireShape event actions .opening .inSession
  | works (hsent : frames actions = (sentMessages actions).map .message)
      (hdata : ∀ m ∈ sentMessages actions, m.isData = true) :
      WireShape event actions .inSession .inSession
  | leaves {before after} (hafter : after.isGone = true)
      (hsent : (∀ f ∈ frames actions, f.isFarewell = true) ∨ before = .inSession ∧
        ∃ msg, event = .recvMessage msg ∧ msg.messageType = .sessionTermination) :
      WireShape event actions before after

@[simp] theorem frames_heartbeatReset (timerId : TimerId) (peerInterval : Option Duration) :
    frames (heartbeatResetAction timerId peerInterval).toList = [] := by
  refine List.filterMap_eq_nil_iff.mpr fun a ha => ?_
  obtain ⟨d, rfl⟩ := eq_resetHeartbeat_of_mem ha
  rfl

@[simp] theorem RouterSessionFsm.frames_reset (s : RouterSessionFsm) :
    frames s.heartbeatReset = [] := frames_heartbeatReset _ _

@[simp] theorem ModemSessionFsm.frames_reset (s : ModemSessionFsm) :
    frames s.heartbeatReset = [] := frames_heartbeatReset _ _

/-- Actions that leave the transport open put their messages on the wire. -/
theorem frames_of_open (h : .closeTcp ∉ as) : frames as = (sentMessages as).map .message := by
  rw [frames, sentMessages, List.map_filterMap]
  refine List.filterMap_congr fun a ha => ?_
  cases a with
  | closeTcp => exact absurd ha h
  | _ => rfl

/-- Timer cancellations and a close put nothing but the close on the wire. -/
theorem closes_of_control (h : ∀ a ∈ as, a = .closeTcp ∨ ∃ id, a = .cancelTimer id) :
    ∀ f ∈ frames as, f = .close := by
  intro f hf
  obtain ⟨a, ha, hfa⟩ := List.mem_filterMap.mp hf
  rcases h a ha with rfl | ⟨id, rfl⟩
  · cases hfa
    rfl
  · cases hfa

theorem farewell_of_control (h : ∀ a ∈ as, a = .closeTcp ∨ ∃ id, a = .cancelTimer id) :
    ∀ f ∈ frames as, f.isFarewell = true := by
  intro f hf
  rw [closes_of_control h f hf]
  rfl

/-- A step that stays in its phase and sends nothing. -/
theorem WireShape.quiet {event : FsmEvent} {actions : List FsmAction} (hframes : frames actions = [])
    (hsent : sentMessages actions = []) (p : Phase) : WireShape event actions p p := by
  cases p with
  | idle => exact .idles
  | opening => exact .waits hframes
  | inSession => exact .works (by rw [hframes, hsent, List.map_nil]) (by simp [hsent])
  | terminating => exact .leaves rfl (.inl (by simp [hframes]))
  | terminated => exact .leaves rfl (.inl (by simp [hframes]))

namespace WireShape

variable {event : FsmEvent} {actions : List FsmAction} {p : Phase}

theorem of_opening (h : WireShape event actions .opening p) :
    p = .opening ∧ frames actions = [] ∨ p = .inSession ∨
      p.isGone = true ∧ ∀ f ∈ frames actions, f.isFarewell = true := by
  cases h with
  | waits hsent => exact .inl ⟨rfl, hsent⟩
  | enters => exact .inr (.inl rfl)
  | leaves hafter hsent => exact .inr (.inr ⟨hafter, hsent.resolve_right fun h => nomatch h.1⟩)

theorem of_inSession {before : Phase} (h : WireShape event actions before p)
    (hb : before = .inSession) :
    (p = .inSession ∧ frames actions = (sentMessages actions).map .message ∧
        ∀ m ∈ sentMessages actions, m.isData = true) ∨
      p.isGone = true ∧ ((∀ f ∈ frames actions, f.isFarewell = true) ∨
        ∃ msg, event = .recvMessage msg ∧ msg.messageType = .sessionTermination) := by
  subst hb
  cases h with
  | works hsent hdata => exact .inl ⟨rfl, hsent, hdata⟩
  | leaves hafter hsent => exact .inr ⟨hafter, hsent.imp_right And.right⟩

theorem of_gone {before : Phase} (h : WireShape event actions before p) (hb : before.isGone = true) :
    p.isGone = true ∧ ∀ f ∈ frames actions, f.isFarewell = true := by
  cases h with
  | leaves hafter hsent =>
    refine ⟨hafter, hsent.resolve_right fun h => ?_⟩
    rw [h.1] at hb
    cases hb
  | idles | waits | enters | works => cases hb

end WireShape

namespace LifeStep

variable {refusal : Message → Option DataItem} {leak same moved : Prop} {v v' : LifeView}
  {event : FsmEvent} {actions : List FsmAction}

theorem wireShape (h : LifeStep refusal leak same moved v event v' actions) :
    WireShape event actions v.phase v'.phase := by
  cases h with
  | rejected | ignored => exact .quiet rfl rfl _
  | works hp _ hactions =>
    rw [hp]
    refine .works (frames_of_open fun hclose => ?_) (isData_of_works hactions)
    cases List.all_eq_true.mp hactions _ hclose
  | opens _ hp =>
    rw [hp]
    exact .idles
  | enters hp =>
    rw [hp]
    exact .enters
  | ends _ h =>
    cases h with
    | abandons acts _ _ hacts =>
      refine .leaves rfl (.inl ?_)
      simpa using farewell_of_control hacts
    | fails | missed | shutdown => exact .leaves rfl (.inl (List.forall_mem_singleton.mpr rfl))
    | peerTerminated hp hevent ht => exact .leaves rfl (.inr ⟨hp, _, hevent, ht⟩)
    | closes | transportClosed | answered | expired | dropped =>
      exact .leaves rfl (.inl (by simp [Frame.isFarewell]))

/-- No session survives a farewell. -/
theorem farewell {f : Frame} (h : LifeStep refusal leak same moved v f.event v' actions)
    (hf : f.isFarewell = true) (hp : v.phase = .inSession) : v'.phase ≠ .inSession := by
  intro hp'
  cases h with
  | rejected hcmd => cases f <;> cases hcmd
  | ignored h =>
    cases f with
    | message m => cases h.received hp
    | close => cases hp.symm.trans (h.closed rfl)
  | works _ hevent =>
    cases f with
    | message m =>
      simp only [Frame.isFarewell, decide_eq_true_eq] at hf
      rw [Frame.event, FsmEvent.ordinary, Message.isTermination, hf] at hevent
      cases hevent
    | close => cases hevent
  | enters h => cases hp.symm.trans h
  | opens => cases hp'
  | ends _ h => rcases h.gone with rfl | rfl <;> cases hp'

/-- An unfinished initialization changes nothing until it ends, and every message ends it. -/
theorem waits (h : LifeStep refusal leak same moved v event v' actions) (hp : v.phase = .opening)
    (hp' : v'.phase = .opening) : same ∧ ∀ msg, event ≠ .recvMessage msg := by
  cases h with
  | rejected hcmd hsame => exact ⟨hsame, by rintro msg rfl; cases hcmd⟩
  | ignored h hsame =>
    refine ⟨hsame, fun msg hm => ?_⟩
    rcases h.message msg hm with h | h | ⟨h, -⟩ <;> cases hp.symm.trans h
  | works h | opens _ h => cases hp.symm.trans h
  | enters => cases hp'
  | ends _ h => rcases h.gone with rfl | rfl <;> cases hp'

/-- A side that has terminated does nothing any more. -/
theorem spent (h : LifeStep refusal leak same moved v event v' actions) (hp : v.phase = .terminated) :
    same ∧ frames actions = [] := by
  cases h with
  | rejected _ hsame | ignored _ hsame => exact ⟨hsame, rfl⟩
  | works h | opens _ h | enters h => cases hp.symm.trans h
  | ends _ h => exact absurd hp h.alive

end LifeStep

namespace ModemSessionFsm

variable {s s' : ModemSessionFsm} {event : FsmEvent} {actions : List FsmAction}

/-- Only Session Initialization takes the modem into the session, and it answers it. -/
theorem Transition.enters (h : s.Transition event s' actions) (hs : s.state = .awaitingSessionInit)
    (hs' : s'.state = .inSession) : ∃ msg, event = .recvMessage msg ∧
      msg.messageType = .sessionInitialization ∧ s' = s.initialized msg ∧
      frames actions = [.message (buildSessionInitializationResponse s.config)] := by
  cases h with
  | @initialized msg _ _ ht =>
    exact ⟨msg, rfl, ht, rfl, by simp [sessionUpActions]; rfl⟩
  | rejected | ignored =>
    rw [hs] at hs'
    cases hs'
  | accepted => cases hs'
  | ends h => rcases h.gone with rfl | rfl <;> cases hs'
  | _ h => cases hs.symm.trans h

/-- A modem that gives up its initialization only closes the transport. -/
theorem Transition.abandons (h : s.Transition event s' actions)
    (hs : s.state = .awaitingSessionInit) (hs' : s'.state.phase.isGone = true) :
    s'.state = .terminated ∧ ∀ f ∈ frames actions, f = .close := by
  cases h with
  | ends h =>
    cases h with
    | abandons _ _ _ hactions => exact ⟨rfl, by simpa using closes_of_control hactions⟩
    | fails _ hfault => exact absurd hs hfault.1
    | _ hp => cases (phase_view hs).symm.trans hp
  | rejected | ignored =>
    rw [hs] at hs'
    cases hs'
  | accepted | initialized => cases hs'
  | _ h => cases hs.symm.trans h

end ModemSessionFsm

namespace RouterSessionFsm

variable {s s' : RouterSessionFsm} {event : FsmEvent} {actions : List FsmAction}

/-- Only a Session Initialization Response takes the router into the session. -/
theorem Transition.enters (h : s.Transition event s' actions) (hs : s.state = .sessionInitPending)
    (hs' : s'.state = .inSession) :
    ∃ msg, event = .recvMessage msg ∧ msg.messageType = .sessionInitializationResponse ∧
      s' = s.initialized msg ∧ frames actions = [] := by
  cases h with
  | @initialized msg _ _ ht =>
    exact ⟨msg, rfl, ht, rfl, by simp [sessionUpActions]⟩
  | rejected | ignored =>
    rw [hs] at hs'
    cases hs'
  | connected => cases hs'
  | ends h => rcases h.gone with rfl | rfl <;> cases hs'
  | _ h => cases hs.symm.trans h

end RouterSessionFsm

end Dlep
