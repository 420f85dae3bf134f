-- SUMMARY: The end of a session task: one terminal notification and balanced plug-in hooks on every way out.
import Dlep.Daemon.Turns
import Dlep.Fsm.Safety

/-!
# The end of a session

A session task ends when its state machine closes the connection, when the peer does, when
a write fails in the middle of a batch, or when it is cancelled at an await point. The
drop guard reports the session down unless a batch already did. Between the flag, the
broadcast and the hooks there is no await point, so the guard always finds the three in
step; and the state machine asks for at most one Session Up and one Session Down.
-/

namespace Dlep

variable {more : List Effect}

/-! ## What the log says -/

namespace Effect

/-- The Session Up or Session Down of `id` on the broadcast channel. -/
def isUp (id : SessionId) : Effect → Bool
  | .broadcast (.sessionUp id' _ _) => id' = id
  | _ => false

def isDown (id : SessionId) : Effect → Bool
  | .broadcast (.sessionDown id' _ _) => id' = id
  | _ => false

/-- The effect has no part in the lifecycle. -/
def plain : Effect → Bool
  | .broadcast (.sessionUp ..) | .broadcast (.sessionDown ..) | .negotiated _
  | .sessionState .. => false
  | _ => true

end Effect

/-- The `on_session_state` calls of one registration. -/
def stateCalls (registration : ℕ) (log : List Effect) : List Bool :=
  log.filterMap fun
    | .sessionState registration' up => if registration' = registration then some up else none
    | _ => none

/-- The registrations that negotiation accepted. -/
def negotiatedIn (log : List Effect) : List ℕ :=
  log.flatMap fun
    | .negotiated registrations => registrations
    | _ => []

section Log

variable {log more : List Effect} {i : ℕ} {id : SessionId}

@[simp] theorem stateCalls_append :
    stateCalls i (log ++ more) = stateCalls i log ++ stateCalls i more := List.filterMap_append

@[simp] theorem negotiatedIn_append :
    negotiatedIn (log ++ more) = negotiatedIn log ++ negotiatedIn more := List.flatMap_append

theorem stateCalls_plain (h : ∀ e ∈ more, e.plain = true) : stateCalls i more = [] := by
  refine List.filterMap_eq_nil_iff.mpr ?_
  intro e he
  have hplain := h e he
  cases e <;> first
    | rfl
    | cases hplain

theorem negotiatedIn_plain (h : ∀ e ∈ more, e.plain = true) : negotiatedIn more = [] := by
  refine List.flatMap_eq_nil_iff.mpr ?_
  intro e he
  have hplain := h e he
  cases e <;> first
    | rfl
    | cases hplain

theorem Effect.not_up_or_down {e : Effect} (h : e.plain = true) :
    e.isUp id = false ∧ e.isDown id = false := by
  cases e with
  | broadcast event => cases event <;> first | exact ⟨rfl, rfl⟩ | cases h
  | _ => exact ⟨rfl, rfl⟩

end Log

/-! ## Stages -/

/-- Where the lifecycle of a session stands. -/
inductive Stage where
  | fresh
  | up
  | down
  deriving DecidableEq

/-- The calls a negotiated plug-in has seen. -/
def Stage.calls : Stage → List Bool
  | .fresh => []
  | .up => [true]
  | .down => [true, false]

/-- What a log looks like at a stage of the session `id`. -/
structure LogAt (id : SessionId) (stage : Stage) (log : List Effect) : Prop where
  nodup : (negotiatedIn log).Nodup
  fresh : stage = .fresh → negotiatedIn log = []
  downs : log.countP (Effect.isDown id) = if stage = .down then 1 else 0
  order : log.Pairwise fun d u => d.isDown id = true → u.isUp id = false
  calls : ∀ i, stateCalls i log = if i ∈ negotiatedIn log then stage.calls else []

variable {id : SessionId} {stage : Stage} {log : List Effect}

theorem LogAt.nil (id : SessionId) : LogAt id .fresh [] where
  nodup := List.nodup_nil
  fresh _ := rfl
  downs := rfl
  order := List.Pairwise.nil
  calls _ := rfl

theorem LogAt.append (h : LogAt id stage log) (hplain : ∀ e ∈ more, e.plain = true) :
    LogAt id stage (log ++ more) where
  nodup := by simpa [negotiatedIn_plain hplain] using h.nodup
  fresh hstage := by simpa [negotiatedIn_plain hplain] using h.fresh hstage
  downs := by
    rw [List.countP_append, h.downs,
      List.countP_eq_zero.mpr fun e he => by simp [(e.not_up_or_down (hplain e he)).2]]
    rfl
  order := by
    refine List.pairwise_append.mpr ⟨h.order, ?_, ?_⟩
    · exact List.pairwise_of_forall_mem_list fun _ _ u hu _ => (u.not_up_or_down (hplain u hu)).1
    · exact fun _ _ u hu _ => (u.not_up_or_down (hplain u hu)).1
  calls i := by simpa [negotiatedIn_plain hplain, stateCalls_plain hplain] using h.calls i

/-- What a state machine may still emit, given its phase after the batch. -/
def Fits : Stage → List EmittedEvent → Phase → Prop
  | stage, [], phase => (phase = .idle ∨ phase = .opening → stage = .fresh) ∧
      (phase ≠ .terminated → stage ≠ .down)
  | stage, event :: events, phase =>
    match event with
    | .sessionUp _ => stage = .fresh ∧ Fits .up events phase
    | .sessionDown _ => stage ≠ .down ∧ Fits .down events phase
    | _ => Fits stage events phase

section Fits

variable {phase : Phase} {events : List EmittedEvent}

theorem fits_of_quiet (h : ∀ e ∈ events, e.isSessionUp = false ∧ e.isSessionDown = false) :
    Fits stage events phase ↔ Fits stage [] phase := by
  induction events with
  | nil => exact Iff.rfl
  | cons event events ih =>
    obtain ⟨hevent, hrest⟩ := List.forall_mem_cons.mp h
    rw [← ih hrest]
    cases event with
    | sessionUp extensions => cases hevent.1
    | sessionDown status => cases hevent.2
    | _ => exact Iff.rfl

/-- What fits before a batch and after it fits through both. -/
theorem Fits.append {more : List EmittedEvent} {phase' : Phase} (h : Fits stage events phase)
    (hmore : ∀ stage', Fits stage' [] phase → Fits stage' more phase') :
    Fits stage (events ++ more) phase' := by
  induction events generalizing stage with
  | nil => exact hmore stage h
  | cons event events ih =>
    cases event with
    | sessionUp extensions => exact ⟨h.1, ih h.2⟩
    | sessionDown status => exact ⟨h.1, ih h.2⟩
    | _ => exact ih h

/-- A step of either state machine emits what fits. -/
theorem StepShape.fits {o : Observation} (hstep : StepShape o) (h : Fits stage [] o.before) :
    Fits stage (emittedEvents o.actions) o.after := by
  obtain ⟨hfresh, hdown⟩ := h
  cases hstep with
  | stays hphase hemit _ =>
    rw [fits_of_quiet fun e he => ⟨(hemit e he).1, (hemit e he).2.1⟩, hphase]
    exact ⟨hfresh, hdown⟩
  | works hbefore hafter hemit =>
    rw [fits_of_quiet hemit, hafter]
    exact ⟨by simp, fun _ => hdown (by simp [hbefore])⟩
  | opens hbefore hafter hemit =>
    rw [hemit, hafter]
    exact ⟨fun _ => hfresh (.inl hbefore), fun _ => hdown (by simp [hbefore])⟩
  | closes hbefore hafter hemit =>
    rw [hemit, hafter]
    exact ⟨by simp, by simp⟩
  | enters hbefore hafter extensions rest hemit hrest =>
    rw [hemit, hafter]
    refine ⟨hfresh (.inr hbefore), ?_⟩
    rw [fits_of_quiet hrest]
    exact ⟨by simp, by simp⟩
  | fails hbefore hafter hemit m hsent hm =>
    rw [hemit, hafter]
    refine ⟨by simp, fun _ => hdown ?_⟩
    rcases hbefore with hbefore | hbefore | hbefore <;> simp [hbefore]
  | ends hbefore hafter status hemit hsent hlast =>
    rw [hemit, hafter]
    refine ⟨hdown ?_, by simp, by simp⟩
    rcases hbefore with hbefore | hbefore | hbefore <;> simp [hbefore]

end Fits

/-! ## Hooks -/

/-- The effects of telling the registrations `active` that the session is up or down. -/
structure HookEffects (up : Bool) (active : List ℕ) (more : List Effect) : Prop where
  quiet : ∀ e ∈ more, ∀ id, e.isUp id = false ∧ e.isDown id = false
  negotiated : negotiatedIn more = []
  calls : ∀ i, stateCalls i more = if i ∈ active then [up] else []

theorem HookEffects.nil (up : Bool) : HookEffects up [] [] where
  quiet := by simp
  negotiated := rfl
  calls _ := rfl

/-- One more registration is told first. -/
theorem HookEffects.cons {up : Bool} {active : List ℕ} {i : ℕ} (h : HookEffects up active more)
    (hi : i ∉ active) (out : List Effect) (hout : ∀ e ∈ out, e.plain = true) :
    HookEffects up (i :: active) (.sessionState i up :: out ++ more) where
  quiet := by
    intro e he id
    rcases List.mem_append.mp he with he | he
    · rcases List.mem_cons.mp he with rfl | he
      · exact ⟨rfl, rfl⟩
      · exact e.not_up_or_down (hout e he)
    · exact h.quiet e he id
  negotiated := by
    rw [negotiatedIn_append, h.negotiated, List.append_nil]
    change negotiatedIn ([.sessionState i up] ++ out) = []
    rw [negotiatedIn_append, negotiatedIn_plain hout]
    rfl
  calls j := by
    have hcall : stateCalls j (.sessionState i up :: out) = if i = j then [up] else [] := by
      have hrest : stateCalls j out = [] := stateCalls_plain hout
      unfold stateCalls at hrest ⊢
      rw [List.filterMap_cons]
      split <;> simp_all
    rw [stateCalls_append, hcall, h.calls j]
    by_cases hij : i = j
    · subst hij
      simp [hi]
    · simp [hij, Ne.symm hij]

/-- Before the session is down, no entry of the log says so. -/
theorem LogAt.not_down (h : LogAt id stage log) (hstage : stage ≠ .down) :
    ∀ e ∈ log, e.isDown id = false := by
  intro e he
  have hzero := List.countP_eq_zero.mp (h.downs.trans (if_neg hstage)) e he
  simpa using hzero

theorem LogAt.goUp {log' : List Effect} {active : List ℕ} {established more : List Effect}
    {peer : PeerInfo} {extensions : List ExtensionId} (h : LogAt id .fresh log)
    (hactive : active.Nodup) (hestablished : ∀ e ∈ established, e.plain = true)
    (hmore : HookEffects true active more)
    (hlog : log' = log ++ (([.negotiated active] ++ established) ++
      ([.broadcast (.sessionUp id peer extensions)] ++ more))) :
    LogAt id .up log' ∧ negotiatedIn log' = active := by
  have hneg : negotiatedIn log' = active := by
    simp only [hlog, negotiatedIn_append, h.fresh rfl, negotiatedIn_plain hestablished,
      hmore.negotiated]
    simp [negotiatedIn]
  have hquiet : ∀ e ∈ log', e.isDown id = false := by
    intro e he
    simp only [hlog, List.mem_append, List.mem_singleton] at he
    rcases he with he | (rfl | he) | rfl | he
    · exact h.not_down (by simp) e he
    · rfl
    · exact (e.not_up_or_down (hestablished e he)).2
    · rfl
    · exact (hmore.quiet e he id).2
  refine ⟨⟨by rwa [hneg], by simp, ?_, ?_, ?_⟩, hneg⟩
  · exact List.countP_eq_zero.mpr fun e he => by simp [hquiet e he]
  · refine List.pairwise_of_forall_mem_list fun d hd u _ hdown => ?_
    rw [hquiet d hd] at hdown
    cases hdown
  · intro i
    rw [hneg]
    have hcalls := h.calls i
    rw [h.fresh rfl] at hcalls
    simp only [hlog, stateCalls_append, hcalls, stateCalls_plain hestablished, hmore.calls i]
    rfl

theorem LogAt.goDown {log' : List Effect} {active : List ℕ} {peer : PeerInfo} {reason : StatusCode}
    (h : LogAt id stage log) (hstage : stage ≠ .down)
    (hactive : active = if stage = .up then negotiatedIn log else [])
    (hmore : HookEffects false active more)
    (hlog : log' = log ++ ([.broadcast (.sessionDown id peer reason)] ++ more)) :
    LogAt id .down log' := by
  subst hlog
  have hneg : negotiatedIn (log ++ ([.broadcast (.sessionDown id peer reason)] ++ more)) =
      negotiatedIn log := by
    simp only [negotiatedIn_append, hmore.negotiated]
    simp [negotiatedIn]
  have hquiet := h.not_down hstage
  refine ⟨by simpa only [hneg] using h.nodup, by simp, ?_, ?_, ?_⟩
  · have hlog : log.countP (Effect.isDown id) = 0 := h.downs.trans (if_neg hstage)
    have hrest : more.countP (Effect.isDown id) = 0 :=
      List.countP_eq_zero.mpr fun e he => by simp [(hmore.quiet e he id).2]
    simp [List.countP_append, hlog, hrest, Effect.isDown]
  · refine List.pairwise_append.mpr ⟨h.order, ?_, ?_⟩
    · refine List.pairwise_append.mpr ⟨List.pairwise_singleton _ _, ?_, ?_⟩
      · exact List.pairwise_of_forall_mem_list fun _ _ u hu _ => (hmore.quiet u hu id).1
      · exact fun _ _ u hu _ => (hmore.quiet u hu id).1
    · intro d hd u _ hdown
      rw [hquiet d hd] at hdown
      cases hdown
  · intro i
    rw [hneg]
    simp only [stateCalls_append, h.calls i, hmore.calls i, hactive]
    cases stage with
    | fresh => simp [h.fresh rfl, stateCalls]
    | up =>
      by_cases hi : i ∈ negotiatedIn log <;> simp [hi, stateCalls, Stage.calls]
    | down => exact absurd rfl hstage

/-! ## The task at a stage -/

namespace SessionTask

variable {F χ : Type} {s t : SessionTask F χ}

/-- `t` is `s` as far as the lifecycle is concerned, its log apart. -/
structure Same (s t : SessionTask F χ) : Prop where
  fsm : t.fsm = s.fsm
  sessionId : t.sessionId = s.sessionId
  registry : t.registry = s.registry
  activeExts : t.activeExts = s.activeExts
  downEmitted : t.downEmitted = s.downEmitted

theorem Same.refl (s : SessionTask F χ) : s.Same s := ⟨rfl, rfl, rfl, rfl, rfl⟩

theorem Same.trans {u : SessionTask F χ} (h : s.Same t) (h' : t.Same u) : s.Same u where
  fsm := h'.fsm.trans h.fsm
  sessionId := h'.sessionId.trans h.sessionId
  registry := h'.registry.trans h.registry
  activeExts := h'.activeExts.trans h.activeExts
  downEmitted := h'.downEmitted.trans h.downEmitted

structure At (id : SessionId) (stage : Stage) (s : SessionTask F χ) : Prop where
  log : LogAt id stage s.log
  sessionId : s.sessionId = id
  registry : (s.registry.map Prod.snd).Nodup
  active : s.activeExts.map Prod.snd = if stage = .up then negotiatedIn s.log else []
  down : s.downEmitted = decide (stage = .down)

theorem At.same {more : List Effect} (h : s.At id stage) (hsame : s.Same t)
    (hlog : t.log = s.log ++ more) (hplain : ∀ e ∈ more, e.plain = true) : t.At id stage where
  log := by
    rw [hlog]
    exact h.log.append hplain
  sessionId := hsame.sessionId.trans h.sessionId
  registry := by
    rw [hsame.registry]
    exact h.registry
  active := by
    rw [hsame.activeExts, h.active, hlog, negotiatedIn_append, negotiatedIn_plain hplain,
      List.append_nil]
  down := hsame.downEmitted.trans h.down

theorem At.absorb (h : s.At id stage) (out : HookOutput) : (s.absorb out).At id stage := by
  refine h.same ⟨rfl, rfl, rfl, rfl, rfl⟩ rfl ?_
  intro e he
  obtain ⟨payload, -, rfl⟩ := List.mem_map.mp he
  rfl

/-! ### Hooks -/

theorem foldl_sessionStateHook (up : Bool) {rs : List (Registration χ)}
    (hnodup : (rs.map Prod.snd).Nodup) (s : SessionTask F χ) :
    s.Same (rs.foldl (sessionStateHook up) s) ∧
      ∃ more, (rs.foldl (sessionStateHook up) s).log = s.log ++ more ∧
        HookEffects up (rs.map Prod.snd) more := by
  induction rs generalizing s with
  | nil => exact ⟨Same.refl s, [], (List.append_nil _).symm, HookEffects.nil up⟩
  | cons r rs ih =>
    obtain ⟨hr, hrest⟩ := List.nodup_cons.mp hnodup
    obtain ⟨hsame, more, hlog, heffects⟩ := ih hrest (sessionStateHook up s r)
    have hcalled : s.Same (sessionStateHook up s r) := ⟨rfl, rfl, rfl, rfl, rfl⟩
    refine ⟨hcalled.trans hsame, _, ?_, heffects.cons hr ((r.1.onSessionState up
      s.plugins).2.events.map fun payload => .broadcast (.extension payload)) ?_⟩
    · rw [List.foldl_cons, hlog]
      simp [sessionStateHook, SessionTask.absorb, record]
    · intro e he
      obtain ⟨payload, -, rfl⟩ := List.mem_map.mp he
      rfl

theorem At.foldl_destinationStateHook (mac : MacAddress) (snap : DestinationStateSnapshot)
    (rs : List (Registration χ)) (h : s.At id stage) :
    (rs.foldl (destinationStateHook mac snap) s).At id stage := by
  induction rs generalizing s with
  | nil => exact h
  | cons r rs ih =>
    have hcalled : { s with plugins := (r.1.onDestinationState mac snap s.plugins).1 }.At id stage :=
      ⟨h.log, h.sessionId, h.registry, h.active, h.down⟩
    exact ih (hcalled.absorb _)

/-! ### Emitted events -/

theorem At.emitted_up (h : s.At id .fresh) (extensions : List ExtensionId) :
    (s.emitted (.sessionUp extensions)).At id .up := by
  let active := (negotiate extensions s.registry s.plugins).2
  have hactive : (active.map Prod.snd).Nodup :=
    h.registry.sublist ((negotiate_sublist extensions s.registry s.plugins).map _)
  let prepared := (s.prepare (.sessionUp extensions)).record
    [.broadcast (.sessionUp s.sessionId s.peer (negotiatedFromActive active extensions))]
  obtain ⟨hsame, more, hlog, heffects⟩ := foldl_sessionStateHook true hactive prepared
  have hemitted : s.emitted (.sessionUp extensions) =
      active.foldl (sessionStateHook true) prepared := rfl
  have hestablished : ∀ e ∈ (if s.tracked then [Effect.established] else []), e.plain = true := by
    split <;> simp [Effect.plain]
  have hlogged : (active.foldl (sessionStateHook true) prepared).log =
      s.log ++ (([.negotiated (active.map Prod.snd)] ++ if s.tracked then [.established] else []) ++
        ([.broadcast (.sessionUp id s.peer (negotiatedFromActive active extensions))] ++
          more)) := by
    rw [hlog, ← h.sessionId]
    simp [prepared, active, SessionTask.prepare, record]
  obtain ⟨hup, hneg⟩ := h.log.goUp hactive hestablished heffects hlogged
  rw [hemitted]
  refine ⟨hup, hsame.sessionId.trans h.sessionId, ?_, ?_, ?_⟩
  · rw [hsame.registry]
    exact h.registry
  · rw [hsame.activeExts, hneg]
    rfl
  · rw [hsame.downEmitted]
    exact h.down

/-- What the guard, or the Session Down of a batch, leaves in the log. -/
theorem At.log_down (h : s.At id stage) (hstage : stage ≠ .down) {reason : StatusCode}
    (ht : s.Same t ∨ { s with downEmitted := true }.Same t)
    (hlog : t.log = s.log ++ [.broadcast (.sessionDown s.sessionId s.peer reason)]) :
    LogAt id .down (t.dispatchSessionState false).log ∧ t.Same (t.dispatchSessionState false) := by
  have hactive : t.activeExts = s.activeExts := by
    rcases ht with ht | ht <;> exact ht.activeExts
  have hnodup : (t.activeExts.map Prod.snd).Nodup := by
    rw [hactive, h.active]
    split
    · exact h.log.nodup
    · exact List.nodup_nil
  obtain ⟨hsame, more, hmore, heffects⟩ := foldl_sessionStateHook false hnodup t
  have hlogged : (t.dispatchSessionState false).log =
      s.log ++ ([.broadcast (.sessionDown id s.peer reason)] ++ more) := by
    rw [← h.sessionId, ← List.append_assoc, ← hlog]
    exact hmore
  rw [hactive] at heffects
  exact ⟨h.log.goDown hstage h.active heffects hlogged, hsame⟩

theorem At.emitted_down (h : s.At id stage) (hstage : stage ≠ .down) (status : StatusCode) :
    (s.emitted (.sessionDown status)).At id .down := by
  let marked := ({ s with downEmitted := true }).record
    [.broadcast (.sessionDown s.sessionId s.peer status)]
  obtain ⟨hlog, hsame⟩ := h.log_down (t := marked) hstage (.inr ⟨rfl, rfl, rfl, rfl, rfl⟩) rfl
  have hemitted : s.emitted (.sessionDown status) =
      { marked.dispatchSessionState false with activeExts := [] } := rfl
  rw [hemitted]
  refine ⟨hlog, hsame.sessionId.trans h.sessionId, ?_, rfl, ?_⟩
  · dsimp only
    rw [hsame.registry]
    exact h.registry
  · exact hsame.downEmitted

/-- Every other event leaves the stage as it is. -/
theorem At.emitted_other (h : s.At id stage) (event : EmittedEvent)
    (hup : event.isSessionUp = false) (hdown : event.isSessionDown = false) :
    (s.emitted event).At id stage := by
  have hrecorded (e : DaemonEvent) (he : (Effect.broadcast e).plain = true) :
      (s.record [.broadcast e]).At id stage :=
    h.same ⟨rfl, rfl, rfl, rfl, rfl⟩ rfl (List.forall_mem_singleton.mpr he)
  cases event with
  | sessionUp extensions => cases hup
  | sessionDown status => cases hdown
  | peerDiscovered endpoints description =>
    have hsilent : (s.record []).At id stage :=
      h.same ⟨rfl, rfl, rfl, rfl, rfl⟩ rfl (List.forall_mem_nil _)
    exact hsilent
  | destinationUp mac metrics addrs =>
    exact (hrecorded _ rfl).foldl_destinationStateHook mac _ _
  | destinationDown mac reason => exact (hrecorded _ rfl).foldl_destinationStateHook mac _ _
  | linkCharacteristicsRequested mac requested metrics pending =>
    cases pending with
    | false => exact hrecorded _ rfl
    | true =>
      have hlogged := hrecorded (.reported s.sessionId s.peer
        (.linkCharacteristicsRequested mac requested metrics true)) rfl
      exact ⟨hlogged.log, hlogged.sessionId, hlogged.registry, hlogged.active, hlogged.down⟩
  | _ => exact hrecorded _ rfl

/-- An event that fits leads to a stage for which the rest fits. -/
theorem At.emitted {event : EmittedEvent} {events : List EmittedEvent} {phase : Phase}
    (h : s.At id stage) (hfits : Fits stage (event :: events) phase) :
    ∃ stage', (s.emitted event).At id stage' ∧ Fits stage' events phase := by
  cases event with
  | sessionUp extensions =>
    obtain ⟨rfl, hrest⟩ := hfits
    exact ⟨_, h.emitted_up extensions, hrest⟩
  | sessionDown status =>
    obtain ⟨hstage, hrest⟩ := hfits
    exact ⟨_, h.emitted_down hstage status, hrest⟩
  | _ => exact ⟨stage, h.emitted_other _ rfl rfl, hfits⟩

/-- The task was stopped somewhere in its lifecycle. -/
def Staged (id : SessionId) (s : SessionTask F χ) : Prop := ∃ stage, s.At id stage

end SessionTask

/-! ## Turns -/

/-- A state machine whose steps have the shape of a session. -/
class LawfulFsm (F : Type) [SessionFsm F] where
  phase : F → Phase
  Consistent : F → Prop
  step_shape : ∀ {f f' : F} {event : FsmEvent} {actions : List FsmAction}, Consistent f →
    SessionFsm.step f event = .ok (f', actions) →
      Consistent f' ∧ StepShape ⟨phase f, event, actions, phase f'⟩
  step_total : ∀ {f : F}, Consistent f → ∀ event, ∃ f' actions,
    SessionFsm.step f event = .ok (f', actions)

instance : LawfulFsm RouterSessionFsm where
  phase s := s.state.phase
  Consistent := RouterSessionFsm.Consistent
  step_shape hc hstep :=
    have ht := RouterSessionFsm.lawful.trans hc hstep
    ⟨ht.consistent hc, ht.stepShape⟩
  step_total hc event :=
    have ⟨f', actions, hstep, _⟩ := RouterSessionFsm.step_spec hc event
    ⟨f', actions, hstep⟩

instance : LawfulFsm ModemSessionFsm where
  phase s := s.state.phase
  Consistent := ModemSessionFsm.Consistent
  step_shape hc hstep :=
    have ht := ModemSessionFsm.lawful.trans hc hstep
    ⟨ht.consistent hc, ht.stepShape⟩
  step_total hc event :=
    have ⟨f', actions, hstep, _⟩ := ModemSessionFsm.step_spec hc event
    ⟨f', actions, hstep⟩

namespace SessionTask

variable {F χ : Type} [SessionFsm F] [LawfulFsm F] {s t : SessionTask F χ}

/-- Ready to process `actions`: the machine is consistent and its events fit the stage. -/
def Ready (id : SessionId) (s : SessionTask F χ) (actions : List FsmAction) : Prop :=
  LawfulFsm.Consistent s.fsm ∧
    ∃ stage, s.At id stage ∧ Fits stage (emittedEvents actions) (LawfulFsm.phase s.fsm)

theorem Ready.staged {actions : List FsmAction} (h : s.Ready id actions) : s.Staged id := by
  obtain ⟨-, stage, hat, -⟩ := h
  exact ⟨stage, hat⟩

/-- A step adds to what is to be processed; the actions of an earlier one may still wait. -/
theorem Ready.feed {actions more : List FsmAction} {event : FsmEvent} {fsm : F}
    (h : s.Ready id actions) (hstep : SessionFsm.step s.fsm event = .ok (fsm, more)) :
    { s with fsm }.Ready id (actions ++ more) := by
  obtain ⟨hc, stage, hat, hfits⟩ := h
  obtain ⟨hc', hshape⟩ := LawfulFsm.step_shape hc hstep
  refine ⟨hc', stage, ⟨hat.log, hat.sessionId, hat.registry, hat.active, hat.down⟩, ?_⟩
  rw [emittedEvents_append]
  exact hfits.append fun stage' hstage' => hshape.fits hstage'

theorem Ready.same {actions : List FsmAction} {more : List Effect} (h : s.Ready id actions)
    (hsame : s.Same t) (hlog : t.log = s.log ++ more) (hplain : ∀ e ∈ more, e.plain = true) :
    t.Ready id actions := by
  obtain ⟨hc, stage, hat, hfits⟩ := h
  unfold Ready
  rw [hsame.fsm]
  exact ⟨hc, stage, hat.same hsame hlog hplain, hfits⟩

/-- A change outside of the lifecycle that logs nothing. -/
theorem Ready.of_same {actions : List FsmAction} (h : s.Ready id actions) (hsame : s.Same t)
    (hlog : t.log = s.log) : t.Ready id actions :=
  h.same hsame (hlog.trans (List.append_nil _).symm) (List.forall_mem_nil _)

theorem Ready.hooked (h : s.Ready id []) (plugins : χ) (out : HookOutput) :
    ({ s with plugins }.absorb out).Ready id [] := by
  refine h.same ⟨rfl, rfl, rfl, rfl, rfl⟩ rfl ?_
  intro e he
  obtain ⟨payload, -, rfl⟩ := List.mem_map.mp he
  rfl

theorem Ready.emitted {event : EmittedEvent} {actions : List FsmAction}
    (h : s.Ready id (.emit event :: actions)) : (s.emitted event).Ready id actions := by
  obtain ⟨hc, stage, hat, hfits⟩ := h
  obtain ⟨stage', hat', hrest⟩ := hat.emitted hfits
  unfold Ready
  rw [fsm_emitted]
  exact ⟨hc, stage', hat', hrest⟩

theorem Ready.receive (h : s.Ready id []) (msg : Message) : (s.receive msg).1.Ready id [] := by
  unfold SessionTask.receive
  dsimp only
  split
  · exact h
  · split
    · have hoffered := h.hooked (dispatchUnknownMessage msg.messageType msg.dataItems s.activeExts
        s.plugins).1 (dispatchUnknownMessage msg.messageType msg.dataItems s.activeExts
        s.plugins).2.1
      dsimp only
      split
      · exact hoffered
      · split
        · exact hoffered.hooked _ _
        · exact hoffered
    · simp only [Bool.false_eq_true, if_false]
      split
      · exact h.hooked _ _
      · exact h

/-- The parts of a turn keep the lifecycle. -/
theorem keeps_ready :
    TurnInvariant (F := F) (χ := χ) (fun s actions => s.Ready id actions) (Staged id) where
  stop h := h.staged
  write h _ := Ready.same h ⟨rfl, rfl, rfl, rfl, rfl⟩ rfl (List.forall_mem_singleton.mpr rfl)
  emit h := h.emitted.of_same ⟨rfl, rfl, rfl, rfl, rfl⟩ rfl
  skip := by
    intro s action actions h _ hemit
    cases action with
    | emit event => exact absurd rfl (hemit event)
    | _ => exact h
  timers _ h := h.of_same ⟨rfl, rfl, rfl, rfl, rfl⟩ rfl
  flush h _ := h.same ⟨rfl, rfl, rfl, rfl, rfl⟩ rfl (List.forall_mem_singleton.mpr rfl)
  feed h hstep := h.feed hstep
  drain h := h.of_same ⟨rfl, rfl, rfl, rfl, rfl⟩ rfl
  peer _ h := h.of_same ⟨rfl, rfl, rfl, rfl, rfl⟩ rfl
  receive msg h := h.receive msg
  commandsOpen _ h := h.of_same ⟨rfl, rfl, rfl, rfl, rfl⟩ rfl
  linkJobs _ h := h.of_same ⟨rfl, rfl, rfl, rfl, rfl⟩ rfl
  receipt _ h := h.same ⟨rfl, rfl, rfl, rfl, rfl⟩ rfl (List.forall_mem_singleton.mpr rfl)

/-! ## The end -/

omit [SessionFsm F] [LawfulFsm F] in
/-- The guard completes the lifecycle of a task that stopped anywhere. -/
theorem Staged.drop (h : s.Staged id) : LogAt id .down s.drop.log := by
  obtain ⟨stage, hat⟩ := h
  unfold SessionTask.drop
  split
  · rename_i hdown
    rw [hat.down, decide_eq_true_eq] at hdown
    subst hdown
    exact hat.log
  · rename_i hdown
    rw [hat.down, decide_eq_true_eq] at hdown
    have hmarked : s.Same (s.record [.broadcast (.sessionDown s.sessionId s.peer .timedOut)]) :=
      ⟨rfl, rfl, rfl, rfl, rfl⟩
    exact (hat.log_down hdown (.inl hmarked) rfl).1

/-- A task that starts ends with its lifecycle complete. -/
theorem Ready.runTracked (h : s.Ready id []) (initialEvent : FsmEvent) (inputs : List LoopInput)
    (budget : Budget) : LogAt id .down (s.runTracked initialEvent inputs budget).log := by
  obtain ⟨t, ht, hrun⟩ := keeps_ready.runTracked h initialEvent inputs budget
  rw [hrun]
  exact ht.drop

/-- A new task has done nothing yet. -/
theorem ready_new (id : SessionId) {fsm : F} (hc : LawfulFsm.Consistent fsm) (peer : PeerInfo)
    (extensions : List (DlepExtension χ)) (plugins : χ) (tracked backend : Bool) :
    (SessionTask.new id fsm peer extensions plugins tracked backend).Ready id [] := by
  refine ⟨hc, .fresh, ⟨LogAt.nil id, rfl, ?_, rfl, rfl⟩, fun _ => rfl, nofun⟩
  change (extensions.zipIdx.map Prod.snd).Nodup
  rw [List.zipIdx_map_snd]
  exact List.nodup_range'

end SessionTask

/-- The broadcast channel has exactly one Session Down of the session and no Session Up after it;
every negotiated registration was told once that the session is up and then once that it is down;
no other registration was told anything. -/
structure Balanced (id : SessionId) (log : List Effect) : Prop where
  oneDown : log.countP (Effect.isDown id) = 1
  order : log.Pairwise fun d u => d.isDown id = true → u.isUp id = false
  calls : ∀ i, stateCalls i log = if i ∈ negotiatedIn log then [true, false] else []

theorem LogAt.balanced (h : LogAt id .down log) : Balanced id log := ⟨h.downs, h.order, h.calls⟩

/-- The log is balanced on every way out, with any plug-ins, inputs and interruption. -/
theorem one_terminal_notification {χ : Type} (config : SessionConfig) (id : SessionId)
    (peer : PeerInfo) (extensions : List (DlepExtension χ)) (plugins : χ) (tracked backend : Bool)
    (inputs : List LoopInput) (budget : Budget) :
    Balanced id ((SessionTask.new id (RouterSessionFsm.withConfig config) peer extensions plugins
      tracked backend).runTracked .tcpConnected inputs budget).log ∧
    Balanced id ((SessionTask.new id (ModemSessionFsm.withConfig config) peer extensions plugins
      tracked backend).runTracked .tcpAccepted inputs budget).log := by
  have hrouter := SessionTask.ready_new (F := RouterSessionFsm) id
    (RouterSessionFsm.consistent_withConfig config) peer extensions plugins tracked backend
  have hmodem := SessionTask.ready_new (F := ModemSessionFsm) id
    (ModemSessionFsm.consistent_withConfig config) peer extensions plugins tracked backend
  exact ⟨(hrouter.runTracked _ inputs budget).balanced, (hmodem.runTracked _ inputs budget).balanced⟩

end Dlep
