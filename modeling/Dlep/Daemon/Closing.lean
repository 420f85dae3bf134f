-- SUMMARY: The modem daemon's shutdown comes to its end, however the tasks' steps interleave.
import Dlep.Daemon.Accepting

/-!
# Closing down

Once the accept loop is aborted no task is added, so every step that does something
brings a task or `shutdown` itself nearer to its end. That nothing is left to do only
when `shutdown` has returned rests on the order in which it works: it joins a task
only after it has asked every session to end.
-/

namespace Dlep

namespace ModemRuntime

variable {d d' : ModemRuntime} {t : ConnectionTask}

/-! ## The model -/

/-- A turn, in which a session ends only if it was asked to, or a session that ends early. -/
inductive Turn where
  | turn (input : Input)
  | endsEarly (id : ℕ)

def patient (d : ModemRuntime) : Turn → Outcome (ModemRuntime × Unit)
  | .turn (.sessionEnds id) => if d.asked.contains id then d.machine (.sessionEnds id) else .ok (d, ())
  | .turn input => d.machine input
  | .endsEarly id => d.machine (.sessionEnds id)

/-- The turns of one task. -/
def taskTurns (id : ℕ) : List Turn :=
  [.poll id, .handshake id true, .handshake id false, .enter id, .sessionEnds id, .leave id].map .turn

/-- The turns of the tasks with these ids and of `shutdown`. -/
def turns (ids : List ℕ) : List Turn :=
  [.takeCommands, .ask, .takeTasks, .join, .finishShutdown].map .turn ++ ids.flatMap taskTurns

/-- These, and early ends of sessions. -/
def choices (ids : List ℕ) : List Turn := turns ids ++ ids.map .endsEarly

/-! ## The work left -/

/-- The steps that the live tasks have left, at most. -/
def taskWork (live : List ConnectionTask) : ℕ :=
  (live.map fun t => t.stage.left).sum

/-- The steps that `shutdown` has left. -/
def closeWork (d : ModemRuntime) : ℕ :=
  match d.closedown with
  | .unlistening => d.commands.length + d.handles.length + 3
  | .asking rest => rest.length + d.handles.length + 2
  | .joining rest => rest.length + 1
  | _ => 0

def work (d : ModemRuntime) : ℕ := taskWork d.live + d.closeWork

/-- The turn leaves less to do. -/
def busy (d : ModemRuntime) (turn : Turn) : Bool :=
  match d.patient turn with
  | .ok (d', _) => decide (d'.work < d.work)
  | .error _ => false

theorem taskWork_erase {live : List ConnectionTask} (ht : t ∈ live) :
    taskWork live = t.stage.left + taskWork (live.erase t) :=
  ((List.perm_cons_erase ht).map fun (t : ConnectionTask) => t.stage.left).sum_nat

theorem work_advance {stage : TaskStage} (ht : t ∈ d.live) (hstage : stage.left < t.stage.left) :
    (d.advance t stage).work < d.work := by
  have hsplit := taskWork_erase ht
  have hafter : (d.advance t stage).work =
      stage.left + taskWork (d.live.erase t) + d.closeWork := rfl
  unfold work at *
  omega

theorem closeWork_prunes (d : ModemRuntime) {commands : List ℕ}
    (hlength : commands.length ≤ d.commands.length) :
    closeWork { d with commands := commands } ≤ d.closeWork := by
  unfold closeWork
  split <;> simp_all

/-- A task that returns, whatever it was doing. -/
theorem work_finish (ht : t ∈ d.live) (hlive : d'.live = d.live.erase t)
    (hclose : d'.closeWork ≤ d.closeWork) : d'.work < d.work := by
  have hsplit := taskWork_erase ht
  have hpos : 0 < t.stage.left := by cases t.stage <;> decide
  unfold work
  rw [hlive]
  omega

/-- The loop is gone and `shutdown` is at work. -/
structure Closing (d : ModemRuntime) : Prop where
  kept : d.Kept
  called : d.closedown ≠ .serving
  unlistened : d.closedown ≠ .stopping

theorem Closing.stopped (h : d.Closing) : d.stopping = true := h.kept.stopped h.called

/-- `shutdown` does not go back, without the loop no task is added, and a step that does
something leaves less to do. -/
theorem Closing.moves (h : d.Closing) (hmoves : d.Moves d') :
    d'.Closing ∧ (∀ t ∈ d'.live, t.id ∈ d.live.map ConnectionTask.id) ∧
      (d' = d ∨ d'.work < d.work) := by
  have hlistener := h.kept.unlistened h.called h.unlistened
  have hsame : ∀ t ∈ d.live, t.id ∈ d.live.map ConnectionTask.id :=
    fun t ht => List.mem_map_of_mem ht
  have hkept := hmoves.kept h.kept
  cases hmoves with
  | nothing => exact ⟨h, hsame, .inl rfl⟩
  | accepts peer hlistening | spawns hlistening =>
    exact absurd (hlistener.symm.trans hlistening) (by simp)
  | dispatches hserving | stops hserving => exact absurd hserving h.called
  | enters _ hrunning => exact absurd (h.kept.serving hrunning) h.called
  | aborts hstopping | abortsHolding hstopping => exact absurd hstopping h.unlistened
  | advances hlive _ hnext =>
    refine ⟨⟨hkept, h.called, h.unlistened⟩, fun u hu => ?_, .inr (work_advance hlive hnext)⟩
    rcases mem_advance hu with rfl | hu
    · have hid := hsame _ hlive
      exact hid
    · exact hsame u hu
  | finishes hlive _ hlength =>
    exact ⟨⟨hkept, h.called, h.unlistened⟩, fun t ht => hsame t (List.mem_of_mem_erase ht),
      .inr (work_finish hlive rfl (d.closeWork_prunes hlength))⟩
  | takesCommands hat | asks hat | takesTasks hat | joins hat | returns hat =>
    refine ⟨⟨hkept, by simp, by simp⟩, hsame, .inr ?_⟩
    simp only [work, closeWork, hat, List.length_cons, List.length_nil]
    omega

theorem Closing.patient_spec (h : d.Closing) (turn : Turn) :
    ∃ d', d.patient turn = .ok (d', ()) ∧ d.Moves d' := by
  have hmachine : ∀ input, ∃ d', d.machine input = .ok (d', ()) ∧ d.Moves d' := by
    intro input
    obtain ⟨d', hstep, hmoves⟩ := h.kept.step_spec input
    exact ⟨d', by simp only [machine, hstep, Except.map], hmoves⟩
  cases turn with
  | endsEarly id => exact hmachine (.sessionEnds id)
  | turn input =>
    cases input with
    | sessionEnds id =>
      simp only [patient]
      split
      · exact hmachine (.sessionEnds id)
      · exact ⟨d, rfl, .nothing⟩
    | _ => exact hmachine _

theorem Closing.moves_of_patient (h : d.Closing) {turn : Turn} {o : Unit}
    (hstep : d.patient turn = .ok (d', o)) : d.Moves d' := by
  obtain ⟨after, hafter, hmoves⟩ := h.patient_spec turn
  cases hafter.symm.trans hstep
  exact hmoves

/-! ## Rounds -/

/-- Closing down, with no live task but these. -/
def ClosingWith (ids : List ℕ) (d : ModemRuntime) : Prop :=
  d.Closing ∧ ∀ t ∈ d.live, t.id ∈ ids

theorem settling_turns (ids : List ℕ) :
    Machine.Settling patient (choices ids) busy (ClosingWith ids) (· < ·) work where
  wellFounded := Nat.lt_wfRel.wf
  total := by
    intro d input h _
    obtain ⟨d', hstep, -⟩ := h.1.patient_spec input
    exact ⟨d', (), hstep⟩
  keeps := by
    intro d input d' o h _ hstep
    obtain ⟨hclosing, hlive, -⟩ := h.1.moves (h.1.moves_of_patient hstep)
    refine ⟨hclosing, fun t ht => ?_⟩
    obtain ⟨u, hu, hid⟩ := List.mem_map.mp (hlive t ht)
    exact hid ▸ h.2 u hu
  idle := by
    intro d input d' o h _ hstep hidle
    simp only [busy, hstep, decide_eq_false_iff_not] at hidle
    exact (h.1.moves (h.1.moves_of_patient hstep)).2.2.resolve_right hidle
  falls := by
    intro d input d' o h _ hstep hbusy
    simp only [busy, hstep, decide_eq_true_eq] at hbusy
    exact hbusy

theorem busy_of_step {turn : Turn} (hstep : d.patient turn = .ok (d', ()))
    (hwork : d'.work < d.work) : d.busy turn = true := by
  simp only [busy, hstep, decide_eq_true hwork]

/-- A live task in this stage has a turn that does something. -/
theorem exists_inStage {stage : TaskStage} (ht : t ∈ d.live) (hstage : t.stage = stage) :
    ∃ u, d.inStage t.id stage = some u ∧ u ∈ d.live ∧ u.stage = stage := by
  have hsome : (d.inStage t.id stage).isSome = true :=
    List.find?_isSome.mpr ⟨t, ht, decide_eq_true ⟨rfl, hstage⟩⟩
  obtain ⟨u, hu⟩ := Option.isSome_iff_exists.mp hsome
  exact ⟨u, hu, (mem_of_inStage hu).1, (mem_of_inStage hu).2.2⟩

/-- Every live task has something to do, its session's end included once it was asked. -/
theorem Closing.exists_busy_task (h : d.Closing) (ht : t ∈ d.live)
    (hasked : t.stage = .session → t.id ∈ d.asked) :
    ∃ input ∈ taskTurns t.id, d.busy input = true := by
  have hstopped := h.stopped
  obtain ⟨u, hu, hlive, hstage⟩ := exists_inStage ht rfl
  have hleaves : ∀ input commands, d.Prunes commands → commands.length ≤ d.commands.length →
      d.patient input = (finish { d with commands := commands } u).map (fun d => (d, ())) →
      d.busy input = true := by
    intro input commands hprunes hlength hinput
    obtain ⟨d', hfinish, hmoves, hafter⟩ := h.kept.finish_spec hlive hprunes hlength
    rw [hfinish] at hinput
    refine busy_of_step hinput ((h.moves hmoves).2.2.resolve_left fun heq => ?_)
    have herase := List.length_erase_of_mem hlive
    rw [← hafter, heq] at herase
    have hpos := List.length_pos_of_mem hlive
    omega
  cases hcase : t.stage with
  | spawned =>
    rw [hcase] at hu
    refine ⟨.turn (.poll t.id), by simp [taskTurns], hleaves _ _ d.prunes_refl (Nat.le_refl _) ?_⟩
    simp only [patient, machine, step, hu, if_pos hstopped]
  | handshaking =>
    rw [hcase] at hu
    refine ⟨.turn (.handshake t.id true), by simp [taskTurns], hleaves _ _ d.prunes_refl (Nat.le_refl _) ?_⟩
    have hstop : (d.stopping || !true) = true := by rw [hstopped]; rfl
    simp only [patient, machine, step, hu, if_pos hstop]
  | locking =>
    rw [hcase] at hu
    refine ⟨.turn (.enter t.id), by simp [taskTurns], hleaves _ _ d.prunes_refl (Nat.le_refl _) ?_⟩
    simp only [patient, machine, step, hu, if_pos hstopped]
  | session =>
    rw [hcase] at hu hstage
    have hless : (d.advance u .finishing).work < d.work :=
      work_advance hlive (by rw [hstage]; decide)
    refine ⟨.turn (.sessionEnds t.id), by simp [taskTurns], busy_of_step ?_ hless⟩
    simp only [patient, List.contains_iff_mem.mpr (hasked hcase), if_true, machine, step, hu,
      Except.map]
  | finishing =>
    rw [hcase] at hu
    refine ⟨.turn (.leave t.id), by simp [taskTurns],
      hleaves _ _ d.prunes_filter (List.length_filter_le _ _) ?_⟩
    simp only [patient, machine, step, hu]

/-- Until `shutdown` has returned there is something to do: there is no deadlock. -/
theorem returned_of_idle {ids : List ℕ} (h : ClosingWith ids d)
    (hidle : ∀ input ∈ turns ids, d.busy input = false) : d.closedown = .returned := by
  have hstuck : ∀ (input : Input) (d' : ModemRuntime), .turn input ∈ turns ids →
      d.patient (.turn input) = .ok (d', ()) → d'.closedown = d.closedown := by
    intro input d' hinput hstep
    rw [(settling_turns ids).idle d _ d' () h (List.mem_append_left _ hinput) hstep
      (hidle _ hinput)]
  obtain ⟨hclosing, hids⟩ := h
  cases hclosedown : d.closedown with
  | serving => exact absurd hclosedown hclosing.called
  | stopping => exact absurd hclosedown hclosing.unlistened
  | unlistening =>
    have hat := hstuck .takeCommands { d with commands := [], closedown := .asking d.commands }
      (by simp [turns]) (by simp only [patient, machine, step, hclosedown, Except.map])
    simp [hclosedown] at hat
  | asking rest =>
    cases rest with
    | nil =>
      have hat := hstuck .takeTasks { d with handles := [], closedown := .joining d.handles }
        (by simp [turns]) (by simp only [patient, machine, step, hclosedown, Except.map])
      simp [hclosedown] at hat
    | cons id rest =>
      have hat := hstuck .ask { d with asked := id :: d.asked, closedown := .asking rest }
        (by simp [turns]) (by simp only [patient, machine, step, hclosedown, Except.map])
      simp [hclosedown] at hat
  | joining rest =>
    cases rest with
    | nil =>
      have hat := hstuck .finishShutdown { d with closedown := .returned } (by simp [turns])
        (by simp only [patient, machine, step, hclosedown, Except.map])
      simp [hclosedown] at hat
    | cons id rest =>
      cases hlive : d.isLive id with
      | false =>
        have hat := hstuck .join { d with closedown := .joining rest } (by simp [turns])
          (by simp only [patient, machine, step, hclosedown, hlive, Bool.false_eq_true, if_false,
            Except.map])
        simp [hclosedown] at hat
      | true =>
        -- The task that is waited for is live, and whatever it is doing it can go on.
        obtain ⟨t, ht, -⟩ := List.any_eq_true.mp hlive
        have hasked := (hclosing.kept.accounted.joining _ hclosedown t ht).2
        obtain ⟨input, hinput, hbusy⟩ := hclosing.exists_busy_task ht hasked
        rw [hidle input (List.mem_append_right _ (List.mem_flatMap.mpr ⟨t.id, hids t ht, hinput⟩))]
          at hbusy
        cases hbusy
  | returned => rfl

/-- The daemon after `shutdown`: nothing is left. -/
structure Gone (d : ModemRuntime) : Prop where
  returned : d.closedown = .returned
  live : d.live = []
  listener : d.listener = .aborted
  permits : d.permits = CONNECTION_PERMITS
  routers : ∀ peer, d.routers.contains peer = false

theorem Kept.gone (h : d.Kept) (hreturned : d.closedown = .returned) : d.Gone := by
  obtain ⟨hlive, hlistener, hpermits⟩ := h.accounted.returned hreturned
  refine ⟨hreturned, hlive, hlistener, hpermits, fun peer => ?_⟩
  have hcontains := h.counts.contains peer
  simp only [held, hlive, hlistener, Listener.held, List.map_nil, List.append_nil,
    List.not_mem_nil, iff_false, Bool.not_eq_true] at hcontains
  exact hcontains

/-- `shutdown` is called and comes as far as aborting the loop. -/
theorem Kept.closing (h : d.Kept) :
    ∃ d' trace, Machine.run machine d [.shutdown, .abortListener] = .ok (d', trace) ∧ d'.Closing := by
  have hshutdown : ∃ d', d.machine .shutdown = .ok (d', ()) ∧ d'.Kept ∧ d'.closedown ≠ .serving := by
    by_cases hserving : d.closedown = .serving
    · refine ⟨{ d with stopping := true, closedown := .stopping }, ?_, ?_, by simp⟩
      · simp [machine, step, hserving, Except.map]
      · exact (Moves.stops hserving).kept h
    · refine ⟨d, ?_, h, hserving⟩
      simp [machine, step, Except.map]
  obtain ⟨called, hcalled, hkept, hclosing⟩ := hshutdown
  have habort : ∃ d', called.machine .abortListener = .ok (d', ()) ∧ d'.Closing := by
    by_cases hstopping : called.closedown = .stopping
    · obtain ⟨d', hstep, hmoves, hafter⟩ := hkept.abortListener_spec hstopping
      refine ⟨d', ?_, hmoves.kept hkept, ?_, ?_⟩
      · simp [machine, step, hstopping, hstep, Except.map]
      · simp [hafter]
      · simp [hafter]
    · refine ⟨called, ?_, hkept, hclosing, hstopping⟩
      simp [machine, step, Except.map]
  obtain ⟨d', hstep, hclosing⟩ := habort
  exact ⟨d', _, Machine.run_cons_of_step hcalled (Machine.run_cons_of_step hstep rfl), hclosing⟩

/-- Once `shutdown` has returned, it stays so. -/
theorem Moves.returned (h : d.Moves d') (hreturned : d.closedown = .returned) :
    d'.closedown = .returned := by
  cases h with
  | stops hat | aborts hat | abortsHolding hat | takesCommands hat | asks hat | takesTasks hat
  | joins hat | returns hat => cases hreturned.symm.trans hat
  | _ => exact hreturned

/-- Once `shutdown` has stopped the loop, it returns and leaves nothing behind: however the
turns of the tasks and its own interleave, enough rounds of them bring it to its end, whichever
sessions end before they are asked to. -/
theorem shutdown_returns (inputs : List Input) :
    ∃ d trace, Machine.run machine spawn (inputs ++ [.shutdown, .abortListener]) = .ok (d, trace) ∧
      ∃ n, ∀ rounds : List (List Turn),
        (∀ round ∈ rounds, Machine.Settling.Offers (choices (d.live.map ConnectionTask.id))
          (turns (d.live.map ConnectionTask.id)) round) →
        n ≤ rounds.length →
        ∃ d' trace', Machine.run patient d rounds.flatten = .ok (d', trace') ∧ d'.Gone := by
  obtain ⟨served, first, hserved⟩ :=
    Machine.run_total (I := Kept) (fun d input h => h.machine_spec input) inputs kept_spawn
  have hkept := Machine.run_invariant
    (fun d input d' o h hstep => (moves_of_machine h hstep).kept h) kept_spawn hserved
  obtain ⟨d, rest, hrest, hclosing⟩ := hkept.closing
  refine ⟨d, _, Machine.run_append hserved hrest, ?_⟩
  have hwith : ClosingWith (d.live.map ConnectionTask.id) d :=
    ⟨hclosing, fun t ht => List.mem_map_of_mem ht⟩
  have hsettling := settling_turns (d.live.map ConnectionTask.id)
  obtain ⟨n, hn⟩ := hsettling.rests hwith (turns (d.live.map ConnectionTask.id))
  refine ⟨n, fun rounds hrounds hlength => ?_⟩
  obtain ⟨d', trace', before, after, reached, _, _, hrun, -, hflat, hbefore, hafter, hidle⟩ :=
    hn rounds hrounds hlength
  have hmem := Machine.Settling.flatten_mem hrounds
  rw [hflat] at hmem
  obtain ⟨hfirst, -⟩ := List.forall_mem_append.mp hmem
  have hreached := hsettling.run_keeps hwith hfirst hbefore
  have hreturned := returned_of_idle hreached hidle
  have hgone : d'.Closing ∧ d'.closedown = .returned := Machine.run_invariant
    (I := fun d => d.Closing ∧ d.closedown = .returned)
    (fun d turn d' o h hstep =>
      have hmoves := h.1.moves_of_patient hstep
      ⟨(h.1.moves hmoves).1, hmoves.returned h.2⟩) ⟨hreached.1, hreturned⟩ hafter
  exact ⟨d', trace', hrun, hgone.1.kept.gone hgone.2⟩

end ModemRuntime

end Dlep
