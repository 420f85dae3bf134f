-- SUMMARY: Runs of a fallible input/output machine: recorded steps, and the invariant, history and totality rules.
import Mathlib.Data.List.Basic

/-!
# Runs of a machine

A machine is a function that takes a state and an input to a new state and an
output, or fails. A run feeds it a list of inputs and records every step. The
rules below are the only inductions over runs: an invariant holds in every state
a run reaches, a history property relates the final state to the recorded steps,
and a machine that cannot fail from states of an invariant completes every run.
-/

namespace Machine

variable {σ ι ω ε : Type}

/-- One recorded step. -/
structure Entry (σ ι ω : Type) where
  before : σ
  input : ι
  output : ω
  after : σ

section Rules

variable (step : σ → ι → Except ε (σ × ω))

/-- Feed the inputs one after another; the first failure ends the run. -/
def run : σ → List ι → Except ε (σ × List (Entry σ ι ω))
  | s, [] => .ok (s, [])
  | s, i :: is =>
    match step s i with
    | .error e => .error e
    | .ok (s', o) =>
      match run s' is with
      | .error e => .error e
      | .ok (t, trace) => .ok (t, ⟨s, i, o, s'⟩ :: trace)

variable {step}

/-- A non-empty run is a first step and the run of the rest. -/
theorem run_cons {s t : σ} {i : ι} {is : List ι} {trace : List (Entry σ ι ω)}
    (h : run step s (i :: is) = .ok (t, trace)) :
    ∃ s' o rest, step s i = .ok (s', o) ∧ run step s' is = .ok (t, rest) ∧
      trace = ⟨s, i, o, s'⟩ :: rest := by
  unfold run at h
  split at h
  · cases h
  · rename_i s' o hstep
    split at h
    · cases h
    · rename_i t' rest hrun
      cases h
      exact ⟨s', o, rest, hstep, hrun, rfl⟩

theorem run_cons_of_step {s s' t : σ} {i : ι} {is : List ι} {o : ω} {rest : List (Entry σ ι ω)}
    (hstep : step s i = .ok (s', o)) (hrun : run step s' is = .ok (t, rest)) :
    run step s (i :: is) = .ok (t, ⟨s, i, o, s'⟩ :: rest) := by
  simp only [run, hstep, hrun]

/-- A run that fails does so in its first step or in the run of the rest. -/
theorem run_cons_error {s : σ} {i : ι} {is : List ι} {e : ε} (h : run step s (i :: is) = .error e) :
    step s i = .error e ∨ ∃ s' o, step s i = .ok (s', o) ∧ run step s' is = .error e := by
  unfold run at h
  split at h
  · rename_i e' hstep
    cases h
    exact .inl hstep
  · rename_i s' o hstep
    split at h
    · rename_i e' hrun
      cases h
      exact .inr ⟨s', o, hstep, hrun⟩
    · cases h

/-- A run that fails does so in one step, after a run that does not. -/
theorem run_error {s : σ} {is : List ι} {e : ε} (h : run step s is = .error e) :
    ∃ first i rest t trace, is = first ++ i :: rest ∧ run step s first = .ok (t, trace) ∧
      step t i = .error e := by
  induction is generalizing s with
  | nil => cases h
  | cons i is ih =>
    rcases run_cons_error h with hstep | ⟨s', o, hstep, hrun⟩
    · exact ⟨[], i, is, s, [], rfl, rfl, hstep⟩
    · obtain ⟨first, j, rest, t, trace, rfl, hfirst, herror⟩ := ih hrun
      exact ⟨i :: first, j, rest, t, _, rfl, run_cons_of_step hstep hfirst, herror⟩

/-- A run records the inputs it was fed. -/
theorem run_inputs {s t : σ} {is : List ι} {trace : List (Entry σ ι ω)}
    (h : run step s is = .ok (t, trace)) : trace.map Entry.input = is := by
  induction is generalizing s trace with
  | nil =>
    cases h
    rfl
  | cons i is ih =>
    obtain ⟨s', o, rest, -, hrest, rfl⟩ := run_cons h
    rw [List.map_cons, ih hrest]

/-- A property of the state and the steps recorded so far that every step keeps
holds at the end of every run. -/
theorem run_history {J : σ → List (Entry σ ι ω) → Prop}
    (hstep : ∀ s trace i s' o, J s trace → step s i = .ok (s', o) →
      J s' (trace ++ [⟨s, i, o, s'⟩])) {s t : σ} {is : List ι} {trace : List (Entry σ ι ω)}
    (hinit : J s []) (hrun : run step s is = .ok (t, trace)) : J t trace := by
  -- The induction carries the steps recorded before `s`.
  have aux : ∀ (is : List ι) (s : σ) (past trace : List (Entry σ ι ω)),
      J s past → run step s is = .ok (t, trace) → J t (past ++ trace) := by
    intro is
    induction is with
    | nil =>
      intro s past trace hJ h
      cases h
      simpa using hJ
    | cons i is ih =>
      intro s past trace hJ h
      obtain ⟨s', o, rest, hs, hr, rfl⟩ := run_cons h
      simpa using ih s' _ rest (hstep s past i s' o hJ hs) hr
  simpa using aux is s [] trace hinit hrun

/-- A property of states that every step keeps holds at the end of every run. -/
theorem run_invariant {I : σ → Prop}
    (hstep : ∀ s i s' o, I s → step s i = .ok (s', o) → I s') {s t : σ} {is : List ι}
    {trace : List (Entry σ ι ω)} (hinit : I s) (hrun : run step s is = .ok (t, trace)) : I t :=
  run_history (J := fun s _ => I s) (fun s _ i s' o hI h => hstep s i s' o hI h) hinit hrun

/-- What holds of one step from any state of an invariant holds of every recorded step. -/
theorem run_forall {I : σ → Prop} {P : Entry σ ι ω → Prop}
    (hstep : ∀ s i s' o, I s → step s i = .ok (s', o) → I s' ∧ P ⟨s, i, o, s'⟩) {s t : σ}
    {is : List ι} {trace : List (Entry σ ι ω)} (hinit : I s)
    (hrun : run step s is = .ok (t, trace)) : ∀ e ∈ trace, P e := by
  refine (run_history (J := fun s trace => I s ∧ ∀ e ∈ trace, P e) ?_ ⟨hinit, by simp⟩ hrun).2
  rintro s trace i s' o ⟨hI, hP⟩ h
  obtain ⟨hI', hP'⟩ := hstep s i s' o hI h
  refine ⟨hI', fun e he => ?_⟩
  rcases List.mem_append.mp he with he | he
  · exact hP e he
  · rw [List.mem_singleton.mp he]
    exact hP'

/-- What holds of one step and the steps before it holds at every point of a run. -/
theorem run_points {J : σ → List (Entry σ ι ω) → Prop}
    {P : List (Entry σ ι ω) → Entry σ ι ω → Prop}
    (hstep : ∀ s trace i s' o, J s trace → step s i = .ok (s', o) →
      J s' (trace ++ [⟨s, i, o, s'⟩]) ∧ P trace ⟨s, i, o, s'⟩) {s t : σ} {is : List ι}
    {trace : List (Entry σ ι ω)} (hinit : J s []) (hrun : run step s is = .ok (t, trace)) :
    ∀ past e, past ++ [e] <+: trace → P past e := by
  refine (run_history (J := fun s trace => J s trace ∧
    ∀ past e, past ++ [e] <+: trace → P past e) ?_ ⟨hinit, by simp⟩ hrun).2
  rintro s trace i s' o ⟨hJ, hP⟩ h
  obtain ⟨hJ', hP'⟩ := hstep s trace i s' o hJ h
  refine ⟨hJ', fun past e hpre => ?_⟩
  rcases List.prefix_concat_iff.mp hpre with heq | hpre
  · obtain ⟨hpast, he⟩ := List.append_inj' heq rfl
    subst hpast
    cases he
    exact hP'
  · exact hP past e hpre

/-- If no step fails from a state of an invariant, no run fails. -/
theorem run_total {I : σ → Prop}
    (hstep : ∀ s i, I s → ∃ s' o, step s i = .ok (s', o) ∧ I s') (is : List ι) {s : σ}
    (hinit : I s) : ∃ t trace, run step s is = .ok (t, trace) := by
  induction is generalizing s with
  | nil => exact ⟨s, [], rfl⟩
  | cons i is ih =>
    obtain ⟨s', o, hs, hI⟩ := hstep s i hinit
    obtain ⟨t, trace, hr⟩ := ih hI
    exact ⟨t, _, run_cons_of_step hs hr⟩

/-! ## Machines with listed transitions -/

/-- From the states of an invariant every step succeeds, as one of the transitions, and the
transitions keep the invariant. -/
structure Lawful (step : σ → ι → Except ε (σ × ω)) (I : σ → Prop) (T : σ → ι → σ → ω → Prop) :
    Prop where
  total : ∀ {s}, I s → ∀ i, ∃ s' o, step s i = .ok (s', o) ∧ T s i s' o
  keeps : ∀ {s i s' o}, I s → T s i s' o → I s'

namespace Lawful

variable {I : σ → Prop} {T : σ → ι → σ → ω → Prop} {s t : σ} {is : List ι}
  {trace : List (Entry σ ι ω)}

theorem step_total (h : Lawful step I T) (s : σ) (i : ι) (hs : I s) :
    ∃ s' o, step s i = .ok (s', o) ∧ I s' := by
  obtain ⟨s', o, hstep, ht⟩ := h.total hs i
  exact ⟨s', o, hstep, h.keeps hs ht⟩

theorem trans (h : Lawful step I T) {s' : σ} {i : ι} {o : ω} (hs : I s)
    (hstep : step s i = .ok (s', o)) : T s i s' o := by
  obtain ⟨t, out, ht, htrans⟩ := h.total hs i
  cases hstep.symm.trans ht
  exact htrans

/-- What every transition keeps holds at the end of every run. -/
@[elab_as_elim]
theorem run_history (h : Lawful step I T) {J : σ → List (Entry σ ι ω) → Prop}
    (hJ : ∀ s trace i s' o, I s → J s trace → T s i s' o → J s' (trace ++ [⟨s, i, o, s'⟩]))
    (hs : I s) (hinit : J s []) (hrun : run step s is = .ok (t, trace)) : J t trace := by
  refine (Machine.run_history (J := fun s trace => I s ∧ J s trace) ?_ ⟨hs, hinit⟩ hrun).2
  rintro s trace i s' o ⟨hI, hhist⟩ hstep
  have ht := h.trans hI hstep
  exact ⟨h.keeps hI ht, hJ s trace i s' o hI hhist ht⟩

theorem run_inv (h : Lawful step I T) (hs : I s) (hrun : run step s is = .ok (t, trace)) : I t :=
  h.run_history (fun _ _ _ _ _ hI _ ht => h.keeps hI ht) hs hs hrun

end Lawful

end Rules

/-! ## Queues -/

section Queues

/-- Every element of a queue is expected when its turn comes. -/
def Expected (expects : σ → ι → Prop) (next : σ → ι → σ) : σ → List ι → Prop
  | _, [] => True
  | s, i :: queue => expects s i ∧ Expected expects next (next s i) queue

theorem expected_append {expects : σ → ι → Prop} {next : σ → ι → σ} {s : σ} {queue sent : List ι}
    (h : Expected expects next s queue)
    (hsent : Expected expects next (queue.foldl next s) sent) :
    Expected expects next s (queue ++ sent) := by
  induction queue generalizing s with
  | nil => exact hsent
  | cons i queue ih => exact ⟨h.1, ih h.2 hsent⟩

end Queues

end Machine
