-- SUMMARY: Machines that fall silent: effective steps lower a well-founded measure, so every fair schedule ends them.
import Dlep.Lib.Machine

/-!
# Machines that fall silent

A machine is offered inputs of a finite list in any order. An input may be idle in
a state, and then it leaves the state alone; or it may be busy, and then it lowers a
well-founded measure. Such a machine takes a bounded number of busy steps, whatever
it is offered, and after enough rounds that each offer every input nothing is busy.
Where some inputs need not be offered, there still comes a point at which none of the
others is.
-/

namespace Machine

variable {σ ι ω ε α : Type} {step : σ → ι → Except ε (σ × ω)}

/-! ## Runs in two parts -/

theorem run_append {s t u : σ} {is js : List ι} {first rest : List (Entry σ ι ω)}
    (hfirst : run step s is = .ok (t, first)) (hrest : run step t js = .ok (u, rest)) :
    run step s (is ++ js) = .ok (u, first ++ rest) := by
  induction is generalizing s first with
  | nil =>
    cases hfirst
    exact hrest
  | cons i is ih =>
    obtain ⟨s', o, trace, hstep, hrun, rfl⟩ := run_cons hfirst
    exact run_cons_of_step hstep (ih hrun)

theorem run_split {s u : σ} {is js : List ι} {trace : List (Entry σ ι ω)}
    (h : run step s (is ++ js) = .ok (u, trace)) :
    ∃ t first rest, run step s is = .ok (t, first) ∧ run step t js = .ok (u, rest) ∧
      trace = first ++ rest := by
  induction is generalizing s trace with
  | nil => exact ⟨s, [], trace, rfl, h, rfl⟩
  | cons i is ih =>
    obtain ⟨s', o, later, hstep, hrun, rfl⟩ := run_cons h
    obtain ⟨t, first, rest, hfirst, hrest, rfl⟩ := ih hrun
    exact ⟨t, _, rest, run_cons_of_step hstep hfirst, hrest, rfl⟩

/-! ## Busy steps -/

/-- The number of recorded steps that were busy. -/
def effort (busy : σ → ι → Bool) (trace : List (Entry σ ι ω)) : ℕ :=
  trace.countP fun e => busy e.before e.input

section

variable (busy : σ → ι → Bool)

@[simp] theorem effort_nil : effort busy ([] : List (Entry σ ι ω)) = 0 := rfl

@[simp] theorem effort_append (first rest : List (Entry σ ι ω)) :
    effort busy (first ++ rest) = effort busy first + effort busy rest := List.countP_append

theorem effort_cons (e : Entry σ ι ω) (rest : List (Entry σ ι ω)) :
    effort busy (e :: rest) = effort busy rest + if busy e.before e.input then 1 else 0 :=
  List.countP_cons

end

/-- Offered the inputs of `choices` from a state of `I`, the machine does not fail; idle
inputs change nothing and busy ones lower the measure. -/
structure Settling (step : σ → ι → Except ε (σ × ω)) (choices : List ι) (busy : σ → ι → Bool)
    (I : σ → Prop) (below : α → α → Prop) (measure : σ → α) : Prop where
  wellFounded : WellFounded below
  total : ∀ s i, I s → i ∈ choices → ∃ s' o, step s i = .ok (s', o)
  keeps : ∀ s i s' o, I s → i ∈ choices → step s i = .ok (s', o) → I s'
  idle : ∀ s i s' o, I s → i ∈ choices → step s i = .ok (s', o) → busy s i = false → s' = s
  falls : ∀ s i s' o, I s → i ∈ choices → step s i = .ok (s', o) → busy s i = true →
    below (measure s') (measure s)

namespace Settling

variable {choices : List ι} {busy : σ → ι → Bool} {I : σ → Prop} {below : α → α → Prop}
  {measure : σ → α}

/-- Bounds for finitely many inputs have a common bound. -/
theorem exists_common_bound {P : ι → ℕ → Prop} (hmono : ∀ i m n, m ≤ n → P i m → P i n)
    (choices : List ι) (h : ∀ i ∈ choices, ∃ n, P i n) : ∃ n, ∀ i ∈ choices, P i n := by
  induction choices with
  | nil => exact ⟨0, by simp⟩
  | cons i rest ih =>
    obtain ⟨m, hm⟩ := h i List.mem_cons_self
    obtain ⟨n, hn⟩ := ih fun j hj => h j (List.mem_cons_of_mem _ hj)
    refine ⟨max m n, List.forall_mem_cons.mpr ⟨?_, fun j hj => ?_⟩⟩
    · exact hmono i m _ (Nat.le_max_left m n) hm
    · exact hmono j n _ (Nat.le_max_right m n) (hn j hj)

/-- A round offers every input of `required` and may offer others of `choices`, any number of
times and in any order. -/
def Offers (choices required round : List ι) : Prop :=
  (∀ i ∈ round, i ∈ choices) ∧ ∀ i ∈ required, i ∈ round

/-- A round offers every input of `choices`. -/
def Round (choices round : List ι) : Prop := Offers choices choices round

theorem flatten_mem {required : List ι} {rounds : List (List ι)}
    (hrounds : ∀ round ∈ rounds, Offers choices required round) :
    ∀ i ∈ rounds.flatten, i ∈ choices := by
  intro i hi
  obtain ⟨round, hround, hi⟩ := List.mem_flatten.mp hi
  exact (hrounds round hround).1 i hi

variable {s t : σ} {is : List ι} {trace : List (Entry σ ι ω)}
  (h : Settling step choices busy I below measure)

include h

theorem run_keeps (hs : I s) (his : ∀ i ∈ is, i ∈ choices)
    (hrun : run step s is = .ok (t, trace)) : I t := by
  induction is generalizing s trace with
  | nil =>
    cases hrun
    exact hs
  | cons i is ih =>
    obtain ⟨hi, his⟩ := List.forall_mem_cons.mp his
    obtain ⟨s', o, rest, hstep, hrest, rfl⟩ := run_cons hrun
    exact ih (h.keeps s i s' o hs hi hstep) his hrest

theorem run_ok (hs : I s) (his : ∀ i ∈ is, i ∈ choices) :
    ∃ t trace, run step s is = .ok (t, trace) := by
  induction is generalizing s with
  | nil => exact ⟨s, [], rfl⟩
  | cons i is ih =>
    obtain ⟨hi, his⟩ := List.forall_mem_cons.mp his
    obtain ⟨s', o, hstep⟩ := h.total s i hs hi
    obtain ⟨t, trace, hrun⟩ := ih (h.keeps s i s' o hs hi hstep) his
    exact ⟨t, _, run_cons_of_step hstep hrun⟩

/-- Whatever is offered, the number of busy steps is bounded. -/
theorem bounded (hs : I s) :
    ∃ n, ∀ is t trace, (∀ i ∈ is, i ∈ choices) → run step s is = .ok (t, trace) →
      effort busy trace ≤ n := by
  -- By induction on the measure: the first busy step leads to a state with a bound.
  induction hm : measure s using h.wellFounded.induction generalizing s with
  | _ m ih =>
    subst hm
    have hnext : ∃ n, ∀ i ∈ choices, ∀ s' o, step s i = .ok (s', o) → busy s i = true →
        ∀ is t trace, (∀ j ∈ is, j ∈ choices) → run step s' is = .ok (t, trace) →
          effort busy trace ≤ n := by
      refine exists_common_bound (fun i m n hmn hP s' o hstep hbusy is t trace his hrun =>
        Nat.le_trans (hP s' o hstep hbusy is t trace his hrun) hmn) choices fun i hi => ?_
      cases hbusy : busy s i with
      | false => exact ⟨0, by simp⟩
      | true =>
        obtain ⟨s', o, hstep⟩ := h.total s i hs hi
        obtain ⟨n, hn⟩ := ih _ (h.falls s i s' o hs hi hstep hbusy)
          (h.keeps s i s' o hs hi hstep) rfl
        refine ⟨n, fun s'' o' hstep' _ => ?_⟩
        rw [hstep] at hstep'
        cases hstep'
        exact hn
    obtain ⟨n, hn⟩ := hnext
    refine ⟨n + 1, fun is => ?_⟩
    -- Idle inputs before the first busy one leave the state alone.
    induction is with
    | nil =>
      intro t trace _ hrun
      cases hrun
      exact Nat.zero_le _
    | cons i is ihis =>
      intro t trace his hrun
      obtain ⟨hi, his⟩ := List.forall_mem_cons.mp his
      obtain ⟨s', o, rest, hstep, hrest, rfl⟩ := run_cons hrun
      rw [effort_cons]
      cases hbusy : busy s i with
      | false =>
        rw [h.idle s i s' o hs hi hstep hbusy] at hrest
        exact ihis t rest his hrest
      | true => exact Nat.add_le_add_right (hn i hi s' o hstep hbusy is t rest his hrest) 1

/-- A run without busy steps stays where it is, and nothing it was offered is busy there. -/
theorem unmoved (hs : I s) (his : ∀ i ∈ is, i ∈ choices)
    (hrun : run step s is = .ok (t, trace)) (hzero : effort busy trace = 0) :
    t = s ∧ ∀ i ∈ is, busy s i = false := by
  induction is generalizing trace with
  | nil =>
    cases hrun
    exact ⟨rfl, by simp⟩
  | cons i is ih =>
    obtain ⟨hi, his⟩ := List.forall_mem_cons.mp his
    obtain ⟨s', o, rest, hstep, hrest, rfl⟩ := run_cons hrun
    rw [effort_cons, Nat.add_eq_zero_iff] at hzero
    have hidle : busy s i = false := by simpa using hzero.2
    rw [h.idle s i s' o hs hi hstep hidle] at hrest
    obtain ⟨rfl, hrest⟩ := ih his hrest hzero.1
    exact ⟨rfl, List.forall_mem_cons.mpr ⟨hidle, hrest⟩⟩

/-- Nothing busy: whatever is offered changes nothing. -/
theorem silent (hs : I s) (his : ∀ i ∈ is, i ∈ choices)
    (hidle : ∀ i ∈ choices, busy s i = false) (hrun : run step s is = .ok (t, trace)) : t = s := by
  induction is generalizing trace with
  | nil =>
    cases hrun
    rfl
  | cons i is ih =>
    obtain ⟨hi, his⟩ := List.forall_mem_cons.mp his
    obtain ⟨s', o, rest, hstep, hrest, rfl⟩ := run_cons hrun
    rw [h.idle s i s' o hs hi hstep (hidle i hi)] at hrest
    exact ih his hrest

/-- With fewer busy steps than rounds, one round finds nothing required busy. -/
theorem exists_idle_round {required : List ι} {rounds : List (List ι)} (hs : I s)
    (hrounds : ∀ round ∈ rounds, Offers choices required round)
    (hrun : run step s rounds.flatten = .ok (t, trace)) (hlt : effort busy trace < rounds.length) :
    ∃ first rest u before after, rounds.flatten = first ++ rest ∧ run step s first = .ok (u, before) ∧
      run step u rest = .ok (t, after) ∧ ∀ i ∈ required, busy u i = false := by
  induction rounds generalizing s trace with
  | nil => exact absurd hlt (Nat.not_lt_zero _)
  | cons round rounds ih =>
    obtain ⟨hround, hrest⟩ := List.forall_mem_cons.mp hrounds
    obtain ⟨s', first, later, hfirst, hlater, rfl⟩ := run_split hrun
    rw [effort_append, List.length_cons] at hlt
    rcases Nat.eq_zero_or_pos (effort busy first) with hzero | hpos
    · obtain ⟨rfl, hidle⟩ := h.unmoved hs hround.1 hfirst hzero
      exact ⟨[], _, _, [], _, rfl, rfl, hrun, fun i hi => hidle i (hround.2 i hi)⟩
    · obtain ⟨is, js, u, before, after, hflat, hbefore, hafter, hidle⟩ :=
        ih (h.run_keeps hs hround.1 hfirst) hrest hlater (by omega)
      refine ⟨round ++ is, js, u, first ++ before, after, ?_, run_append hfirst hbefore, hafter, hidle⟩
      rw [List.flatten_cons, hflat, List.append_assoc]

/-- In enough rounds there comes a point at which nothing required is busy. -/
theorem rests (hs : I s) (required : List ι) :
    ∃ n, ∀ rounds : List (List ι), (∀ round ∈ rounds, Offers choices required round) →
      n ≤ rounds.length → ∃ t trace first rest u before after,
        run step s rounds.flatten = .ok (t, trace) ∧ effort busy trace ≤ n ∧
        rounds.flatten = first ++ rest ∧ run step s first = .ok (u, before) ∧
        run step u rest = .ok (t, after) ∧ ∀ i ∈ required, busy u i = false := by
  obtain ⟨n, hn⟩ := h.bounded hs
  refine ⟨n + 1, fun rounds hrounds hlength => ?_⟩
  obtain ⟨t, trace, hrun⟩ := h.run_ok hs (flatten_mem hrounds)
  have heffort := hn _ t trace (flatten_mem hrounds) hrun
  obtain ⟨first, rest, u, before, after, hidle⟩ :=
    h.exists_idle_round hs hrounds hrun (Nat.lt_of_le_of_lt heffort hlength)
  exact ⟨t, trace, first, rest, u, before, after, hrun, Nat.le_succ_of_le heffort, hidle⟩

/-- After enough rounds that offer everything, nothing is busy any more. -/
theorem settles (hs : I s) :
    ∃ n, ∀ rounds : List (List ι), (∀ round ∈ rounds, Round choices round) → n ≤ rounds.length →
      ∃ t trace, run step s rounds.flatten = .ok (t, trace) ∧ effort busy trace ≤ n ∧
        ∀ i ∈ choices, busy t i = false := by
  obtain ⟨n, hn⟩ := h.rests hs choices
  refine ⟨n, fun rounds hrounds hlength => ?_⟩
  obtain ⟨t, trace, first, rest, u, before, after, hrun, heffort, hflat, hbefore, hafter, hidle⟩ :=
    hn rounds hrounds hlength
  have hmem := flatten_mem hrounds
  rw [hflat] at hmem
  obtain ⟨hfirst, hrest⟩ := List.forall_mem_append.mp hmem
  obtain rfl := h.silent (h.run_keeps hs hfirst hbefore) hrest hidle hafter
  exact ⟨t, trace, hrun, heffort, hidle⟩

end Settling

end Machine
