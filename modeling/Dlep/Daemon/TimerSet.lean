-- SUMMARY: The session's timer set: generations keep expiries of cancelled and replaced timers from the state machine.
import Dlep.Fsm.Events
import Dlep.Lib.Machine

/-!
# Timer set

`TimerSet` of the session runtime. Every `arm` spawns a task that sleeps and then sends
its expiry, stamped with the generation of the arm. Aborting the task does not retract
an expiry that is already in the channel, so the select loop compares the stamp with
the entry of the table and drops what does not match.

A task here may send at any time and any number of times, before or after its abort.
Nothing below needs more of it.
-/

namespace Dlep

/-! ## The table -/

/-- The handle names the task that `abort` would stop. -/
structure TimerEntry where
  handle : ℕ
  periodic : Bool
  generation : UInt64
  deriving DecidableEq, Repr

structure TimerSet where
  handles : FinMap TimerId TimerEntry
  lastGenerations : FinMap TimerId UInt64

namespace TimerSet

def default : TimerSet := ⟨∅, ∅⟩

/-- The generation a fresh `arm` will assign. The counter wraps. -/
def nextGenerationFor (t : TimerSet) (id : TimerId) : UInt64 × TimerSet :=
  let generation := (t.lastGenerations.lookup id).getD 0 + 1
  (generation, { t with lastGenerations := t.lastGenerations.insert id generation })

def arm (t : TimerSet) (id : TimerId) (handle : ℕ) (periodic : Bool) (generation : UInt64) :
    TimerSet :=
  { t with handles := t.handles.insert id ⟨handle, periodic, generation⟩ }

def cancel (t : TimerSet) (id : TimerId) : TimerSet := { t with handles := t.handles.erase id }

def isCurrentGeneration (t : TimerSet) (id : TimerId) (generation : UInt64) : Bool :=
  (t.handles.lookup id).any fun e => e.generation = generation

/-- Forget an expired one-shot timer. A periodic one keeps its handle. -/
def forget (t : TimerSet) (id : TimerId) : TimerSet :=
  match t.handles.lookup id with
  | some entry => if !entry.periodic then { t with handles := t.handles.erase id } else t
  | none => t

end TimerSet

/-! ## The runtime around it -/

/-- A spawned task, with what it captured. -/
structure Sleeper where
  id : TimerId
  kind : TimerKind
  periodic : Bool
  generation : UInt64
  deriving DecidableEq, Repr

/-- An expiry in the channel, and the task that sent it. -/
structure Expiry where
  id : TimerId
  kind : TimerKind
  generation : UInt64
  task : ℕ
  deriving DecidableEq, Repr

/-- The timers of a session: the table, every task spawned so far, and the channel. -/
structure TimerRuntime where
  timers : TimerSet
  sleepers : List Sleeper
  queue : List Expiry

inductive TimerInput where
  | start (id : TimerId) (kind : TimerKind) (periodic : Bool)
  | cancel (id : TimerId)
  | fire (task : ℕ)
  | deliver
  deriving DecidableEq, Repr

/-- What `process_actions` does with the timer actions. -/
def FsmAction.timerInput : FsmAction → Option TimerInput
  | .startTimer id kind _ periodic => some (.start id kind periodic)
  | .cancelTimer id => some (.cancel id)
  | .resetHeartbeat timerId _ => some (.start timerId .heartbeatMissed false)
  | _ => none

namespace TimerRuntime

def init : TimerRuntime := ⟨.default, [], []⟩

/-- Arm `id` with a new task. -/
def start (w : TimerRuntime) (id : TimerId) (kind : TimerKind) (periodic : Bool) : TimerRuntime :=
  let (generation, timers) := w.timers.nextGenerationFor id
  { w with
    timers := timers.arm id w.sleepers.length periodic generation
    sleepers := w.sleepers ++ [⟨id, kind, periodic, generation⟩] }

/-- The next expiry of the channel, and whether it reaches the state machine. -/
def deliver (w : TimerRuntime) : TimerRuntime × Option Expiry :=
  match w.queue with
  | [] => (w, none)
  | e :: queue =>
    if !w.timers.isCurrentGeneration e.id e.generation then ({ w with queue }, none)
    else ({ w with timers := w.timers.forget e.id, queue }, some e)

/-- One step of the runtime; the output is the expiry forwarded to the state machine. -/
def step (w : TimerRuntime) : TimerInput → TimerRuntime × Option Expiry
  | .start id kind periodic => (w.start id kind periodic, none)
  | .cancel id => ({ w with timers := w.timers.cancel id }, none)
  | .fire task =>
    match w.sleepers[task]? with
    | none => (w, none)
    | some s => ({ w with queue := w.queue ++ [⟨s.id, s.kind, s.generation, task⟩] }, none)
  | .deliver => w.deliver

abbrev Entry : Type := Machine.Entry TimerRuntime TimerInput (Option Expiry)

def run (inputs : List TimerInput) : Except Empty (TimerRuntime × List Entry) :=
  Machine.run (fun w i => .ok (w.step i)) init inputs

end TimerRuntime

/-! ## The arm an expiry belongs to -/

/-- The input arms or cancels `id`. -/
def TimerInput.touches (id : TimerId) : TimerInput → Bool
  | .start id' _ _ => id' = id
  | .cancel id' => id' = id
  | _ => false

/-- The arms of a run, in order. The task of an arm is its position. -/
def arms (inputs : List TimerInput) : List (TimerId × TimerKind × Bool) :=
  inputs.filterMap fun
    | .start id kind periodic => some (id, kind, periodic)
    | _ => none

/-- Task `task` was spawned by the latest arm of `id`, and `id` was not cancelled since. -/
def Live (inputs : List TimerInput) (id : TimerId) (kind : TimerKind) (periodic : Bool)
    (task : ℕ) : Prop :=
  ∃ before after, inputs = before ++ .start id kind periodic :: after ∧
    (arms before).length = task ∧ ∀ i ∈ after, i.touches id = false

section Live

variable {inputs : List TimerInput} {id : TimerId} {kind : TimerKind} {periodic : Bool}
  {task : ℕ} {i : TimerInput}

theorem arms_append (xs ys : List TimerInput) : arms (xs ++ ys) = arms xs ++ arms ys :=
  List.filterMap_append

theorem Live.snoc (h : Live inputs id kind periodic task) (hi : i.touches id = false) :
    Live (inputs ++ [i]) id kind periodic task := by
  obtain ⟨before, after, rfl, htask, hafter⟩ := h
  refine ⟨before, after ++ [i], by simp, htask, ?_⟩
  exact List.forall_mem_append.mpr ⟨hafter, List.forall_mem_singleton.mpr hi⟩

theorem live_start (inputs : List TimerInput) (id : TimerId) (kind : TimerKind) (periodic : Bool) :
    Live (inputs ++ [.start id kind periodic]) id kind periodic (arms inputs).length :=
  ⟨inputs, [], rfl, rfl, fun _ h => absurd h List.not_mem_nil⟩

theorem Live.of_snoc (h : Live (inputs ++ [i]) id kind periodic task) :
    i = .start id kind periodic ∧ task = (arms inputs).length ∨
      i.touches id = false ∧ Live inputs id kind periodic task := by
  obtain ⟨before, after, heq, htask, hafter⟩ := h
  rcases List.eq_nil_or_concat after with rfl | ⟨after, last, rfl⟩
  · obtain ⟨rfl, hi⟩ := List.append_inj' heq rfl
    cases hi
    exact .inl ⟨rfl, htask.symm⟩
  · rw [List.concat_eq_append, ← List.cons_append, ← List.append_assoc] at heq
    obtain ⟨rfl, hi⟩ := List.append_inj' heq rfl
    cases hi
    rw [List.concat_eq_append] at hafter
    exact .inr ⟨hafter i (by simp), before, after, rfl, htask,
      fun j hj => hafter j (List.mem_append_left _ hj)⟩

/-- The arm of a live task is on record. -/
theorem Live.getElem? (h : Live inputs id kind periodic task) :
    (arms inputs)[task]? = some (id, kind, periodic) := by
  obtain ⟨before, after, rfl, rfl, -⟩ := h
  rw [arms_append, List.getElem?_append_right le_rfl, Nat.sub_self]
  rfl

end Live

/-! ## Generations are unique -/

namespace TimerRuntime

variable {queue : List Expiry}

def armsOf (w : TimerRuntime) (id : TimerId) : ℕ := w.sleepers.countP fun s => s.id = id

/-- The table's counters, the tasks' stamps and the channel belong together: the task of
the `n`-th arm of an id carries generation `n`. -/
structure Stamped (w : TimerRuntime) : Prop where
  last : ∀ id, (w.timers.lastGenerations.lookup id).getD 0 = UInt64.ofNat (w.armsOf id)
  stamp : ∀ k s, w.sleepers[k]? = some s →
    s.generation = UInt64.ofNat ((w.sleepers.take (k + 1)).countP fun s' => s'.id = s.id)
  queued : ∀ e ∈ w.queue, ∃ periodic,
    w.sleepers[e.task]? = some ⟨e.id, e.kind, periodic, e.generation⟩

variable {w : TimerRuntime}

theorem stamped_init : init.Stamped where
  last id := by
    simp [init, TimerSet.default, armsOf]
  stamp k s h := by simp [init] at h
  queued e h := by simp [init] at h

theorem Stamped.start (h : w.Stamped) (id : TimerId) (kind : TimerKind) (periodic : Bool) :
    (w.start id kind periodic).Stamped where
  last id' := by
    have hlast := h.last
    simp only [TimerRuntime.start, TimerSet.nextGenerationFor, TimerSet.arm, armsOf,
      FinMap.lookup_insert_eq, List.countP_append, List.countP_singleton] at hlast ⊢
    by_cases hid : id' = id
    · subst hid
      simp [hlast id', UInt64.ofNat_add]
    · simp [hid, Ne.symm hid, hlast id']
  stamp k s hs := by
    simp only [TimerRuntime.start, TimerSet.nextGenerationFor] at hs ⊢
    by_cases hk : k < w.sleepers.length
    · rw [List.getElem?_append_left hk] at hs
      rw [List.take_append_of_le_length hk]
      exact h.stamp k s hs
    · obtain rfl : k = w.sleepers.length := by
        have := (List.getElem?_eq_some_iff.mp hs).1
        simp only [List.length_append, List.length_singleton] at this
        omega
      simp only [List.getElem?_concat_length, Option.some.injEq] at hs
      subst hs
      have hlast := h.last id
      rw [List.take_of_length_le (by simp), List.countP_append, List.countP_singleton]
      simp only [hlast, armsOf, decide_true, if_true, UInt64.ofNat_add]
      rfl
  queued e he := by
    obtain ⟨p, hp⟩ := h.queued e he
    exact ⟨p, List.getElem?_append_left (List.getElem?_eq_some_iff.mp hp).1 ▸ hp⟩

/-- Counting the elements that satisfy `p`, a later one is counted after an earlier one. -/
theorem countP_take_lt {α : Type} {p : α → Bool} {l : List α} {k k' : ℕ} {a : α} (hlt : k < k')
    (ha : l[k']? = some a) (hp : p a = true) :
    (l.take (k + 1)).countP p < (l.take (k' + 1)).countP p := by
  have hlast : l.take (k' + 1) = l.take k' ++ [a] := by
    rw [List.take_add_one, ha]
    rfl
  have hle : (l.take (k + 1)).countP p ≤ (l.take k').countP p :=
    List.Sublist.countP_le (List.take_sublist_take_left hlt)
  rw [hlast, List.countP_append, List.countP_singleton, if_pos hp]
  omega

/-- Two tasks of one id with one stamp are the same task, as long as the counter has not
wrapped. -/
theorem Stamped.task_eq (h : w.Stamped) {k k' : ℕ} {s s' : Sleeper}
    (hbound : w.armsOf s.id < 2 ^ 64) (hs : w.sleepers[k]? = some s)
    (hs' : w.sleepers[k']? = some s') (hid : s'.id = s.id)
    (hgen : s'.generation = s.generation) : k' = k := by
  have hle : ∀ n, (w.sleepers.take n).countP (fun x => decide (x.id = s.id)) < 2 ^ 64 := fun n =>
    lt_of_le_of_lt (List.Sublist.countP_le (List.take_sublist n w.sleepers)) hbound
  have hrank : (w.sleepers.take (k + 1)).countP (fun x => decide (x.id = s.id)) =
      (w.sleepers.take (k' + 1)).countP (fun x => decide (x.id = s.id)) := by
    have hstamp := h.stamp k s hs
    have hstamp' := h.stamp k' s' hs'
    rw [hid] at hstamp'
    rw [hstamp, hstamp'] at hgen
    have hnat := congrArg UInt64.toNat hgen
    rw [UInt64.toNat_ofNat_of_lt' (hle _), UInt64.toNat_ofNat_of_lt' (hle _)] at hnat
    exact hnat.symm
  rcases Nat.lt_trichotomy k k' with hlt | heq | hlt
  · exact absurd hrank (Nat.ne_of_lt (countP_take_lt hlt hs' (decide_eq_true hid)))
  · exact heq.symm
  · exact absurd hrank.symm (Nat.ne_of_lt (countP_take_lt hlt hs (decide_eq_true rfl)))

/-! ## The table follows the latest arms -/

/-- The expiries forwarded so far. -/
def forwarded (trace : List Entry) : List Expiry := trace.filterMap Machine.Entry.output

/-- The table and the expiries forwarded, against the inputs of the run. -/
structure Tracked (w : TimerRuntime) (inputs : List TimerInput) (sent : List Expiry) : Prop where
  arms : arms inputs = w.sleepers.map fun s => (s.id, s.kind, s.periodic)
  armed : ∀ id entry, w.timers.handles.lookup id = some entry → ∃ kind,
    w.sleepers[entry.handle]? = some ⟨id, kind, entry.periodic, entry.generation⟩ ∧
      Live inputs id kind entry.periodic entry.handle
  unspent : ∀ id entry, w.timers.handles.lookup id = some entry → entry.periodic = false →
    ∀ e ∈ sent, e.task ≠ entry.handle
  kept : ∀ id kind task, Live inputs id kind true task →
    ∃ entry, w.timers.handles.lookup id = some entry ∧ entry.handle = task
  known : ∀ e ∈ sent, e.task < w.sleepers.length
  once : ∀ (task : ℕ) (s : Sleeper), w.sleepers[task]? = some s → s.periodic = false →
    sent.countP (fun e => e.task = task) ≤ 1

variable {inputs : List TimerInput} {sent : List Expiry}

theorem tracked_init : init.Tracked [] [] where
  arms := rfl
  armed id entry h := by simp [init, TimerSet.default] at h
  unspent id entry h := by simp [init, TimerSet.default] at h
  kept id kind task h := by
    obtain ⟨before, after, heq, -⟩ := h
    simp at heq
  known e he := absurd he List.not_mem_nil
  once task s h := by simp [init] at h

/-- An input that leaves the table and the tasks as they are. -/
theorem Tracked.untouched {i : TimerInput} (h : w.Tracked inputs sent)
    (hi : ∀ id, i.touches id = false) (harms : Dlep.arms [i] = []) :
    { w with queue }.Tracked (inputs ++ [i]) sent where
  arms := by rw [arms_append, harms, List.append_nil, h.arms]
  armed id entry hentry := by
    obtain ⟨kind, hs, hlive⟩ := h.armed id entry hentry
    exact ⟨kind, hs, hlive.snoc (hi id)⟩
  unspent := h.unspent
  kept id kind task hlive := by
    rcases hlive.of_snoc with ⟨rfl, -⟩ | ⟨-, hlive⟩
    · have htouches := hi id
      simp [TimerInput.touches] at htouches
    · exact h.kept id kind task hlive
  known := h.known
  once := h.once

theorem Tracked.cancel (h : w.Tracked inputs sent) (id : TimerId) :
    { w with timers := w.timers.cancel id }.Tracked (inputs ++ [TimerInput.cancel id]) sent where
  arms := by
    rw [arms_append, h.arms]
    simp [Dlep.arms]
  armed id' entry hentry := by
    simp only [TimerSet.cancel, FinMap.lookup_erase_eq] at hentry
    split at hentry
    · cases hentry
    · rename_i hid
      obtain ⟨kind, hs, hlive⟩ := h.armed id' entry hentry
      exact ⟨kind, hs, hlive.snoc (decide_eq_false (Ne.symm hid))⟩
  unspent id' entry hentry := by
    simp only [TimerSet.cancel, FinMap.lookup_erase_eq] at hentry
    split at hentry
    · cases hentry
    · exact h.unspent id' entry hentry
  kept id' kind task hlive := by
    rcases hlive.of_snoc with ⟨heq, -⟩ | ⟨htouches, hlive⟩
    · cases heq
    · have hid : id' ≠ id := fun heq => of_decide_eq_false htouches heq.symm
      simp only [TimerSet.cancel, FinMap.lookup_erase_eq, if_neg hid]
      exact h.kept id' kind task hlive
  known := h.known
  once := h.once

theorem Tracked.start (h : w.Tracked inputs sent) (id : TimerId) (kind : TimerKind)
    (periodic : Bool) :
    (w.start id kind periodic).Tracked (inputs ++ [.start id kind periodic]) sent where
  arms := by
    rw [arms_append, h.arms]
    simp [Dlep.arms, TimerRuntime.start, TimerSet.nextGenerationFor]
  armed id' entry hentry := by
    simp only [TimerRuntime.start, TimerSet.nextGenerationFor, TimerSet.arm,
      FinMap.lookup_insert_eq] at hentry ⊢
    split at hentry
    · rename_i hid
      cases hentry
      subst hid
      have hlength : (Dlep.arms inputs).length = w.sleepers.length := by
        rw [h.arms, List.length_map]
      refine ⟨kind, by simp, ?_⟩
      rw [← hlength]
      exact live_start inputs id' kind periodic
    · rename_i hid
      obtain ⟨kind', hs, hlive⟩ := h.armed id' entry hentry
      refine ⟨kind', ?_, hlive.snoc (decide_eq_false (Ne.symm hid))⟩
      rw [List.getElem?_append_left (List.getElem?_eq_some_iff.mp hs).1]
      exact hs
  unspent id' entry hentry hshot e he := by
    simp only [TimerRuntime.start, TimerSet.nextGenerationFor, TimerSet.arm,
      FinMap.lookup_insert_eq] at hentry
    split at hentry
    · cases hentry
      exact Nat.ne_of_lt (h.known e he)
    · exact h.unspent id' entry hentry hshot e he
  kept id' kind' task hlive := by
    simp only [TimerRuntime.start, TimerSet.nextGenerationFor, TimerSet.arm,
      FinMap.lookup_insert_eq]
    rcases hlive.of_snoc with ⟨heq, htask⟩ | ⟨htouches, hlive⟩
    · cases heq
      refine ⟨_, if_pos rfl, ?_⟩
      rw [htask, h.arms, List.length_map]
    · have hid : id' ≠ id := fun heq => of_decide_eq_false htouches heq.symm
      rw [if_neg hid]
      exact h.kept id' kind' task hlive
  known e he := by
    have hlt := h.known e he
    simp only [TimerRuntime.start, TimerSet.nextGenerationFor, List.length_append,
      List.length_singleton]
    omega
  once task s hs hshot := by
    simp only [TimerRuntime.start, TimerSet.nextGenerationFor] at hs
    by_cases htask : task < w.sleepers.length
    · rw [List.getElem?_append_left htask] at hs
      exact h.once task s hs hshot
    · have hzero : sent.countP (fun e => decide (e.task = task)) = 0 := by
        refine List.countP_eq_zero.mpr fun e he => ?_
        have hlt := h.known e he
        simp only [decide_eq_true_eq]
        omega
      omega

/-- An expiry that passes the check comes from the live task of its id. -/
theorem Tracked.current {e : Expiry} (h : w.Tracked inputs sent) (hstamped : w.Stamped)
    (hbound : w.armsOf e.id < 2 ^ 64) (he : e ∈ w.queue)
    (hcurrent : w.timers.isCurrentGeneration e.id e.generation = true) :
    ∃ entry, w.timers.handles.lookup e.id = some entry ∧ entry.handle = e.task ∧
      w.sleepers[e.task]? = some ⟨e.id, e.kind, entry.periodic, e.generation⟩ ∧
      Live inputs e.id e.kind entry.periodic e.task := by
  obtain ⟨entry, hentry, hgen⟩ := (Option.any_eq_true _ _).mp hcurrent
  obtain ⟨kind, hs, hlive⟩ := h.armed e.id entry hentry
  obtain ⟨periodic, hsent⟩ := hstamped.queued e he
  have hgen : entry.generation = e.generation := of_decide_eq_true hgen
  have htask : entry.handle = e.task := hstamped.task_eq hbound hsent hs rfl hgen
  rw [htask] at hs hlive
  obtain ⟨-, hkind, hperiodic, -⟩ := Sleeper.mk.inj (Option.some.inj (hsent.symm.trans hs))
  rw [← hkind] at hlive
  rw [hperiodic] at hsent
  exact ⟨entry, hentry, htask, hsent, hlive⟩

theorem lookup_forget (t : TimerSet) (id id' : TimerId) :
    (t.forget id).handles.lookup id' =
      if id' = id then (t.handles.lookup id).filter TimerEntry.periodic
      else t.handles.lookup id' := by
  unfold TimerSet.forget
  cases hentry : t.handles.lookup id with
  | none =>
    dsimp only
    split
    · rename_i hid
      rw [hid, hentry]
      rfl
    · rfl
  | some entry =>
    dsimp only
    split
    · rename_i hshot
      rw [FinMap.lookup_erase_eq]
      split
      · simpa [Option.filter] using hshot
      · rfl
    · rename_i hperiodic
      split
      · rename_i hid
        rw [hid, hentry]
        simpa [Option.filter] using hperiodic
      · rfl

/-- Forwarding an expiry of the live task. -/
theorem Tracked.forward {e : Expiry} {entry : TimerEntry} (h : w.Tracked inputs sent)
    (hentry : w.timers.handles.lookup e.id = some entry) (htask : entry.handle = e.task)
    (hs : w.sleepers[e.task]? = some ⟨e.id, e.kind, entry.periodic, e.generation⟩) :
    { w with timers := w.timers.forget e.id, queue }.Tracked (inputs ++ [TimerInput.deliver])
      (sent ++ [e]) where
  arms := by
    rw [arms_append, h.arms]
    simp [Dlep.arms]
  armed id' entry' hentry' := by
    have hold : w.timers.handles.lookup id' = some entry' := by
      rw [lookup_forget] at hentry'
      split at hentry'
      · rename_i hid
        rw [hid]
        exact (Option.filter_eq_some_iff.mp hentry').1
      · exact hentry'
    obtain ⟨kind, hs', hlive⟩ := h.armed id' entry' hold
    exact ⟨kind, hs', hlive.snoc rfl⟩
  unspent id' entry' hentry' hshot x hx := by
    rw [lookup_forget] at hentry'
    split at hentry'
    · have hperiodic := (Option.filter_eq_some_iff.mp hentry').2
      cases hshot.symm.trans hperiodic
    · rename_i hid
      rcases List.mem_append.mp hx with hx | hx
      · exact h.unspent id' entry' hentry' hshot x hx
      · cases List.mem_singleton.mp hx
        intro heq
        obtain ⟨kind, hs', -⟩ := h.armed id' entry' hentry'
        rw [← heq] at hs'
        exact hid (Sleeper.mk.inj (Option.some.inj (hs'.symm.trans hs))).1
  kept id' kind task hlive := by
    rcases hlive.of_snoc with ⟨heq, -⟩ | ⟨-, hlive⟩
    · cases heq
    · obtain ⟨entry', hentry', htask'⟩ := h.kept id' kind task hlive
      refine ⟨entry', ?_, htask'⟩
      rw [lookup_forget]
      split
      · rename_i hid
        subst hid
        cases hentry.symm.trans hentry'
        -- The live task is periodic, so its entry is.
        have hperiodic : entry.periodic = true := by
          have harm := hlive.getElem?
          rw [h.arms, List.getElem?_map, ← htask', htask, hs] at harm
          exact (Prod.mk.inj (Prod.mk.inj (Option.some.inj harm)).2).2
        exact Option.filter_eq_some_iff.mpr ⟨hentry, hperiodic⟩
      · exact hentry'
  known x hx := by
    rcases List.mem_append.mp hx with hx | hx
    · exact h.known x hx
    · cases List.mem_singleton.mp hx
      exact (List.getElem?_eq_some_iff.mp hs).1
  once task s hsleeper hshot := by
    have hone := h.once task s hsleeper hshot
    rw [List.countP_append, List.countP_singleton]
    split
    · rename_i hsame
      have hsame : e.task = task := of_decide_eq_true hsame
      subst hsame
      cases hs.symm.trans hsleeper
      have hzero : sent.countP (fun x => decide (x.task = e.task)) = 0 :=
        List.countP_eq_zero.mpr fun x hx heq =>
          h.unspent e.id entry hentry hshot x hx ((of_decide_eq_true heq).trans htask.symm)
      omega
    · exact hone

/-! ## Runs -/

theorem Stamped.of_queue {timers : TimerSet} (h : w.Stamped)
    (hlast : timers.lastGenerations = w.timers.lastGenerations) (hqueue : ∀ e ∈ queue, ∃ periodic,
      w.sleepers[e.task]? = some ⟨e.id, e.kind, periodic, e.generation⟩) :
    { w with timers, queue }.Stamped where
  last id := by
    have hw := h.last id
    rw [← hlast] at hw
    exact hw
  stamp := h.stamp
  queued := hqueue

theorem lastGenerations_forget (t : TimerSet) (id : TimerId) :
    (t.forget id).lastGenerations = t.lastGenerations := by
  unfold TimerSet.forget
  split
  · split <;> rfl
  · rfl

/-- What one step keeps, and what it forwards. -/
theorem step_tracked (hstamped : w.Stamped) (h : w.Tracked inputs sent)
    (hbound : ∀ id, w.armsOf id < 2 ^ 64) (i : TimerInput) :
    (w.step i).1.Stamped ∧ (w.step i).1.Tracked (inputs ++ [i]) (sent ++ (w.step i).2.toList) ∧
      ∀ e, (w.step i).2 = some e → ∃ periodic, Live inputs e.id e.kind periodic e.task := by
  cases i with
  | start id kind periodic =>
    refine ⟨hstamped.start id kind periodic, ?_, nofun⟩
    simpa [step] using h.start id kind periodic
  | cancel id =>
    refine ⟨hstamped.of_queue rfl hstamped.queued, ?_, nofun⟩
    simpa [step] using h.cancel id
  | fire task =>
    simp only [step]
    split
    · refine ⟨hstamped, ?_, nofun⟩
      simpa using h.untouched (i := .fire task) (fun _ => rfl) rfl
    · rename_i s hs
      refine ⟨hstamped.of_queue rfl ?_, ?_, nofun⟩
      · refine List.forall_mem_append.mpr ⟨hstamped.queued, List.forall_mem_singleton.mpr ?_⟩
        exact ⟨s.periodic, hs⟩
      · simpa using h.untouched (i := .fire task) (fun _ => rfl) rfl
  | deliver =>
    simp only [step, deliver]
    split
    · refine ⟨hstamped, ?_, nofun⟩
      simpa using h.untouched (i := .deliver) (fun _ => rfl) rfl
    · rename_i e queue hqueue
      have hrest : ∀ x ∈ queue, ∃ periodic,
          w.sleepers[x.task]? = some ⟨x.id, x.kind, periodic, x.generation⟩ := fun x hx =>
        hstamped.queued x (hqueue ▸ List.mem_cons_of_mem _ hx)
      split
      · refine ⟨hstamped.of_queue rfl hrest, ?_, nofun⟩
        simpa using h.untouched (i := .deliver) (fun _ => rfl) rfl
      · rename_i hcurrent
        obtain ⟨entry, hentry, htask, hs, hlive⟩ := h.current (e := e) hstamped (hbound e.id)
          (hqueue ▸ List.mem_cons_self) (by simpa using hcurrent)
        refine ⟨hstamped.of_queue (lastGenerations_forget _ _) hrest,
          h.forward hentry htask hs, ?_⟩
        intro x hx
        cases hx
        exact ⟨entry.periodic, hlive⟩

/-- How often a run arms `id`. -/
def armings (inputs : List TimerInput) (id : TimerId) : ℕ :=
  (Dlep.arms inputs).countP fun a => a.1 = id

theorem Tracked.armsOf_eq (h : w.Tracked inputs sent) (id : TimerId) :
    w.armsOf id = armings inputs id := by
  rw [armings, h.arms, List.countP_map]
  rfl

theorem armings_mono {xs ys : List TimerInput} (h : xs <+: ys) (id : TimerId) :
    armings xs id ≤ armings ys id := by
  obtain ⟨more, rfl⟩ := h
  rw [armings, armings, arms_append, List.countP_append]
  exact Nat.le_add_right _ _

/-- The invariant of a run whose counters have not wrapped. -/
def Sound (w : TimerRuntime) (trace : List Entry) : Prop :=
  (∀ id, armings (trace.map Machine.Entry.input) id < 2 ^ 64) →
    w.Stamped ∧ w.Tracked (trace.map Machine.Entry.input) (forwarded trace)

/-- The expiry forwarded at a point of a run is live there. -/
def Forwards (past : List Entry) (e : Entry) : Prop :=
  (∀ id, armings (past.map Machine.Entry.input) id < 2 ^ 64) → ∀ x, e.output = some x →
    ∃ periodic, Live (past.map Machine.Entry.input) x.id x.kind periodic x.task

theorem sound_step (w : TimerRuntime) (trace : List Entry) (i : TimerInput) (w' : TimerRuntime)
    (o : Option Expiry) (h : w.Sound trace)
    (hstep : (.ok (w.step i) : Except Empty _) = .ok (w', o)) :
    w'.Sound (trace ++ [⟨w, i, o, w'⟩]) ∧ Forwards trace ⟨w, i, o, w'⟩ := by
  obtain ⟨rfl, rfl⟩ : (w.step i).1 = w' ∧ (w.step i).2 = o := by
    rw [Except.ok.inj hstep]
    exact ⟨rfl, rfl⟩
  have hall (hbound : ∀ id, armings (trace.map Machine.Entry.input) id < 2 ^ 64) :=
    have hw := h hbound
    step_tracked hw.1 hw.2 (fun id => hw.2.armsOf_eq id ▸ hbound id) i
  constructor
  · intro hbound
    have hpast : ∀ id, armings (trace.map Machine.Entry.input) id < 2 ^ 64 := by
      intro id
      refine lt_of_le_of_lt (armings_mono ?_ id) (hbound id)
      rw [List.map_append]
      exact List.prefix_append _ _
    obtain ⟨hstamped, htracked, -⟩ := hall hpast
    refine ⟨hstamped, ?_⟩
    have hsent (past : List Entry) (e : Entry) :
        forwarded (past ++ [e]) = forwarded past ++ e.output.toList := by
      cases h : e.output <;> simp [forwarded, h]
    rw [hsent, List.map_append]
    exact htracked
  · intro hbound
    exact (hall hbound).2.2

/-- Whatever the order in which tasks fire and expiries are read, the state machine only sees an
expiry of the latest arm of its timer with no cancel since, sees a one-shot arm at most once, and a
periodic timer keeps its handle until it is cancelled or armed again. -/
theorem stale_expiries_dropped (inputs : List TimerInput)
    (hbound : ∀ id, armings inputs id < 2 ^ 64) :
    ∃ w trace, run inputs = .ok (w, trace) ∧
      (∀ past e x, past ++ [e] <+: trace → e.output = some x →
        ∃ periodic, Live (past.map Machine.Entry.input) x.id x.kind periodic x.task) ∧
      (∀ task id kind, (arms inputs)[task]? = some (id, kind, false) →
        (forwarded trace).countP (fun x => x.task = task) ≤ 1) ∧
      ∀ id kind task, Live inputs id kind true task →
        ∃ entry, w.timers.handles.lookup id = some entry ∧ entry.handle = task := by
  have hinit : init.Sound [] := fun _ => ⟨stamped_init, tracked_init⟩
  obtain ⟨w, trace, hrun⟩ : ∃ w trace, run inputs = .ok (w, trace) :=
    Machine.run_total (I := fun _ => True) (fun w i _ => ⟨_, _, rfl, trivial⟩) inputs trivial
  have hinputs := Machine.run_inputs hrun
  have hpoints := Machine.run_points (J := Sound) (P := Forwards) sound_step hinit hrun
  have hsound := Machine.run_history (J := Sound)
    (fun w trace i w' o hw hstep => (sound_step w trace i w' o hw hstep).1) hinit hrun
  obtain ⟨-, htracked⟩ := hsound (by rwa [hinputs])
  rw [hinputs] at htracked
  refine ⟨w, trace, hrun, ?_, ?_, htracked.kept⟩
  · intro past e x hpre hx
    refine hpoints past e hpre ?_ x hx
    intro id
    refine lt_of_le_of_lt (armings_mono ?_ id) (hbound id)
    rw [← hinputs]
    exact ((List.prefix_append _ _).trans hpre).map _
  · intro task id kind htask
    rw [htracked.arms, List.getElem?_map, Option.map_eq_some_iff] at htask
    obtain ⟨s, hs, hfields⟩ := htask
    exact htracked.once task s hs (congrArg (fun a => a.2.2) hfields)

/-- A heartbeat timer armed again after its first task queued an expiry. -/
def rearmed : List TimerInput :=
  [.start ⟨0⟩ .heartbeatMissed false, .fire 0, .start ⟨0⟩ .heartbeatMissed false, .deliver]

theorem stale_expiries_dropped_rearmed : ∃ w trace, run rearmed = .ok (w, trace) ∧
    ∀ past e x, past ++ [e] <+: trace → e.output = some x →
      ∃ periodic, Live (past.map Machine.Entry.input) x.id x.kind periodic x.task := by
  obtain ⟨w, trace, hrun, hlive, -⟩ := stale_expiries_dropped rearmed (by
    intro id
    refine lt_of_le_of_lt List.countP_le_length ?_
    decide)
  exact ⟨w, trace, hrun, hlive⟩

end TimerRuntime

end Dlep
