-- SUMMARY: Tables of armed timers with due times, and a machine that drives them through its outputs.
import Dlep.Lib.FinMap
import Dlep.Lib.Machine

/-!
# Timers

A table holds at most one armed timer for each id. Arming an id replaces its timer;
an expiry removes a one-shot timer and re-arms a periodic one. Time is an input: a
driven machine is stepped with the current time beside its own input, and nothing
below asks that time moves forward.
-/

namespace Timers

open Machine

variable {ι κ : Type} [DecidableEq ι]

/-! ## Tables -/

structure Armed (κ : Type) where
  kind : κ
  due : ℕ
  period : Option ℕ
  deriving DecidableEq, Repr

abbrev Table (ι κ : Type) : Type := FinMap ι (Armed κ)

inductive Op (ι κ : Type) where
  | arm (id : ι) (kind : κ) (delay : ℕ) (periodic : Bool)
  | disarm (id : ι)
  deriving DecidableEq, Repr

def Op.apply (now : ℕ) (t : Table ι κ) : Op ι κ → Table ι κ
  | .arm id kind delay periodic =>
    t.insert id ⟨kind, now + delay, if periodic then some delay else none⟩
  | .disarm id => t.erase id

def applyAll (now : ℕ) (t : Table ι κ) (ops : List (Op ι κ)) : Table ι κ :=
  ops.foldl (Op.apply now) t

/-- The table once the timer of `id` has gone off. -/
def expire (now : ℕ) (t : Table ι κ) (id : ι) : Table ι κ :=
  match t.lookup id with
  | some ⟨kind, _, some period⟩ => t.insert id ⟨kind, now + period, some period⟩
  | _ => t.erase id

section

variable (now : ℕ) (t : Table ι κ) (id id' : ι) (kind : κ) (delay : ℕ) (periodic : Bool)
  (ops : List (Op ι κ))

@[simp] theorem applyAll_nil : applyAll now t [] = t := rfl

@[simp] theorem applyAll_cons (op : Op ι κ) :
    applyAll now t (op :: ops) = applyAll now (op.apply now t) ops := rfl

theorem applyAll_append (more : List (Op ι κ)) :
    applyAll now t (ops ++ more) = applyAll now (applyAll now t ops) more := List.foldl_append

@[simp] theorem lookup_arm :
    ((Op.arm id kind delay periodic).apply now t).lookup id' =
      if id' = id then some ⟨kind, now + delay, if periodic then some delay else none⟩
      else t.lookup id' :=
  FinMap.lookup_insert_eq t id id' _

@[simp] theorem lookup_disarm :
    ((Op.disarm id : Op ι κ).apply now t).lookup id' = if id' = id then none else t.lookup id' :=
  FinMap.lookup_erase_eq t id id'

variable {t id id'}

theorem lookup_expire_of_ne (h : id' ≠ id) : (expire now t id).lookup id' = t.lookup id' := by
  unfold expire
  split
  · rw [FinMap.lookup_insert_eq, if_neg h]
  · rw [FinMap.lookup_erase_eq, if_neg h]

/-- A one-shot timer is gone once it has expired. -/
theorem lookup_expire_oneShot {armed : Armed κ} (h : t.lookup id = some armed)
    (hshot : armed.period = none) : (expire now t id).lookup id = none := by
  obtain ⟨kind, due, period⟩ := armed
  subst hshot
  unfold expire
  rw [h]
  exact (FinMap.lookup_erase_eq t id id).trans (if_pos rfl)

/-- A periodic timer keeps its kind and its period. -/
theorem lookup_expire_periodic {due period : ℕ} (h : t.lookup id = some ⟨kind, due, some period⟩) :
    (expire now t id).lookup id = some ⟨kind, now + period, some period⟩ := by
  unfold expire
  rw [h]
  exact (FinMap.lookup_insert_eq t id id _).trans (if_pos rfl)

end

/-! ## What is armed -/

/-- The kind of each armed timer, and whether it repeats. -/
def armed (t : Table ι κ) (id : ι) : Option (κ × Bool) :=
  (t.lookup id).map fun a => (a.kind, a.period.isSome)

/-- What an operation does to what is armed. -/
def Op.effect (f : ι → Option (κ × Bool)) : Op ι κ → ι → Option (κ × Bool)
  | .arm id kind _ periodic => Function.update f id (some (kind, periodic))
  | .disarm id => Function.update f id none

/-- What an expiry of `id` leaves armed. -/
def spent (f : ι → Option (κ × Bool)) (id : ι) : ι → Option (κ × Bool) :=
  Function.update f id ((f id).filter Prod.snd)

theorem armed_apply (now : ℕ) (t : Table ι κ) (op : Op ι κ) :
    armed (op.apply now t) = op.effect (armed t) := by
  funext id'
  cases op with
  | arm id kind delay periodic =>
    by_cases h : id' = id
    · subst h
      cases periodic <;> simp [armed, Op.effect]
    · simp [armed, Op.effect, h]
  | disarm id =>
    by_cases h : id' = id
    · subst h
      simp [armed, Op.effect]
    · simp [armed, Op.effect, h]

theorem armed_applyAll (now : ℕ) (t : Table ι κ) (ops : List (Op ι κ)) :
    armed (applyAll now t ops) = ops.foldl Op.effect (armed t) := by
  induction ops generalizing t with
  | nil => rfl
  | cons op ops ih => rw [applyAll_cons, ih, armed_apply, List.foldl_cons]

theorem armed_expire (now : ℕ) (t : Table ι κ) (id : ι) :
    armed (expire now t id) = spent (armed t) id := by
  funext id'
  by_cases h : id' = id
  · subst h
    rw [spent, Function.update_self]
    unfold armed
    cases ht : t.lookup id' with
    | none => simp [expire, ht]
    | some a =>
      obtain ⟨kind, due, _ | period⟩ := a
      · rw [lookup_expire_oneShot now ht rfl]
        rfl
      · rw [lookup_expire_periodic now kind ht]
        rfl
  · rw [spent, Function.update_of_ne h]
    unfold armed
    rw [lookup_expire_of_ne now h]

/-- Disarming alone arms nothing, and leaves alone what it does not name. -/
theorem foldl_effect_disarm {ops : List (Op ι κ)} (h : ∀ op ∈ ops, ∃ i, op = .disarm i)
    (f : ι → Option (κ × Bool)) (id : ι) :
    ops.foldl Op.effect f id = none ∨
      Op.disarm id ∉ ops ∧ ops.foldl Op.effect f id = f id := by
  induction ops generalizing f with
  | nil => exact .inr ⟨List.not_mem_nil, rfl⟩
  | cons op ops ih =>
    obtain ⟨i, rfl⟩ := h op List.mem_cons_self
    rw [List.foldl_cons]
    rcases ih (fun op hop => h op (List.mem_cons_of_mem _ hop)) (Op.effect f (.disarm i)) with
      hnone | ⟨hmem, hkept⟩
    · exact .inl hnone
    · rw [hkept]
      by_cases hid : id = i
      · exact .inl (by rw [hid]; exact Function.update_self ..)
      · refine .inr ⟨?_, Function.update_of_ne hid ..⟩
        simp [hid, hmem]

/-- Nothing is armed once all that was has been disarmed. -/
theorem foldl_effect_cleared {ops : List (Op ι κ)} (h : ∀ op ∈ ops, ∃ i, op = .disarm i)
    {f : ι → Option (κ × Bool)} (hf : ∀ id, f id ≠ none → Op.disarm id ∈ ops) :
    ops.foldl Op.effect f = fun _ => none := by
  funext id
  rcases foldl_effect_disarm h f id with hnone | ⟨hmem, hkept⟩
  · exact hnone
  · rw [hkept]
    exact by_contra fun hne => hmem (hf id hne)

/-! ## Driven machines -/

/-- A machine and the timers it has armed. -/
structure Driven (σ ι κ : Type) where
  machine : σ
  timers : Table ι κ

section

variable {σ α ω ε : Type} (step : σ → α → Except ε (σ × ω)) (expiry : α → Option (ι × κ))
  (ops : ω → List (Op ι κ))

/-- The table once an input has arrived, before the machine answers it. -/
def expired (now : ℕ) (t : Table ι κ) (input : α) : Table ι κ :=
  match expiry input with
  | some (id, _) => expire now t id
  | none => t

/-- The table after a step. -/
def after (now : ℕ) (t : Table ι κ) (input : α) (output : ω) : Table ι κ :=
  applyAll now (expired expiry now t input) (ops output)

/-- Step the machine at a time and apply what it asks of its timers. -/
def drive (c : Driven σ ι κ) (input : ℕ × α) : Except ε (Driven σ ι κ × ω) :=
  match step c.machine input.2 with
  | .error e => .error e
  | .ok (s, o) => .ok (⟨s, after expiry ops input.1 c.timers input.2 o⟩, o)

/-- An expiry is of a timer that is armed, with the kind it was armed with. -/
def Fires (t : Table ι κ) (input : α) : Prop :=
  ∀ id kind, expiry input = some (id, kind) → ∃ armed, t.lookup id = some armed ∧ armed.kind = kind

/-- No timer expires that is not armed. -/
def Genuine (trace : List (Entry (Driven σ ι κ) (ℕ × α) ω)) : Prop :=
  ∀ e ∈ trace, Fires expiry e.before.timers e.input.2

/-- An expiry arms nothing. -/
theorem armed_expired_or (now : ℕ) (t : Table ι κ) (input : α) (id : ι) :
    armed (expired expiry now t input) id = none ∨
      armed (expired expiry now t input) id = armed t id := by
  unfold expired
  split
  · rename_i id' _ _
    rw [armed_expire, spent]
    by_cases h : id = id'
    · subst h
      rw [Function.update_self]
      cases (armed t id).eq_none_or_eq_some with
      | inl hnone => exact .inl (by rw [hnone]; rfl)
      | inr hsome =>
        obtain ⟨⟨kind, _ | _⟩, hsome⟩ := hsome
        · exact .inl (by rw [hsome]; rfl)
        · exact .inr (by rw [hsome]; rfl)
    · exact .inr (Function.update_of_ne h ..)
  · exact .inr rfl

variable {step expiry ops}

theorem expired_of_none {now : ℕ} {t : Table ι κ} {input : α} (h : expiry input = none) :
    expired expiry now t input = t := by
  unfold expired
  rw [h]

theorem drive_ok {c c' : Driven σ ι κ} {input : ℕ × α} {o : ω}
    (h : drive step expiry ops c input = .ok (c', o)) :
    step c.machine input.2 = .ok (c'.machine, o) ∧
      c'.timers = after expiry ops input.1 c.timers input.2 o := by
  unfold drive at h
  split at h
  · cases h
  · rename_i hstep
    cases h
    exact ⟨hstep, rfl⟩

/-- A driven machine completes every run if the machine alone does. -/
theorem run_drive_total {I : σ → Prop}
    (hstep : ∀ s a, I s → ∃ s' o, step s a = .ok (s', o) ∧ I s') (inputs : List (ℕ × α))
    {c : Driven σ ι κ} (hinit : I c.machine) :
    ∃ c' trace, run (drive step expiry ops) c inputs = .ok (c', trace) := by
  refine run_total (I := fun c => I c.machine) ?_ inputs hinit
  intro c input hI
  obtain ⟨s', o, hs, hI'⟩ := hstep c.machine input.2 hI
  exact ⟨⟨s', after expiry ops input.1 c.timers input.2 o⟩, o, by simp only [drive, hs], hI'⟩

/-- The history rule for runs in which no timer expires that is not armed. -/
theorem run_genuine {J : Driven σ ι κ → List (Entry (Driven σ ι κ) (ℕ × α) ω) → Prop}
    (hstep : ∀ c trace now a s' o, J c trace → Genuine expiry trace → Fires expiry c.timers a →
      step c.machine a = .ok (s', o) →
      J ⟨s', after expiry ops now c.timers a o⟩
        (trace ++ [⟨c, (now, a), o, ⟨s', after expiry ops now c.timers a o⟩⟩]))
    {c c' : Driven σ ι κ} {inputs : List (ℕ × α)}
    {trace : List (Entry (Driven σ ι κ) (ℕ × α) ω)} (hinit : J c [])
    (hrun : run (drive step expiry ops) c inputs = .ok (c', trace))
    (hgenuine : Genuine expiry trace) : J c' trace := by
  refine run_history (J := fun c trace => Genuine expiry trace → J c trace) ?_
    (fun _ => hinit) hrun hgenuine
  rintro c trace ⟨now, a⟩ ⟨s', t'⟩ o hJ hdrive hgenuine
  obtain ⟨hs, ht⟩ := drive_ok hdrive
  cases ht
  have hpast : Genuine expiry trace := fun e he => hgenuine e (List.mem_append_left _ he)
  have hfires : Fires expiry c.timers a := hgenuine _ (List.mem_append_right _ List.mem_cons_self)
  exact hstep c trace now a s' o (hJ hpast) hpast hfires hs

end

end Timers
