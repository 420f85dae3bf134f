-- SUMMARY: Readers of a buffer whose reads can fall outside it, and what they do when they stay inside.
import Mathlib.Data.List.Basic

/-!
# Checked reads

Indexing, slicing and splitting a buffer stop the program when they leave it. A
reader is a computation in which every such read is explicit: it ends with a
value, with an error it returns, or out of bounds. Code that tests the length
before it reads is equal to the `lift` of code without reads that can fail, and
then it is never out of bounds.
-/

namespace Bounds

/-- Why a reader ended without a value. -/
inductive Stop (ε : Type) where
  | raised (e : ε)
  | outOfBounds
deriving DecidableEq, Repr

variable {ε α β : Type}

/-- Code in which no read can leave its buffer. -/
def lift : Except ε α → Except (Stop ε) α
  | .ok a => .ok a
  | .error e => .error (.raised e)

@[simp] theorem lift_ok (a : α) : (lift (.ok a) : Except (Stop ε) α) = .ok a := rfl

@[simp] theorem lift_error (e : ε) : (lift (.error e) : Except (Stop ε) α) = .error (.raised e) := rfl

theorem ok_bind (a : α) (f : α → Except ε β) : (Except.ok a >>= f) = f a := rfl

theorem lift_ne_outOfBounds (x : Except ε α) : lift x ≠ .error .outOfBounds := by
  cases x with
  | ok a => exact nofun
  | error e => exact nofun

theorem bind_ne_outOfBounds {x : Except (Stop ε) α} {f : α → Except (Stop ε) β}
    (hx : x ≠ .error .outOfBounds) (hf : ∀ a, x = .ok a → f a ≠ .error .outOfBounds) :
    (x >>= f) ≠ .error .outOfBounds := by
  cases x with
  | ok a => exact hf a rfl
  | error stop => exact fun h => hx (congrArg Except.error (Except.error.inj h))

theorem lift_eq_ok {x : Except ε α} {a : α} : lift x = .ok a ↔ x = .ok a := by
  cases x with
  | ok b => simp
  | error e => simp

theorem lift_eq_error {x : Except ε α} {stop : Stop ε} :
    lift x = .error stop ↔ ∃ e, x = .error e ∧ stop = .raised e := by
  cases x with
  | ok a => simp
  | error e => simp [eq_comm]

/-- What a passed check says may be used to show that the reads after it are inside the buffer. -/
theorem lift_bind {x : Except ε α} {f : α → Except (Stop ε) β} {g : α → Except ε β}
    (h : ∀ a, x = .ok a → f a = lift (g a)) : (lift x >>= f) = lift (x >>= g) := by
  cases x with
  | ok a => exact h a rfl
  | error e => rfl

theorem lift_map (f : α → β) (x : Except ε α) : f <$> lift x = lift (f <$> x) := by
  cases x with
  | ok a => rfl
  | error e => rfl

theorem lift_ite {c : Prop} [Decidable c] {x y : Except (Stop ε) α} {x' y' : Except ε α}
    (hx : c → x = lift x') (hy : ¬ c → y = lift y') :
    (if c then x else y) = lift (if c then x' else y') := by
  split
  · exact hx ‹_›
  · exact hy ‹_›

/-! ## Computations that end with a value -/

def Succeeds (x : Except ε α) : Prop := ∃ a, x = .ok a

theorem succeeds_ok (a : α) : Succeeds (.ok a : Except ε α) := ⟨a, rfl⟩

theorem not_succeeds_error (e : ε) : ¬ Succeeds (.error e : Except ε α) := nofun

theorem succeeds_lift {x : Except ε α} : Succeeds (lift x) ↔ Succeeds x :=
  exists_congr fun _ => lift_eq_ok

theorem succeeds_ite {c : Prop} [Decidable c] {x y : Except ε α} {P Q : Prop}
    (hx : c → (Succeeds x ↔ P)) (hy : ¬ c → (Succeeds y ↔ Q)) :
    Succeeds (if c then x else y) ↔ if c then P else Q := by
  split
  · exact hx ‹_›
  · exact hy ‹_›

/-- A check that refuses its input when `c` holds. -/
theorem succeeds_unless {c P : Prop} [Decidable c] {e : ε} {y : Except ε α}
    (hy : ¬ c → (Succeeds y ↔ P)) : Succeeds (if c then .error e else y) ↔ ¬ c ∧ P := by
  split
  · exact iff_of_false (not_succeeds_error e) fun h => h.1 ‹_›
  · exact (hy ‹_›).trans (iff_and_self.mpr fun _ => ‹_›)

theorem succeeds_map {f : α → β} {x : Except ε α} : Succeeds (f <$> x) ↔ Succeeds x := by
  cases x with
  | ok a => exact iff_of_true (succeeds_ok _) (succeeds_ok a)
  | error e => exact iff_of_false (not_succeeds_error e) (not_succeeds_error e)

theorem succeeds_check {x : Except ε Unit} {f : Unit → Except ε β} {P Q : Prop}
    (hx : x = .ok () ↔ P) (hf : P → (Succeeds (f ()) ↔ Q)) : Succeeds (x >>= f) ↔ P ∧ Q := by
  cases x with
  | ok a =>
    have hP := hx.mp rfl
    exact (hf hP).trans (iff_and_self.mpr fun _ => hP)
  | error e => exact iff_of_false (not_succeeds_error e) fun h => nomatch hx.mpr h.1

theorem succeeds_bind_ok {x : Except ε α} {f : α → β} :
    Succeeds (x >>= fun a => .ok (f a)) ↔ Succeeds x := by
  cases x with
  | ok a => exact iff_of_true (succeeds_ok _) (succeeds_ok a)
  | error e => exact iff_of_false (not_succeeds_error e) (not_succeeds_error e)

/-! ## Reads -/

variable {xs : List α} {i lo hi n : ℕ}

/-- `xs[i]`. -/
def index (xs : List α) (i : ℕ) : Except (Stop ε) α :=
  match xs[i]? with
  | some a => .ok a
  | none => .error .outOfBounds

/-- `[xs[lo], …, xs[lo + n - 1]]`, read one by one. -/
def indices (xs : List α) (lo : ℕ) : ℕ → Except (Stop ε) (List α)
  | 0 => .ok []
  | n + 1 => do
    let a ← index xs lo
    let as ← indices xs (lo + 1) n
    .ok (a :: as)

/-- `xs[lo..hi]`. -/
def slice (xs : List α) (lo hi : ℕ) : Except (Stop ε) (List α) :=
  if lo ≤ hi ∧ hi ≤ xs.length then .ok ((xs.take hi).drop lo) else .error .outOfBounds

/-- The first `n` elements and what is left after them. -/
def splitTo (xs : List α) (n : ℕ) : Except (Stop ε) (List α × List α) :=
  if n ≤ xs.length then .ok (xs.take n, xs.drop n) else .error .outOfBounds

/-- Fill an array of length `n` from a slice, whose length has to be the same. -/
def copyFromSlice (n : ℕ) (xs : List α) : Except (Stop ε) (List α) :=
  if xs.length = n then .ok xs else .error .outOfBounds

theorem index_of_lt (d : α) (h : i < xs.length) :
    (index xs i : Except (Stop ε) α) = .ok (xs.getD i d) := by
  simp [index, h]

theorem indices_of_le (h : lo + n ≤ xs.length) :
    (indices xs lo n : Except (Stop ε) (List α)) = .ok ((xs.drop lo).take n) := by
  induction n generalizing lo with
  | zero => simp [indices]
  | succ n ih =>
    have hlo : lo < xs.length := by omega
    rw [indices, ih (by omega), List.drop_eq_getElem_cons hlo, List.take_succ_cons]
    simp [index, hlo, bind, Except.bind]

theorem slice_of_le (hlo : lo ≤ hi) (hhi : hi ≤ xs.length) :
    (slice xs lo hi : Except (Stop ε) (List α)) = .ok ((xs.drop lo).take (hi - lo)) := by
  rw [slice, if_pos ⟨hlo, hhi⟩, List.drop_take]

theorem splitTo_of_le (h : n ≤ xs.length) :
    (splitTo xs n : Except (Stop ε) (List α × List α)) = .ok (xs.take n, xs.drop n) :=
  if_pos h

theorem copyFromSlice_of_length (h : xs.length = n) :
    (copyFromSlice n xs : Except (Stop ε) (List α)) = .ok xs :=
  if_pos h

end Bounds
