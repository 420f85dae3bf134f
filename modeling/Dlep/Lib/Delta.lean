-- SUMMARY: Additions and removals on a duplicate-free list read as a set: validity, lenient application, differences.
import Mathlib.Data.List.Nodup
import Mathlib.Data.List.Induction

/-!
# Set deltas on lists

A set kept as a list changes by a pair of lists, the additions and the removals.
`wellFormed` says that the pair is unambiguous, `admits` that a strict receiver may
apply it, `apply` applies it to any list and ignores what does not fit, and
`difference` recovers a delta from two sets.
-/

namespace Delta

variable {α : Type} [DecidableEq α]

/-- No value twice on either side, none on both. -/
def wellFormed (add remove : List α) : Bool :=
  add.zipIdx.all (fun p => !(add.take p.2).contains p.1 && !remove.contains p.1) &&
    remove.zipIdx.all (fun p => !(remove.take p.2).contains p.1)

/-- Every addition is new and every removal is present. -/
def admits (current add remove : List α) : Bool :=
  add.all (fun a => !current.contains a) && remove.all (fun a => current.contains a)

/-- One addition: skipped when it is also removed or already present. -/
def push (remove current : List α) (a : α) : List α :=
  if !remove.contains a && !current.contains a then current ++ [a] else current

/-- Apply a delta, ignoring duplicate additions, unknown removals, and values on
both sides. -/
def apply (current add remove : List α) : List α :=
  add.foldl (push remove) (current.filter fun a => !remove.contains a || add.contains a)

/-- The values of `xs` that `ys` lacks. -/
def difference (xs ys : List α) : List α := xs.filter fun v => !ys.contains v

/-! ## Well-formed deltas -/

omit [DecidableEq α] in
private theorem nodup_iff_take (xs : List α) :
    xs.Nodup ↔ ∀ p ∈ xs.zipIdx, p.1 ∉ xs.take p.2 := by
  constructor
  · rintro hnd ⟨x, n⟩ hp hmem
    have hx : xs[n]? = some x := List.mk_mem_zipIdx_iff_getElem?.mp hp
    obtain ⟨i, hi, hix⟩ := List.mem_take_iff_getElem.mp hmem
    obtain ⟨hn, hnx⟩ := List.getElem?_eq_some_iff.mp hx
    have := (List.Nodup.getElem_inj_iff hnd).mp (hix.trans hnx.symm)
    omega
  · intro h
    refine List.pairwise_iff_getElem.mpr fun i j hi hj hij heq => ?_
    have hp : (xs[j], j) ∈ xs.zipIdx :=
      List.mk_mem_zipIdx_iff_getElem?.mpr (List.getElem?_eq_getElem hj)
    exact h _ hp (List.mem_take_iff_getElem.mpr ⟨i, by simp only; omega, heq⟩)

theorem wellFormed_iff (add remove : List α) :
    wellFormed add remove = true ↔
      add.Nodup ∧ remove.Nodup ∧ ∀ a ∈ add, a ∉ remove := by
  simp only [wellFormed, Bool.and_eq_true, List.all_eq_true, Bool.not_eq_true',
    List.contains_eq_mem, decide_eq_false_iff_not, nodup_iff_take]
  constructor
  · rintro ⟨hadd, hrem⟩
    refine ⟨fun p hp => (hadd p hp).1, hrem, fun a ha => ?_⟩
    obtain ⟨n, hn, rfl⟩ := List.getElem_of_mem ha
    exact (hadd (add[n], n)
      (List.mk_mem_zipIdx_iff_getElem?.mpr (List.getElem?_eq_getElem hn))).2
  · rintro ⟨hadd, hrem, hdisj⟩
    refine ⟨fun p hp => ⟨hadd p hp, hdisj p.1 ?_⟩, hrem⟩
    exact List.mem_of_getElem? (List.mk_mem_zipIdx_iff_getElem?.mp hp)

theorem admits_iff (current add remove : List α) :
    admits current add remove = true ↔
      (∀ a ∈ add, a ∉ current) ∧ ∀ a ∈ remove, a ∈ current := by
  simp [admits]

/-! ## Applying a delta -/

theorem mem_push (remove current : List α) (a b : α) :
    b ∈ push remove current a ↔ b ∈ current ∨ (b = a ∧ a ∉ remove) := by
  unfold push
  by_cases hr : a ∈ remove
  · simp [hr]
  · by_cases hc : a ∈ current
    · simp only [List.contains_eq_mem, hr, hc, decide_true, decide_false]
      constructor
      · exact Or.inl
      · rintro (h | ⟨rfl, -⟩)
        · exact h
        · exact hc
    · simp [hr, hc]

private theorem mem_foldl_push (remove : List α) (b : α) (add current : List α) :
    b ∈ add.foldl (push remove) current ↔ b ∈ current ∨ (b ∈ add ∧ b ∉ remove) := by
  induction add generalizing current with
  | nil => simp
  | cons a add ih =>
    rw [List.foldl_cons, ih, mem_push, List.mem_cons]
    constructor
    · rintro ((h | ⟨rfl, h⟩) | ⟨h, h'⟩)
      · exact .inl h
      · exact .inr ⟨.inl rfl, h⟩
      · exact .inr ⟨.inr h, h'⟩
    · rintro (h | ⟨rfl | h, h'⟩)
      · exact .inl (.inl h)
      · exact .inl (.inr ⟨rfl, h'⟩)
      · exact .inr ⟨h, h'⟩

/-- A value survives unless it is removed and not added, and enters when it is
added and not removed. -/
theorem mem_apply (current add remove : List α) (b : α) :
    b ∈ apply current add remove ↔
      (b ∈ current ∧ (b ∉ remove ∨ b ∈ add)) ∨ (b ∈ add ∧ b ∉ remove) := by
  simp [apply, mem_foldl_push]

/-- Lenient application keeps a list free of duplicates. -/
theorem nodup_apply {current : List α} (h : current.Nodup) (add remove : List α) :
    (apply current add remove).Nodup := by
  have hpush : ∀ (xs ys : List α), ys.Nodup → (xs.foldl (push remove) ys).Nodup := by
    intro xs
    induction xs with
    | nil => exact fun _ hys => hys
    | cons x xs ih =>
      intro ys hys
      refine ih _ ?_
      unfold push
      split
      · next hc =>
        have hx : x ∉ ys := by simp_all
        simpa [List.nodup_append, hys] using fun a ha (heq : a = x) => hx (heq ▸ ha)
      · exact hys
  exact hpush add _ (h.filter _)

@[simp] theorem apply_nil (current : List α) : apply current [] [] = current := by
  simp [apply]

/-! ## Differences -/

@[simp] theorem mem_difference (xs ys : List α) (a : α) :
    a ∈ difference xs ys ↔ a ∈ xs ∧ a ∉ ys := by
  simp [difference]

theorem nodup_difference {xs : List α} (h : xs.Nodup) (ys : List α) :
    (difference xs ys).Nodup := h.filter _

/-- The difference of two duplicate-free lists is an unambiguous delta. -/
theorem wellFormed_difference {old new : List α} (hold : old.Nodup) (hnew : new.Nodup) :
    wellFormed (difference new old) (difference old new) = true := by
  rw [wellFormed_iff]
  refine ⟨nodup_difference hnew old, nodup_difference hold new, ?_⟩
  intro a ha hr
  rw [mem_difference] at ha hr
  exact ha.2 hr.1

/-- A receiver that holds the old set, in any order, may apply the difference strictly. -/
theorem admits_difference {current old : List α} (new : List α)
    (h : ∀ a, a ∈ current ↔ a ∈ old) :
    admits current (difference new old) (difference old new) = true := by
  rw [admits_iff]
  constructor
  · intro a ha hc
    exact ((mem_difference new old a).mp ha).2 ((h a).mp hc)
  · intro a ha
    exact (h a).mpr ((mem_difference old new a).mp ha).1

/-! ## Differences made by a delta -/

/-- The additions that a push loop appends: new, and each once. -/
theorem foldl_push_eq (remove : List α) (add current : List α) :
    ∃ extra, add.foldl (push remove) current = current ++ extra ∧ extra.Nodup ∧
      ∀ a ∈ extra, a ∈ add ∧ a ∉ remove ∧ a ∉ current := by
  induction add generalizing current with
  | nil => exact ⟨[], by simp, List.nodup_nil, by simp⟩
  | cons x add ih =>
    rw [List.foldl_cons]
    by_cases hx : x ∉ remove ∧ x ∉ current
    · have hpush : push remove current x = current ++ [x] := by simp [push, hx]
      obtain ⟨extra, heq, hnodup, hmem⟩ := ih (current ++ [x])
      refine ⟨x :: extra, by simpa [hpush] using heq, ?_, ?_⟩
      · refine List.nodup_cons.mpr ⟨fun hin => ?_, hnodup⟩
        exact (hmem x hin).2.2 (by simp)
      · intro a ha
        rcases List.mem_cons.mp ha with rfl | ha
        · exact ⟨List.mem_cons_self, hx⟩
        · obtain ⟨hadd, hremove, hcurrent⟩ := hmem a ha
          exact ⟨List.mem_cons_of_mem _ hadd, hremove, fun h => hcurrent (List.mem_append_left _ h)⟩
    · have hpush : push remove current x = current := by
        unfold push
        exact if_neg (by simpa using hx)
      obtain ⟨extra, heq, hnodup, hmem⟩ := ih current
      refine ⟨extra, by rw [hpush, heq], hnodup, ?_⟩
      intro a ha
      exact ⟨List.mem_cons_of_mem _ (hmem a ha).1, (hmem a ha).2⟩

/-- Additions that are new are appended as they come. -/
theorem foldl_push_of_new {remove add current : List α} (hnodup : add.Nodup)
    (hnew : ∀ a ∈ add, a ∉ remove ∧ a ∉ current) :
    add.foldl (push remove) current = current ++ add := by
  induction add generalizing current with
  | nil => simp
  | cons x add ih =>
    obtain ⟨hremove, hcurrent⟩ := hnew x List.mem_cons_self
    obtain ⟨hx, hnodup⟩ := List.nodup_cons.mp hnodup
    have hpush : push remove current x = current ++ [x] := by simp [push, hremove, hcurrent]
    rw [List.foldl_cons, hpush, ih hnodup, List.append_assoc, List.singleton_append]
    intro a ha
    refine ⟨(hnew a (List.mem_cons_of_mem _ ha)).1, fun h => ?_⟩
    rcases List.mem_append.mp h with h | h
    · exact (hnew a (List.mem_cons_of_mem _ ha)).2 h
    · exact hx (List.mem_singleton.mp h ▸ ha)

/-- The difference between a list and what a delta made of it leads back to the same
list, order included. -/
theorem apply_difference (current add remove : List α) :
    apply current (difference (apply current add remove) current)
      (difference current (apply current add remove)) = apply current add remove := by
  obtain ⟨extra, heq, hnodup, hextra⟩ := foldl_push_eq remove add
    (current.filter fun a => !remove.contains a || add.contains a)
  have hnew : apply current add remove =
      (current.filter fun a => !remove.contains a || add.contains a) ++ extra := heq
  -- An addition that was appended was not there before: a kept value is not removed.
  have hfresh : ∀ a ∈ extra, a ∉ current := by
    intro a ha hcur
    obtain ⟨-, hremove, hkept⟩ := hextra a ha
    exact hkept (List.mem_filter.mpr ⟨hcur, by simp [hremove]⟩)
  have hadded : difference (apply current add remove) current = extra := by
    rw [hnew]
    unfold difference
    rw [List.filter_append, List.filter_eq_nil_iff.mpr ?_, List.nil_append,
      List.filter_eq_self.mpr ?_]
    · intro a ha
      simpa using hfresh a ha
    · intro a ha
      simpa using (List.mem_filter.mp ha).1
  have hkept : (current.filter fun a => !(difference current (apply current add remove)).contains a
      || extra.contains a) = current.filter fun a => !remove.contains a || add.contains a := by
    refine List.filter_congr fun a ha => ?_
    have hne : a ∉ extra := fun h => hfresh a h ha
    simp only [List.contains_eq_mem, hne, decide_false, Bool.or_false]
    rw [Bool.eq_iff_iff]
    simp [mem_apply, ha]
    tauto
  rw [hadded]
  calc apply current extra (difference current (apply current add remove))
      = extra.foldl (push (difference current (apply current add remove)))
          (current.filter fun a => !remove.contains a || add.contains a) := by
        rw [← hkept]
        rfl
    _ = apply current add remove := by
        rw [foldl_push_of_new hnodup, hnew]
        intro a ha
        refine ⟨fun h => ?_, (hextra a ha).2.2⟩
        exact hfresh a ha ((mem_difference _ _ a).mp h).1

end Delta
