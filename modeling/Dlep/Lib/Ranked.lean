-- SUMMARY: Stable sorting by a rank as concatenated buckets, and the removal of adjacent repetitions.
import Mathlib.Data.List.Sort
import Mathlib.Data.List.Dedup

/-!
# Ranked lists

A stable sort by a coarse key puts the elements of each rank one after the other,
in the order they had. Removing adjacent repetitions from such a list removes all
repetitions only if equal elements stand together in it; then it keeps the first
of each.
-/

namespace Ranked

variable {α : Type}

/-! ## Sorting by a rank -/

/-- `sort_by_key`: a stable sort. -/
def sortByRank (rank : α → ℕ) (l : List α) : List α :=
  l.insertionSort fun a b => rank a ≤ rank b

theorem perm_sortByRank (rank : α → ℕ) (l : List α) : (sortByRank rank l).Perm l :=
  List.perm_insertionSort _ l

theorem pairwise_sortByRank (rank : α → ℕ) (l : List α) :
    (sortByRank rank l).Pairwise fun a b => rank a ≤ rank b := by
  have : Std.Total fun a b : α => rank a ≤ rank b := ⟨fun a b => le_total (rank a) (rank b)⟩
  have : IsTrans α fun a b => rank a ≤ rank b := ⟨fun _ _ _ => le_trans⟩
  exact List.pairwise_insertionSort _ l

/-- The elements of each rank below `n`, rank by rank. -/
def buckets (rank : α → ℕ) (l : List α) : ℕ → List α
  | 0 => []
  | n + 1 => buckets rank l n ++ l.filter fun a => decide (rank a = n)

variable {rank : α → ℕ} {l : List α} {a : α} {n : ℕ}

theorem rank_lt_of_mem_buckets (h : a ∈ buckets rank l n) : rank a < n := by
  induction n with
  | zero => cases h
  | succ n ih =>
    rcases List.mem_append.mp h with h | h
    · exact (ih h).trans n.lt_succ_self
    · have hrank : rank a = n := by simpa using (List.mem_filter.mp h).2
      omega

theorem buckets_nil (n : ℕ) : buckets rank [] n = [] := by
  induction n with
  | zero => rfl
  | succ n ih =>
    rw [buckets, ih]
    rfl

theorem buckets_cons_of_le (h : n ≤ rank a) : buckets rank (a :: l) n = buckets rank l n := by
  induction n with
  | zero => rfl
  | succ n ih =>
    have hrank : rank a ≠ n := by omega
    rw [buckets, buckets, ih (by omega), List.filter_cons_of_neg (by simpa using hrank)]

private theorem orderedInsert_append {r : α → α → Prop} [DecidableRel r] {ys : List α}
    (hys : ∀ y ∈ ys, r a y) (xs : List α) :
    (xs ++ ys).orderedInsert r a = xs.orderedInsert r a ++ ys := by
  induction xs with
  | nil =>
    cases ys with
    | nil => rfl
    | cons y ys => exact List.orderedInsert_cons_of_le r ys (hys y List.mem_cons_self)
  | cons x xs ih =>
    rw [List.cons_append, List.orderedInsert_cons, List.orderedInsert_cons, ih]
    split <;> rfl

private theorem orderedInsert_of_forall_not {r : α → α → Prop} [DecidableRel r] {xs : List α}
    (hxs : ∀ x ∈ xs, ¬ r a x) : xs.orderedInsert r a = xs ++ [a] := by
  induction xs with
  | nil => rfl
  | cons x xs ih =>
    rw [List.orderedInsert_cons, if_neg (hxs x List.mem_cons_self),
      ih fun x hx => hxs x (List.mem_cons_of_mem _ hx)]
    rfl

/-- An element goes to the front of its own bucket. -/
theorem orderedInsert_buckets (h : rank a < n) :
    (buckets rank l n).orderedInsert (fun a b => rank a ≤ rank b) a =
      buckets rank (a :: l) n := by
  induction n with
  | zero => cases h
  | succ n ih =>
    have hlast : ∀ y ∈ l.filter (fun b => decide (rank b = n)), rank a ≤ rank y := by
      intro y hy
      have hrank : rank y = n := by simpa using (List.mem_filter.mp hy).2
      omega
    rw [buckets, orderedInsert_append hlast, buckets]
    by_cases hrank : rank a = n
    · have hbelow : ∀ x ∈ buckets rank l n, ¬ rank a ≤ rank x := by
        intro x hx
        have := rank_lt_of_mem_buckets hx
        omega
      rw [orderedInsert_of_forall_not hbelow, buckets_cons_of_le hrank.ge,
        List.filter_cons_of_pos (by simpa using hrank)]
      simp
    · rw [ih (by omega), List.filter_cons_of_neg (by simpa using hrank)]

theorem sortByRank_eq_buckets (h : ∀ a ∈ l, rank a < n) : sortByRank rank l = buckets rank l n := by
  induction l with
  | nil => exact (buckets_nil n).symm
  | cons a l ih =>
    rw [sortByRank, List.insertionSort_cons, ← sortByRank,
      ih fun b hb => h b (List.mem_cons_of_mem _ hb),
      orderedInsert_buckets (h a List.mem_cons_self)]

/-! ## Adjacent repetitions -/

/-- Equal elements stand together: nothing else is between two of them. -/
def Grouped (l : List α) : Prop :=
  ∀ xs ys zs a, l = xs ++ a :: (ys ++ a :: zs) → ∀ y ∈ ys, y = a

theorem Grouped.tail (h : Grouped (a :: l)) : Grouped l := by
  rintro xs ys zs b rfl
  exact h (a :: xs) ys zs b rfl

theorem grouped_of_length_le_one (h : l.length ≤ 1) : Grouped l := by
  rintro xs ys zs b rfl
  simp only [List.length_append, List.length_cons] at h
  omega

theorem Grouped.cons_self (h : Grouped (a :: l)) : Grouped (a :: a :: l) := by
  intro xs ys zs b heq y hy
  cases xs with
  | nil =>
    obtain ⟨rfl, heq⟩ := List.cons.inj heq
    cases ys with
    | nil => cases hy
    | cons c ys =>
      obtain ⟨rfl, heq⟩ := List.cons.inj heq
      rcases List.mem_cons.mp hy with rfl | hy
      · rfl
      · exact h [] ys zs a (by rw [heq]; rfl) y hy
  | cons x xs => exact h xs ys zs b (List.cons.inj heq).2 y hy

theorem Grouped.cons_of_notMem (h : Grouped l) (hnew : a ∉ l) : Grouped (a :: l) := by
  intro xs ys zs b heq
  cases xs with
  | nil =>
    obtain ⟨rfl, rfl⟩ := List.cons.inj heq
    simp at hnew
  | cons x xs => exact h xs ys zs b (List.cons.inj heq).2

section

variable [DecidableEq α]

/-- `Vec::dedup`: of equal neighbours one is kept. -/
def dedup : List α → List α
  | [] => []
  | [a] => [a]
  | a :: b :: l => if a = b then dedup (b :: l) else a :: dedup (b :: l)

/-- Where equal elements stand together, the removal of adjacent repetitions keeps the first of
each. -/
theorem dedup_eq_eraseDups (h : Grouped l) : dedup l = l.eraseDups := by
  fun_induction dedup l with
  | case1 => rfl
  | case2 a => rfl
  | case3 a l ih =>
    rw [ih h.tail, List.eraseDups_cons, List.eraseDups_cons]
    simp
  | case4 a b l hne ih =>
    have hnew : ∀ c ∈ b :: l, c ≠ a := by
      rintro c hc rfl
      rcases List.mem_cons.mp hc with rfl | hc
      · exact hne rfl
      · -- `b` would be between two equal elements.
        obtain ⟨ys, zs, rfl⟩ := List.append_of_mem hc
        exact hne (h [] (b :: ys) zs c rfl b List.mem_cons_self).symm
    have hfilter : (b :: l).filter (fun c => !c == a) = b :: l :=
      List.filter_eq_self.mpr fun c hc => by simpa using hnew c hc
    rw [ih h.tail, List.eraseDups_cons (a := a), hfilter]

theorem dedup_append {xs ys : List α} (h : ∀ x ∈ xs, ∀ y ∈ ys, x ≠ y) :
    dedup (xs ++ ys) = dedup xs ++ dedup ys := by
  fun_induction dedup xs with
  | case1 => rfl
  | case2 a =>
    cases ys with
    | nil => rfl
    | cons y ys =>
      have hne : a ≠ y := h a List.mem_cons_self y List.mem_cons_self
      exact if_neg hne
  | case3 a xs ih =>
    rw [← ih fun x hx => h x (List.mem_cons_of_mem _ hx)]
    exact if_pos rfl
  | case4 a b xs hne ih =>
    have hrest := ih fun x hx => h x (List.mem_cons_of_mem _ hx)
    exact (if_neg hne).trans (congrArg (a :: ·) hrest)

theorem mem_dedup (h : a ∈ l) : a ∈ dedup l := by
  fun_induction dedup l with
  | case1 => exact h
  | case2 b => exact h
  | case3 b l ih => exact ih ((List.mem_cons.mp h).elim (· ▸ List.mem_cons_self) id)
  | case4 b c l hne ih =>
    exact (List.mem_cons.mp h).elim (· ▸ List.mem_cons_self) fun h => List.mem_cons_of_mem _ (ih h)

/-- Where equal elements do not stand together, a repetition remains. -/
theorem grouped_of_nodup_dedup (h : (dedup l).Nodup) : Grouped l := by
  fun_induction dedup l with
  | case1 => exact grouped_of_length_le_one (Nat.zero_le 1)
  | case2 a => exact grouped_of_length_le_one le_rfl
  | case3 a l ih => exact (ih h).cons_self
  | case4 a b l hne ih =>
    obtain ⟨hnew, hrest⟩ := List.nodup_cons.mp h
    exact (ih hrest).cons_of_notMem fun hmem => hnew (mem_dedup hmem)

/-! ## Sorted lists -/

/-- Elements of different ranks are different. -/
theorem dedup_buckets_succ (rank : α → ℕ) (l : List α) (n : ℕ) :
    dedup (buckets rank l (n + 1)) =
      dedup (buckets rank l n) ++ dedup (l.filter fun a => decide (rank a = n)) := by
  refine dedup_append fun x hx y hy hxy => ?_
  have hlow := rank_lt_of_mem_buckets hx
  have hrank : rank y = n := by simpa using (List.mem_filter.mp hy).2
  rw [hxy, hrank] at hlow
  exact lt_irrefl n hlow

/-- Repetitions remain in a sorted list if they do in one of its ranks. -/
theorem nodup_dedup_bucket (h : (dedup (buckets rank l n)).Nodup) {k : ℕ} (hk : k < n) :
    (dedup (l.filter fun a => decide (rank a = k))).Nodup := by
  induction n with
  | zero => cases hk
  | succ n ih =>
    rw [dedup_buckets_succ, List.nodup_append] at h
    rcases Nat.lt_succ_iff_lt_or_eq.mp hk with hk | rfl
    · exact ih h.1 hk
    · exact h.2.1

theorem filter_eraseDups (p : α → Bool) (l : List α) :
    l.eraseDups.filter p = (l.filter p).eraseDups := by
  -- Each step takes all later copies of the head out, so the induction is on the length.
  induction hn : l.length using Nat.strong_induction_on generalizing l with
  | _ n ih =>
    subst hn
    cases l with
    | nil => rfl
    | cons a l =>
      have hrest := ih _ (Nat.lt_succ_of_le (List.length_filter_le (fun b => !b == a) l)) _ rfl
      rw [List.eraseDups_cons]
      cases hp : p a with
      | true =>
        rw [List.filter_cons_of_pos hp, List.filter_cons_of_pos hp, List.eraseDups_cons, hrest,
          List.filter_filter, List.filter_filter]
        simp only [Bool.and_comm]
      | false =>
        have hne : ¬ p a = true := by simp [hp]
        have hkeep : (l.filter fun b => !b == a).filter p = l.filter p := by
          rw [List.filter_filter]
          refine List.filter_congr fun b _ => ?_
          by_cases hb : b = a
          · simp [hb, hp]
          · simp [hb]
        rw [List.filter_cons_of_neg hne, List.filter_cons_of_neg hne, hrest, hkeep]

theorem dedup_buckets (hgrouped : ∀ k, Grouped (l.filter fun a => decide (rank a = k))) :
    dedup (buckets rank l n) = buckets rank l.eraseDups n := by
  induction n with
  | zero => rfl
  | succ n ih =>
    rw [dedup_buckets_succ, buckets, ih, dedup_eq_eraseDups (hgrouped n), filter_eraseDups]

theorem nodup_eraseDups (l : List α) : l.eraseDups.Nodup := by
  induction hn : l.length using Nat.strong_induction_on generalizing l with
  | _ n ih =>
    subst hn
    cases l with
    | nil => exact List.nodup_nil
    | cons a l =>
      rw [List.eraseDups_cons, List.nodup_cons, List.mem_eraseDups]
      refine ⟨by simp, ?_⟩
      exact ih _ (Nat.lt_succ_of_le (List.length_filter_le (fun b => !b == a) l)) _ rfl

end

end Ranked
