-- SUMMARY: Last-writer-wins cells: the value a history of writes leaves in a cell that is born and reborn among shared writes.
import Mathlib.Data.List.Basic
import Mathlib.Data.List.Induction

/-!
# Last writer wins

A cell takes its value from a history of writes. Shared writes count for every cell at
all times, own writes only from the last birth of the cell on. The value is that of the
last write that counts and writes the cell at all. `latest` computes it backwards
through the history, and `latest_eq_some_iff` says that it does.
-/

namespace LastWriter

variable {α β : Type} {alive : Bool}

/-- How the entries of a history concern a cell. -/
structure Scope (α : Type) where
  shared : α → Bool
  own : α → Bool
  births : α → Bool

variable (S : Scope α) (writes : α → Option β)

/-- The entry counts, given the entries after it; own entries of a cell that is not
`alive` are of an earlier life. -/
def Scope.Counts (alive : Bool) (a : α) (newer : List α) : Prop :=
  S.shared a = true ∨ S.own a = true ∧ alive = true ∧ ∀ n ∈ newer, S.births n = false

/-- `v` was written by the last entry that counts and writes. -/
def IsLatest (alive : Bool) (history : List α) (v : β) : Prop :=
  ∃ older a newer, history = older ++ a :: newer ∧ S.Counts alive a newer ∧ writes a = some v ∧
    ∀ older' a' newer', newer = older' ++ a' :: newer' → S.Counts alive a' newer' → writes a' = none

/-- The search for the last write, newest entry first. -/
def latestFrom (alive : Bool) : List α → Option β
  | [] => none
  | a :: older =>
    (if S.shared a || (S.own a && alive) then writes a else none).or
      (latestFrom (alive && !S.births a) older)

def latest (alive : Bool) (history : List α) : Option β := latestFrom S writes alive history.reverse

variable {S writes}

@[simp] theorem latest_nil (alive : Bool) : latest S writes alive [] = none := rfl

theorem latest_snoc (alive : Bool) (history : List α) (a : α) :
    latest S writes alive (history ++ [a]) =
      (if S.shared a || (S.own a && alive) then writes a else none).or
        (latest S writes (alive && !S.births a) history) := by
  unfold latest
  rw [List.reverse_append]
  rfl

theorem counts_snoc {a b : α} {newer : List α} :
    S.Counts alive b (newer ++ [a]) ↔ S.Counts (alive && !S.births a) b newer := by
  simp only [Scope.Counts, List.mem_append, List.mem_singleton, Bool.and_eq_true,
    Bool.not_eq_true']
  constructor
  · rintro (h | ⟨hown, halive, hborn⟩)
    · exact .inl h
    · exact .inr ⟨hown, ⟨halive, hborn a (.inr rfl)⟩, fun n hn => hborn n (.inl hn)⟩
  · rintro (h | ⟨hown, ⟨halive, ha⟩, hborn⟩)
    · exact .inl h
    · refine .inr ⟨hown, halive, fun n hn => ?_⟩
      rcases hn with hn | rfl
      · exact hborn n hn
      · exact ha

theorem counts_nil {a : α} : S.Counts alive a [] ↔ (S.shared a || (S.own a && alive)) = true := by
  simp [Scope.Counts]

/-- A write that counts is the latest. -/
theorem isLatest_snoc_of_some {history : List α} {a : α} {v w : β} (hcounts : S.Counts alive a [])
    (hw : writes a = some w) : IsLatest S writes alive (history ++ [a]) v ↔ w = v := by
  constructor
  · rintro ⟨older, b, newer, heq, -, hb, hlast⟩
    rcases List.eq_nil_or_concat newer with rfl | ⟨newer, c, rfl⟩
    · obtain ⟨-, hab⟩ := List.append_inj' heq rfl
      cases hab
      exact Option.some.inj (hw.symm.trans hb)
    · -- the last entry stands after `b` and would have written
      rw [List.concat_eq_append, ← List.cons_append, ← List.append_assoc] at heq
      obtain ⟨-, hac⟩ := List.append_inj' heq rfl
      cases hac
      have hnone := hlast newer a [] (List.concat_eq_append ..) hcounts
      cases hw.symm.trans hnone
  · rintro rfl
    refine ⟨history, a, [], rfl, hcounts, hw, fun older' a' newer' heq => ?_⟩
    simp at heq

/-- An entry that writes nothing may still end an earlier life of the cell. -/
theorem isLatest_snoc_of_none {history : List α} {a : α} {v : β}
    (ha : S.Counts alive a [] → writes a = none) :
    IsLatest S writes alive (history ++ [a]) v ↔
      IsLatest S writes (alive && !S.births a) history v := by
  constructor
  · rintro ⟨older, b, newer, heq, hcounts, hb, hlast⟩
    rcases List.eq_nil_or_concat newer with rfl | ⟨newer, c, rfl⟩
    · obtain ⟨-, hab⟩ := List.append_inj' heq rfl
      cases hab
      cases hb.symm.trans (ha hcounts)
    · rw [List.concat_eq_append, ← List.cons_append, ← List.append_assoc] at heq
      obtain ⟨rfl, hac⟩ := List.append_inj' heq rfl
      cases hac
      rw [List.concat_eq_append] at hcounts hlast
      refine ⟨older, b, newer, rfl, counts_snoc.mp hcounts, hb, fun older' a' newer' hnewer h => ?_⟩
      refine hlast older' a' (newer' ++ [a]) ?_ (counts_snoc.mpr h)
      rw [hnewer, List.append_assoc, List.cons_append]
  · rintro ⟨older, b, newer, rfl, hcounts, hb, hlast⟩
    refine ⟨older, b, newer ++ [a], by simp, counts_snoc.mpr hcounts, hb, ?_⟩
    intro older' a' newer' heq h
    rcases List.eq_nil_or_concat newer' with rfl | ⟨newer', c, rfl⟩
    · obtain ⟨-, hab⟩ := List.append_inj' heq rfl
      cases hab
      exact ha h
    · rw [List.concat_eq_append, ← List.cons_append, ← List.append_assoc] at heq
      obtain ⟨hnewer, hac⟩ := List.append_inj' heq rfl
      cases hac
      rw [List.concat_eq_append] at h
      exact hlast older' a' newer' hnewer (counts_snoc.mp h)

theorem latest_eq_some_iff {history : List α} {v : β} :
    latest S writes alive history = some v ↔ IsLatest S writes alive history v := by
  induction history using List.reverseRecOn generalizing alive with
  | nil =>
    refine iff_of_false (by simp) ?_
    rintro ⟨older, a, newer, heq, -⟩
    simp at heq
  | append_singleton history a ih =>
    rw [latest_snoc]
    by_cases hcounts : (S.shared a || (S.own a && alive)) = true
    · rw [if_pos hcounts]
      cases hw : writes a with
      | some w =>
        rw [isLatest_snoc_of_some (counts_nil.mpr hcounts) hw, Option.some_or, Option.some.injEq]
      | none =>
        rw [isLatest_snoc_of_none fun _ => hw, Option.none_or, ih]
    · rw [if_neg hcounts, Option.none_or, ih,
        isLatest_snoc_of_none fun h => absurd (counts_nil.mp h) hcounts]

end LastWriter
