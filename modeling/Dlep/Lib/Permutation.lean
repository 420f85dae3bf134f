-- SUMMARY: What first-match searches and filters of a list keep when the list is permuted.
import Mathlib.Data.List.Nodup
import Mathlib.Data.List.Pairwise

/-!
# Permuted lists

A search for the first match depends on the order of a list, unless all matches agree or
there is only one.
-/

namespace Permutation

theorem any_perm {α : Type} {p : α → Bool} {l l' : List α} (h : l.Perm l') :
    l.any p = l'.any p := by
  rw [Bool.eq_iff_iff, List.any_eq_true, List.any_eq_true]
  simp only [h.mem_iff]

/-- If all matches agree, the first match does not depend on the order. -/
theorem findSome?_perm {α β : Type} {f : α → Option β} {l l' : List α} (hperm : l.Perm l')
    (hagree : ∀ a ∈ l, ∀ b ∈ l, ∀ x y, f a = some x → f b = some y → x = y) :
    l.findSome? f = l'.findSome? f := by
  cases hfirst : l.findSome? f with
  | none =>
    refine (List.findSome?_eq_none_iff.mpr fun a ha => ?_).symm
    exact List.findSome?_eq_none_iff.mp hfirst a (hperm.mem_iff.mpr ha)
  | some x =>
    obtain ⟨a, ha, hfa⟩ := List.exists_of_findSome?_eq_some hfirst
    cases hfirst' : l'.findSome? f with
    | none =>
      rw [List.findSome?_eq_none_iff.mp hfirst' a (hperm.mem_iff.mp ha)] at hfa
      cases hfa
    | some y =>
      obtain ⟨b, hb, hfb⟩ := List.exists_of_findSome?_eq_some hfirst'
      exact congrArg some (hagree a ha b (hperm.mem_iff.mpr hb) x y hfa hfb)

/-- At most one element satisfies `p`, so the first one is the same. -/
theorem find?_perm {α : Type} {p : α → Bool} {l l' : List α} (hperm : l.Perm l')
    (hone : l.countP p ≤ 1) : l.find? p = l'.find? p := by
  have hfilter : (l.filter p).Perm (l'.filter p) := hperm.filter p
  rw [← List.head?_filter, ← List.head?_filter]
  rw [List.countP_eq_length_filter] at hone
  cases hl : l.filter p with
  | nil =>
    rw [hl] at hfilter
    rw [List.nil_perm.mp hfilter]
  | cons a rest =>
    rw [hl, List.length_cons] at hone
    have hnil : rest = [] := List.eq_nil_of_length_eq_zero (by omega)
    subst hnil
    rw [hl] at hfilter
    rw [List.singleton_perm.mp hfilter]

theorem filterMap_cons_append {α β : Type} (f : α → Option β) (a : α) (l : List α) :
    (a :: l).filterMap f = (f a).toList ++ l.filterMap f := by
  cases h : f a <;> simp [h]

/-- What a filter picks once, it picks from one element. -/
theorem eq_of_nodup_filterMap {α β : Type} {f : α → Option β} {l : List α}
    (h : (l.filterMap f).Nodup) {a b : α} (ha : a ∈ l) (hb : b ∈ l) {x : β} (hfa : f a = some x)
    (hfb : f b = some x) : a = b := by
  by_contra hne
  rw [List.Nodup, List.pairwise_filterMap] at h
  have hsymm : Std.Symm fun c d : α => ∀ x, f c = some x → ∀ y, f d = some y → x ≠ y :=
    ⟨fun c d hcd x hx y hy hxy => hcd y hy x hx hxy.symm⟩
  exact h.forall ha hb hne x hfa x hfb rfl

end Permutation
