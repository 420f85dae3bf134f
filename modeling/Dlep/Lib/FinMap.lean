-- SUMMARY: Finite maps with extensional equality: point updates, maps over all values, and existential scans.
import Mathlib.Data.Finmap

/-!
# Finite maps

A hash map is modelled by a finite map without an iteration order: two maps are
equal when they have the same entries. Everything above this file reasons about
a map through `Finmap.lookup`.
-/

/-- A finite map from keys to values of one type. -/
abbrev FinMap (κ ν : Type) : Type := Finmap fun _ : κ => ν

namespace FinMap

variable {κ ν : Type} [DecidableEq κ]

/-! ## Point updates -/

theorem lookup_insert_eq (m : FinMap κ ν) (k k' : κ) (v : ν) :
    (m.insert k v).lookup k' = if k' = k then some v else m.lookup k' := by
  by_cases h : k' = k
  · subst h; simp
  · simp [h, Finmap.lookup_insert_of_ne]

theorem lookup_erase_eq (m : FinMap κ ν) (k k' : κ) :
    (m.erase k).lookup k' = if k' = k then none else m.lookup k' := by
  by_cases h : k' = k
  · subst h; simp
  · simp [h, Finmap.lookup_erase_ne]

@[simp] theorem lookup_empty_eq (k : κ) : (∅ : FinMap κ ν).lookup k = none :=
  Finmap.lookup_empty k

/-! ## Updating every value -/

private theorem dlookup_map (f : ν → ν) (k : κ) :
    ∀ l : List (Sigma fun _ : κ => ν),
      (l.map fun e => (⟨e.1, f e.2⟩ : Sigma fun _ : κ => ν)).dlookup k = (l.dlookup k).map f
  | [] => rfl
  | ⟨k', v⟩ :: l => by
      by_cases h : k' = k
      · subst h; simp
      · simp [Ne.symm h, dlookup_map f k l]

/-- Apply `f` to every value; the keys stay. -/
def mapValues (f : ν → ν) (m : FinMap κ ν) : FinMap κ ν :=
  m.liftOn
    (fun a => AList.toFinmap ⟨a.entries.map fun e => ⟨e.1, f e.2⟩, by
      have hkeys := a.nodupKeys
      simpa [List.NodupKeys, List.keys, List.map_map, Function.comp_def] using hkeys⟩)
    (by
      intro a b h
      apply Finmap.ext
      simp only [AList.toFinmap_entries, Multiset.coe_eq_coe]
      exact h.map _)

@[simp] theorem lookup_mapValues (f : ν → ν) (m : FinMap κ ν) (k : κ) :
    (mapValues f m).lookup k = (m.lookup k).map f := by
  induction m using Finmap.induction_on with
  | H a =>
    simp only [mapValues, Finmap.liftOn_toFinmap, Finmap.lookup_toFinmap, AList.lookup]
    exact dlookup_map f k a.entries

/-! ## What holds of every entry -/

section

variable {P : κ → ν → Prop} {m : FinMap κ ν}

theorem of_lookup_insert (h : ∀ k v, m.lookup k = some v → P k v) {k : κ} {v : ν} (hv : P k v) :
    ∀ k' v', (m.insert k v).lookup k' = some v' → P k' v' := by
  intro k' v' hlookup
  rw [lookup_insert_eq] at hlookup
  split at hlookup
  · rename_i heq
    cases hlookup
    rwa [heq]
  · exact h k' v' hlookup

theorem of_lookup_erase (h : ∀ k v, m.lookup k = some v → P k v) {k : κ} :
    ∀ k' v', (m.erase k).lookup k' = some v' → P k' v' := by
  intro k' v' hlookup
  rw [lookup_erase_eq] at hlookup
  split at hlookup
  · cases hlookup
  · exact h k' v' hlookup

theorem of_lookup_mapValues {f : ν → ν} (h : ∀ k v, m.lookup k = some v → P k (f v)) :
    ∀ k v, (mapValues f m).lookup k = some v → P k v := by
  intro k v hlookup
  rw [lookup_mapValues] at hlookup
  obtain ⟨v, hv, rfl⟩ := Option.map_eq_some_iff.mp hlookup
  exact h k v hv

end

/-! ## Keeping some entries -/

private theorem dlookup_filter (p : κ → ν → Bool) (k : κ) :
    ∀ l : List (Sigma fun _ : κ => ν), l.NodupKeys →
      (l.filter fun e => p e.1 e.2).dlookup k = (l.dlookup k).filter (p k)
  | [], _ => rfl
  | ⟨k', v⟩ :: l, hkeys => by
      obtain ⟨hnew, hrest⟩ := List.nodupKeys_cons.mp hkeys
      have ih := dlookup_filter p k l hrest
      by_cases h : k' = k
      · subst h
        have hnone : l.dlookup k' = none := List.dlookup_eq_none.mpr hnew
        cases hp : p k' v <;> simp [hp, ih, hnone, Option.filter]
      · cases hp : p k' v <;> simp [hp, ih, Ne.symm h]

/-- Keep the entries that satisfy `p`. -/
def retain (p : κ → ν → Bool) (m : FinMap κ ν) : FinMap κ ν :=
  m.liftOn
    (fun a => AList.toFinmap ⟨a.entries.filter fun e => p e.1 e.2,
      a.nodupKeys.sublist List.filter_sublist⟩)
    (by
      intro a b h
      apply Finmap.ext
      simp only [AList.toFinmap_entries, Multiset.coe_eq_coe]
      exact h.filter _)

theorem lookup_retain (p : κ → ν → Bool) (m : FinMap κ ν) (k : κ) :
    (retain p m).lookup k = (m.lookup k).filter (p k) := by
  induction m using Finmap.induction_on with
  | H a =>
    simp only [retain, Finmap.liftOn_toFinmap, Finmap.lookup_toFinmap, AList.lookup]
    exact dlookup_filter p k a.entries a.nodupKeys

theorem lookup_retain_eq_some {p : κ → ν → Bool} {m : FinMap κ ν} {k : κ} {v : ν} :
    (retain p m).lookup k = some v ↔ m.lookup k = some v ∧ p k v = true := by
  rw [lookup_retain, Option.filter_eq_some_iff]

/-! ## Keys -/

theorem mem_keys_iff (m : FinMap κ ν) (k : κ) : k ∈ m.keys ↔ ∃ v, m.lookup k = some v := by
  rw [Finmap.mem_keys, ← Finmap.lookup_isSome, Option.isSome_iff_exists]

theorem keys_insert (m : FinMap κ ν) (k : κ) (v : ν) : (m.insert k v).keys = insert k m.keys := by
  ext k'
  simp only [mem_keys_iff, Finset.mem_insert, lookup_insert_eq]
  by_cases h : k' = k <;> simp [h]

theorem keys_retain_subset (p : κ → ν → Bool) (m : FinMap κ ν) : (retain p m).keys ⊆ m.keys := by
  intro k hk
  rw [mem_keys_iff] at hk ⊢
  obtain ⟨v, hv⟩ := hk
  exact ⟨v, (lookup_retain_eq_some.mp hv).1⟩

/-- If no entry was dropped, nothing has changed. -/
theorem retain_eq_self {p : κ → ν → Bool} {m : FinMap κ ν}
    (h : (retain p m).keys.card = m.keys.card) : retain p m = m := by
  have hkeys : (retain p m).keys = m.keys :=
    Finset.eq_of_subset_of_card_le (keys_retain_subset p m) h.ge
  refine Finmap.ext_lookup fun k => ?_
  cases hv : m.lookup k with
  | none => simp [lookup_retain, hv]
  | some v =>
    have hk : k ∈ (retain p m).keys := by
      rw [hkeys, mem_keys_iff]
      exact ⟨v, hv⟩
    obtain ⟨w, hw⟩ := (mem_keys_iff _ _).mp hk
    cases hv.symm.trans (lookup_retain_eq_some.mp hw).1
    exact hw

/-! ## Scans -/

/-- Whether some entry satisfies `p`. -/
def scan (p : κ → ν → Bool) (m : FinMap κ ν) : Bool :=
  m.liftOn (fun a => a.entries.any fun e => p e.1 e.2) (fun _ _ h => h.any_eq)

theorem scan_eq_true (p : κ → ν → Bool) (m : FinMap κ ν) :
    scan p m = true ↔ ∃ k v, m.lookup k = some v ∧ p k v = true := by
  induction m using Finmap.induction_on with
  | H a =>
    simp only [scan, Finmap.liftOn_toFinmap, List.any_eq_true, Finmap.lookup_eq_some_iff,
      AList.toFinmap_entries, Multiset.mem_coe]
    constructor
    · rintro ⟨⟨k, v⟩, hmem, hp⟩
      exact ⟨k, v, hmem, hp⟩
    · rintro ⟨k, v, hmem, hp⟩
      exact ⟨⟨k, v⟩, hmem, hp⟩

end FinMap
