import Mathlib.Data.List.Nodup
import Mathlib.Data.List.Perm.Basic

/-!
# Lists read by a key

A `std::map` that is filled once from a vector is the vector itself, read by
its key. This module is that view: the entry of a key, what removing and
appending entries does to it, and that two lists with unique keys and the same
entry for every key are the same up to order.
-/

namespace Moguet.Verified.KeyedList

variable {α κ : Type*} [DecidableEq κ] {key : α → κ} {items : List α} {k : κ} {item : α}

/-- The first item with the key. -/
def lookup (key : α → κ) (items : List α) (k : κ) : Option α :=
  items.find? fun item => key item = k

/-- No key occurs twice. -/
def Unique (key : α → κ) (items : List α) : Prop := (items.map key).Nodup

instance (items : List α) : Decidable (Unique key items) :=
  inferInstanceAs (Decidable (items.map key).Nodup)

/-- The items with other keys. -/
def without (key : α → κ) (items : List α) (k : κ) : List α :=
  items.filter fun item => key item ≠ k

theorem lookup_some (h : lookup key items k = some item) : item ∈ items ∧ key item = k :=
  ⟨List.mem_of_find?_eq_some h, by simpa using List.find?_some h⟩

theorem lookup_eq_none_iff {items : List α} :
    lookup key items k = none ↔ ∀ item ∈ items, key item ≠ k := by
  unfold lookup
  rw [List.find?_eq_none]
  simp

theorem lookup_of_mem (hunique : Unique key items) (hmem : item ∈ items) :
    lookup key items (key item) = some item := by
  cases hfound : lookup key items (key item) with
  | none => exact absurd rfl (lookup_eq_none_iff.mp hfound item hmem)
  | some other =>
    obtain ⟨hother, hkey⟩ := lookup_some hfound
    rw [List.inj_on_of_nodup_map hunique hother hmem hkey]

theorem lookup_without (items : List α) (k other : κ) : lookup key (without key items k) other =
      if other = k then none else lookup key items other := by
  by_cases hsame : other = k
  · rw [if_pos hsame, lookup_eq_none_iff]
    intro item hmem
    rw [hsame]
    simpa using (List.mem_filter.mp hmem).2
  · rw [if_neg hsame]
    unfold lookup without
    rw [List.find?_filter]
    congr 1
    funext item
    by_cases hkey : key item = other
    · simp [hkey, hsame]
    · simp [hkey]

theorem lookup_concat (hfresh : lookup key items (key item) = none) (k : κ) :
    lookup key (items ++ [item]) k =
      if k = key item then some item else lookup key items k := by
  unfold lookup at hfresh ⊢
  rw [List.find?_append]
  by_cases hsame : k = key item
  · rw [if_pos hsame, hsame, hfresh]
    simp
  · rw [if_neg hsame]
    have hother : ¬ key item = k := fun h => hsame h.symm
    simp [hother]

theorem unique_without (h : Unique key items) (k : κ) : Unique key (without key items k) :=
  h.sublist (List.filter_sublist.map key)

theorem unique_concat (h : Unique key items) (hfresh : lookup key items (key item) = none) :
    Unique key (items ++ [item]) := by
  unfold Unique
  rw [List.map_append, List.map_singleton, List.nodup_append_comm]
  refine List.nodup_cons.mpr ⟨?_, h⟩
  intro hmem
  obtain ⟨other, hother, hkey⟩ := List.mem_map.mp hmem
  exact lookup_eq_none_iff.mp hfresh other hother hkey

/-- The entries determine the list up to order. -/
theorem perm_of_lookup_eq {first second : List α} (hfirst : Unique key first)
    (hsecond : Unique key second)
    (h : ∀ k, lookup key first k = lookup key second k) : first.Perm second := by
  rw [List.perm_ext_iff_of_nodup hfirst.of_map hsecond.of_map]
  intro item
  constructor
  · intro hmem
    have hfound := lookup_of_mem hfirst hmem
    rw [h] at hfound
    exact (lookup_some hfound).1
  · intro hmem
    have hfound := lookup_of_mem hsecond hmem
    rw [← h] at hfound
    exact (lookup_some hfound).1

end Moguet.Verified.KeyedList
