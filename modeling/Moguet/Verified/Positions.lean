import Mathlib.Data.List.Nodup

/-!
# Positions in a list of distinct names

A list whose items carry names, read with the position of each item. Where the names
are distinct, a name stands at one position.
-/

namespace Moguet.Verified.Positions

variable {α β : Type} {l : List α} {item : α × Nat} {f : α → β}

theorem mem_zipIdx_iff : item ∈ l.zipIdx ↔ l[item.2]? = some item.1 := by
  rw [List.mem_zipIdx_iff_getElem?]

/-- Names are distinct when no item has the name of one before it. -/
theorem nodup_map_iff_before {l : List α} :
    (l.map f).Nodup ↔ ∀ item ∈ l.zipIdx, ∀ prior ∈ l.take item.2, f prior ≠ f item.1 := by
  rw [List.Nodup, List.pairwise_map, List.pairwise_iff_getElem]
  constructor
  · intro h item hitem prior hprior
    rw [mem_zipIdx_iff] at hitem
    obtain ⟨hlt, hget⟩ := List.getElem?_eq_some_iff.mp hitem
    obtain ⟨i, hi, hget'⟩ := List.mem_take_iff_getElem.mp hprior
    have hsmall : i < item.2 := by omega
    rw [← hget, ← hget']
    exact h i item.2 _ hlt hsmall
  · intro h i j hi hj hlt
    have hitem : (l[j], j) ∈ l.zipIdx := mem_zipIdx_iff.mpr (List.getElem?_eq_getElem hj)
    apply h _ hitem
    exact List.mem_take_iff_getElem.mpr ⟨i, by omega, rfl⟩

/-- Names are distinct when no item has the name of one after it. -/
theorem nodup_map_iff_after {l : List α} :
    (l.map f).Nodup ↔ ∀ item ∈ l.zipIdx, ∀ later ∈ l.drop (item.2 + 1), f later ≠ f item.1 := by
  rw [List.Nodup, List.pairwise_map, List.pairwise_iff_getElem]
  constructor
  · intro h item hitem later hlater
    rw [mem_zipIdx_iff] at hitem
    obtain ⟨hlt, hget⟩ := List.getElem?_eq_some_iff.mp hitem
    obtain ⟨i, hi, hget'⟩ := List.mem_drop_iff_getElem.mp hlater
    rw [← hget, ← hget']
    exact (h item.2 (item.2 + 1 + i) hlt (by omega) (by omega)).symm
  · intro h i j hi hj hlt
    have hitem : (l[i], i) ∈ l.zipIdx := mem_zipIdx_iff.mpr (List.getElem?_eq_getElem hi)
    have hlater : l[j] ∈ l.drop (i + 1) := by
      apply List.mem_drop_iff_getElem.mpr
      refine ⟨j - (i + 1), by omega, ?_⟩
      congr 1
      omega
    exact (h _ hitem _ hlater).symm

/-- The items of one name, from the position of the first on. -/
theorem drop_zipIdx (h : item ∈ l.zipIdx) :
    l.zipIdx.drop item.2 = item :: l.zipIdx.drop (item.2 + 1) := by
  rw [mem_zipIdx_iff] at h
  obtain ⟨hlt, hget⟩ := List.getElem?_eq_some_iff.mp h
  have hlength : item.2 < l.zipIdx.length := by simpa using hlt
  rw [List.drop_eq_getElem_cons hlength]
  congr 1
  rw [List.getElem_zipIdx, hget, Nat.zero_add]

theorem fst_mem_drop {later : α × Nat} {position : Nat} (h : later ∈ l.zipIdx.drop position) :
    later.1 ∈ l.drop position := by
  have hmap : (l.zipIdx.drop position).map Prod.fst = l.drop position := by
    rw [List.map_drop, List.zipIdx_map_fst]
  rw [← hmap]
  exact List.mem_map_of_mem h

/-- Where names are distinct, the items of a name are the one that has it. -/
theorem filter_zipIdx_eq [DecidableEq β] (hdistinct : (l.map f).Nodup) (hitem : item ∈ l.zipIdx) :
    (l.zipIdx.filter fun other => f other.1 = f item.1) = [item] := by
  have hsplit : l.zipIdx = l.zipIdx.take item.2 ++ item :: l.zipIdx.drop (item.2 + 1) := by
    rw [← drop_zipIdx hitem, List.take_append_drop]
  have hfront : (l.zipIdx.take item.2).filter (fun other => f other.1 = f item.1) = [] := by
    apply List.filter_eq_nil_iff.mpr
    intro other hother
    have hmap : (l.zipIdx.take item.2).map Prod.fst = l.take item.2 := by
      rw [List.map_take, List.zipIdx_map_fst]
    have hprior : other.1 ∈ l.take item.2 := by
      rw [← hmap]
      exact List.mem_map_of_mem hother
    have hne := nodup_map_iff_before.mp hdistinct item hitem _ hprior
    simpa using hne
  have hback : (l.zipIdx.drop (item.2 + 1)).filter (fun other => f other.1 = f item.1) = [] := by
    apply List.filter_eq_nil_iff.mpr
    intro other hother
    have hne := nodup_map_iff_after.mp hdistinct item hitem _ (fst_mem_drop hother)
    simpa using hne
  rw [hsplit, List.filter_append, hfront, List.filter_cons_of_pos (by simp), hback]
  rfl

theorem forall_mem_zipIdx_iff {l : List α} {q : α × Nat → Prop} {p : α → Prop}
    (h : ∀ item, q item ↔ p item.1) : (∀ item ∈ l.zipIdx, q item) ↔ ∀ item ∈ l, p item := by
  constructor
  · intro hall item hitem
    obtain ⟨position, hlt, hget⟩ := List.getElem_of_mem hitem
    have hmem : (item, position) ∈ l.zipIdx :=
      mem_zipIdx_iff.mpr (List.getElem?_eq_some_iff.mpr ⟨hlt, hget⟩)
    exact (h _).mp (hall _ hmem)
  · intro hall item hitem
    exact (h _).mpr (hall _ (List.mem_of_getElem? (mem_zipIdx_iff.mp hitem)))

/-- A filter of the items of positions that only looks at the items. -/
theorem filter_zipIdx_map_fst {l : List α} {p : α × Nat → Bool} {q : α → Bool}
    (h : ∀ item ∈ l.zipIdx, p item = q item.1) : (l.zipIdx.filter p).map Prod.fst = l.filter q := by
  have hsame : l.zipIdx.filter p = l.zipIdx.filter (q ∘ Prod.fst) := by
    apply List.filter_congr
    intro item hitem
    rw [h item hitem]
    rfl
  rw [hsame, ← List.filter_map, List.zipIdx_map_fst]

end Moguet.Verified.Positions
