import Mathlib.Data.List.Forall2
import Mathlib.Data.List.Nodup

/-!
# Update the first match, or append

The sets and maps a plan keeps in vectors all follow one pattern: look for
the first element with some property, change it in place, and append a new
one when there is none. `upsert` is that pattern and `insertNew` its special
case without a change.
-/

namespace Moguet.Verified.Upsert

variable {α β : Type*} {R : α → α → Prop} {p : α → Bool} {update : α → α} {key : α → β} {k : β}
  {fresh value other : α} {values : List α} {same : α → α → Bool}

/-- Change the first element that satisfies `p` by `update`; append `fresh`
when there is none. -/
def upsert (p : α → Bool) (update : α → α) (fresh : α) : List α → List α
  | [] => [fresh]
  | item :: rest =>
    if p item then update item :: rest
    else item :: upsert p update fresh rest

/-- Append a value that is not in the list yet. -/
def insertNew [DecidableEq α] (values : List α) (value : α) : List α :=
  if value ∈ values then values else values ++ [value]

/-- Change the first element that satisfies `p`, if there is one. -/
def updateFirst (p : α → Bool) (update : α → α) : List α → List α
  | [] => []
  | item :: rest =>
    if p item then update item :: rest else item :: updateFirst p update rest

theorem upsert_ne_nil (p : α → Bool) (update : α → α) (fresh : α)
    (items : List α) : upsert p update fresh items ≠ [] := by
  cases items with
  | nil => simp [upsert]
  | cons item rest =>
    by_cases h : p item
    · simp [upsert, h]
    · simp [upsert, h]

/-- Relations position by position compose. -/
theorem forall₂_trans (htrans : ∀ a b c, R a b → R b c → R a c) :
    ∀ {first second third : List α}, List.Forall₂ R first second →
      List.Forall₂ R second third → List.Forall₂ R first third := by
  intro first
  induction first with
  | nil =>
    intro second third h h'
    cases h
    exact h'
  | cons item rest ih =>
    intro second third h h'
    cases h with
    | cons hitem hrest =>
      cases h' with
      | cons hitem' hrest' =>
        exact List.Forall₂.cons (htrans _ _ _ hitem hitem') (ih hrest hrest')

/-- What related elements share, related lists share. -/
theorem map_eq_of_forall₂ {f : α → β}
    (hshared : ∀ before after, R before after → f after = f before) :
    ∀ {before after : List α}, List.Forall₂ R before after → after.map f = before.map f := by
  intro before after h
  induction h with
  | nil => rfl
  | cons hitem _ ih => rw [List.map_cons, List.map_cons, hshared _ _ hitem, ih]

/-- Elements are changed in place: a relation every element has to itself and
to its change holds position by position. -/
theorem forall₂_updateFirst (hrefl : ∀ item, R item item) (hupdate : ∀ item, R item (update item)) :
    ∀ items : List α, List.Forall₂ R items (updateFirst p update items) := by
  intro items
  induction items with
  | nil => exact List.Forall₂.nil
  | cons item rest ih =>
    unfold updateFirst
    split
    · exact List.Forall₂.cons (hupdate item) (List.forall₂_same.mpr fun other _ => hrefl other)
    · exact List.Forall₂.cons (hrefl item) ih

/-- An updated item comes from an item of the list. -/
theorem mem_updateFirst : ∀ {items : List α} {item : α}, item ∈ updateFirst p update items →
      item ∈ items ∨ ∃ origin ∈ items, item = update origin := by
  intro items
  induction items with
  | nil =>
    intro item h
    cases h
  | cons own rest ih =>
    intro item h
    unfold updateFirst at h
    split at h
    · rcases List.mem_cons.mp h with rfl | h
      · exact Or.inr ⟨own, List.mem_cons_self, rfl⟩
      · exact Or.inl (List.mem_cons_of_mem _ h)
    · rcases List.mem_cons.mp h with rfl | h
      · exact Or.inl List.mem_cons_self
      · rcases ih h with h | ⟨origin, horigin, rfl⟩
        · exact Or.inl (List.mem_cons_of_mem _ h)
        · exact Or.inr ⟨origin, List.mem_cons_of_mem _ horigin, rfl⟩

/-- With distinct keys the first element of a key is the only one. -/
theorem updateFirst_eq_map [DecidableEq β] : ∀ {items : List α}, (items.map key).Nodup →
      updateFirst (fun item => decide (key item = k)) update items =
        items.map fun item => if key item = k then update item else item := by
  intro items
  induction items with
  | nil => exact fun _ => rfl
  | cons own rest ih =>
    intro hnodup
    rw [List.map_cons, List.nodup_cons] at hnodup
    rw [updateFirst, List.map_cons]
    by_cases h : key own = k
    · have hrest : rest.map (fun item => if key item = k then update item else item) =
          rest.map id := by
        apply List.map_congr_left
        intro item hitem
        apply if_neg
        intro hsame
        apply hnodup.1
        rw [h, ← hsame]
        exact List.mem_map_of_mem hitem
      rw [if_pos (decide_eq_true h), if_pos h, hrest, List.map_id]
    · rw [if_neg (by simpa using h), if_neg h, ih hnodup.2]

/-- Every element afterwards was there, is the fresh one, or is the change of
an element that was there. -/
theorem mem_upsert : ∀ {items : List α} {value : α}, value ∈ upsert p update fresh items →
      value ∈ items ∨ value = fresh ∨ ∃ item ∈ items, p item ∧ value = update item := by
  intro items
  induction items with
  | nil =>
    intro value h
    exact Or.inr (Or.inl (by simpa [upsert] using h))
  | cons item rest ih =>
    intro value h
    by_cases hp : p item = true
    · rw [upsert, if_pos hp] at h
      rcases List.mem_cons.mp h with rfl | h
      · exact Or.inr (Or.inr ⟨item, List.mem_cons_self, hp, rfl⟩)
      · exact Or.inl (List.mem_cons_of_mem _ h)
    · rw [upsert, if_neg hp] at h
      rcases List.mem_cons.mp h with rfl | h
      · exact Or.inl List.mem_cons_self
      · rcases ih h with h | h | ⟨other, hother, hrest⟩
        · exact Or.inl (List.mem_cons_of_mem _ h)
        · exact Or.inr (Or.inl h)
        · exact Or.inr (Or.inr ⟨other, List.mem_cons_of_mem _ hother, hrest⟩)

/-- An element stays, as it was or changed. -/
theorem mem_upsert_of_mem : ∀ {items : List α} {item : α}, item ∈ items →
      item ∈ upsert p update fresh items ∨ update item ∈ upsert p update fresh items := by
  intro items
  induction items with
  | nil => intro item h; cases h
  | cons first rest ih =>
    intro item h
    by_cases hp : p first = true
    · rw [upsert, if_pos hp]
      rcases List.mem_cons.mp h with rfl | h
      · exact Or.inr List.mem_cons_self
      · exact Or.inl (List.mem_cons_of_mem _ h)
    · rw [upsert, if_neg hp]
      rcases List.mem_cons.mp h with rfl | h
      · exact Or.inl List.mem_cons_self
      · rcases ih h with h | h
        · exact Or.inl (List.mem_cons_of_mem _ h)
        · exact Or.inr (List.mem_cons_of_mem _ h)

/-- What was looked for is there afterwards: the changed element or the fresh
one. -/
theorem exists_mem_upsert : ∀ (items : List α), fresh ∈ upsert p update fresh items ∨
      ∃ item ∈ items, p item = true ∧ update item ∈ upsert p update fresh items := by
  intro items
  induction items with
  | nil => exact Or.inl (by simp [upsert])
  | cons first rest ih =>
    by_cases hp : p first = true
    · rw [upsert, if_pos hp]
      exact Or.inr ⟨first, List.mem_cons_self, hp, List.mem_cons_self⟩
    · rw [upsert, if_neg hp]
      rcases ih with h | ⟨item, hitem, hpi, h⟩
      · exact Or.inl (List.mem_cons_of_mem _ h)
      · exact Or.inr ⟨item, List.mem_cons_of_mem _ hitem, hpi, List.mem_cons_of_mem _ h⟩

/-- Either nothing is found and the fresh element goes to the end, or the first
element found is changed where it stands. -/
theorem upsert_cases (p : α → Bool) (update : α → α) (fresh : α) (items : List α) :
    ((∀ item ∈ items, p item = false) ∧ upsert p update fresh items = items ++ [fresh]) ∨
      ∃ before found after, items = before ++ found :: after ∧ p found = true ∧
        upsert p update fresh items = before ++ update found :: after := by
  induction items with
  | nil => exact Or.inl ⟨List.forall_mem_nil _, rfl⟩
  | cons first rest ih =>
    by_cases hfirst : p first = true
    · rw [upsert, if_pos hfirst]
      exact Or.inr ⟨[], first, rest, rfl, hfirst, rfl⟩
    · rw [upsert, if_neg hfirst]
      rcases ih with ⟨hnone, hfresh⟩ | ⟨before, found, after, hitems, hfound, hchanged⟩
      · rw [hfresh]
        refine Or.inl ⟨?_, rfl⟩
        exact List.forall_mem_cons.mpr ⟨Bool.eq_false_iff.mpr hfirst, hnone⟩
      · rw [hchanged, hitems]
        exact Or.inr ⟨first :: before, found, after, rfl, hfound, rfl⟩

/-- Under a key that the change keeps, upserting is inserting the key. -/
theorem map_upsert [DecidableEq β] (hupdate : ∀ item, key (update item) = key item)
    (hfresh : key fresh = k) :
    ∀ items : List α, (upsert (fun item => key item = k) update fresh items).map key =
        insertNew (items.map key) k := by
  intro items
  induction items with
  | nil => simp [upsert, insertNew, hfresh]
  | cons item rest ih =>
    by_cases hkey : key item = k
    · simp [upsert, insertNew, hkey, hupdate]
    · rw [upsert, if_neg (by simpa using hkey), List.map_cons, ih, List.map_cons]
      have hne : k ≠ key item := fun h => hkey h.symm
      by_cases hmem : k ∈ rest.map key
      · rw [insertNew, insertNew, if_pos hmem, if_pos (List.mem_cons_of_mem _ hmem)]
      · have hcons : k ∉ key item :: rest.map key := by
          rw [List.mem_cons, not_or]
          exact ⟨hne, hmem⟩
        rw [insertNew, insertNew, if_neg hmem, if_neg hcons]
        rfl

section InsertNew

variable [DecidableEq α]

theorem mem_insertNew : other ∈ insertNew values value ↔ other ∈ values ∨ other = value := by
  unfold insertNew
  by_cases h : value ∈ values
  · rw [if_pos h]
    constructor
    · exact Or.inl
    · rintro (hmem | rfl)
      · exact hmem
      · exact h
  · rw [if_neg h]
    simp

theorem mem_foldl_insertNew : ∀ {added values : List α},
      other ∈ added.foldl insertNew values ↔ other ∈ values ∨ other ∈ added := by
  intro added
  induction added with
  | nil => intro values; simp
  | cons value rest ih =>
    intro values
    rw [List.foldl_cons, ih, mem_insertNew, List.mem_cons, or_assoc]

theorem nodup_insertNew (h : values.Nodup) : (insertNew values value).Nodup := by
  unfold insertNew
  by_cases hmem : value ∈ values
  · rw [if_pos hmem]
    exact h
  · rw [if_neg hmem, List.nodup_append_comm]
    exact List.nodup_cons.mpr ⟨hmem, h⟩

theorem nodup_foldl_insertNew : ∀ (added : List α) {values : List α}, values.Nodup →
    (added.foldl insertNew values).Nodup := by
  intro added
  induction added with
  | nil => exact fun h => h
  | cons value rest ih =>
    intro values h
    rw [List.foldl_cons]
    exact ih (nodup_insertNew h)

theorem prefix_insertNew (values : List α) (value : α) : values <+: insertNew values value := by
  unfold insertNew
  by_cases h : value ∈ values
  · exact ⟨[], by rw [if_pos h, List.append_nil]⟩
  · rw [if_neg h]
    exact List.prefix_append _ _

end InsertNew

/-- Append a value unless the list holds one that counts as the same. -/
def insertUnlike (same : α → α → Bool) (values : List α) (value : α) : List α :=
  if values.any (same · value) then values else values ++ [value]

theorem mem_of_mem_insertUnlike (h : other ∈ insertUnlike same values value) :
    other ∈ values ∨ other = value := by
  unfold insertUnlike at h
  split at h
  · exact Or.inl h
  · rcases List.mem_append.mp h with h | h
    · exact Or.inl h
    · exact Or.inr (List.mem_singleton.mp h)

theorem subset_insertUnlike (same : α → α → Bool) (values : List α) (value : α) :
    values ⊆ insertUnlike same values value := by
  unfold insertUnlike
  split
  · exact List.Subset.refl _
  · exact List.subset_append_left _ _

/-- The value, or the one that kept it out. -/
theorem exists_same_insertUnlike (values : List α) (hrefl : same value value = true) :
    ∃ other ∈ insertUnlike same values value, same other value = true := by
  unfold insertUnlike
  by_cases h : values.any (same · value) = true
  · rw [if_pos h]
    exact List.any_eq_true.mp h
  · rw [if_neg h]
    exact ⟨value, List.mem_append_right _ (List.mem_singleton.mpr rfl), hrefl⟩

theorem mem_of_mem_foldl_insertUnlike :
    ∀ {added values : List α}, other ∈ added.foldl (insertUnlike same) values →
      other ∈ values ∨ other ∈ added := by
  intro added
  induction added with
  | nil => exact fun h => Or.inl h
  | cons value rest ih =>
    intro values h
    rcases ih h with h | h
    · rcases mem_of_mem_insertUnlike h with h | rfl
      · exact Or.inl h
      · exact Or.inr List.mem_cons_self
    · exact Or.inr (List.mem_cons_of_mem _ h)

theorem subset_foldl_insertUnlike (same : α → α → Bool) :
    ∀ (added values : List α), values ⊆ added.foldl (insertUnlike same) values := by
  intro added
  induction added with
  | nil => exact fun values => List.Subset.refl _
  | cons value rest ih =>
    intro values
    exact List.Subset.trans (subset_insertUnlike same values value) (ih _)

/-- Every value that was offered has its like in the list. -/
theorem exists_same_foldl_insertUnlike {same : α → α → Bool}
    (hrefl : ∀ value, same value value = true) {value : α} :
    ∀ {added : List α} (values : List α), value ∈ added →
      ∃ other ∈ added.foldl (insertUnlike same) values, same other value = true := by
  intro added
  induction added with
  | nil =>
    intro values h
    cases h
  | cons first rest ih =>
    intro values h
    rcases List.mem_cons.mp h with rfl | h
    · obtain ⟨other, hother, hsame⟩ := exists_same_insertUnlike values (hrefl value)
      exact ⟨other, subset_foldl_insertUnlike same rest _ hother, hsame⟩
    · exact ih _ h

end Moguet.Verified.Upsert
