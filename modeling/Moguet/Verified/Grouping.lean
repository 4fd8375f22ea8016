import Mathlib.Data.List.Dedup
import Mathlib.Data.List.Nodup

/-!
# Groups by key, and numbers for what is picked

Two loops over a vector. One fills a map of vectors: every key holds the values
that were pushed under it, in the order they came, and the map is walked in the
order of its keys. The other compacts: it numbers the items it picks, from the
next free number on, and collects what is made of them.
-/

namespace Moguet.Verified.Grouping

section Groups

variable {κ β : Type} [DecidableEq κ]

/-- The values under a key, in the order they were pushed. -/
def valuesOf (pairs : List (κ × β)) (key : κ) : List β :=
  (pairs.filter fun pair => pair.1 = key).map Prod.snd

/-- The map the pairs are pushed into, by ascending keys. -/
def group (le : κ → κ → Bool) (pairs : List (κ × β)) : List (κ × List β) :=
  ((pairs.map Prod.fst).dedup.mergeSort le).map fun key => (key, valuesOf pairs key)

/-- `map::find`. -/
def findGroup (groups : List (κ × List β)) (key : κ) : Option (List β) :=
  (groups.find? fun entry => entry.1 = key).map Prod.snd

variable {le : κ → κ → Bool} {pairs : List (κ × β)} {key : κ}

theorem mem_valuesOf {value : β} : value ∈ valuesOf pairs key ↔ (key, value) ∈ pairs := by
  simp [valuesOf]

theorem mem_group {values : List β} : (key, values) ∈ group le pairs ↔
      key ∈ pairs.map Prod.fst ∧ values = valuesOf pairs key := by
  rw [group, List.mem_map]
  constructor
  · rintro ⟨found, hfound, heq⟩
    rw [Prod.mk.injEq] at heq
    rw [← heq.1, ← heq.2]
    exact ⟨List.mem_dedup.mp (List.mem_mergeSort.mp hfound), rfl⟩
  · rintro ⟨hkey, rfl⟩
    exact ⟨key, List.mem_mergeSort.mpr (List.mem_dedup.mpr hkey), rfl⟩

theorem findGroup_eq_some {values : List β}
    (h : findGroup (group le pairs) key = some values) : (key, values) ∈ group le pairs := by
  unfold findGroup at h
  obtain ⟨entry, hentry, hvalues⟩ := Option.map_eq_some_iff.mp h
  have hkey : entry.1 = key := by simpa using List.find?_some hentry
  rw [← hkey, ← hvalues]
  exact List.mem_of_find?_eq_some hentry

/-- A key that is not found had nothing pushed under it. -/
theorem findGroup_eq_none (h : findGroup (group le pairs) key = none) (value : β) :
    (key, value) ∉ pairs := by
  intro hpair
  have hmem : (key, valuesOf pairs key) ∈ group le pairs :=
    mem_group.mpr ⟨List.mem_map.mpr ⟨_, hpair, rfl⟩, rfl⟩
  unfold findGroup at h
  have hnone := List.find?_eq_none.mp (Option.map_eq_none_iff.mp h) _ hmem
  simp at hnone

theorem findGroup_ne_nil {values : List β}
    (h : findGroup (group le pairs) key = some values) : values ≠ [] := by
  obtain ⟨hkey, hvalues⟩ := mem_group.mp (findGroup_eq_some h)
  obtain ⟨⟨own, value⟩, hpair, rfl⟩ := List.mem_map.mp hkey
  have hmem : value ∈ values := by
    rw [hvalues]
    exact mem_valuesOf.mpr hpair
  exact List.ne_nil_of_mem hmem

end Groups

section Numbers

variable {ε α β γ : Type}

/-- Number what is picked, from `next` on; an item that is picked may turn out
to lack what it is picked for. -/
def numberPicked (picked : α → Bool) (value : α → Except ε β) (mark : α → Option Nat → α)
    (make : Nat → α → β → γ) : Nat → List α → Except ε (List α × List γ)
  | _, [] => .ok ([], [])
  | next, item :: items => do
      if picked item then
        let found ← value item
        let rest ← numberPicked picked value mark make (next + 1) items
        .ok (mark item (some next) :: rest.1, make next item found :: rest.2)
      else
        let rest ← numberPicked picked value mark make next items
        .ok (mark item none :: rest.1, rest.2)

/-- The numbers alone. -/
def numbers (picked : α → Bool) : Nat → List α → List (Option Nat)
  | _, [] => []
  | next, item :: items =>
    if picked item then some next :: numbers picked (next + 1) items
    else none :: numbers picked next items

variable {picked : α → Bool} {value : α → Except ε β} {mark : α → Option Nat → α}
  {make : Nat → α → β → γ}

theorem length_numbers : ∀ (next : Nat) (items : List α),
    (numbers picked next items).length = items.length := by
  intro next items
  induction items generalizing next with
  | nil => rfl
  | cons item items ih =>
    by_cases hpicked : picked item = true
    · simp [numbers, hpicked, ih]
    · simp [numbers, hpicked, ih]

/-- The numbers depend only on what is picked. -/
theorem numbers_congr : ∀ {items items' : List α} {next : Nat},
    items.map picked = items'.map picked →
      numbers picked next items = numbers picked next items' := by
  intro items
  induction items with
  | nil =>
    intro items' next h
    cases items' with
    | nil => rfl
    | cons item' items' => cases h
  | cons item items ih =>
    intro items' next h
    cases items' with
    | nil => cases h
    | cons item' items' =>
      rw [List.map_cons, List.map_cons, List.cons.injEq] at h
      rw [numbers, numbers, h.1, ih h.2, ih h.2]

/-- They count up, one for each item that is picked. -/
theorem filterMap_numbers : ∀ (next : Nat) (items : List α),
    (numbers picked next items).filterMap (fun number => number) =
      List.range' next (items.filter picked).length := by
  intro next items
  induction items generalizing next with
  | nil => rfl
  | cons item items ih =>
    by_cases hpicked : picked item = true
    · simp [numbers, hpicked, ih, List.range'_succ]
    · simp [numbers, hpicked, ih]

/-- The items, marked in place with the numbers. -/
def marked (picked : α → Bool) (mark : α → Option Nat → α) (next : Nat) (items : List α) :
    List α :=
  List.zipWith mark items (numbers picked next items)

/-- Nothing is thrown when every picked item has its value. -/
theorem numberPicked_ok {total : α → β} : ∀ {items : List α} {next : Nat},
    (∀ item ∈ items, picked item = true → value item = .ok (total item)) →
      numberPicked picked value mark make next items = .ok (marked picked mark next items,
          ((items.filter picked).zipIdx next).map fun entry =>
            make entry.2 entry.1 (total entry.1)) := by
  intro items
  induction items with
  | nil =>
    intro next _
    rfl
  | cons item items ih =>
    intro next htotal
    have hrest : ∀ other ∈ items, picked other = true → value other = .ok (total other) :=
      fun other hother => htotal other (List.mem_cons_of_mem _ hother)
    rw [numberPicked]
    by_cases hpicked : picked item = true
    · rw [if_pos hpicked, htotal item List.mem_cons_self hpicked, ih hrest]
      simp [marked, numbers, hpicked, List.zipIdx_cons]
      rfl
    · rw [if_neg hpicked, ih hrest]
      simp [marked, numbers, hpicked]
      rfl

theorem mem_marked : ∀ {items : List α} {next : Nat} {entry : α},
    entry ∈ marked picked mark next items →
      ∃ item ∈ items, ∃ number : Option Nat, entry = mark item number ∧
        number.isSome = picked item := by
  intro items
  induction items with
  | nil =>
    intro next entry h
    cases h
  | cons item items ih =>
    intro next entry h
    unfold marked numbers at h
    by_cases hpicked : picked item = true
    · rw [if_pos hpicked] at h
      rcases List.mem_cons.mp h with rfl | h
      · exact ⟨item, List.mem_cons_self, some next, rfl, hpicked.symm⟩
      · obtain ⟨found, hfound, hmark⟩ := ih h
        exact ⟨found, List.mem_cons_of_mem _ hfound, hmark⟩
    · rw [if_neg hpicked] at h
      rcases List.mem_cons.mp h with rfl | h
      · exact ⟨item, List.mem_cons_self, none, rfl, (Bool.eq_false_iff.mpr hpicked).symm⟩
      · obtain ⟨found, hfound, hmark⟩ := ih h
        exact ⟨found, List.mem_cons_of_mem _ hfound, hmark⟩

/-- What the mark leaves alone stays as it was. -/
theorem map_marked {δ : Type} {field : α → δ}
    (hfield : ∀ item number, field (mark item number) = field item) (next : Nat)
    (items : List α) : (marked picked mark next items).map field = items.map field := by
  induction items generalizing next with
  | nil => rfl
  | cons item items ih =>
    unfold marked at ih
    by_cases hpicked : picked item = true
    · simp [marked, numbers, hpicked, hfield, ih]
    · simp [marked, numbers, hpicked, hfield, ih]

/-- The marks are the numbers. -/
theorem map_marked_number {number : α → Option Nat}
    (hnumber : ∀ item value, number (mark item value) = value) (next : Nat)
    (items : List α) :
    (marked picked mark next items).map number = numbers picked next items := by
  induction items generalizing next with
  | nil => rfl
  | cons item items ih =>
    unfold marked at ih
    by_cases hpicked : picked item = true
    · simp [marked, numbers, hpicked, hnumber, ih]
    · simp [marked, numbers, hpicked, hnumber, ih]

/-- The marks count up. -/
theorem filterMap_number {number : α → Option Nat}
    (hnumber : ∀ item value, number (mark item value) = value) (items : List α) :
    (marked picked mark 0 items).filterMap number = List.range (items.filter picked).length := by
  rw [List.range_eq_range', ← filterMap_numbers, ← map_marked_number hnumber, List.filterMap_map]
  rfl

/-- What is made of the picked items, read off the marks. -/
theorem filterMap_marked {number : α → Option Nat} {made : α → Nat → γ}
    (hnumber : ∀ item value, number (mark item value) = value)
    (hmade : ∀ item value, made (mark item value) = made item) (next : Nat)
    (items : List α) :
    (marked picked mark next items).filterMap (fun entry => (number entry).map (made entry)) =
      ((items.filter picked).zipIdx next).map fun entry => made entry.1 entry.2 := by
  induction items generalizing next with
  | nil => rfl
  | cons item items ih =>
    unfold marked at ih
    by_cases hpicked : picked item = true
    · simp [marked, numbers, hpicked, hnumber, hmade, ih, List.zipIdx_cons]
    · simp [marked, numbers, hpicked, hnumber, ih]

/-- Writing the numbers at the positions of the picked items, over empty cells. -/
theorem foldl_set_numbers {position : α → Nat} :
    ∀ {items : List α} {next : Nat} {before : List (Option Nat)},
      items.map position = List.range' before.length items.length →
        ((items.filter picked).zipIdx next).foldl
            (fun cells entry => cells.set (position entry.1) (some entry.2))
            (before ++ List.replicate items.length none) =
          before ++ numbers picked next items := by
  intro items
  induction items with
  | nil =>
    intro next before _
    rfl
  | cons item items ih =>
    intro next before hposition
    rw [List.map_cons, List.length_cons, List.range'_succ, List.cons.injEq] at hposition
    obtain ⟨hitem, hitems⟩ := hposition
    -- the cell of this item is settled, and joins those before
    have hrest : ∀ cell : Option Nat, items.map position =
        List.range' (before ++ [cell]).length items.length := by
      intro cell
      rw [List.length_append]
      exact hitems
    by_cases hpicked : picked item = true
    · rw [List.filter_cons_of_pos hpicked, List.zipIdx_cons, List.foldl_cons, numbers,
        if_pos hpicked, hitem, List.length_cons, List.replicate_succ,
        List.set_append_right _ _ (Nat.le_refl _), Nat.sub_self, List.set_cons_zero,
        List.append_cons, ih (hrest (some next)), ← List.append_cons]
    · rw [List.filter_cons_of_neg hpicked, numbers, if_neg hpicked, List.length_cons,
        List.replicate_succ, List.append_cons, ih (hrest none), ← List.append_cons]

end Numbers

end Moguet.Verified.Grouping
