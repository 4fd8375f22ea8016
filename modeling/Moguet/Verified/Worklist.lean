import Mathlib.Data.List.Basic
import Mathlib.Logic.Relation

/-!
# Searching with a stack

A search keeps a stack of items to expand and a list of the expanded ones. An
item is expanded the first time it is popped, and its successors are pushed;
an item popped again is dropped. Every step either drops a stack entry or
trades an item that was not expanded for its successors, so a budget of one
more than the entries that can ever be pushed empties the stack, and then the
expanded items are the reachable ones.
-/

namespace Moguet.Verified.Worklist

variable {α : Type} [DecidableEq α]

/-- The expanded items; what is pushed last is popped first. -/
def explore (next : α → List α) : Nat → List α → List α → List α
  | 0, _, expanded => expanded
  | _ + 1, [], expanded => expanded
  | budget + 1, item :: pending, expanded =>
    if item ∈ expanded then explore next budget pending expanded
    else explore next budget ((next item).reverse ++ pending) (item :: expanded)

variable {next : α → List α}

/-- Nothing expanded is forgotten. -/
theorem subset_explore : ∀ (budget : Nat) (pending expanded : List α),
    expanded ⊆ explore next budget pending expanded := by
  intro budget
  induction budget with
  | zero => exact fun pending expanded => List.Subset.refl _
  | succ budget ih =>
    intro pending expanded
    cases pending with
    | nil => exact List.Subset.refl _
    | cons item pending =>
      rw [explore]
      by_cases h : item ∈ expanded
      · rw [if_pos h]
        exact ih pending expanded
      · rw [if_neg h]
        exact List.Subset.trans (List.subset_cons_self item expanded) (ih _ _)

theorem explore_sound {P : α → Prop} (hnext : ∀ item, P item → ∀ other ∈ next item, P other) :
    ∀ (budget : Nat) (pending expanded : List α), (∀ item ∈ pending, P item) →
      (∀ item ∈ expanded, P item) →
      ∀ item ∈ explore next budget pending expanded, P item := by
  intro budget
  induction budget with
  | zero => exact fun pending expanded _ hexpanded => hexpanded
  | succ budget ih =>
    intro pending expanded hpending hexpanded
    cases pending with
    | nil => exact hexpanded
    | cons own pending =>
      have hown : P own := hpending own List.mem_cons_self
      have hrest : ∀ item ∈ pending, P item :=
        fun item hitem => hpending item (List.mem_cons_of_mem _ hitem)
      rw [explore]
      by_cases h : own ∈ expanded
      · rw [if_pos h]
        exact ih pending expanded hrest hexpanded
      · rw [if_neg h]
        apply ih
        · intro item hitem
          rcases List.mem_append.mp hitem with hitem | hitem
          · exact hnext own hown item (List.mem_reverse.mp hitem)
          · exact hrest item hitem
        · intro item hitem
          rcases List.mem_cons.mp hitem with rfl | hitem
          · exact hown
          · exact hexpanded item hitem

/-- The entries the items of a list that are not expanded yet will push. -/
def outstanding (next : α → List α) (carrier expanded : List α) : Nat :=
  match carrier with
  | [] => 0
  | item :: rest =>
    (if item ∈ expanded then 0 else (next item).length) + outstanding next rest expanded

theorem outstanding_cons_le (item : α) (carrier expanded : List α) :
    outstanding next carrier (item :: expanded) ≤ outstanding next carrier expanded := by
  induction carrier with
  | nil => exact Nat.le_refl 0
  | cons own rest ih =>
    unfold outstanding
    by_cases hown : own ∈ expanded
    · rw [if_pos hown, if_pos (List.mem_cons_of_mem _ hown)]
      omega
    · rw [if_neg hown]
      by_cases hsame : own ∈ item :: expanded
      · rw [if_pos hsame]
        omega
      · rw [if_neg hsame]
        omega

/-- Expanding an item takes its entries off. -/
theorem outstanding_expand {item : α} {expanded : List α} (hnew : item ∉ expanded) :
    ∀ {carrier : List α}, item ∈ carrier →
      (next item).length + outstanding next carrier (item :: expanded) ≤
        outstanding next carrier expanded := by
  intro carrier
  induction carrier with
  | nil =>
    intro h
    cases h
  | cons own rest ih =>
    intro h
    have hrest := @outstanding_cons_le α _ next item rest expanded
    unfold outstanding
    by_cases hsame : own = item
    · rw [hsame, if_neg hnew, if_pos List.mem_cons_self]
      omega
    · have hmem : item ∈ rest := by
        rcases List.mem_cons.mp h with h | h
        · exact absurd h.symm hsame
        · exact h
      have htail := ih hmem
      by_cases hown : own ∈ expanded
      · rw [if_pos hown, if_pos (List.mem_cons_of_mem _ hown)]
        omega
      · have hnot : own ∉ item :: expanded := by
          intro hmem
          rcases List.mem_cons.mp hmem with hmem | hmem
          · exact hsame hmem
          · exact hown hmem
        rw [if_neg hown, if_neg hnot]
        omega

theorem outstanding_le {bound : Nat} (hbound : ∀ item, (next item).length ≤ bound)
    (carrier expanded : List α) :
    outstanding next carrier expanded ≤ carrier.length * bound := by
  induction carrier with
  | nil => exact Nat.zero_le _
  | cons item rest ih =>
    have hitem := hbound item
    have hstep : (rest.length + 1) * bound = rest.length * bound + bound :=
      Nat.succ_mul _ _
    unfold outstanding
    rw [List.length_cons]
    by_cases h : item ∈ expanded
    · rw [if_pos h]
      omega
    · rw [if_neg h]
      omega

/-- While it lasts, the successors of the expanded items are expanded or on
the stack; a budget beyond the entries still to come empties the stack. -/
theorem explore_closed {carrier : List α} (hcarrier : ∀ item, next item ≠ [] → item ∈ carrier) :
    ∀ (budget : Nat) (pending expanded : List α),
      pending.length + outstanding next carrier expanded < budget →
      (∀ item ∈ expanded, ∀ other ∈ next item, other ∈ expanded ∨ other ∈ pending) →
      pending ⊆ explore next budget pending expanded ∧
        ∀ item ∈ explore next budget pending expanded, ∀ other ∈ next item,
          other ∈ explore next budget pending expanded := by
  intro budget
  induction budget with
  | zero =>
    intro pending expanded hbudget
    omega
  | succ budget ih =>
    intro pending expanded hbudget hexpanded
    cases pending with
    | nil =>
      refine ⟨List.nil_subset _, ?_⟩
      intro item hitem other hother
      rcases hexpanded item hitem other hother with h | h
      · exact h
      · cases h
    | cons own pending =>
      rw [List.length_cons] at hbudget
      rw [explore]
      by_cases h : own ∈ expanded
      · rw [if_pos h]
        have hkept : ∀ item ∈ expanded, ∀ other ∈ next item,
            other ∈ expanded ∨ other ∈ pending := by
          intro item hitem other hother
          rcases hexpanded item hitem other hother with hin | hin
          · exact Or.inl hin
          · rcases List.mem_cons.mp hin with rfl | hin
            · exact Or.inl h
            · exact Or.inr hin
        obtain ⟨hpending, hclosed⟩ := ih pending expanded (by omega) hkept
        refine ⟨?_, hclosed⟩
        exact List.cons_subset.mpr ⟨subset_explore _ _ _ h, hpending⟩
      · rw [if_neg h]
        have hspent : (next own).length + outstanding next carrier (own :: expanded) ≤
            outstanding next carrier expanded := by
          by_cases hnone : next own = []
          · have hle := @outstanding_cons_le α _ next own carrier expanded
            rw [hnone, List.length_nil]
            omega
          · exact outstanding_expand h (hcarrier own hnone)
        have hkept : ∀ item ∈ own :: expanded, ∀ other ∈ next item,
            other ∈ own :: expanded ∨ other ∈ (next own).reverse ++ pending := by
          intro item hitem other hother
          rcases List.mem_cons.mp hitem with rfl | hitem
          · exact Or.inr (List.mem_append.mpr (Or.inl (List.mem_reverse.mpr hother)))
          · rcases hexpanded item hitem other hother with hin | hin
            · exact Or.inl (List.mem_cons_of_mem _ hin)
            · rcases List.mem_cons.mp hin with rfl | hin
              · exact Or.inl List.mem_cons_self
              · exact Or.inr (List.mem_append.mpr (Or.inr hin))
        have hlength : ((next own).reverse ++ pending).length =
            (next own).length + pending.length := by
          rw [List.length_append, List.length_reverse]
        obtain ⟨hpending, hclosed⟩ := ih ((next own).reverse ++ pending)
          (own :: expanded) (by omega) hkept
        refine ⟨?_, hclosed⟩
        apply List.cons_subset.mpr
        constructor
        · exact subset_explore _ _ _ List.mem_cons_self
        · exact List.Subset.trans (List.subset_append_right _ _) hpending

/-- With more budget than entries, the expanded items are the reachable
ones. -/
theorem mem_explore_iff (carrier : List α) (bound : Nat) {budget : Nat}
    (hcarrier : ∀ item, next item ≠ [] → item ∈ carrier)
    (hbound : ∀ item, (next item).length ≤ bound)
    (hbudget : 1 + carrier.length * bound < budget) {start item : α} :
    item ∈ explore next budget [start] [] ↔
      Relation.ReflTransGen (fun first second => second ∈ next first) start item := by
  constructor
  · refine explore_sound ?_ budget [start] [] ?_ ?_ item
    · intro first hfirst second hsecond
      exact hfirst.tail hsecond
    · intro first hfirst
      rw [List.mem_singleton.mp hfirst]
    · intro first hfirst
      cases hfirst
  · intro hpath
    have hle := outstanding_le hbound carrier []
    obtain ⟨hstart, hclosed⟩ := explore_closed hcarrier budget [start] []
      (by rw [List.length_singleton]; omega) (by simp)
    induction hpath with
    | refl => exact hstart List.mem_cons_self
    | tail _ hstep ih => exact hclosed _ ih _ hstep

end Moguet.Verified.Worklist
