import Mathlib.Data.List.Basic

/-!
# Pruning to a closed set

Items name by keys what they need. Removing every item that needs something
outside the set, again and again until nothing changes, leaves the largest
closed subset: one removal never takes an item of a closed subset, and a set
that nothing is removed from is closed.
-/

namespace Moguet.Verified.Pruning

variable {α κ : Type} [DecidableEq κ] (key : α → κ) (needs : α → List κ) {set closed : List α}

/-- Everything the item needs is in the set. -/
def Supported (set : List α) (item : α) : Prop :=
  ∀ need ∈ needs item, need ∈ set.map key

instance (set : List α) (item : α) : Decidable (Supported key needs set item) :=
  inferInstanceAs (Decidable (∀ need ∈ needs item, need ∈ set.map key))

def ClosedSet (set : List α) : Prop :=
  ∀ item ∈ set, Supported key needs set item

/-- One round. -/
def prune (set : List α) : List α :=
  set.filter fun item => decide (Supported key needs set item)

/-- Rounds until one removes nothing; `none` if the fuel is spent. -/
def pruneLoop : Nat → List α → Option (List α)
  | 0, _ => none
  | fuel + 1, set =>
    let next := prune key needs set
    if next.length < set.length then pruneLoop fuel next else some next

variable {key needs}

theorem Supported.mono {small large : List α} {item : α}
    (h : Supported key needs small item) (hsub : small ⊆ large) :
    Supported key needs large item := by
  intro need hneed
  obtain ⟨found, hfound, hkey⟩ := List.mem_map.mp (h need hneed)
  exact List.mem_map.mpr ⟨found, hsub hfound, hkey⟩

theorem prune_sublist (set : List α) : (prune key needs set).Sublist set :=
  List.filter_sublist

theorem prune_eq_self (h : ¬ (prune key needs set).length < set.length) :
    prune key needs set = set :=
  (prune_sublist set).eq_of_length_le (Nat.not_lt.mp h)

theorem closedSet_of_prune_eq (h : prune key needs set = set) : ClosedSet key needs set := by
  intro item hitem
  rw [← h] at hitem
  exact of_decide_eq_true (List.mem_filter.mp hitem).2

theorem subset_prune (hclosed : ClosedSet key needs closed) (hsub : closed ⊆ set) :
    closed ⊆ prune key needs set := by
  intro item hitem
  apply List.mem_filter.mpr
  exact ⟨hsub hitem, decide_eq_true ((hclosed item hitem).mono hsub)⟩

/-- Every round but the last removes an item. -/
theorem pruneLoop_ends : ∀ {fuel : Nat} {set : List α}, set.length < fuel →
    ∃ kept, pruneLoop key needs fuel set = some kept := by
  intro fuel
  induction fuel with
  | zero =>
    intro set h
    omega
  | succ fuel ih =>
    intro set h
    rw [pruneLoop]
    by_cases hless : (prune key needs set).length < set.length
    · rw [if_pos hless]
      exact ih (by omega)
    · rw [if_neg hless]
      exact ⟨_, rfl⟩

theorem pruneLoop_closed : ∀ {fuel : Nat} {set kept : List α},
    pruneLoop key needs fuel set = some kept → kept.Sublist set ∧ ClosedSet key needs kept := by
  intro fuel
  induction fuel with
  | zero =>
    intro set kept h
    cases h
  | succ fuel ih =>
    intro set kept h
    rw [pruneLoop] at h
    by_cases hless : (prune key needs set).length < set.length
    · rw [if_pos hless] at h
      obtain ⟨hsub, hclosed⟩ := ih h
      exact ⟨hsub.trans (prune_sublist set), hclosed⟩
    · rw [if_neg hless, prune_eq_self hless] at h
      injection h with h
      rw [← h]
      exact ⟨List.Sublist.refl set, closedSet_of_prune_eq (prune_eq_self hless)⟩

theorem pruneLoop_greatest (hclosed : ClosedSet key needs closed) :
    ∀ {fuel : Nat} {set kept : List α}, pruneLoop key needs fuel set = some kept →
      closed ⊆ set → closed ⊆ kept := by
  intro fuel
  induction fuel with
  | zero =>
    intro set kept h
    cases h
  | succ fuel ih =>
    intro set kept h hsub
    rw [pruneLoop] at h
    by_cases hless : (prune key needs set).length < set.length
    · rw [if_pos hless] at h
      exact ih h (subset_prune hclosed hsub)
    · rw [if_neg hless] at h
      injection h with h
      rw [← h]
      exact subset_prune hclosed hsub

end Moguet.Verified.Pruning
