import Mathlib.Data.List.Chain
import Mathlib.Logic.Relation

/-!
# Cycles of a relation

A relation has a cycle when some element reaches itself in at least one step.
A path that meets one of its own elements again closes a cycle, and a relation
along which a number decreases has none.
-/

namespace Moguet.Verified.CyclePath

variable {α : Type*} {r : α → α → Prop} {path : List α} {element last : α}

/-- Some element reaches itself. -/
def HasCycle (r : α → α → Prop) : Prop :=
  ∃ element, Relation.TransGen r element element

theorem HasCycle.mono {s : α → α → Prop} (h : HasCycle r)
    (hmono : ∀ first second, r first second → s first second) : HasCycle s := by
  obtain ⟨element, hcycle⟩ := h
  exact ⟨element, Relation.TransGen.mono hmono _ _ hcycle⟩

/-- Each element of a path reaches its last one. -/
theorem reaches_last (hpath : path.IsChain r) (hmem : element ∈ path)
    (hlast : path.getLast? = some last) : Relation.ReflTransGen r element last := by
  obtain ⟨front, back, rfl⟩ := List.append_of_mem hmem
  have hback : (element :: back).IsChain r := (List.isChain_append.mp hpath).2.1
  refine List.relationReflTransGen_of_exists_isChain_cons back hback ?_
  rw [List.getLast?_append_of_ne_nil _ (List.cons_ne_nil _ _)] at hlast
  rw [List.getLast?_eq_some_getLast (List.cons_ne_nil _ _)] at hlast
  injection hlast

/-- A path whose last element leads back into it closes a cycle. -/
theorem HasCycle.of_path (hpath : path.IsChain r) (hmem : element ∈ path)
    (hlast : path.getLast? = some last) (hback : r last element) : HasCycle r :=
  ⟨element, Relation.TransGen.tail' (reaches_last hpath hmem hlast) hback⟩

/-- A number that decreases along each step decreases along a walk. -/
theorem transGen_lt {measure : α → Nat}
    (h : ∀ first second, r first second → measure second < measure first) {first : α}
    (hwalk : Relation.TransGen r first last) : measure last < measure first := by
  induction hwalk with
  | single hstep => exact h _ _ hstep
  | tail _ hstep ih =>
    have hlast := h _ _ hstep
    omega

theorem not_hasCycle_of_lt {measure : α → Nat}
    (h : ∀ first second, r first second → measure second < measure first) :
    ¬ HasCycle r := by
  rintro ⟨element, hcycle⟩
  have hlt := transGen_lt h hcycle
  omega

end Moguet.Verified.CyclePath
