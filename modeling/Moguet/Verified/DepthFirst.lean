import Mathlib.Data.List.Perm.Subperm
import Mathlib.Logic.Relation

/-!
# Looking for a node depth first

A recursive search for one node, with one set of opened nodes that every branch
writes to: a node is opened once, and its successors are tried in order until
one of them leads to the target. A branch that fails leaves the nodes it opened
behind, so a later branch does not enter them again; they lead nowhere new.
-/

namespace Moguet.Verified.DepthFirst

variable {α : Type} [DecidableEq α]
variable {node : α}

/-- Try the nodes in order, until one visit succeeds. -/
def tryEach (visit : α → List α → Bool × List α) : List α → List α → Bool × List α
  | [], opened => (false, opened)
  | node :: rest, opened =>
    let tried := visit node opened
    if tried.1 then tried else tryEach visit rest tried.2

/-- Whether the target is found, and the nodes that were opened. -/
def search (next : α → List α) (target : α) : Nat → α → List α → Bool × List α
  | 0, _, opened => (false, opened)
  | budget + 1, node, opened =>
    if node = target then (true, opened)
    else if node ∈ opened then (false, opened)
    else tryEach (search next target budget) (next node) (node :: opened)

/-- One step of a path. -/
def Leads (next : α → List α) (node other : α) : Prop := other ∈ next node

/-- What a failed visit leaves: the tried nodes are opened, and what was opened
on the way leads to nothing else. -/
structure Exhausted (next : α → List α) (target : α) (nodes tried before after : List α) :
    Prop where
  grows : before ⊆ after
  opened : tried ⊆ after
  nodup : after.Nodup
  within : after ⊆ nodes
  missed : target ∉ after
  closed : ∀ node ∈ after, node ∉ before → ∀ other ∈ next node, other ∈ after

/-- What a visit of some nodes does. -/
structure Searched (next : α → List α) (target : α) (nodes tried before : List α)
    (result : Bool × List α) : Prop where
  found : result.1 = true → ∃ node ∈ tried, Relation.ReflTransGen (Leads next) node target
  exhausted : result.1 = false → Exhausted next target nodes tried before result.2

section

variable {next : α → List α} {target : α} {nodes : List α}

/-- A visit that does not fail to search. -/
def Searches (next : α → List α) (target : α) (nodes : List α) (size : Nat)
    (visit : α → List α → Bool × List α) : Prop :=
  ∀ node ∈ nodes, ∀ opened : List α, opened.Nodup → opened ⊆ nodes → target ∉ opened →
    size ≤ opened.length → Searched next target nodes [node] opened (visit node opened)

theorem tryEach_spec {visit : α → List α → Bool × List α} {size : Nat}
    (hvisit : Searches next target nodes size visit) :
    ∀ (tried opened : List α), tried ⊆ nodes → opened.Nodup → opened ⊆ nodes →
      target ∉ opened → size ≤ opened.length →
        Searched next target nodes tried opened (tryEach visit tried opened) := by
  intro tried
  induction tried with
  | nil =>
    intro opened _ hnodup hwithin hmissed _
    constructor
    · intro hfound
      cases hfound
    · intro _
      exact ⟨List.Subset.refl _, List.nil_subset _, hnodup, hwithin, hmissed,
        fun node hnode hnew => absurd hnode hnew⟩
  | cons node rest ih =>
    intro opened htried hnodup hwithin hmissed hsize
    have hnode := hvisit node (htried List.mem_cons_self) opened hnodup hwithin hmissed hsize
    rw [tryEach]
    by_cases hfound : (visit node opened).1 = true
    · rw [if_pos hfound]
      constructor
      · intro _
        obtain ⟨own, hown, hpath⟩ := hnode.found hfound
        rw [List.mem_singleton.mp hown] at hpath
        exact ⟨node, List.mem_cons_self, hpath⟩
      · intro hfailed
        rw [hfound] at hfailed
        cases hfailed
    · rw [if_neg hfound]
      have hfirst := hnode.exhausted (Bool.eq_false_iff.mpr hfound)
      have hgrown : opened.length ≤ (visit node opened).2.length :=
        (List.subperm_of_subset hnodup hfirst.grows).length_le
      have hrest := ih (visit node opened).2
        (fun other hother => htried (List.mem_cons_of_mem _ hother)) hfirst.nodup
        hfirst.within hfirst.missed (Nat.le_trans hsize hgrown)
      constructor
      · intro hlater
        obtain ⟨other, hother, hpath⟩ := hrest.found hlater
        exact ⟨other, List.mem_cons_of_mem _ hother, hpath⟩
      · intro hfailed
        have hlast := hrest.exhausted hfailed
        refine ⟨List.Subset.trans hfirst.grows hlast.grows, ?_, hlast.nodup, hlast.within,
          hlast.missed, ?_⟩
        · apply List.cons_subset.mpr
          exact ⟨hlast.grows (hfirst.opened List.mem_cons_self), hlast.opened⟩
        · intro other hother hnew successor hsuccessor
          by_cases hearly : other ∈ (visit node opened).2
          · exact hlast.grows (hfirst.closed other hearly hnew successor hsuccessor)
          · exact hlast.closed other hother hearly successor hsuccessor

/-- A budget above the number of nodes that are not opened is enough. -/
theorem search_spec (hclosed : ∀ node ∈ nodes, ∀ other ∈ next node, other ∈ nodes) :
    ∀ budget : Nat, Searches next target nodes (nodes.length + 1 - budget)
      (search next target budget) := by
  intro budget
  induction budget with
  | zero =>
    intro node _ opened hnodup hwithin _ hsize
    have hle := (List.subperm_of_subset hnodup hwithin).length_le
    omega
  | succ budget ih =>
    intro node hnode opened hnodup hwithin hmissed hsize
    rw [search]
    by_cases htarget : node = target
    · rw [if_pos htarget]
      constructor
      · intro _
        rw [htarget]
        exact ⟨target, List.mem_singleton.mpr rfl, .refl⟩
      · intro hfailed
        cases hfailed
    · rw [if_neg htarget]
      by_cases hopened : node ∈ opened
      · rw [if_pos hopened]
        constructor
        · intro hfound
          cases hfound
        · intro _
          exact ⟨List.Subset.refl _, List.cons_subset.mpr ⟨hopened, List.nil_subset _⟩, hnodup, hwithin,
            hmissed, fun other hother hnew => absurd hother hnew⟩
      · rw [if_neg hopened]
        have hnew : target ∉ node :: opened := by
          rw [List.mem_cons, not_or]
          exact ⟨fun hsame => htarget hsame.symm, hmissed⟩
        have hnodes : node :: opened ⊆ nodes := List.cons_subset.mpr ⟨hnode, hwithin⟩
        have hinner := tryEach_spec ih (next node) (node :: opened) (hclosed node hnode)
          (List.nodup_cons.mpr ⟨hopened, hnodup⟩) hnodes hnew
          (by rw [List.length_cons]; omega)
        constructor
        · intro hfound
          obtain ⟨other, hother, hpath⟩ := hinner.found hfound
          exact ⟨node, List.mem_singleton.mpr rfl, .head hother hpath⟩
        · intro hfailed
          have hlast := hinner.exhausted hfailed
          have hgrows := List.cons_subset.mp hlast.grows
          refine ⟨hgrows.2, List.cons_subset.mpr ⟨hgrows.1, List.nil_subset _⟩, hlast.nodup, hlast.within,
            hlast.missed, ?_⟩
          intro other hother hfresh successor hsuccessor
          by_cases hown : other = node
          · rw [hown] at hsuccessor
            exact hlast.opened hsuccessor
          · apply hlast.closed other hother _ successor hsuccessor
            rw [List.mem_cons, not_or]
            exact ⟨hown, hfresh⟩

omit [DecidableEq α] in
/-- A set that holds a node and the successors of its members holds what can be
reached from the node. -/
theorem mem_of_path {opened : List α} {other : α}
    (hclosed : ∀ node ∈ opened, ∀ other ∈ next node, other ∈ opened) (hnode : node ∈ opened)
    (hpath : Relation.ReflTransGen (Leads next) node other) : other ∈ opened := by
  induction hpath with
  | refl => exact hnode
  | tail _ hstep ih => exact hclosed _ ih _ hstep

/-- The search finds the target exactly when there is a path to it. -/
theorem search_eq_true_iff (hclosed : ∀ node ∈ nodes, ∀ other ∈ next node, other ∈ nodes)
    {budget : Nat} (hbudget : nodes.length < budget) (hnode : node ∈ nodes) :
    (search next target budget node []).1 = true ↔
      Relation.ReflTransGen (Leads next) node target := by
  have hsearched := @search_spec α _ next target nodes hclosed budget node hnode []
    List.nodup_nil (List.nil_subset _) List.not_mem_nil (by rw [List.length_nil]; omega)
  constructor
  · intro hfound
    obtain ⟨own, hown, hpath⟩ := hsearched.found hfound
    rw [List.mem_singleton.mp hown] at hpath
    exact hpath
  · intro hpath
    by_contra hfailed
    have hlast := hsearched.exhausted (Bool.eq_false_iff.mpr hfailed)
    apply hlast.missed
    apply mem_of_path _ (hlast.opened (List.mem_singleton.mpr rfl)) hpath
    intro own hown other hother
    exact hlast.closed own hown List.not_mem_nil other hother

end

end Moguet.Verified.DepthFirst
