import Mathlib.Data.List.Nodup
import Mathlib.Data.List.Perm.Subperm
import Moguet.Verified.CyclePath

/-!
# Post-order depth-first search with cycle reports

`visit` walks a graph given by its successor lists. A node is emitted after
its successors; meeting a node whose visit is still open is reported as a
cycle and otherwise ignored, so the walk always ends and emits every node it
starts from exactly once.

The graph is arbitrary. The recursion runs on a budget, and `visit_spec`
shows that a budget above the number of nodes that are not yet open is never
used up.
-/

namespace Moguet.Verified.PostOrder

open CyclePath

variable {α : Type*} {order : List α} {successors : α → List α} {node : α}

/-- The state of a walk: what was emitted, which visits are open, and the
nodes at which a cycle was reported. -/
structure Walk (α : Type*) where
  ordered : List α := []
  opened : List α := []
  cycles : List α := []

variable {walk : Walk α}

/-- Every listed node comes after all of its successors. -/
def SuccessorsFirst (successors : α → List α) (order : List α) : Prop :=
  ∀ front node back, order = front ++ node :: back →
    ∀ next ∈ successors node, next ∈ front

theorem SuccessorsFirst.nil (successors : α → List α) : SuccessorsFirst successors [] := by
  intro front node back h
  simp at h

/-- A node may be appended once all of its successors are listed. -/
theorem SuccessorsFirst.concat (h : SuccessorsFirst successors order) {node : α}
    (hnode : ∀ next ∈ successors node, next ∈ order) :
    SuccessorsFirst successors (order ++ [node]) := by
  intro front other back heq next hnext
  rcases List.eq_nil_or_concat back with rfl | ⟨back', last, rfl⟩
  · obtain ⟨hfront, hother⟩ := List.append_inj' heq rfl
    injection hother with hother
    rw [← hfront]
    exact hnode next (by rw [hother]; exact hnext)
  · have heq' : order ++ [node] = (front ++ other :: back') ++ [last] := by
      rw [heq]
      simp
    obtain ⟨horder, -⟩ := List.append_inj' heq' rfl
    exact h front other back' horder next hnext

/-- In a list without repetitions, a successor stands before its node. -/
theorem SuccessorsFirst.idxOf_lt [BEq α] [LawfulBEq α] (h : SuccessorsFirst successors order)
    (hnodup : order.Nodup) {next : α} (hnode : node ∈ order) (hnext : next ∈ successors node) :
    order.idxOf next < order.idxOf node := by
  obtain ⟨front, back, rfl⟩ := List.append_of_mem hnode
  have hmem : next ∈ front := h front node back rfl next hnext
  have hfresh : node ∉ front := by
    intro hin
    have hdisjoint := List.disjoint_of_nodup_append hnodup
    exact hdisjoint hin List.mem_cons_self
  rw [List.idxOf_append_of_mem hmem, List.idxOf_append_of_notMem hfresh]
  have hlt := List.idxOf_lt_length_of_mem hmem
  omega

/-- The invariant of a walk over a finite set of nodes. -/
structure Sound (nodes : List α) (walk : Walk α) : Prop where
  ordered_nodup : walk.ordered.Nodup
  opened_nodup : walk.opened.Nodup
  disjoint : ∀ node ∈ walk.ordered, node ∉ walk.opened
  ordered_mem : ∀ node ∈ walk.ordered, node ∈ nodes
  opened_mem : ∀ node ∈ walk.opened, node ∈ nodes

/-- What a visit may do to a walk: the open nodes are the same afterwards and
both outputs have only grown. -/
structure Grows (before after : Walk α) : Prop where
  opened : after.opened = before.opened
  ordered : before.ordered <+: after.ordered
  cycles : before.cycles <+: after.cycles

theorem Grows.refl (walk : Walk α) : Grows walk walk :=
  ⟨rfl, List.prefix_refl _, List.prefix_refl _⟩

theorem Grows.trans {first second third : Walk α} (h : Grows first second)
    (h' : Grows second third) : Grows first third where
  opened := h'.opened.trans h.opened
  ordered := h.ordered.trans h'.ordered
  cycles := h.cycles.trans h'.cycles

/-- A walk that has reported nothing by its end had reported nothing
before. -/
theorem Grows.cycles_nil {before after : Walk α} (h : Grows before after)
    (hnil : after.cycles = []) : before.cycles = [] := by
  have hprefix := h.cycles
  rw [hnil] at hprefix
  exact List.prefix_nil.mp hprefix

/-- What a walk keeps as long as it reports no cycle. -/
def Respects (successors : α → List α) (walk : Walk α) : Prop :=
  walk.cycles = [] → SuccessorsFirst successors walk.ordered

/-- The result of visiting the nodes of a list: the invariant holds again,
and each of them was emitted unless a cycle was reported. -/
structure Visited (successors : α → List α) (nodes targets : List α)
    (before after : Walk α) : Prop where
  sound : Sound nodes after
  grows : Grows before after
  respects : Respects successors before → Respects successors after
  emitted : ∀ node ∈ targets, node ∈ after.ordered ∨ after.cycles ≠ []
  emitted_of_closed : ∀ node ∈ targets, node ∉ before.opened →
    node ∈ after.ordered

/-- Visiting a list of nodes, given what one visit does. -/
private theorem visited_foldl (successors : α → List α) (nodes : List α)
    (step : Walk α → α → Walk α) (opened : List α)
    (hstep : ∀ walk node, Sound nodes walk → walk.opened = opened →
      node ∈ nodes → Visited successors nodes [node] walk (step walk node)) :
    ∀ {targets : List α} {walk : Walk α}, Sound nodes walk →
      walk.opened = opened → (∀ node ∈ targets, node ∈ nodes) →
      Visited successors nodes targets walk (targets.foldl step walk) := by
  intro targets
  induction targets with
  | nil =>
    intro walk hsound _ _
    exact {
      sound := hsound
      grows := Grows.refl walk
      respects := id
      emitted := by simp
      emitted_of_closed := by simp }
  | cons target rest ih =>
    intro walk hsound hopened htargets
    have hfirst := hstep walk target hsound hopened (htargets target List.mem_cons_self)
    have hrest := @ih (step walk target) hfirst.sound (hfirst.grows.opened.trans hopened)
      fun node hnode => htargets node (List.mem_cons_of_mem _ hnode)
    rw [List.foldl_cons]
    refine {
      sound := hrest.sound
      grows := hfirst.grows.trans hrest.grows
      respects := fun h => hrest.respects (hfirst.respects h)
      emitted := ?_
      emitted_of_closed := ?_ }
    · intro node hnode
      rcases List.mem_cons.mp hnode with rfl | hnode
      · rcases hfirst.emitted node List.mem_cons_self with hmem | hcycle
        · exact Or.inl (hrest.grows.ordered.subset hmem)
        · refine Or.inr fun hnil => hcycle (hrest.grows.cycles_nil hnil)
      · exact hrest.emitted node hnode
    · intro node hnode hclosed
      rcases List.mem_cons.mp hnode with rfl | hnode
      · exact hrest.grows.ordered.subset (hfirst.emitted_of_closed node List.mem_cons_self hclosed)
      · refine hrest.emitted_of_closed node hnode ?_
        rw [hfirst.grows.opened]
        exact hclosed

/-- Opening a node keeps the invariant. -/
theorem Sound.opening {nodes : List α} (h : Sound nodes walk) (hnode : node ∈ nodes)
    (hordered : node ∉ walk.ordered) (hopened : node ∉ walk.opened) :
    Sound nodes { walk with opened := node :: walk.opened } where
  ordered_nodup := h.ordered_nodup
  opened_nodup := List.nodup_cons.mpr ⟨hopened, h.opened_nodup⟩
  disjoint := by
    intro other hother hin
    rcases List.mem_cons.mp hin with rfl | hin
    · exact hordered hother
    · exact h.disjoint other hother hin
  ordered_mem := h.ordered_mem
  opened_mem := by
    intro other hother
    rcases List.mem_cons.mp hother with rfl | hother
    · exact hnode
    · exact h.opened_mem other hother

section Visit

variable [DecidableEq α]

/-- Visit one node within a budget of nested visits. -/
def visit (successors : α → List α) : Nat → α → Walk α → Walk α
  | 0, _, walk => walk
  | budget + 1, node, walk =>
    if node ∈ walk.ordered then walk
    else if node ∈ walk.opened then
      { walk with cycles := walk.cycles ++ [node] }
    else
      let inner := (successors node).foldl
        (fun walk next => visit successors budget next walk)
        { walk with opened := node :: walk.opened }
      { inner with
        opened := inner.opened.filter (· ≠ node)
        ordered := inner.ordered ++ [node] }

/-- Visit a list of nodes in order. -/
def visitAll (successors : α → List α) (budget : Nat) (nodes : List α)
    (walk : Walk α) : Walk α :=
  nodes.foldl (fun walk node => visit successors budget node walk) walk

/-- **One visit**: on a budget above the number of nodes that are not open,
visiting a node keeps the invariant and emits the node unless its visit was
already open, in which case a cycle is reported. -/
theorem visit_spec {successors : α → List α} {nodes : List α}
    (hclosed : ∀ node ∈ nodes, ∀ next ∈ successors node, next ∈ nodes) :
    ∀ {budget : Nat} {node : α} {walk : Walk α},
      nodes.length < budget + walk.opened.length → Sound nodes walk →
      node ∈ nodes →
      Visited successors nodes [node] walk (visit successors budget node walk) := by
  intro budget
  induction budget with
  | zero =>
    intro node walk hbudget hsound _
    have hle := (List.subperm_of_subset hsound.opened_nodup hsound.opened_mem).length_le
    omega
  | succ budget ih =>
    intro node walk hbudget hsound hnode
    unfold visit
    by_cases hordered : node ∈ walk.ordered
    · rw [if_pos hordered]
      exact {
        sound := hsound
        grows := Grows.refl walk
        respects := id
        emitted := by simpa using Or.inl hordered
        emitted_of_closed := by simpa using fun _ => hordered }
    rw [if_neg hordered]
    by_cases hopened : node ∈ walk.opened
    · rw [if_pos hopened]
      refine {
        sound := ⟨hsound.ordered_nodup, hsound.opened_nodup, hsound.disjoint,
          hsound.ordered_mem, hsound.opened_mem⟩
        grows := ⟨rfl, List.prefix_refl _, List.prefix_append _ _⟩
        respects := fun _ hnil => absurd hnil (by simp)
        emitted := by simp
        emitted_of_closed := by simpa using fun hclosed => absurd hopened hclosed }
    rw [if_neg hopened]
    have hinner := visited_foldl successors nodes
      (fun walk next => visit successors budget next walk) (node :: walk.opened)
      (fun other next hother heq hnext => by
        refine ih ?_ hother hnext
        rw [heq, List.length_cons]
        omega)
      (hsound.opening hnode hordered hopened) rfl (hclosed node hnode)
    generalize hdef : (successors node).foldl (fun walk next => visit successors budget next walk)
      { walk with opened := node :: walk.opened } = inner at hinner ⊢
    have hinnerOpened : inner.opened = node :: walk.opened :=
      hinner.grows.opened
    have hrestored : inner.opened.filter (· ≠ node) = walk.opened := by
      rw [hinnerOpened, List.filter_cons_of_neg (by simp), List.filter_eq_self]
      intro other hother
      have hne : other ≠ node := fun heq => hopened (heq ▸ hother)
      simpa using hne
    have hfresh : node ∉ inner.ordered := by
      intro hin
      refine hinner.sound.disjoint node hin ?_
      rw [hinnerOpened]
      exact List.mem_cons_self
    refine {
      sound := {
        ordered_nodup := ?_
        opened_nodup := ?_
        disjoint := ?_
        ordered_mem := ?_
        opened_mem := ?_ }
      grows := {
        opened := hrestored
        ordered := hinner.grows.ordered.trans (List.prefix_append _ _)
        cycles := hinner.grows.cycles }
      respects := ?_
      emitted := by simp
      emitted_of_closed := by simp }
    · show (inner.ordered ++ [node]).Nodup
      rw [List.nodup_append_comm]
      exact List.nodup_cons.mpr ⟨hfresh, hinner.sound.ordered_nodup⟩
    · show (inner.opened.filter (· ≠ node)).Nodup
      rw [hrestored]
      exact hsound.opened_nodup
    · intro other hother
      show other ∉ inner.opened.filter (· ≠ node)
      rw [hrestored]
      rcases List.mem_append.mp hother with hother | hother
      · intro hin
        refine hinner.sound.disjoint other hother ?_
        rw [hinnerOpened]
        exact List.mem_cons_of_mem _ hin
      · rw [List.mem_singleton.mp hother]
        exact hopened
    · intro other hother
      rcases List.mem_append.mp hother with hother | hother
      · exact hinner.sound.ordered_mem other hother
      · rw [List.mem_singleton.mp hother]
        exact hnode
    · intro other hother
      have hin : other ∈ inner.opened.filter (· ≠ node) := hother
      rw [hrestored] at hin
      exact hsound.opened_mem other hin
    · intro hrespects hnil
      have hinnerFirst := hinner.respects hrespects hnil
      refine hinnerFirst.concat ?_
      intro next hnext
      rcases hinner.emitted next hnext with hmem | hcycle
      · exact hmem
      · exact absurd hnil hcycle

/-- **Every node once, successors first**: walking all nodes emits a
permutation of them, and without a cycle report each of them comes after its
successors. -/
theorem visitAll_spec {successors : α → List α} {nodes : List α}
    (hclosed : ∀ node ∈ nodes, ∀ next ∈ successors node, next ∈ nodes)
    (hnodup : nodes.Nodup) {cycles : List α} :
    let after := visitAll successors (nodes.length + 1) nodes
      { cycles := cycles }
    after.opened = [] ∧ after.ordered.Perm nodes ∧ cycles <+: after.cycles ∧
      (after.cycles = [] → SuccessorsFirst successors after.ordered) := by
  intro after
  have hsound : Sound nodes ({ cycles := cycles } : Walk α) := {
    ordered_nodup := List.nodup_nil
    opened_nodup := List.nodup_nil
    disjoint := by simp
    ordered_mem := by simp
    opened_mem := by simp }
  have hvisited := visited_foldl successors nodes
    (fun walk node => visit successors (nodes.length + 1) node walk) []
    (fun walk node hwalk hopened hnode => by
      refine visit_spec hclosed ?_ hwalk hnode
      rw [hopened, List.length_nil]
      omega)
    hsound rfl (fun node hnode => hnode)
  have hsame : ∀ node, node ∈ after.ordered ↔ node ∈ nodes := by
    intro node
    constructor
    · exact hvisited.sound.ordered_mem node
    · intro hnode
      exact hvisited.emitted_of_closed node hnode (by simp)
  refine ⟨hvisited.grows.opened, ?_, hvisited.grows.cycles, ?_⟩
  · exact (List.perm_ext_iff_of_nodup hvisited.sound.ordered_nodup hnodup).mpr hsame
  · exact hvisited.respects fun _ => SuccessorsFirst.nil successors

/-- A visit closes what it opens. -/
theorem visit_opened (successors : α → List α) : ∀ (budget : Nat) (node : α) (walk : Walk α),
      (visit successors budget node walk).opened = walk.opened := by
  intro budget
  induction budget with
  | zero => exact fun node walk => rfl
  | succ budget ih =>
    intro node walk
    have hfold : ∀ (nexts : List α) (walk : Walk α),
        (nexts.foldl (fun walk next => visit successors budget next walk)
          walk).opened = walk.opened := by
      intro nexts
      induction nexts with
      | nil => exact fun walk => rfl
      | cons next rest ihRest =>
        intro walk
        rw [List.foldl_cons, ihRest, ih]
    unfold visit
    split
    · rfl
    · split
      · rfl
      · rename_i hopened
        dsimp only
        rw [hfold, List.filter_cons_of_neg (by simp), List.filter_eq_self]
        intro other hother
        have hne : other ≠ node := fun heq => hopened (heq ▸ hother)
        simpa using hne

/-- The open nodes form a path, innermost first. -/
def OpenPath (successors : α → List α) (walk : Walk α) : Prop :=
  walk.opened.reverse.IsChain fun node next => next ∈ successors node

/-- A visit is made from the innermost open node. -/
def Arrives (successors : α → List α) (walk : Walk α) (node : α) : Prop :=
  ∀ top, walk.opened.head? = some top → node ∈ successors top

theorem OpenPath.push (h : OpenPath successors walk) (harrives : Arrives successors walk node) :
    OpenPath successors { walk with opened := node :: walk.opened } := by
  show (node :: walk.opened).reverse.IsChain _
  rw [List.reverse_cons, List.isChain_append]
  refine ⟨h, List.isChain_singleton node, ?_⟩
  intro last hlast next hnext
  rw [List.getLast?_reverse] at hlast
  simp only [List.head?_cons, Option.mem_some_iff] at hnext
  rw [← hnext]
  exact harrives last hlast

/-- **Only cycles are reported**: visiting a node from the innermost open one
adds a report only when the successors close a cycle. -/
theorem visit_reports : ∀ {budget : Nat} {node : α} {walk : Walk α}, OpenPath successors walk →
      Arrives successors walk node →
      (visit successors budget node walk).cycles = walk.cycles ∨
        HasCycle fun node next => next ∈ successors node := by
  intro budget
  induction budget with
  | zero => exact fun _ _ => Or.inl rfl
  | succ budget ih =>
    intro node walk hpath harrives
    have hfold : ∀ (nexts : List α) (walk : Walk α), OpenPath successors walk →
        (∀ next ∈ nexts, Arrives successors walk next) →
        (nexts.foldl (fun walk next => visit successors budget next walk)
            walk).cycles = walk.cycles ∨
          HasCycle fun node next => next ∈ successors node := by
      intro nexts
      induction nexts with
      | nil => exact fun walk _ _ => Or.inl rfl
      | cons next rest ihRest =>
        intro walk hwalk hnexts
        have hopened := visit_opened successors budget next walk
        have hwalk' : OpenPath successors (visit successors budget next walk) := by
          unfold OpenPath
          rw [hopened]
          exact hwalk
        have hrest := ihRest (visit successors budget next walk) hwalk' (by
          intro other hother top htop
          rw [hopened] at htop
          exact hnexts other (List.mem_cons_of_mem _ hother) top htop)
        rcases ih hwalk (hnexts next List.mem_cons_self) with hsame | hcycle
        · rcases hrest with hsame' | hcycle
          · exact Or.inl (hsame'.trans hsame)
          · exact Or.inr hcycle
        · exact Or.inr hcycle
    unfold visit
    by_cases hordered : node ∈ walk.ordered
    · rw [if_pos hordered]
      exact Or.inl rfl
    rw [if_neg hordered]
    by_cases hopened : node ∈ walk.opened
    · -- The node is open: the path from it to the innermost node closes here.
      rw [if_pos hopened]
      refine Or.inr ?_
      cases htop : walk.opened.head? with
      | none =>
        rw [List.head?_eq_none_iff] at htop
        rw [htop] at hopened
        cases hopened
      | some top =>
        refine HasCycle.of_path hpath (List.mem_reverse.mpr hopened) ?_ (harrives top htop)
        rw [List.getLast?_reverse]
        exact htop
    rw [if_neg hopened]
    refine hfold (successors node) _ (hpath.push harrives) ?_
    intro next hnext top htop
    simp only [List.head?_cons, Option.some.injEq] at htop
    rw [← htop]
    exact hnext

theorem visitAll_reports {successors : α → List α} {budget : Nat} :
    ∀ {nodes : List α} {walk : Walk α}, walk.opened = [] →
      (visitAll successors budget nodes walk).cycles = walk.cycles ∨
        HasCycle fun node next => next ∈ successors node := by
  intro nodes
  induction nodes with
  | nil => exact fun _ => Or.inl rfl
  | cons node rest ih =>
    intro walk hopened
    have hpath : OpenPath successors walk := by
      unfold OpenPath
      rw [hopened]
      exact List.isChain_nil
    have harrives : Arrives successors walk node := by
      intro top htop
      rw [hopened] at htop
      cases htop
    have hrest := @ih (visit successors budget node walk)
      ((visit_opened successors budget node walk).trans hopened)
    rcases visit_reports hpath harrives with hsame | hcycle
    · rcases hrest with hsame' | hcycle
      · exact Or.inl (hsame'.trans hsame)
      · exact Or.inr hcycle
    · exact Or.inr hcycle

end Visit

end Moguet.Verified.PostOrder
