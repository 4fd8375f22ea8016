import Moguet.Verified.Worklist
import Moguet.Plan.Attribution
import Moguet.Plan.FailureOrigin

/-!
# Roots are reachability

A target is given roots twice: by the walk, which stops at packages it met
before, and by the propagation over the recorded edges. The first gives only
roots that reach the target; the second searches the recorded graph from every
root with a budget that empties its stack, and so gives all of them. What is
left is the failures, which take the roots of the target they name as their
parent.
-/

namespace Moguet.Plan.RootReach

open Verified ByteString Checked Upsert Worklist Constraint Metadata Model Discovery Resolver Walk
open Resolution Closure Attribution FailureOrigin

variable {before after plan : BuildPlan} {name parent child : Bytes}
  {root lhs rhs : RootTargetIdentity} {settings : ResolverSettings} {request : CollectRequest}
  {info : AurPackageInfo} {names : List Bytes} {target : PlannedPackageTarget}

/-! ## The graph of a plan -/

def IsTarget (plan : BuildPlan) (name : Bytes) : Prop :=
  ∃ target ∈ plan.packageTargets, target.packageName = name

/-- A resolved AUR edge between two planned packages. -/
def AurStep (plan : BuildPlan) (parent child : Bytes) : Prop :=
  IsTarget plan parent ∧ IsTarget plan child ∧
    ∃ edge ∈ plan.dependencyEdges, edge.parentPackageName = parent ∧
      resolvedAurDependencyName edge = some child

/-- The package of the root leads to the package. -/
def Reaches (plan : BuildPlan) (root : RootTargetIdentity) (name : Bytes) : Prop :=
  Relation.ReflTransGen (AurStep plan) root.requestedName name

theorem IsTarget.grow (h : IsTarget before name) (hgrows : PlanGrows before after) :
    IsTarget after name := by
  obtain ⟨target, htarget, hname⟩ := h
  obtain ⟨kept, hkept, hkeptName, -⟩ := hgrows.targets target htarget
  exact ⟨kept, hkept, hkeptName.trans hname⟩

theorem Reaches.grow (h : Reaches before root name) (hgrows : PlanGrows before after) :
    Reaches after root name := by
  refine Relation.ReflTransGen.mono ?_ _ _ h
  intro parent child hstep
  obtain ⟨hparent, hchild, edge, hedge, hends⟩ := hstep
  exact ⟨hparent.grow hgrows, hchild.grow hgrows, edge, hgrows.edges.subset hedge, hends⟩

/-! ## Ordered roots -/

/-- Roots in the order of their identities, each once. -/
def RootsSorted (roots : List RootTargetIdentity) : Prop :=
  roots.Pairwise fun lhs rhs => rootIdentityLess lhs rhs = true

/-- `rootIdentityLess` is a lexicographic order. -/
theorem rootIdentityLess_iff :
    rootIdentityLess lhs rhs = true ↔ lhs.invocationIndex < rhs.invocationIndex ∨
      lhs.invocationIndex = rhs.invocationIndex ∧ lhs.requestedName < rhs.requestedName := by
  unfold rootIdentityLess
  by_cases h : lhs.invocationIndex = rhs.invocationIndex
  · simp [h]
  · simp [h]

theorem rootIdentityLess_eq_false_iff :
    rootIdentityLess rhs lhs = false ↔ rootIdentityLess lhs rhs = true ∨ lhs = rhs := by
  rw [Bool.eq_false_iff, Ne, rootIdentityLess_iff, rootIdentityLess_iff]
  constructor
  · intro h
    by_cases hless : lhs.invocationIndex < rhs.invocationIndex
    · exact Or.inl (Or.inl hless)
    · have hindex : lhs.invocationIndex = rhs.invocationIndex := by
        by_contra hne
        exact h (Or.inl (by omega))
      by_cases hname : lhs.requestedName < rhs.requestedName
      · exact Or.inl (Or.inr ⟨hindex, hname⟩)
      · have hsame : rhs.requestedName = lhs.requestedName :=
          List.le_antisymm hname fun hother => h (Or.inr ⟨hindex.symm, hother⟩)
        cases lhs
        cases rhs
        dsimp only at hindex hsame
        rw [hindex, hsame]
        exact Or.inr rfl
  · rintro (hless | rfl) hgreater
    · rcases hless with hless | ⟨hindex, hname⟩
      · rcases hgreater with hgreater | ⟨hindex, -⟩
        · omega
        · omega
      · rcases hgreater with hgreater | ⟨-, hgreater⟩
        · omega
        · exact List.lt_irrefl _ (List.lt_trans hname hgreater)
    · rcases hgreater with hgreater | ⟨-, hgreater⟩
      · omega
      · exact List.lt_irrefl _ hgreater

theorem rootIdentityLess_trans {first second third : RootTargetIdentity}
    (h : rootIdentityLess first second = true) (h' : rootIdentityLess second third = true) :
    rootIdentityLess first third = true := by
  rw [rootIdentityLess_iff] at h h' ⊢
  rcases h with h | ⟨hindex, hname⟩
  · rcases h' with h' | ⟨hindex', -⟩
    · exact Or.inl (by omega)
    · exact Or.inl (by omega)
  · rcases h' with h' | ⟨hindex', hname'⟩
    · exact Or.inl (by omega)
    · exact Or.inr ⟨hindex.trans hindex', List.lt_trans hname hname'⟩

instance : Std.Total fun lhs rhs : RootTargetIdentity => rootIdentityLess rhs lhs = false where
  total lhs rhs := by
    rw [rootIdentityLess_eq_false_iff]
    by_cases h : rootIdentityLess lhs rhs = true
    · exact Or.inl (Or.inl h)
    · exact Or.inr (by simpa using h)

instance : IsTrans RootTargetIdentity fun lhs rhs => rootIdentityLess rhs lhs = false where
  trans first second third h h' := by
    rw [rootIdentityLess_eq_false_iff] at h h' ⊢
    rcases h with h | rfl
    · rcases h' with h' | rfl
      · exact Or.inl (rootIdentityLess_trans h h')
      · exact Or.inl h
    · exact h'

/-- Adding a root keeps the order. -/
theorem RootsSorted.add {roots : List RootTargetIdentity} (h : RootsSorted roots)
    (root : RootTargetIdentity) : RootsSorted (addRootIdentity roots root) := by
  have hnodup : (addRootIdentity roots root).Nodup := by
    apply nodup_addRootIdentity
    refine List.Pairwise.imp ?_ h
    intro lhs rhs hless hsame
    rw [hsame, rootIdentityLess_iff] at hless
    rcases hless with hless | ⟨-, hless⟩
    · omega
    · exact List.lt_irrefl _ hless
  unfold addRootIdentity at hnodup ⊢
  split
  · exact h
  · rename_i hnew
    rw [if_neg hnew] at hnodup
    have hsorted := List.pairwise_insertionSort
      (fun lhs rhs : RootTargetIdentity => rootIdentityLess rhs lhs = false) (roots ++ [root])
    refine (hsorted.and hnodup).imp ?_
    intro lhs rhs hboth
    rcases rootIdentityLess_eq_false_iff.mp hboth.1 with hless | hsame
    · exact hless
    · exact absurd hsame hboth.2

theorem RootsSorted.addAll {added : List RootTargetIdentity} :
    ∀ {roots : List RootTargetIdentity}, RootsSorted roots →
      RootsSorted (added.foldl addRootIdentity roots) := by
  induction added with
  | nil => exact fun h => h
  | cons root rest ih => exact fun h => ih (h.add root)

theorem mem_foldl_addRootIdentity {other : RootTargetIdentity} :
    ∀ {added roots : List RootTargetIdentity},
      other ∈ added.foldl addRootIdentity roots ↔ other ∈ roots ∨ other ∈ added := by
  intro added
  induction added with
  | nil => simp
  | cons root rest ih =>
    intro roots
    rw [List.foldl_cons, ih, mem_addRootIdentity, List.mem_cons, or_assoc]

/-! ## The walk -/

/-- The roots of a target reach it. -/
def RootsReach (plan : BuildPlan) : Prop :=
  ∀ target ∈ plan.packageTargets, RootsSorted target.roots ∧
    ∀ root ∈ target.roots, Reaches plan root target.packageName

theorem RootsReach.of_eq (h : RootsReach before) (hgrows : PlanGrows before after)
    (htargets : after.packageTargets = before.packageTargets) : RootsReach after := by
  intro target htarget
  rw [htargets] at htarget
  obtain ⟨hsorted, hroots⟩ := h target htarget
  exact ⟨hsorted, fun root hroot => (hroots root hroot).grow hgrows⟩

/-- The root a package is asked for under reaches it once it is planned. -/
theorem Enters.reaches {before : WalkState} (h : RootsReach before.plan)
    (henters : Enters settings request before info plan) : Reaches plan request.root info.name := by
  have hgrows := PlanGrows.recordPackage henters.recorded
  obtain ⟨own, hown, hownName, -⟩ := (recordPackage_planned henters.recorded).1
  rw [henters.name]
  rcases henters.requestAt.reached with ⟨-, hname⟩ | ⟨edge, hedge, hleads, parent, hparent,
    hparentName, hroot⟩
  · rw [hname]
    exact Relation.ReflTransGen.refl
  · have hpath := ((h parent hparent).2 _ hroot).grow hgrows
    rw [hparentName] at hpath
    refine Relation.ReflTransGen.tail hpath ⟨?_, ?_, edge, hgrows.edges.subset hedge, rfl, hleads⟩
    · exact IsTarget.grow ⟨parent, hparent, hparentName⟩ hgrows
    · exact ⟨own, hown, hownName.trans henters.name⟩

theorem RootsReach.record {before : WalkState} (h : RootsReach before.plan)
    (henters : Enters settings request before info plan) : RootsReach plan := by
  have hgrows := PlanGrows.recordPackage henters.recorded
  have hreaches := Enters.reaches h henters
  intro target htarget
  rw [recordPackage_ok henters.recorded] at htarget
  rcases mem_upsert htarget with hkept | rfl | ⟨existing, hexisting, hname, rfl⟩
  · obtain ⟨hsorted, hroots⟩ := h target hkept
    exact ⟨hsorted, fun root hroot => (hroots root hroot).grow hgrows⟩
  · refine ⟨RootsSorted.add List.Pairwise.nil _, ?_⟩
    intro root hroot
    have hroot : root ∈ addRootIdentity [] request.root := hroot
    rcases mem_addRootIdentity.mp hroot with hroot | rfl
    · cases hroot
    · exact hreaches
  · obtain ⟨hsorted, hroots⟩ := h existing hexisting
    refine ⟨hsorted.add _, ?_⟩
    intro root hroot
    rcases mem_addRootIdentity.mp hroot with hroot | rfl
    · exact (hroots root hroot).grow hgrows
    · have hname : existing.packageName = info.name := by simpa using hname
      show Reaches plan request.root existing.packageName
      rw [hname]
      exact hreaches

theorem keeps_rootsReach (settings : ResolverSettings) :
    Keeps settings fun state => RootsReach state.plan where
  quiet := fun h hquiet => h.of_eq hquiet.grows hquiet.aside.targets
  leads := fun h hleads => h.of_eq hleads.grows hleads.aside.targets
  stops := fun h _ hstops => h.of_eq hstops.grows hstops.aside.targets
  enters := fun h henters => h.record henters
  cycle := fun h => h.of_eq (PlanGrows.addCycle _ _) rfl
  opened := fun h _ _ => h
  closed := fun h => h.of_eq (PlanGrows.closePackage _ _) (closePackage_targets_eq _ _)

theorem collectRoots_rootsReach {targets : List Bytes} {walked : WalkState}
    (hvalid : ∀ target ∈ targets, isValidPackageName target = true)
    (h : collectRoots settings targets = .ok walked) : RootsReach walked.plan := by
  refine collectRoots_keeps (keeps_rootsReach settings) ?_ (fun state root hstate => hstate)
    hvalid h
  intro target htarget
  cases htarget

/-! ## The search from one root -/

theorem findPackageTarget_isSome_iff :
    (findPackageTarget plan name).isSome = true ↔ IsTarget plan name := by
  unfold findPackageTarget IsTarget
  rw [List.find?_isSome]
  simp

theorem isTarget_iff_mem_names :
    IsTarget plan name ↔ name ∈ plan.packageTargets.map (·.packageName) :=
  List.mem_map.symm

/-- What the expansion of a package pushes. -/
def plannedNext (plan : BuildPlan) (name : Bytes) : List Bytes :=
  if (findPackageTarget plan name).isNone then [] else plannedDependencies plan name

theorem mem_plannedNext : child ∈ plannedNext plan parent ↔ AurStep plan parent child := by
  unfold plannedNext AurStep
  rw [← findPackageTarget_isSome_iff, ← findPackageTarget_isSome_iff]
  by_cases hparent : (findPackageTarget plan parent).isSome = true
  · have hsome : (findPackageTarget plan parent).isNone = false := by
      rw [← Option.not_isSome, hparent]
      rfl
    rw [hsome]
    unfold plannedDependencies
    simp only [Bool.false_eq_true, if_false, List.mem_filterMap, List.mem_filter,
      decide_eq_true_eq]
    constructor
    · rintro ⟨edge, ⟨hedge, hname⟩, hpushed⟩
      split at hpushed
      · rename_i name hleads
        split at hpushed
        · rename_i hplanned
          injection hpushed with hpushed
          rw [hpushed] at hleads hplanned
          exact ⟨hparent, hplanned, edge, hedge, hname, hleads⟩
        · cases hpushed
      · cases hpushed
    · rintro ⟨-, hplanned, edge, hedge, hname, hleads⟩
      refine ⟨edge, ⟨hedge, hname⟩, ?_⟩
      rw [hleads]
      exact if_pos hplanned
  · have hnone : (findPackageTarget plan parent).isNone = true := by
      rw [← Option.not_isSome]
      simpa using hparent
    rw [if_pos hnone]
    constructor
    · intro hmem
      cases hmem
    · intro hstep
      exact absurd hstep.1 hparent

theorem plannedNext_length_le (plan : BuildPlan) (name : Bytes) :
    (plannedNext plan name).length ≤ plan.dependencyEdges.length := by
  unfold plannedNext
  split
  · exact Nat.zero_le _
  · exact Nat.le_trans (List.length_filterMap_le _ _) (List.length_filter_le _ _)

/-- The same edges between packages of the same names. -/
structure SameGraph (before after : BuildPlan) : Prop where
  edges : after.dependencyEdges = before.dependencyEdges
  names : after.packageTargets.map (·.packageName) =
    before.packageTargets.map (·.packageName)

theorem SameGraph.plannedNext (h : SameGraph before after) :
    plannedNext after = plannedNext before := by
  have hfound : ∀ name, (findPackageTarget after name).isSome =
      (findPackageTarget before name).isSome := by
    intro name
    rw [Bool.eq_iff_iff, findPackageTarget_isSome_iff, findPackageTarget_isSome_iff,
      isTarget_iff_mem_names, isTarget_iff_mem_names, h.names]
  funext name
  unfold RootReach.plannedNext plannedDependencies
  simp only [← Option.not_isSome, hfound, h.edges]

/-- The packages expanded from a root. -/
def expandedFrom (plan : BuildPlan) (root : RootTargetIdentity) : List Bytes :=
  explore (plannedNext plan) (propagationBudget plan) [root.requestedName] []

/-- The budget of a root empties its stack. -/
theorem mem_expandedFrom : name ∈ expandedFrom plan root ↔ Reaches plan root name := by
  have hsteps : (fun first second => second ∈ plannedNext plan first) = AurStep plan := by
    funext first second
    exact propext mem_plannedNext
  unfold Reaches
  rw [← hsteps]
  apply mem_explore_iff (plan.packageTargets.map (·.packageName)) plan.dependencyEdges.length
  · intro item hitem
    obtain ⟨child, hchild⟩ := List.exists_mem_of_ne_nil _ hitem
    exact isTarget_iff_mem_names.mp (mem_plannedNext.mp hchild).1
  · exact plannedNext_length_le plan
  · rw [List.length_map]
    unfold propagationBudget
    omega

/-! ## What a propagation adds -/

/-- A root for the targets of some names. -/
def giveRoot (root : RootTargetIdentity) (names : List Bytes)
    (target : PlannedPackageTarget) : PlannedPackageTarget :=
  if target.packageName ∈ names then
    { target with roots := addRootIdentity target.roots root }
  else target

theorem giveRoot_name (root : RootTargetIdentity) (names : List Bytes)
    (target : PlannedPackageTarget) :
    (giveRoot root names target).packageName = target.packageName := by
  unfold giveRoot
  split <;> rfl

theorem giveRoot_of_mem (h : target.packageName ∈ names) :
    giveRoot root names target = { target with roots := addRootIdentity target.roots root } :=
  if_pos h

theorem giveRoot_of_not_mem (h : target.packageName ∉ names) :
    giveRoot root names target = target :=
  if_neg h

theorem map_giveRoot_names (root : RootTargetIdentity) (names : List Bytes)
    (targets : List PlannedPackageTarget) :
    (targets.map (giveRoot root names)).map (·.packageName) = targets.map (·.packageName) := by
  rw [List.map_map]
  exact List.map_congr_left fun target _ => giveRoot_name root names target

/-- The plan a package leaves behind when it is expanded. -/
def expandPackage (root : RootTargetIdentity) (name : Bytes) (plan : BuildPlan) : BuildPlan :=
  (plan.dependencyEdges.filter fun edge => edge.parentPackageName = name).foldl
    (addRelationRootsOfEdge root)
    (addRelationRootToPackage (addRootToTarget plan name root) name root)

theorem expandPackage_targets (root : RootTargetIdentity) (name : Bytes)
    (hnames : (plan.packageTargets.map (·.packageName)).Nodup) :
    (expandPackage root name plan).packageTargets =
      plan.packageTargets.map (giveRoot root [name]) := by
  unfold expandPackage
  rw [foldl_addRelationRootsOfEdge_frame]
  show updateFirst _ _ plan.packageTargets = _
  rw [updateFirst_eq_map hnames]
  apply List.map_congr_left
  intro target _
  unfold giveRoot
  simp only [List.mem_singleton]

theorem expandPackage_edges_eq (root : RootTargetIdentity) (name : Bytes) (plan : BuildPlan) :
    (expandPackage root name plan).dependencyEdges = plan.dependencyEdges := by
  unfold expandPackage
  rw [foldl_addRelationRootsOfEdge_frame]
  rfl

/-- The loop of one root gives it to the targets it expands. -/
theorem propagateRoot_targets (root : RootTargetIdentity) :
    ∀ (budget : Nat) (pending visited : List Bytes) (plan : BuildPlan),
      (plan.packageTargets.map (·.packageName)).Nodup →
      (propagateRoot root budget pending visited plan).packageTargets =
        plan.packageTargets.map (giveRoot root
          ((explore (plannedNext plan) budget pending visited).filter (· ∉ visited))) := by
  have hsame : ∀ (visited : List Bytes) (targets : List PlannedPackageTarget),
      targets = targets.map (giveRoot root (visited.filter (· ∉ visited))) := by
    intro visited targets
    conv_lhs => rw [← List.map_id targets]
    apply List.map_congr_left
    intro target _
    rw [giveRoot_of_not_mem]
    · rfl
    · intro hmem
      obtain ⟨hin, hout⟩ := List.mem_filter.mp hmem
      exact (of_decide_eq_true hout) hin
  intro budget
  induction budget with
  | zero => exact fun pending visited plan _ => hsame visited plan.packageTargets
  | succ budget ih =>
    intro pending visited plan hnames
    cases pending with
    | nil => exact hsame visited plan.packageTargets
    | cons name pending =>
      unfold propagateRoot
      rw [explore]
      by_cases hvisited : name ∈ visited
      · rw [if_pos hvisited, if_pos hvisited]
        exact ih pending visited plan hnames
      · rw [if_neg hvisited, if_neg hvisited]
        by_cases htarget : (findPackageTarget plan name).isNone = true
        · -- No target has the name: it is expanded to nothing and marks nothing.
          have hnext : plannedNext plan name = [] := if_pos htarget
          rw [if_pos htarget, hnext, ih pending (name :: visited) plan hnames]
          apply List.map_congr_left
          intro target hmem
          have hother : target.packageName ≠ name := by
            intro hname
            have hsome := findPackageTarget_isSome_iff.mpr ⟨target, hmem, hname⟩
            rw [← Option.not_isSome, hsome] at htarget
            cases htarget
          unfold giveRoot
          simp [hother]
        · have hnext : plannedNext plan name = plannedDependencies plan name :=
            if_neg htarget
          rw [if_neg htarget, hnext]
          have htargets := expandPackage_targets root name hnames
          have hgraph : SameGraph plan (expandPackage root name plan) :=
            ⟨expandPackage_edges_eq root name plan, by
              rw [htargets]
              exact map_giveRoot_names root [name] plan.packageTargets⟩
          have hrun := ih ((plannedDependencies plan name).reverse ++ pending)
            (name :: visited) (expandPackage root name plan) (by rw [hgraph.names]; exact hnames)
          rw [hgraph.plannedNext, htargets, List.map_map] at hrun
          have hmarked : name ∈ explore (plannedNext plan) budget
              ((plannedDependencies plan name).reverse ++ pending) (name :: visited) :=
            subset_explore _ _ _ List.mem_cons_self
          refine Eq.trans hrun ?_
          apply List.map_congr_left
          intro target _
          rw [Function.comp_apply]
          by_cases hname : target.packageName = name
          · -- The name itself was marked by this step.
            rw [giveRoot_of_not_mem, giveRoot_of_mem, giveRoot_of_mem]
            · rw [hname]
              exact List.mem_filter.mpr ⟨hmarked, decide_eq_true hvisited⟩
            · exact List.mem_singleton.mpr hname
            · rw [giveRoot_name, hname]
              intro hmem
              exact of_decide_eq_true (List.mem_filter.mp hmem).2 List.mem_cons_self
          · have hother : target.packageName ∉ [name] := by simpa using hname
            rw [giveRoot_of_not_mem hother]
            unfold giveRoot
            simp [hname]

/-- A target with the roots that reach it. -/
def giveRoots (plan : BuildPlan) (roots : List RootTargetIdentity)
    (target : PlannedPackageTarget) : PlannedPackageTarget :=
  { target with
    roots := (roots.filter fun root => target.packageName ∈ expandedFrom plan root).foldl
      addRootIdentity target.roots }

theorem propagateRootIdentities_targets (hnames : (plan.packageTargets.map (·.packageName)).Nodup) :
    (propagateRootIdentities plan).packageTargets =
      plan.packageTargets.map (giveRoots plan plan.rootTargets) := by
  have hrun : ∀ (roots : List RootTargetIdentity) (current : BuildPlan), SameGraph plan current →
      (roots.foldl (fun current root =>
        propagateRoot root (propagationBudget plan) [root.requestedName] [] current)
        current).packageTargets = current.packageTargets.map (giveRoots plan roots) := by
    intro roots
    induction roots with
    | nil =>
      intro current _
      exact (List.map_id _).symm
    | cons root rest ih =>
      intro current hgraph
      have htargets : (propagateRoot root (propagationBudget plan) [root.requestedName] []
          current).packageTargets =
            current.packageTargets.map (giveRoot root (expandedFrom plan root)) := by
        rw [propagateRoot_targets root _ _ _ current (by rw [hgraph.names]; exact hnames),
          hgraph.plannedNext]
        unfold expandedFrom
        simp
      have hnext : SameGraph plan
          (propagateRoot root (propagationBudget plan) [root.requestedName] [] current) := {
        edges := by
          rw [propagateRoot_frame]
          exact hgraph.edges
        names := by
          rw [htargets, map_giveRoot_names]
          exact hgraph.names }
      rw [List.foldl_cons, ih _ hnext, htargets, List.map_map]
      apply List.map_congr_left
      intro target _
      rw [Function.comp_apply]
      unfold giveRoots giveRoot
      by_cases h : target.packageName ∈ expandedFrom plan root
      · simp [h]
      · simp [h]
  exact hrun plan.rootTargets plan ⟨rfl, rfl⟩

/-- After the propagation the roots of a target are those that reach it. -/
theorem mem_giveRoots_iff {target : PlannedPackageTarget}
    (hroots : ∀ root ∈ target.roots, root ∈ plan.rootTargets ∧
      Reaches plan root target.packageName) {root : RootTargetIdentity} :
    root ∈ (giveRoots plan plan.rootTargets target).roots ↔
      root ∈ plan.rootTargets ∧ Reaches plan root target.packageName := by
  unfold giveRoots
  rw [mem_foldl_addRootIdentity, List.mem_filter, decide_eq_true_eq, mem_expandedFrom]
  constructor
  · rintro (hmem | hmem)
    · exact hroots root hmem
    · exact hmem
  · exact Or.inr

/-! ## Failures -/

/-- The roots of one target for a failure. -/
def blame (failure : BuildPlanResolutionFailure) (target : PlannedPackageTarget) :
    BuildPlanResolutionFailure :=
  { failure with roots := target.roots.foldl addRootIdentity failure.roots }

theorem mem_foldl_blame :
    ∀ {targets : List PlannedPackageTarget} {failure : BuildPlanResolutionFailure},
      root ∈ (targets.foldl blame failure).roots ↔
        root ∈ failure.roots ∨ ∃ target ∈ targets, root ∈ target.roots := by
  intro targets
  induction targets with
  | nil => simp
  | cons target rest ih =>
    intro failure
    rw [List.foldl_cons, ih]
    unfold blame
    rw [mem_foldl_addRootIdentity]
    simp [or_assoc]

theorem foldl_blame_parent :
    ∀ (targets : List PlannedPackageTarget) (failure : BuildPlanResolutionFailure),
      (targets.foldl blame failure).parentPackageName = failure.parentPackageName := by
  intro targets
  induction targets with
  | nil => exact fun failure => rfl
  | cons target rest ih => exact fun failure => ih (blame failure target)

/-- Every failure with a parent carries the roots of the parent. -/
def FailuresBlamed (plan : BuildPlan) : Prop :=
  ∀ failure ∈ plan.resolutionFailures, ∀ parent,
    failure.parentPackageName = some parent →
      ∃ target ∈ plan.packageTargets, target.packageName = parent ∧
        target.roots ⊆ failure.roots

theorem propagateResolutionFailureRootIdentities_blamed (h : FailuresOwned plan) :
    FailuresBlamed (propagateResolutionFailureRootIdentities plan) := by
  intro failure hfailure parent hparent
  obtain ⟨recorded, hrecorded, hblamed⟩ := List.mem_map.mp hfailure
  cases hname : recorded.parentPackageName with
  | none =>
    simp only [hname] at hblamed
    rw [← hblamed, hname] at hparent
    cases hparent
  | some name =>
    simp only [hname] at hblamed
    rw [← hblamed] at hparent ⊢
    rw [show (fun (failure : BuildPlanResolutionFailure) (target : PlannedPackageTarget) =>
      { failure with roots := target.roots.foldl addRootIdentity failure.roots }) = blame
        from rfl] at hparent ⊢
    rw [foldl_blame_parent, hname] at hparent
    injection hparent with hparent
    obtain ⟨target, htarget, htargetName, hbase⟩ := h recorded hrecorded name hname
    refine ⟨target, htarget, htargetName.trans hparent, ?_⟩
    intro root hroot
    apply mem_foldl_blame.mpr
    refine Or.inr ⟨target, List.mem_filter.mpr ⟨htarget, ?_⟩, hroot⟩
    simp [htargetName, hbase]

/-! ## The finished plan -/

/-- The roots of a plan and what carries them. -/
structure RootsAttributed (requested : List Bytes) (plan : BuildPlan) : Prop where
  requested : plan.rootTargets = requested.zipIdx.map fun item => ⟨item.2, item.1⟩
  names_nodup : (plan.packageTargets.map (·.packageName)).Nodup
  sorted : ∀ target ∈ plan.packageTargets, RootsSorted target.roots
  exact : ∀ target ∈ plan.packageTargets, ∀ root,
    root ∈ target.roots ↔ root ∈ plan.rootTargets ∧ Reaches plan root target.packageName
  failures : FailuresBlamed plan

/-- The two ends of an edge. -/
def edgeEnds (edge : BuildPlanDependencyEdge) : Bytes × Option Bytes :=
  (edge.parentPackageName, resolvedAurDependencyName edge)

theorem aurStep_iff : AurStep plan parent child ↔ parent ∈ plan.packageTargets.map (·.packageName) ∧
        child ∈ plan.packageTargets.map (·.packageName) ∧
          (parent, some child) ∈ plan.dependencyEdges.map edgeEnds := by
  unfold AurStep
  rw [isTarget_iff_mem_names, isTarget_iff_mem_names]
  simp [edgeEnds]

/-- Annotation keeps the paths of a plan. -/
theorem annotated_reaches_iff (h : AnnotatedFrom before after) :
    Reaches after root name ↔ Reaches before root name := by
  have hnames : after.packageTargets.map (·.packageName) =
      before.packageTargets.map (·.packageName) := by
    refine map_eq_of_forall₂ ?_ h.targets
    intro target kept hsame
    rw [hsame.1]
  have hends : after.dependencyEdges.map edgeEnds = before.dependencyEdges.map edgeEnds := by
    refine map_eq_of_forall₂ ?_ h.edges
    intro edge kept hsame
    unfold edgeEnds
    rw [hsame.resolvedAurDependencyName, show kept.parentPackageName = edge.parentPackageName
      from by rw [hsame]]
  have hsteps : AurStep after = AurStep before := by
    funext parent child
    apply propext
    rw [aurStep_iff, aurStep_iff, hnames, hends]
  unfold Reaches
  rw [hsteps]

theorem failuresOwned_annotated (h : FailuresOwned before) (hannotated : AnnotatedFrom before after)
    (hfailures : after.resolutionFailures = before.resolutionFailures) : FailuresOwned after := by
  apply h.keep hfailures
  intro target htarget
  obtain ⟨kept, hkept, hsame⟩ := forall₂_exists_left hannotated.targets target htarget
  exact ⟨kept, hkept, by rw [hsame.1], by rw [hsame.1]⟩

/-- The roots of a finished plan. -/
theorem finishBuildPlan_rootsAttributed {env : MetadataEnvironment} {requested : List Bytes}
    {collected : BuildPlan}
    (hrequested : collected.rootTargets = requested.zipIdx.map fun item => ⟨item.2, item.1⟩)
    (hconsistent : Consistent settings collected) (hreach : RootsReach collected)
    (howned : FailuresOwned collected) (h : finishBuildPlan env collected = .ok plan) :
    RootsAttributed requested plan := by
  obtain ⟨ordered, hordered, hannotated⟩ := finishBuildPlan_spec h
  have hframe := orderBuildPlanEntries_frame hordered
  unfold finishBuildPlan at h
  simp only [bind_eq_ok] at h
  obtain ⟨ordered', hordered', projected, hprojected, _, -, _, -, h⟩ := h
  have hsame : ordered' = ordered := by
    rw [hordered'] at hordered
    injection hordered
  rw [hsame] at hprojected
  injection h with h
  rw [h] at hprojected
  have hplan := projectBuildPlanConstraintConflicts_frame hprojected
  -- Ordering touches neither the targets nor the failures.
  have hnames : (ordered.packageTargets.map (·.packageName)).Nodup := by
    rw [hframe]
    exact hconsistent.names_nodup
  have hreach : RootsReach ordered := by
    rw [hframe]
    exact hreach
  have howned : FailuresOwned ordered := by
    rw [hframe]
    exact howned
  have hmember : ∀ target ∈ ordered.packageTargets, ∀ root ∈ target.roots,
      root ∈ ordered.rootTargets := by
    rw [hframe]
    exact fun target htarget => @(hconsistent.targets target htarget).roots_mem
  have hroots : plan.rootTargets = ordered.rootTargets := by rw [hannotated.frame]
  have htargets : plan.packageTargets =
      ordered.packageTargets.map (giveRoots ordered ordered.rootTargets) := by
    rw [hplan]
    exact propagateRootIdentities_targets hnames
  refine ⟨?_, ?_, ?_, ?_, ?_⟩
  · rw [hroots, hframe]
    exact hrequested
  · rw [htargets, List.map_map]
    exact hnames
  · rw [htargets]
    intro target htarget
    obtain ⟨origin, horigin, rfl⟩ := List.mem_map.mp htarget
    exact (hreach origin horigin).1.addAll
  · rw [htargets]
    intro target htarget root
    obtain ⟨origin, horigin, rfl⟩ := List.mem_map.mp htarget
    rw [hroots, annotated_reaches_iff hannotated]
    apply mem_giveRoots_iff
    exact fun other hother =>
      ⟨hmember origin horigin other hother, (hreach origin horigin).2 other hother⟩
  · have hblamed := propagateResolutionFailureRootIdentities_blamed
      (failuresOwned_annotated howned (propagateRootIdentities_annotated ordered) ?_)
    · rw [hplan]
      exact hblamed
    · rw [propagateRootIdentities_frame]

/-- In every plan of a pass the roots of a target are the requested roots
whose package leads to it along resolved AUR edges, in order and each once,
and every failure with a parent carries the roots of the parent. -/
theorem resolveBuildPlanOnce_rootsAttributed {env : MetadataEnvironment}
    {targets : List Bytes} {context : BuildPlanResolutionContext}
    {selectProvider : Option ProviderSelectionCallback} {result : PassResult}
    (h : resolveBuildPlanOnce env targets context selectProvider = .ok result) :
    RootsAttributed targets result.plan := by
  unfold resolveBuildPlanOnce at h
  simp only [bind_eq_ok] at h
  obtain ⟨_, htargets, walked, hwalked, plan, hplan, h⟩ := h
  injection h with h
  rw [← h]
  have hvalid := requireTargets_valid htargets
  have hremote := passSettings_remote env context selectProvider
  exact finishBuildPlan_rootsAttributed (collectRoots_rootTargets hremote hvalid hwalked)
    (collectRoots_consistent hvalid hwalked) (collectRoots_rootsReach hvalid hwalked)
    (collectRoots_failuresOwned hwalked) hplan

/-- `app` and `tool` depend on `lib`, and `lib` on `core`. -/
def sharedLibrary : MetadataEnvironment :=
  MetadataEnvironment.ofAurRecords
    [{ name := ascii "app", packageBase := ascii "app", version := ascii "1-1",
       depends := [ascii "lib"] },
     { name := ascii "tool", packageBase := ascii "tool", version := ascii "1-1",
       depends := [ascii "lib"] },
     { name := ascii "lib", packageBase := ascii "lib", version := ascii "1-1",
       depends := [ascii "core"] },
     { name := ascii "core", packageBase := ascii "core", version := ascii "1-1" }]

/-- The walk from `tool` stops at `lib`, which was walked before; `core` has
its second root from the propagation. -/
theorem resolveBuildPlanOnce_rootsAttributed_shared :
    ∃ result,
      resolveBuildPlanOnce sharedLibrary [ascii "app", ascii "tool"]
          { mode := .captureOrdinaryFailures } none = .ok result ∧
        result.plan.packageTargets.map (fun target => (target.packageName, target.roots)) =
          [(ascii "app", [⟨0, ascii "app"⟩]),
           (ascii "lib", [⟨0, ascii "app"⟩, ⟨1, ascii "tool"⟩]),
           (ascii "core", [⟨0, ascii "app"⟩, ⟨1, ascii "tool"⟩]),
           (ascii "tool", [⟨1, ascii "tool"⟩])] ∧
        RootsAttributed [ascii "app", ascii "tool"] result.plan := by
  have hview : (resolveBuildPlanOnce sharedLibrary [ascii "app", ascii "tool"]
      { mode := .captureOrdinaryFailures } none).toOption.map
        (fun result => result.plan.packageTargets.map
          fun target => (target.packageName, target.roots)) =
      some [(ascii "app", [⟨0, ascii "app"⟩]),
        (ascii "lib", [⟨0, ascii "app"⟩, ⟨1, ascii "tool"⟩]),
        (ascii "core", [⟨0, ascii "app"⟩, ⟨1, ascii "tool"⟩]),
        (ascii "tool", [⟨1, ascii "tool"⟩])] := by
    decide +kernel
  obtain ⟨result, hresult, hseen⟩ := exists_ok_of_view hview
  exact ⟨result, hresult, hseen, resolveBuildPlanOnce_rootsAttributed hresult⟩

end Moguet.Plan.RootReach
