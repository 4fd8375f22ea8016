import Moguet.Plan.Order
import Moguet.Plan.Induction

/-!
# One resolution pass

`resolve_build_plan_once` and its two siblings: the roots are collected one
after the other into one plan, the plan is ordered, root identities are
propagated along the recorded edges, contradictory requirements are projected
onto them, and the two construction checks are made.
-/

namespace Moguet.Plan.Resolution

open Verified.ByteString Verified.Checked Verified.Upsert Constraint Metadata Model RepositoryQuery
open Discovery Dependency Readiness Resolver Walk Order Relation.Assessment

variable {α : Type} {targets : List Bytes}

variable {env : MetadataEnvironment} {plan after collected : BuildPlan}
  {before : BuildPlanDependencyEdge} {settings : ResolverSettings} {P : WalkState → Prop}

/-! ## Root identities -/

def addRootToTarget (plan : BuildPlan) (packageName : Bytes)
    (root : RootTargetIdentity) : BuildPlan :=
  { plan with
    packageTargets :=
      updateFirst (fun target => target.packageName = packageName)
        (fun target => { target with roots := addRootIdentity target.roots root })
        plan.packageTargets }

/-- The relation observations a planned package leads to. -/
def addRelationRootsOfEdge (root : RootTargetIdentity) (plan : BuildPlan)
    (edge : BuildPlanDependencyEdge) : BuildPlan :=
  match edge.resolvedPackageName with
  | some name => addRelationRootToPackage plan name root
  | none =>
    match edge.resolvedProvider with
    | some provider => addRelationRootToPackage plan provider.packageName root
    | none => plan

/-- The planned packages the edges of a package lead to. -/
def plannedDependencies (plan : BuildPlan) (packageName : Bytes) : List Bytes :=
  (plan.dependencyEdges.filter fun edge => edge.parentPackageName = packageName).filterMap
    fun edge =>
      match resolvedAurDependencyName edge with
      | some name => if (findPackageTarget plan name).isSome then some name else none
      | none => none

/-- The loop of one root: `pending` is the stack, last pushed first. -/
def propagateRoot (root : RootTargetIdentity) :
    Nat → List Bytes → List Bytes → BuildPlan → BuildPlan
  | 0, _, _, plan => plan
  | _ + 1, [], _, plan => plan
  | budget + 1, packageName :: pending, visited, plan =>
    if packageName ∈ visited then propagateRoot root budget pending visited plan
    else if (findPackageTarget plan packageName).isNone then
      propagateRoot root budget pending (packageName :: visited) plan
    else
      let marked := addRelationRootToPackage (addRootToTarget plan packageName root)
        packageName root
      let related := (marked.dependencyEdges.filter fun edge =>
        edge.parentPackageName = packageName).foldl (addRelationRootsOfEdge root)
          marked
      propagateRoot root budget
        ((plannedDependencies plan packageName).reverse ++ pending)
        (packageName :: visited) related

/-- Every target is expanded once and pushes at most one name for each edge. -/
def propagationBudget (plan : BuildPlan) : Nat :=
  plan.packageTargets.length * plan.dependencyEdges.length + 2

def propagateRootIdentities (plan : BuildPlan) : BuildPlan :=
  plan.rootTargets.foldl
    (fun current root =>
      propagateRoot root (propagationBudget plan) [root.requestedName] [] current)
    plan

def propagateResolutionFailureRootIdentities (plan : BuildPlan) : BuildPlan :=
  { plan with
    resolutionFailures := plan.resolutionFailures.map fun failure =>
      match failure.parentPackageName with
      | none => failure
      | some parent =>
        (plan.packageTargets.filter fun target =>
          target.packageName = parent &&
            (failure.parentPackageBase = none ||
              failure.parentPackageBase = some target.packageBase)).foldl
          (fun failure target =>
            { failure with
              roots := target.roots.foldl addRootIdentity failure.roots })
          failure }

/-! ## Contradictory requirements -/

def resolvedCandidateConstraintKey : ResolvedDependencyCandidate → Bytes
  | .installed candidate => ascii "installed/" ++ candidate.packageName
  | .repository candidate =>
    ascii "repository/" ++ candidate.repository.repositoryName ++ ascii "/" ++
      candidate.packageName
  | .aur candidate =>
    ascii "aur/" ++ candidate.packageBase ++ ascii "/" ++ candidate.packageName
  | .local candidate =>
    ascii "local/" ++ candidate.packageBase ++ ascii "/" ++ candidate.packageName
  | .provider candidate =>
    ascii "provider/" ++ providerPackageIdentityDisplay candidate.provider ++
      ascii "/" ++ candidate.provider.providedDependencyName

def consumerOf (edge : BuildPlanDependencyEdge) :
    Option ConsumerDependencyRequirement :=
  match edge.requirement with
  | some (.consumer consumer) => some consumer
  | _ => none

/-- The identity a resolved edge places its requirement on. -/
def resolvedEdgeKeys (item : BuildPlanDependencyEdge × Nat) :
    List (Bytes × Nat) :=
  match consumerOf item.1, item.1.resolvedCandidate with
  | some consumer, some candidate =>
    [(resolvedCandidateConstraintKey candidate ++ ascii "/requirement/" ++
      consumer.packageName, item.2)]
  | _, _ => []

/-- An ambiguous edge places its requirement on every candidate it offers. -/
def ambiguousEdgeKeys (plan : BuildPlan) (item : BuildPlanDependencyEdge × Nat) :
    List (Bytes × Nat) :=
  if item.1.kind ≠ .ambiguousProvider then []
  else
    match consumerOf item.1,
        plan.ambiguousProviders.find? fun ambiguous =>
          ambiguous.dependency = item.1.dependencySpec with
    | some consumer, some candidates =>
      candidates.candidates.map fun provider =>
        (ascii "provider/" ++ providerPackageIdentityDisplay provider ++ ascii "/" ++
          provider.providedDependencyName ++ ascii "/requirement/" ++
          consumer.packageName, item.2)
    | _, _ => []

/-- The edge indices of each identity, in the order of the map's keys. -/
def constraintGroups (plan : BuildPlan) : List (List Nat) :=
  let edges := plan.dependencyEdges.zipIdx
  let keyed := edges.flatMap resolvedEdgeKeys ++
    edges.flatMap (ambiguousEdgeKeys plan)
  let keys := (keyed.map (·.1)).foldl insertNew []
  (keys.insertionSort fun lhs rhs => ¬ rhs < lhs).map fun key =>
    (keyed.filter fun item => item.1 = key).map (·.2)

def setEvaluations (indices : List Nat) (evaluation : ConstraintEvaluation)
    (plan : BuildPlan) : BuildPlan :=
  { plan with
    dependencyEdges := plan.dependencyEdges.zipIdx.map fun item =>
      if item.2 ∈ indices then
        { item.1 with constraintEvaluation := some evaluation }
      else item.1 }

/-- One group: the evaluation of its edges is replaced when the requirements
contradict each other. -/
def projectGroup (env : MetadataEnvironment) (plan : BuildPlan)
    (indices : List Nat) : Except Thrown BuildPlan :=
  match projectConflictingConstraintInvocation env.vercmp
      (indices.filterMap fun index =>
        plan.dependencyEdges[index]? >>= consumerOf) with
  | .error what => .error ⟨.logicError, what⟩
  | .ok none => .ok plan
  | .ok (some conflict) => .ok (setEvaluations indices conflict plan)

def projectBuildPlanConstraintConflicts (env : MetadataEnvironment)
    (plan : BuildPlan) : Except Thrown BuildPlan :=
  (constraintGroups plan).foldlM (projectGroup env) plan

/-! ## The pass -/

/-- What every pass does with its collected plan. -/
def finishBuildPlan (env : MetadataEnvironment) (collected : BuildPlan) :
    Except Thrown BuildPlan := do
  let ordered ← orderBuildPlanEntries collected
  let propagated :=
    propagateResolutionFailureRootIdentities (propagateRootIdentities ordered)
  let plan ← projectBuildPlanConstraintConflicts env propagated
  requireCompatibleSelectedProviderPackageIdentities plan
  requireConstructibleBuildPlanConstraints plan
  .ok plan

def emptyTargets : Thrown :=
  ⟨.invalidArgument, ascii "Build plan targets must not be empty."⟩

/-- The existence check legacy consumers rely on. -/
def requireAurTarget (settings : ResolverSettings) (target : Bytes) :
    Except Thrown Unit := do
  match ← queryAurPackageInfo settings.env settings.context target
      settings.selectProvider.isSome with
  | some _ => .ok ()
  | none =>
    .error ⟨.runtimeError, ascii "AUR package not found: " ++ target⟩

/-- The checks a pass makes before it collects anything. -/
def requireTargets (settings : ResolverSettings) (targets : List Bytes) :
    Except Thrown Unit :=
  if targets = [] then .error emptyTargets
  else do
    targets.forM requireValidPackageName
    if settings.context.mode = .legacy then
      targets.forM (requireAurTarget settings)
    else .ok ()

/-- One root: it enters the plan and its package is collected at depth 0. -/
def collectRoot (settings : ResolverSettings) (state : WalkState)
    (item : Bytes × Nat) : Except Thrown WalkState :=
  let root : RootTargetIdentity := ⟨item.2, item.1⟩
  collectAurBuildPlan settings (maxRecursiveDepDepth + 1)
    { packageName := item.1, roles := [.root], root := root }
    (state.withPlan { state.plan with
      rootTargets := state.plan.rootTargets ++ [root] })

def collectRoots (settings : ResolverSettings) (targets : List Bytes) :
    Except Thrown WalkState :=
  targets.zipIdx.foldlM (collectRoot settings) {}

/-- The result of a pass with the calls its callbacks saw. -/
structure PassResult where
  plan : BuildPlan
  identityConflicts : List RemoteProviderIdentityConflict := []
  requests : List ProviderSelectionRequest := []
  localRequests : List DependencyContext := []

def resolveBuildPlanOnce (env : MetadataEnvironment) (targets : List Bytes)
    (context : BuildPlanResolutionContext)
    (selectProvider : Option ProviderSelectionCallback) :
    Except Thrown PassResult :=
  let settings : ResolverSettings :=
    { env := env, context := context, selectProvider := selectProvider }
  do
    requireTargets settings targets
    let state ← collectRoots settings targets
    let plan ← finishBuildPlan env state.plan
    .ok ⟨plan, state.identityConflicts, state.requests, state.localRequests⟩

/-- The fetch pass checks its targets one by one. -/
def requireFetchTargets (settings : ResolverSettings) (targets : List Bytes) :
    Except Thrown Unit :=
  if targets = [] then .error emptyTargets
  else
    targets.forM fun target => do
      requireValidPackageName target
      requireAurTarget settings target

/-- `resolve_fetch_plan_once`: the legacy mode, without a walk into providers
nobody selected. -/
def resolveFetchPlanOnce (env : MetadataEnvironment) (targets : List Bytes)
    (selectProvider : Option ProviderSelectionCallback) :
    Except Thrown PassResult :=
  let settings : ResolverSettings :=
    { env := env, context := { mode := .legacy }, traverseAurProviders := false,
      selectProvider := selectProvider }
  do
    requireFetchTargets settings targets
    let state ← collectRoots settings targets
    let plan ← finishBuildPlan env state.plan
    .ok ⟨plan, state.identityConflicts, state.requests, state.localRequests⟩

/-! ## Local packages -/

/-- `dependency_plan_projection_support::RootPackage`. -/
structure RootPackage where
  packageName : Bytes
  packageBase : Bytes
  dependencies : List TypedPackageDependency
  conflicts : List Bytes
  replaces : List Bytes

def enterRootPackage (package : RootPackage) (root : RootTargetIdentity)
    (plan : BuildPlan) : BuildPlan :=
  let plan := { plan with rootTargets := plan.rootTargets ++ [root] }
  let plan := addPlannedPackageTarget plan package.packageName package.packageBase
    [.root] root
  let plan := addBuildPlanEntry plan package.packageName package.packageBase
  let plan := addBuildPlanSplitPackageTarget plan package.packageName
    package.packageBase
  addBuildPlanMetadataRisk plan package.packageName package.packageBase
    package.conflicts package.replaces

def collectRootPackage (settings : ResolverSettings) (state : WalkState)
    (item : RootPackage × Nat) : Except Thrown WalkState :=
  let package := item.1
  let root : RootTargetIdentity := ⟨item.2, package.packageName⟩
  let specifications :=
    (package.dependencies.map (·.specification)).foldl addUniqueValue []
  specifications.foldlM
    (fun state specification =>
      resolveBuildPlanDependency settings
        (collectAurBuildPlan settings maxRecursiveDepDepth)
        ⟨package.packageName, package.packageBase, specification,
          typedDependenciesForSpecification package.dependencies specification,
          root⟩
        state)
    (state.withPlan (enterRootPackage package root state.plan))

def requireRootPackages (roots : List RootPackage) : Except Thrown Unit :=
  if roots = [] then .error emptyTargets
  else
    roots.forM fun root => do
      requireValidPackageName root.packageName
      requireValidPackageName root.packageBase

/-- `dependency_plan_projection_support::resolve_once`. -/
def resolveOnce (env : MetadataEnvironment) (roots : List RootPackage)
    (localPackageBases : List Bytes)
    (resolveLocalDependency : Option LocalDependencyResolver)
    (selectProvider : Option ProviderSelectionCallback) :
    Except Thrown PassResult :=
  let settings : ResolverSettings := {
    env := env
    context := { mode := .captureOrdinaryFailures }
    selectProvider := selectProvider
    localPackageBases := localPackageBases
    localPackageNames := (roots.map (·.packageName)).foldl insertNew []
    recordIdentityConflicts := true
    resolveLocalDependency := resolveLocalDependency }
  do
    requireRootPackages roots
    let state ← roots.zipIdx.foldlM (collectRootPackage settings) {}
    let plan ← finishBuildPlan env state.plan
    .ok ⟨plan, state.identityConflicts, state.requests, state.localRequests⟩

/-- `finalize_build_plan_relation_assessments`: a plan without a declaration
has nothing to assess. -/
def finalizeBuildPlanRelationAssessments (env : MetadataEnvironment)
    (plan : BuildPlan) : BuildPlan :=
  { plan with
    relationAssessments :=
      if plan.plannedRelationObservations.any fun observation =>
          observation.declarations ≠ [] then
        assessPackageRelations env.vercmp env.installedRelationObservations
          plan.plannedRelationObservations none
      else [] }

/-! ## What finishing a plan changes -/

/-- The same target, with more roots. -/
def SameTarget (before after : PlannedPackageTarget) : Prop :=
  after = { before with roots := after.roots } ∧ before.roots ⊆ after.roots

/-- The same edge, up to its evaluation. -/
def SameEdge (before after : BuildPlanDependencyEdge) : Prop :=
  after = { before with constraintEvaluation := after.constraintEvaluation }

/-- A plan after its roots were propagated and its requirements compared. -/
structure AnnotatedFrom (collected plan : BuildPlan) : Prop where
  frame : plan = { collected with
    packageTargets := plan.packageTargets
    plannedRelationObservations := plan.plannedRelationObservations
    resolutionFailures := plan.resolutionFailures
    dependencyEdges := plan.dependencyEdges }
  targets : List.Forall₂ SameTarget collected.packageTargets plan.packageTargets
  edges : List.Forall₂ SameEdge collected.dependencyEdges plan.dependencyEdges
  failures : plan.resolutionFailures.length = collected.resolutionFailures.length

theorem SameTarget.refl (target : PlannedPackageTarget) : SameTarget target target :=
  ⟨rfl, List.Subset.refl _⟩

theorem SameTarget.trans {first second third : PlannedPackageTarget}
    (h : SameTarget first second) (h' : SameTarget second third) :
    SameTarget first third := by
  refine ⟨?_, List.Subset.trans h.2 h'.2⟩
  rw [h'.1, h.1]

theorem SameEdge.refl (edge : BuildPlanDependencyEdge) : SameEdge edge edge := rfl

theorem SameEdge.trans {first second third : BuildPlanDependencyEdge}
    (h : SameEdge first second) (h' : SameEdge second third) :
    SameEdge first third := by
  unfold SameEdge at h h' ⊢
  rw [h', h]

theorem AnnotatedFrom.refl (plan : BuildPlan) : AnnotatedFrom plan plan :=
  ⟨rfl, List.forall₂_same.mpr fun target _ => SameTarget.refl target,
    List.forall₂_same.mpr fun edge _ => SameEdge.refl edge, rfl⟩

theorem AnnotatedFrom.trans {first second third : BuildPlan}
    (h : AnnotatedFrom first second) (h' : AnnotatedFrom second third) :
    AnnotatedFrom first third where
  frame := by rw [h'.frame, h.frame]
  targets := forall₂_trans (R := SameTarget) (fun _ _ _ => SameTarget.trans)
    h.targets h'.targets
  edges := forall₂_trans (R := SameEdge) (fun _ _ _ => SameEdge.trans)
    h.edges h'.edges
  failures := h'.failures.trans h.failures

theorem addRelationRootToPackage_annotated (plan : BuildPlan) (name : Bytes)
    (root : RootTargetIdentity) :
    AnnotatedFrom plan (addRelationRootToPackage plan name root) :=
  ⟨rfl, (AnnotatedFrom.refl plan).targets, (AnnotatedFrom.refl plan).edges, rfl⟩

theorem addRootToTarget_annotated (plan : BuildPlan) (name : Bytes) (root : RootTargetIdentity) :
    AnnotatedFrom plan (addRootToTarget plan name root) where
  frame := rfl
  targets := forall₂_updateFirst SameTarget.refl
    (fun _ => ⟨rfl, fun _ hother => mem_addRootIdentity.mpr (Or.inl hother)⟩) _
  edges := (AnnotatedFrom.refl plan).edges
  failures := rfl

theorem addRelationRootsOfEdge_annotated (root : RootTargetIdentity)
    (plan : BuildPlan) (edge : BuildPlanDependencyEdge) :
    AnnotatedFrom plan (addRelationRootsOfEdge root plan edge) := by
  unfold addRelationRootsOfEdge
  split
  · exact addRelationRootToPackage_annotated _ _ _
  · split
    · exact addRelationRootToPackage_annotated _ _ _
    · exact AnnotatedFrom.refl plan

theorem foldl_annotated {step : BuildPlan → α → BuildPlan}
    (hstep : ∀ plan item, AnnotatedFrom plan (step plan item)) :
    ∀ (items : List α) (plan : BuildPlan), AnnotatedFrom plan (items.foldl step plan) := by
  intro items
  induction items with
  | nil => exact AnnotatedFrom.refl
  | cons item rest ih =>
    intro plan
    exact (hstep plan item).trans (ih _)

theorem propagateRoot_annotated (root : RootTargetIdentity) :
    ∀ (budget : Nat) (pending visited : List Bytes) (plan : BuildPlan),
      AnnotatedFrom plan (propagateRoot root budget pending visited plan) := by
  intro budget
  induction budget with
  | zero => exact fun pending visited plan => AnnotatedFrom.refl plan
  | succ budget ih =>
    intro pending visited plan
    cases pending with
    | nil => exact AnnotatedFrom.refl plan
    | cons name pending =>
      unfold propagateRoot
      split
      · exact ih _ _ _
      · split
        · exact ih _ _ _
        · refine AnnotatedFrom.trans ?_ (ih _ _ _)
          refine AnnotatedFrom.trans ?_
            (foldl_annotated (addRelationRootsOfEdge_annotated root) _ _)
          exact (addRootToTarget_annotated plan name root).trans
            (addRelationRootToPackage_annotated _ _ _)

theorem propagateRootIdentities_annotated (plan : BuildPlan) :
    AnnotatedFrom plan (propagateRootIdentities plan) :=
  foldl_annotated (fun _ root => propagateRoot_annotated root _ _ _ _) _ _

theorem propagateResolutionFailureRootIdentities_annotated (plan : BuildPlan) :
    AnnotatedFrom plan (propagateResolutionFailureRootIdentities plan) :=
  ⟨rfl, (AnnotatedFrom.refl plan).targets, (AnnotatedFrom.refl plan).edges,
    by simp [propagateResolutionFailureRootIdentities]⟩

theorem setEvaluations_edges (indices : List Nat) (evaluation : ConstraintEvaluation) :
    ∀ (edges : List BuildPlanDependencyEdge) (start : Nat), List.Forall₂ SameEdge edges
        ((edges.zipIdx start).map fun item =>
          if item.2 ∈ indices then
            { item.1 with constraintEvaluation := some evaluation }
          else item.1) := by
  intro edges
  induction edges with
  | nil => exact fun start => List.Forall₂.nil
  | cons edge rest ih =>
    intro start
    rw [List.zipIdx_cons, List.map_cons]
    refine List.Forall₂.cons ?_ (ih _)
    dsimp only
    split
    · rfl
    · rfl

theorem projectBuildPlanConstraintConflicts_annotated
    (h : projectBuildPlanConstraintConflicts env plan = .ok after) : AnnotatedFrom plan after := by
  unfold projectBuildPlanConstraintConflicts at h
  refine foldlM_rel AnnotatedFrom.refl (fun _ _ _ => AnnotatedFrom.trans) ?_ h
  intro indices _ current next hstep
  unfold projectGroup at hstep
  split at hstep
  · cases hstep
  · injection hstep with hstep
    rw [← hstep]
    exact AnnotatedFrom.refl current
  · injection hstep with hstep
    rw [← hstep]
    exact ⟨rfl, (AnnotatedFrom.refl current).targets, setEvaluations_edges _ _ _ 0, rfl⟩

/-- Marking what an edge leads to changes the observations only. -/
theorem foldl_addRelationRootsOfEdge_frame (root : RootTargetIdentity) :
    ∀ (edges : List BuildPlanDependencyEdge) (plan : BuildPlan),
      edges.foldl (addRelationRootsOfEdge root) plan = { plan with
        plannedRelationObservations :=
          (edges.foldl (addRelationRootsOfEdge root) plan).plannedRelationObservations } := by
  intro edges
  induction edges with
  | nil => exact fun plan => rfl
  | cons edge rest ih =>
    intro plan
    have hedge : addRelationRootsOfEdge root plan edge = { plan with
        plannedRelationObservations :=
          (addRelationRootsOfEdge root plan edge).plannedRelationObservations } := by
      unfold addRelationRootsOfEdge
      split
      · rfl
      · split <;> rfl
    rw [List.foldl_cons, ih, hedge]

/-- Propagation changes the roots of targets and of observations only. -/
theorem propagateRoot_frame (root : RootTargetIdentity) :
    ∀ (budget : Nat) (pending visited : List Bytes) (plan : BuildPlan),
      propagateRoot root budget pending visited plan = { plan with
        packageTargets := (propagateRoot root budget pending visited plan).packageTargets
        plannedRelationObservations :=
          (propagateRoot root budget pending visited plan).plannedRelationObservations } := by
  intro budget
  induction budget with
  | zero => exact fun pending visited plan => rfl
  | succ budget ih =>
    intro pending visited plan
    cases pending with
    | nil => rfl
    | cons name pending =>
      unfold propagateRoot
      split
      · exact ih _ _ _
      · split
        · exact ih _ _ _
        · rw [ih, foldl_addRelationRootsOfEdge_frame]
          rfl

theorem propagateRootIdentities_frame (plan : BuildPlan) :
    propagateRootIdentities plan = { plan with
      packageTargets := (propagateRootIdentities plan).packageTargets
      plannedRelationObservations :=
        (propagateRootIdentities plan).plannedRelationObservations } := by
  have hrun : ∀ (budget : Nat) (roots : List RootTargetIdentity) (current : BuildPlan),
      let after := roots.foldl (fun current root =>
        propagateRoot root budget [root.requestedName] [] current) current
      after = { current with
        packageTargets := after.packageTargets
        plannedRelationObservations := after.plannedRelationObservations } := by
    intro budget roots
    induction roots with
    | nil => exact fun current => rfl
    | cons root rest ih =>
      intro current
      dsimp only
      rw [List.foldl_cons, ih, propagateRoot_frame]
  exact hrun _ _ plan

/-- A finished plan: the collected one, ordered and annotated. -/
theorem finishBuildPlan_spec (h : finishBuildPlan env collected = .ok plan) :
    ∃ ordered, orderBuildPlanEntries collected = .ok ordered ∧ AnnotatedFrom ordered plan := by
  unfold finishBuildPlan at h
  simp only [bind_eq_ok] at h
  obtain ⟨ordered, hordered, projected, hprojected, _, -, _, -, h⟩ := h
  injection h with h
  rw [← h]
  exact ⟨ordered, hordered, ((propagateRootIdentities_annotated ordered).trans
    (propagateResolutionFailureRootIdentities_annotated _)).trans
      (projectBuildPlanConstraintConflicts_annotated hprojected)⟩

/-- Ordering changes the order and the cycle reports only. -/
theorem orderBuildPlanEntries_frame (h : orderBuildPlanEntries plan = .ok after) :
    after = { plan with order := after.order, cycles := after.cycles } := by
  unfold orderBuildPlanEntries at h
  simp only [bind_eq_ok] at h
  obtain ⟨state, -, h⟩ := h
  injection h with h
  rw [← h]

theorem SameEdge.resolvedAurDependencyName {after : BuildPlanDependencyEdge}
    (h : SameEdge before after) :
    resolvedAurDependencyName after = resolvedAurDependencyName before := by
  unfold SameEdge at h
  rw [h]
  rfl

theorem findPackageTarget_base {packageName : Bytes} : ∀ {before after : List PlannedPackageTarget},
      List.Forall₂ SameTarget before after →
      (after.find? fun target => target.packageName = packageName).map (·.packageBase) =
        (before.find? fun target => target.packageName = packageName).map (·.packageBase) := by
  intro before
  induction before with
  | nil =>
    intro after h
    cases h
    rfl
  | cons target rest ih =>
    intro after h
    cases h with
    | cons hsame hrest =>
      rename_i kept others
      have hname : kept.packageName = target.packageName := by rw [hsame.1]
      have hbase : kept.packageBase = target.packageBase := by rw [hsame.1]
      by_cases hfound : target.packageName = packageName
      · rw [List.find?_cons_of_pos (by simpa [hname] using hfound),
          List.find?_cons_of_pos (by simpa using hfound)]
        simpa using hbase
      · rw [List.find?_cons_of_neg (by simpa [hname] using hfound),
          List.find?_cons_of_neg (by simpa using hfound)]
        exact ih hrest

/-- Annotation keeps what an edge depends on. -/
theorem AnnotatedFrom.dependencyPackageBase (h : AnnotatedFrom collected plan)
    {after : BuildPlanDependencyEdge} (hedge : SameEdge before after) :
    resolvedAurDependencyPackageBase plan after =
      resolvedAurDependencyPackageBase collected before := by
  have hname := hedge.resolvedAurDependencyName
  unfold resolvedAurDependencyPackageBase
  rw [hname]
  unfold SameEdge at hedge
  rw [hedge]
  split
  · rfl
  · split
    · rfl
    · exact findPackageTarget_base h.targets

theorem forall₂_exists_right {R : α → α → Prop} :
    ∀ {before after : List α}, List.Forall₂ R before after →
      ∀ item ∈ after, ∃ origin ∈ before, R origin item := by
  intro before after h
  induction h with
  | nil => intro item hmem; cases hmem
  | cons hitem _ ih =>
    intro item hmem
    rcases List.mem_cons.mp hmem with rfl | hmem
    · exact ⟨_, List.mem_cons_self, hitem⟩
    · obtain ⟨origin, horigin, hrel⟩ := ih item hmem
      exact ⟨origin, List.mem_cons_of_mem _ horigin, hrel⟩

theorem forall₂_exists_left {R : α → α → Prop} {before after : List α}
    (h : List.Forall₂ R before after) : ∀ item ∈ before, ∃ kept ∈ after, R item kept := by
  intro item hmem
  exact forall₂_exists_right h.flip item hmem

/-! ## Rules for a pass -/

theorem requireTargets_valid (h : requireTargets settings targets = .ok ()) :
    ∀ target ∈ targets, isValidPackageName target = true := by
  unfold requireTargets at h
  split at h
  · cases h
  · rw [bind_eq_ok] at h
    obtain ⟨_, hvalid, -⟩ := h
    intro target hmem
    exact requireValidPackageName_ok (forM_ok_mem hvalid target hmem)

theorem requireFetchTargets_valid (h : requireFetchTargets settings targets = .ok ()) :
    ∀ target ∈ targets, isValidPackageName target = true := by
  unfold requireFetchTargets at h
  split at h
  · cases h
  · intro target hmem
    have htarget := forM_ok_mem h target hmem
    rw [bind_eq_ok] at htarget
    obtain ⟨_, hvalid, -⟩ := htarget
    exact requireValidPackageName_ok hvalid

/-- The state a root is collected in. -/
def enterRoot (state : WalkState) (root : RootTargetIdentity) : WalkState :=
  state.withPlan { state.plan with
    rootTargets := state.plan.rootTargets ++ [root] }

theorem rootRequestAt {settings : ResolverSettings} {state : WalkState}
    {root : RootTargetIdentity} (hvalid : isValidPackageName root.requestedName = true) :
    RequestAt settings (enterRoot state root).plan
      { packageName := root.requestedName, roles := [.root], root := root } where
  name_valid := hvalid
  reached := Or.inl ⟨List.mem_append.mpr (Or.inr (List.mem_singleton.mpr rfl)), rfl⟩
  roles_ne := List.cons_ne_nil _ _
  asked := Or.inl ⟨List.mem_singleton.mpr rfl, rfl,
    List.mem_append.mpr (Or.inr (List.mem_singleton.mpr rfl))⟩
  preloaded := fun info h => by cases h

/-- The request a root is collected by. -/
def rootRequest (root : RootTargetIdentity) : CollectRequest :=
  { packageName := root.requestedName, roles := [.root], root := root }

/-- What a rule of the walk keeps for each root holds of all that is
collected. -/
theorem collectRoots_rule {R : Bytes → WalkState → WalkState → Prop}
    {C : CollectRequest → WalkState → WalkState → Prop} (rule : WalkRule settings R C)
    (hempty : P {}) (hroot : ∀ {state after} (root : RootTargetIdentity), P state →
      C (rootRequest root) (enterRoot state root) after →
      PlanGrows (enterRoot state root).plan after.plan → P after) {after : WalkState}
    (hvalid : ∀ target ∈ targets, isValidPackageName target = true)
    (h : collectRoots settings targets = .ok after) : P after := by
  unfold collectRoots at h
  refine foldlM_inv ?_ hempty h
  rintro ⟨target, index⟩ hmem state next hstate hstep
  have hname := hvalid target (List.fst_mem_of_mem_zipIdx hmem)
  obtain ⟨hcollected, hgrows⟩ := rule.collect _ _ _ _
    (@rootRequestAt settings state ⟨index, target⟩ hname) hstep
  exact hroot ⟨index, target⟩ hstate hcollected hgrows

/-- An invariant of the walk that entering a root keeps holds of all that is
collected. -/
theorem collectRoots_keeps (keeps : Keeps settings P) (hempty : P {})
    (henter : ∀ state root, P state → P (enterRoot state root)) {after : WalkState}
    (hvalid : ∀ target ∈ targets, isValidPackageName target = true)
    (h : collectRoots settings targets = .ok after) : P after := by
  unfold collectRoots at h
  refine foldlM_inv ?_ hempty h
  rintro ⟨target, index⟩ hmem state next hstate hstep
  have hname := hvalid target (List.fst_mem_of_mem_zipIdx hmem)
  exact keeps.collect (rootRequestAt hname) (henter state ⟨index, target⟩ hstate) hstep

end Moguet.Plan.Resolution
