import Moguet.Plan.Model

/-!
# Plan readiness

The reasons a plan gives against its own execution and the guards that read
them (`dependency_plan_model.cpp`). `assessPlanReasons` lists the reasons in
the order in which the guards report them; `requireCapabilityReadiness`
throws on the first one that blocks the capability asked for.

The display of a relation assessment belongs to the presentation layer and
stays a parameter.
-/

namespace Moguet.Plan.Readiness

open Verified.ByteString Constraint Metadata Model Relation.Assessment

variable {target : Bytes} {plan : BuildPlan}

def constraintSatisfactionDisplay : ConstraintSatisfaction → Bytes
  | .unconstrained => ascii "Unconstrained"
  | .satisfied => ascii "Satisfied"
  | .unsatisfied => ascii "Unsatisfied"
  | .unknown => ascii "Unknown"
  | .invalid => ascii "Invalid"
  | .conflicting => ascii "Conflicting"

def unknownReasonDisplay : ObservedVersionUnknownReason → Bytes
  | .missingVersionMetadata => ascii "version metadata is missing"
  | .unversionedProviderCapability =>
    ascii "the matching provider capability has no version"
  | .metadataQueryFailure => ascii "metadata query failed"
  | .partialSourceFailure => ascii "source metadata is incomplete"
  | .comparisonAuthorityUnavailable =>
    ascii "version comparison authority is unavailable"
  | .candidateVersionUnavailable => ascii "candidate version cannot be proven"
  | .relationKindNotComparable =>
    ascii "the relation is not a package-version constraint"

def invalidReasonDisplay : ConstraintInvalidReason → Bytes
  | .malformedRequirement => ascii "the dependency requirement is malformed"
  | .unsupportedConsumerOperator => ascii "the dependency operator is unsupported"
  | .unsupportedProviderOperator => ascii "the provider operator is unsupported"
  | .invalidPackageIdentity => ascii "the package identity is invalid"
  | .invalidVersionIdentity => ascii "the package version is invalid"
  | .internalInvariantViolation => ascii "an internal constraint invariant failed"

def conflictReasonDisplay : ConstraintConflictReason → Bytes
  | .incompatibleRequirements =>
    ascii "requirements for the same candidate conflict"
  | .incompatibleProviderIdentity =>
    ascii "provider source identities conflict"

def constraintEvaluationReasonDisplay : ConstraintEvaluation → Bytes
  | .unknown reason => unknownReasonDisplay reason
  | .invalid reason => invalidReasonDisplay reason
  | .conflicting reason => conflictReasonDisplay reason
  | .unconstrained => ascii "no version comparison is required"
  | .satisfied => ascii "the observed version satisfies the requirement"
  | .unsatisfied => ascii "the observed version does not satisfy the requirement"

def joinGuardSummaryValues (values : List Bytes) : Bytes :=
  (values.intersperse (ascii ", ")).flatten

def providedDependencyDisplay (provider : ProvidedDependency) : Bytes :=
  match provider.origin with
  | .repository repositoryName _ =>
    repositoryName ++ ascii "/" ++ provider.packageName
  | .aur => ascii "aur/" ++ provider.packageName

def ambiguousProviderDependencySummary
    (dependency : AmbiguousProvidedDependency) : Bytes :=
  dependency.dependency ++ ascii " (" ++
    joinGuardSummaryValues (dependency.candidates.map providedDependencyDisplay) ++
    ascii ")"

def splitPackageTargetSummary (target : BuildPlanSplitPackageTarget) : Bytes :=
  target.packageName ++ ascii " (base: " ++ target.packageBase ++ ascii ")"

inductive ExecutionCapability
  | fetch
  | build
  | install
  deriving DecidableEq

inductive ExecutionReadinessState
  | notAssessed
  | ready
  | requiresCheck
  | blocked
  | unknown
  deriving DecidableEq

inductive PlanRequiredAction
  | none
  | correctPlanAuthority
  | resolveDependency
  | selectProvider
  | obtainMetadata
  | reviewDeclaredRelations
  | usePackageBaseSetLifecycle
  deriving DecidableEq

inductive PlanConstraintAuthorityIssueKind
  | missingRequirement
  | requirementIdentityChanged
  | sourceIdentityInconsistent
  | missingEvaluation
  | invalidEvaluation
  | conflictingEvaluation
  deriving DecidableEq

structure PlanConstraintAuthorityReason where
  kind : PlanConstraintAuthorityIssueKind
  edgeIndex : Nat
  dependencySpecification : Bytes
  satisfaction : Option ConstraintSatisfaction

structure PlanConstraintReadinessReason where
  edgeIndex : Nat
  dependencySpecification : Bytes
  satisfaction : ConstraintSatisfaction

inductive PlanReason
  | constraintAuthority (reason : PlanConstraintAuthorityReason)
  | selectedProviderIdentityConflict (existing selected : ProvidedDependency)
  | constraintReadiness (reason : PlanConstraintReadinessReason)
  | resolution (failure : BuildPlanResolutionFailure)
  | unresolvedDependency (dependency : Bytes)
  | ambiguousProvider (dependency : AmbiguousProvidedDependency)
  | dependencyCycle (dependency : Bytes)
  | declaredRelation (assessment : PackageRelationAssessment)
  | splitPackage (target : BuildPlanSplitPackageTarget)
  | incompleteProviderCandidate (candidateSet : IncompleteProviderCandidateSet)

inductive PlanCompletenessEffect
  | none
  | unknown
  | incomplete
  deriving DecidableEq

structure AssessedPlanReason where
  reason : PlanReason
  state : ExecutionReadinessState
  blocksProductionGuard : Bool
  requiredAction : PlanRequiredAction
  capabilities : List ExecutionCapability
  completenessEffect : PlanCompletenessEffect

def allExecutionCapabilities : List ExecutionCapability :=
  [.fetch, .build, .install]

theorem mem_allExecutionCapabilities (capability : ExecutionCapability) :
    capability ∈ allExecutionCapabilities := by
  cases capability <;> decide

/-- The first user selection that contradicts an earlier one, with it. -/
def selectedProviderIdentityConflictIn :
    List BuildPlanProvidedDependency → List BuildPlanProvidedDependency →
      Option (ProvidedDependency × ProvidedDependency)
  | _, [] => none
  | earlier, selected :: rest =>
    let conflict :=
      if selected.resolution ≠ .userSelected then none
      else earlier.find? fun existing =>
        existing.resolution = .userSelected &&
          hasIncompatibleProviderPackageIdentity existing.provider
            selected.provider
    match conflict with
    | some existing => some (existing.provider, selected.provider)
    | none => selectedProviderIdentityConflictIn (earlier ++ [selected]) rest

def selectedProviderIdentityConflict (plan : BuildPlan) :
    Option (ProvidedDependency × ProvidedDependency) :=
  selectedProviderIdentityConflictIn [] plan.provided

def resolvedCandidateMatchesEdge (edge : BuildPlanDependencyEdge)
    (candidate : ResolvedDependencyCandidate) : Bool :=
  match candidate with
  | .installed candidate =>
    edge.kind = .installed &&
      edge.resolvedPackageName = some candidate.packageName
  | .repository candidate =>
    edge.kind = .repo && candidate.repository.repositoryName ≠ [] &&
      edge.resolvedPackageName = some candidate.packageName
  | .aur candidate =>
    edge.kind = .aur &&
      edge.resolvedPackageName = some candidate.packageName &&
      edge.resolvedPackageBase = some candidate.packageBase
  | .local candidate =>
    edge.kind = .local &&
      edge.resolvedPackageName = some candidate.packageName &&
      edge.resolvedPackageBase = some candidate.packageBase
  | .provider candidate =>
    edge.kind = .provided &&
      edge.resolvedProvider.any fun provider =>
        sameProviderIdentity provider candidate.provider &&
          provider.providedDependencyName =
            candidate.provider.providedDependencyName

def requirementRawSpecification : DependencyRequirement → Bytes
  | .consumer requirement => requirement.rawSpecification
  | .soname requirement => requirement.rawSpecification

/-- The authority issue of one edge. An edge without typed state describes
graph shape only. -/
def edgeAuthorityIssue (edge : BuildPlanDependencyEdge) :
    Option (PlanConstraintAuthorityIssueKind × Option ConstraintSatisfaction) :=
  if edge.requirement = none ∧ edge.resolvedCandidate = none ∧
      edge.constraintEvaluation = none then none
  else
    match edge.requirement with
    | none => some (.missingRequirement, none)
    | some requirement =>
      if requirementRawSpecification requirement ≠ edge.dependencySpec then
        some (.requirementIdentityChanged, none)
      else if edge.resolvedCandidate.any fun candidate =>
          !resolvedCandidateMatchesEdge edge candidate then
        some (.sourceIdentityInconsistent, none)
      else if edge.resolvedCandidate.isSome ∧
          edge.constraintEvaluation = none then
        some (.missingEvaluation, none)
      else
        match edge.constraintEvaluation with
        | some (.invalid _) => some (.invalidEvaluation, some .invalid)
        | some (.conflicting _) =>
          some (.conflictingEvaluation, some .conflicting)
        | _ => none

def constraintAuthorityIssue (plan : BuildPlan) :
    Option PlanConstraintAuthorityReason :=
  plan.dependencyEdges.zipIdx.findSome? fun item =>
    (edgeAuthorityIssue item.1).map fun issue =>
      ⟨issue.1, item.2, item.1.dependencySpec, issue.2⟩

theorem constraintAuthorityIssue_eq_none_iff {plan : BuildPlan} :
    constraintAuthorityIssue plan = none ↔
      ∀ edge ∈ plan.dependencyEdges, edgeAuthorityIssue edge = none := by
  unfold constraintAuthorityIssue
  rw [List.findSome?_eq_none_iff]
  constructor
  · intro h edge hmem
    obtain ⟨index, hindex⟩ := List.mem_iff_getElem?.mp hmem
    simpa using h (edge, index) (List.mk_mem_zipIdx_iff_getElem?.mpr hindex)
  · rintro h ⟨edge, index⟩ hmem
    rw [h edge (List.fst_mem_of_mem_zipIdx hmem)]
    rfl

def constraintReadinessReason (edge : BuildPlanDependencyEdge) (index : Nat) :
    Option AssessedPlanReason :=
  match edge.constraintEvaluation with
  | some (.unknown _) =>
    some {
      reason := .constraintReadiness ⟨index, edge.dependencySpec, .unknown⟩
      state := .unknown
      blocksProductionGuard := true
      requiredAction := .obtainMetadata
      capabilities := allExecutionCapabilities
      completenessEffect := .unknown }
  | some .unsatisfied =>
    some {
      reason := .constraintReadiness ⟨index, edge.dependencySpec, .unsatisfied⟩
      state := .blocked
      blocksProductionGuard := true
      requiredAction := .resolveDependency
      capabilities := allExecutionCapabilities
      completenessEffect := .incomplete }
  | _ => none

/-- A reason that blocks every capability and leaves the plan incomplete. -/
def blockingReason (reason : PlanReason) (action : PlanRequiredAction) :
    AssessedPlanReason where
  reason := reason
  state := .blocked
  blocksProductionGuard := true
  requiredAction := action
  capabilities := allExecutionCapabilities
  completenessEffect := .incomplete

/-- A reason that makes the plan unknown without blocking the guards. -/
def unknownReason (reason : PlanReason) : AssessedPlanReason where
  reason := reason
  state := .unknown
  blocksProductionGuard := false
  requiredAction := .obtainMetadata
  capabilities := allExecutionCapabilities
  completenessEffect := .unknown

def declaredRelationReason (assessment : PackageRelationAssessment) :
    AssessedPlanReason :=
  let reason : AssessedPlanReason := {
    reason := .declaredRelation assessment
    state := .requiresCheck
    blocksProductionGuard := true
    requiredAction := .reviewDeclaredRelations
    capabilities := [.build, .install]
    completenessEffect := .none }
  match assessment.kind with
  | .confirmedNoMatchingCurrentOrPlannedTarget =>
    { reason with
      state := .ready, blocksProductionGuard := false, requiredAction := .none }
  | .confirmedInstalledConflict | .confirmedPlannedTargetConflict
  | .potentialReplacement => reason
  | .declaredRelation | .unknown =>
    { reason with completenessEffect := .unknown }
  | .invalid =>
    { reason with state := .blocked, completenessEffect := .incomplete }

def splitPackageReason (target : BuildPlanSplitPackageTarget) :
    AssessedPlanReason where
  reason := .splitPackage target
  state := .blocked
  blocksProductionGuard := true
  requiredAction := .usePackageBaseSetLifecycle
  capabilities := [.install]
  completenessEffect := .none

def assessPlanReasons (plan : BuildPlan) : List AssessedPlanReason :=
  ((selectedProviderIdentityConflict plan).map fun conflict =>
    blockingReason (.selectedProviderIdentityConflict conflict.1 conflict.2)
      .resolveDependency).toList ++
  ((constraintAuthorityIssue plan).map fun issue =>
    blockingReason (.constraintAuthority issue) .correctPlanAuthority).toList ++
  plan.dependencyEdges.zipIdx.filterMap
    (fun item => constraintReadinessReason item.1 item.2) ++
  plan.resolutionFailures.map (fun failure => unknownReason (.resolution failure)) ++
  plan.incompleteProviderCandidateSets.map
    (fun candidateSet => unknownReason (.incompleteProviderCandidate candidateSet)) ++
  plan.unresolved.map
    (fun dependency =>
      blockingReason (.unresolvedDependency dependency) .resolveDependency) ++
  plan.ambiguousProviders.map
    (fun dependency =>
      blockingReason (.ambiguousProvider dependency) .selectProvider) ++
  plan.cycles.map
    (fun dependency =>
      blockingReason (.dependencyCycle dependency) .resolveDependency) ++
  plan.relationAssessments.map declaredRelationReason ++
  plan.splitPackageTargets.map splitPackageReason

/-- Where a reason of a plan comes from, one constructor for each loop of
`assess_plan_reasons`. -/
inductive Assessed (plan : BuildPlan) : AssessedPlanReason → Prop
  | conflict (existing selected : ProvidedDependency)
      (h : selectedProviderIdentityConflict plan = some (existing, selected)) :
      Assessed plan (blockingReason
        (.selectedProviderIdentityConflict existing selected) .resolveDependency)
  | authority (issue : PlanConstraintAuthorityReason)
      (h : constraintAuthorityIssue plan = some issue) :
      Assessed plan (blockingReason (.constraintAuthority issue) .correctPlanAuthority)
  | constraint (edge : BuildPlanDependencyEdge) (index : Nat)
      (reason : AssessedPlanReason) (hedge : plan.dependencyEdges[index]? = some edge)
      (h : constraintReadinessReason edge index = some reason) : Assessed plan reason
  | failure (failure : BuildPlanResolutionFailure) :
      Assessed plan (unknownReason (.resolution failure))
  | incomplete (candidateSet : IncompleteProviderCandidateSet) :
      Assessed plan (unknownReason (.incompleteProviderCandidate candidateSet))
  | unresolved (dependency : Bytes) :
      Assessed plan (blockingReason (.unresolvedDependency dependency) .resolveDependency)
  | ambiguous (dependency : AmbiguousProvidedDependency) :
      Assessed plan (blockingReason (.ambiguousProvider dependency) .selectProvider)
  | cycle (dependency : Bytes) :
      Assessed plan (blockingReason (.dependencyCycle dependency) .resolveDependency)
  | relation (assessment : PackageRelationAssessment) :
      Assessed plan (declaredRelationReason assessment)
  | split (target : BuildPlanSplitPackageTarget) :
      Assessed plan (splitPackageReason target)

theorem assessed_of_mem {reason : AssessedPlanReason} (h : reason ∈ assessPlanReasons plan) :
    Assessed plan reason := by
  unfold assessPlanReasons at h
  simp only [List.mem_append, List.mem_map, List.mem_filterMap, Option.mem_toList,
    Option.map_eq_some_iff] at h
  rcases h with (((((((((⟨conflict, hconflict, rfl⟩ | ⟨issue, hissue, rfl⟩) |
    ⟨⟨edge, index⟩, hedge, hreason⟩) | ⟨failure, -, rfl⟩) | ⟨candidateSet, -, rfl⟩) |
    ⟨dependency, -, rfl⟩) | ⟨dependency, -, rfl⟩) | ⟨dependency, -, rfl⟩) |
    ⟨assessment, -, rfl⟩) | ⟨target, -, rfl⟩)
  · exact .conflict conflict.1 conflict.2 hconflict
  · exact .authority issue hissue
  · exact .constraint edge index reason (List.mk_mem_zipIdx_iff_getElem?.mp hedge) hreason
  · exact .failure failure
  · exact .incomplete candidateSet
  · exact .unresolved dependency
  · exact .ambiguous dependency
  · exact .cycle dependency
  · exact .relation assessment
  · exact .split target

def incompatibleSelectedProviders (existing selected : ProvidedDependency) :
    Thrown :=
  ⟨.runtimeError,
    ascii "Selected providers use incompatible identities for package " ++
      selected.packageName ++ ascii ": " ++
      providerPackageIdentityDisplay existing ++ ascii " and " ++
      providerPackageIdentityDisplay selected ++ ascii "."⟩

def requireCompatibleSelectedProviderPackageIdentities (plan : BuildPlan) :
    Except Thrown Unit :=
  match selectedProviderIdentityConflict plan with
  | none => .ok ()
  | some (existing, selected) =>
    .error (incompatibleSelectedProviders existing selected)

/-- The reason display of the evaluation on the edge of that index. -/
def edgeReasonDisplay (plan : BuildPlan) (edgeIndex : Nat) : Bytes :=
  match plan.dependencyEdges[edgeIndex]? with
  | none => []
  | some edge =>
    (edge.constraintEvaluation.map constraintEvaluationReasonDisplay).getD []

def constraintAuthorityDiagnostic (plan : BuildPlan)
    (issue : PlanConstraintAuthorityReason) : Bytes :=
  let dependency := issue.dependencySpecification
  match issue.kind with
  | .missingRequirement =>
    ascii "Build plan constraint requirement is invalid for " ++ dependency ++
      ascii "."
  | .requirementIdentityChanged =>
    ascii "Build plan constraint requirement identity changed for " ++
      dependency ++ ascii "."
  | .sourceIdentityInconsistent =>
    ascii "Build plan constraint source identity is inconsistent for " ++
      dependency ++ ascii "."
  | .missingEvaluation =>
    ascii "Build plan constraint evaluation is missing for " ++ dependency ++
      ascii "."
  | .invalidEvaluation | .conflictingEvaluation =>
    ascii "Cannot construct build plan; dependency " ++ dependency ++
      ascii " is " ++
      (issue.satisfaction.map constraintSatisfactionDisplay).getD [] ++
      ascii ": " ++ edgeReasonDisplay plan issue.edgeIndex ++ ascii "."

def requireConstructibleBuildPlanConstraints (plan : BuildPlan) :
    Except Thrown Unit :=
  match constraintAuthorityIssue plan with
  | none => .ok ()
  | some issue =>
    .error ⟨.runtimeError, constraintAuthorityDiagnostic plan issue⟩

section Guards

variable (relationDisplay : PackageRelationAssessment → Bytes)

/-- The text a guard throws for a blocking reason. -/
def productionGuardDiagnostic (target : Bytes) (plan : BuildPlan) :
    PlanReason → Thrown
  | .selectedProviderIdentityConflict existing selected =>
    incompatibleSelectedProviders existing selected
  | .constraintAuthority issue =>
    ⟨.runtimeError, constraintAuthorityDiagnostic plan issue⟩
  | .constraintReadiness constraint =>
    ⟨.runtimeError,
      ascii "Cannot execute build plan for " ++ target ++
        ascii "; dependency " ++ constraint.dependencySpecification ++
        ascii " is " ++
        constraintSatisfactionDisplay constraint.satisfaction ++ ascii ": " ++
        edgeReasonDisplay plan constraint.edgeIndex ++ ascii "."⟩
  | .unresolvedDependency _ =>
    ⟨.runtimeError,
      ascii "Cannot execute build plan for " ++ target ++
        ascii "; unresolved dependencies: " ++
        joinGuardSummaryValues plan.unresolved⟩
  | .ambiguousProvider _ =>
    ⟨.runtimeError,
      ascii "Cannot execute build plan for " ++ target ++
        ascii "; ambiguous providers: " ++
        joinGuardSummaryValues
          (plan.ambiguousProviders.map ambiguousProviderDependencySummary)⟩
  | .dependencyCycle _ =>
    ⟨.runtimeError,
      ascii "Cannot execute build plan for " ++ target ++
        ascii "; cyclic dependencies: " ++ joinGuardSummaryValues plan.cycles⟩
  | .declaredRelation assessment =>
    ⟨.runtimeError,
      ascii "Cannot execute build plan for " ++ target ++ ascii "; " ++
        relationDisplay assessment⟩
  | .splitPackage _ =>
    ⟨.runtimeError,
      ascii "Cannot execute singular install plan for " ++ target ++
        ascii "; split package targets require the PackageBase set lifecycle: " ++
        joinGuardSummaryValues
          (plan.splitPackageTargets.map splitPackageTargetSummary)⟩
  | .resolution _ | .incompleteProviderCandidate _ =>
    ⟨.logicError,
      ascii "Build plan readiness marked an unsupported reason as blocking."⟩

def requireCapabilityReadiness (target : Bytes) (plan : BuildPlan)
    (capability : ExecutionCapability) : Except Thrown Unit :=
  let reasons := (assessPlanReasons plan).filter fun reason =>
    capability ∈ reason.capabilities
  match reasons.find? (·.blocksProductionGuard) with
  | none => .ok ()
  | some blocking =>
    .error (productionGuardDiagnostic relationDisplay target plan
      blocking.reason)

def requireFetchableBuildPlan (target : Bytes) (plan : BuildPlan) :
    Except Thrown Unit :=
  requireCapabilityReadiness relationDisplay target plan .fetch

def requireExecutableBuildPlan (target : Bytes) (plan : BuildPlan) :
    Except Thrown Unit :=
  requireCapabilityReadiness relationDisplay target plan .build

def requireExecutableInstallPlan (target : Bytes) (plan : BuildPlan) :
    Except Thrown Unit :=
  requireCapabilityReadiness relationDisplay target plan .install

variable {relationDisplay}

/-- A guard passes exactly when no reason for its capability blocks. -/
theorem requireCapabilityReadiness_ok_iff {plan : BuildPlan} {capability : ExecutionCapability} :
    requireCapabilityReadiness relationDisplay target plan capability = .ok () ↔
      ∀ reason ∈ assessPlanReasons plan, capability ∈ reason.capabilities →
        reason.blocksProductionGuard = false := by
  unfold requireCapabilityReadiness
  dsimp only
  cases hfind : ((assessPlanReasons plan).filter fun reason =>
      capability ∈ reason.capabilities).find? (·.blocksProductionGuard) with
  | none =>
    rw [List.find?_eq_none] at hfind
    simp only [List.mem_filter, decide_eq_true_eq, Bool.not_eq_true] at hfind
    simpa using fun reason hmem hcapability =>
      hfind reason ⟨hmem, hcapability⟩
  | some blocking =>
    have hmem := List.mem_of_find?_eq_some hfind
    have hblocks := List.find?_some hfind
    rw [List.mem_filter] at hmem
    constructor
    · intro h; cases h
    · intro h
      have hfree := h blocking hmem.1 (by simpa using hmem.2)
      rw [hfree] at hblocks
      cases hblocks

/-- A plan with an unresolved dependency passes no guard. -/
theorem requireCapabilityReadiness_of_unresolved (h : plan.unresolved ≠ [])
    (capability : ExecutionCapability) :
    ∃ thrown, requireCapabilityReadiness relationDisplay target plan capability =
      .error thrown := by
  cases hguard : requireCapabilityReadiness relationDisplay target plan capability with
  | error thrown => exact ⟨thrown, rfl⟩
  | ok _ =>
    obtain ⟨dependency, hdependency⟩ := List.exists_mem_of_ne_nil _ h
    have hreason : blockingReason (.unresolvedDependency dependency)
        .resolveDependency ∈ assessPlanReasons plan := by
      unfold assessPlanReasons
      simp only [List.mem_append, List.mem_map]
      exact Or.inl (Or.inl (Or.inl (Or.inl (Or.inr ⟨dependency, hdependency, rfl⟩))))
    have hfree := requireCapabilityReadiness_ok_iff.mp hguard _ hreason
      (mem_allExecutionCapabilities capability)
    cases hfree

end Guards

end Moguet.Plan.Readiness
