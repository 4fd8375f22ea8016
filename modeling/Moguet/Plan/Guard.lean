import Moguet.Verified.Upsert
import Moguet.Plan.Readiness

/-!
# Guards and the projected state

`project_build_plan_state` shows a plan's readiness for each capability, and
the three guards of `dependency_plan_model.cpp` act on it. Both read the same
assessed reasons, but the guard goes further: it finds the first reason that
blocks and dispatches on its alternative, and for a constraint authority it
asks `require_constructible_build_plan_constraints` to find the issue again.
`GuardOutcome` keeps the two ways in which that could go wrong: an edge index
past the end of the plan, and a guard that returns where it should throw.
-/

namespace Moguet.Plan.Guard

open Verified.ByteString Verified.Upsert Constraint Metadata Model Readiness Relation.Assessment

variable {plan : BuildPlan}

variable {capability : ExecutionCapability} {issue : PlanConstraintAuthorityReason}
  {reason : AssessedPlanReason}

structure ExecutionReadinessReason where
  reason : PlanReason
  state : ExecutionReadinessState := .notAssessed
  blocksProductionGuard : Bool := false
  requiredAction : PlanRequiredAction := .none

/-- The part of an assessed reason that a readiness keeps. -/
def readinessOf (assessed : AssessedPlanReason) : ExecutionReadinessReason :=
  ⟨assessed.reason, assessed.state, assessed.blocksProductionGuard,
    assessed.requiredAction⟩

structure ExecutionReadiness where
  capability : ExecutionCapability := .fetch
  state : ExecutionReadinessState := .notAssessed
  isBlockedByProductionGuard : Bool := false
  reasons : List ExecutionReadinessReason := []
  requiredActions : List PlanRequiredAction := []

/-- The loop variables of `project_execution_readiness`. -/
structure ReadinessScan where
  readiness : ExecutionReadiness
  hasBlockedReason : Bool := false
  hasUnknownReason : Bool := false
  hasRequiresCheckReason : Bool := false

def ReadinessScan.add (scan : ReadinessScan) (assessed : AssessedPlanReason) :
    ReadinessScan :=
  if scan.readiness.capability ∉ assessed.capabilities then scan
  else
    { readiness :=
        { scan.readiness with
          reasons := scan.readiness.reasons ++ [readinessOf assessed]
          isBlockedByProductionGuard :=
            scan.readiness.isBlockedByProductionGuard ||
              assessed.blocksProductionGuard
          requiredActions :=
            insertNew scan.readiness.requiredActions assessed.requiredAction }
      hasBlockedReason := scan.hasBlockedReason || assessed.state = .blocked
      hasUnknownReason := scan.hasUnknownReason || assessed.state = .unknown
      hasRequiresCheckReason :=
        scan.hasRequiresCheckReason || assessed.state = .requiresCheck }

def projectExecutionReadiness (assessed : List AssessedPlanReason)
    (capability : ExecutionCapability) : ExecutionReadiness :=
  let scan := assessed.foldl ReadinessScan.add { readiness := { capability } }
  if scan.hasBlockedReason then { scan.readiness with state := .blocked }
  else if scan.hasUnknownReason then { scan.readiness with state := .unknown }
  else if scan.hasRequiresCheckReason then
    { scan.readiness with state := .requiresCheck }
  else
    { scan.readiness with
      state := .ready
      requiredActions := insertNew scan.readiness.requiredActions .none }

inductive PlanConstruction
  | constructed
  | failed
  deriving DecidableEq

inductive PlanCompleteness
  | complete
  | incomplete
  | unknown
  deriving DecidableEq

inductive ProviderDecision
  | unique
  | selected
  | ambiguous
  | cancelled
  | unavailable
  deriving DecidableEq

/-- `PlanStateProjection`. The array of three readinesses has one field a
capability. -/
structure PlanStateProjection where
  construction : PlanConstruction
  completeness : PlanCompleteness
  providerDecision : ProviderDecision
  completenessReasons : List PlanReason
  fetchReadiness : ExecutionReadiness
  buildReadiness : ExecutionReadiness
  installReadiness : ExecutionReadiness

/-- A reason for which the plan counts as not constructed. -/
def failsConstruction (reason : PlanReason) : Bool :=
  match reason with
  | .constraintAuthority _ => true
  | .declaredRelation assessment => assessment.kind = .invalid
  | _ => false

def projectedConstruction (assessed : List AssessedPlanReason) : PlanConstruction :=
  if assessed.any fun item => failsConstruction item.reason then .failed
  else .constructed

def projectedCompleteness (assessed : List AssessedPlanReason) : PlanCompleteness :=
  if projectedConstruction assessed = .failed ∨
      assessed.any (·.completenessEffect = .incomplete) then .incomplete
  else if assessed.any (·.completenessEffect = .unknown) then .unknown
  else .complete

def projectedProviderDecision (plan : BuildPlan) : ProviderDecision :=
  if plan.cancelledProviderDependencies ≠ [] then .cancelled
  else if plan.ambiguousProviders ≠ [] then .ambiguous
  else if plan.incompleteProviderCandidateSets ≠ [] then .unavailable
  else if plan.provided.any (·.resolution = .userSelected) then .selected
  else .unique

def projectBuildPlanState (plan : BuildPlan) : PlanStateProjection :=
  let assessed := assessPlanReasons plan
  { construction := projectedConstruction assessed
    completeness := projectedCompleteness assessed
    providerDecision := projectedProviderDecision plan
    completenessReasons :=
      (assessed.filter (·.completenessEffect ≠ .none)).map (·.reason)
    fetchReadiness := projectExecutionReadiness assessed .fetch
    buildReadiness := projectExecutionReadiness assessed .build
    installReadiness := projectExecutionReadiness assessed .install }

def executionReadiness (projection : PlanStateProjection) :
    ExecutionCapability → ExecutionReadiness
  | .fetch => projection.fetchReadiness
  | .build => projection.buildReadiness
  | .install => projection.installReadiness

/-- What a guard does. `undefined` stands for an edge read past the end of
the plan. -/
inductive GuardOutcome
  | returns
  | throws (thrown : Thrown)
  | undefined

def runtimeError (what : Bytes) : GuardOutcome :=
  .throws ⟨.runtimeError, what⟩

/-- `std::optional::value` on an empty optional. -/
def badOptionalAccess : GuardOutcome :=
  .throws ⟨.badOptionalAccess, ascii "bad optional access"⟩

def throwAuthorityIssue (issue : PlanConstraintAuthorityReason)
    (edge : BuildPlanDependencyEdge) : GuardOutcome :=
  match issue.kind with
  | .missingRequirement =>
    runtimeError (ascii "Build plan constraint requirement is invalid for " ++
      edge.dependencySpec ++ ascii ".")
  | .requirementIdentityChanged =>
    runtimeError (ascii "Build plan constraint requirement identity changed for " ++
      edge.dependencySpec ++ ascii ".")
  | .sourceIdentityInconsistent =>
    runtimeError (ascii "Build plan constraint source identity is inconsistent for " ++
      edge.dependencySpec ++ ascii ".")
  | .missingEvaluation =>
    runtimeError (ascii "Build plan constraint evaluation is missing for " ++
      edge.dependencySpec ++ ascii ".")
  | .invalidEvaluation | .conflictingEvaluation =>
    match issue.satisfaction, edge.constraintEvaluation with
    | some satisfaction, some evaluation =>
      runtimeError (ascii "Cannot construct build plan; dependency " ++
        edge.dependencySpec ++ ascii " is " ++
        constraintSatisfactionDisplay satisfaction ++ ascii ": " ++
        constraintEvaluationReasonDisplay evaluation ++ ascii ".")
    | _, _ => badOptionalAccess

def requireConstructibleBuildPlanConstraints (plan : BuildPlan) : GuardOutcome :=
  match constraintAuthorityIssue plan with
  | none => .returns
  | some issue =>
    match plan.dependencyEdges[issue.edgeIndex]? with
    | none => .undefined
    | some edge => throwAuthorityIssue issue edge

/-- The last statement of `throw_production_guard_reason`. -/
def unsupportedBlockingReason : GuardOutcome :=
  .throws ⟨.logicError,
    ascii "Build plan readiness marked an unsupported reason as blocking."⟩

section Guards

variable (relationDisplay : PackageRelationAssessment → Bytes)

def throwProductionGuardReason (target : Bytes) (plan : BuildPlan)
    (reason : PlanReason) : GuardOutcome :=
  match reason with
  | .selectedProviderIdentityConflict existing selected =>
    .throws (incompatibleSelectedProviders existing selected)
  | .constraintAuthority _ =>
    match requireConstructibleBuildPlanConstraints plan with
    -- The branches after this one test for other alternatives.
    | .returns => unsupportedBlockingReason
    | outcome => outcome
  | .constraintReadiness constraint =>
    match plan.dependencyEdges[constraint.edgeIndex]? with
    | none => .undefined
    | some edge =>
      match edge.constraintEvaluation with
      | none => badOptionalAccess
      | some evaluation =>
        runtimeError (ascii "Cannot execute build plan for " ++ target ++
          ascii "; dependency " ++ edge.dependencySpec ++ ascii " is " ++
          constraintSatisfactionDisplay constraint.satisfaction ++
          ascii ": " ++ constraintEvaluationReasonDisplay evaluation ++
          ascii ".")
  | .unresolvedDependency _ =>
    runtimeError (ascii "Cannot execute build plan for " ++ target ++
      ascii "; unresolved dependencies: " ++
      joinGuardSummaryValues plan.unresolved)
  | .ambiguousProvider _ =>
    runtimeError (ascii "Cannot execute build plan for " ++ target ++
      ascii "; ambiguous providers: " ++
      joinGuardSummaryValues
        (plan.ambiguousProviders.map ambiguousProviderDependencySummary))
  | .dependencyCycle _ =>
    runtimeError (ascii "Cannot execute build plan for " ++ target ++
      ascii "; cyclic dependencies: " ++ joinGuardSummaryValues plan.cycles)
  | .declaredRelation assessment =>
    runtimeError (ascii "Cannot execute build plan for " ++ target ++ ascii "; " ++
      relationDisplay assessment)
  | .splitPackage _ =>
    runtimeError (ascii "Cannot execute singular install plan for " ++ target ++
      ascii "; split package targets require the PackageBase set lifecycle: " ++
      joinGuardSummaryValues
        (plan.splitPackageTargets.map splitPackageTargetSummary))
  | .resolution _ | .incompleteProviderCandidate _ => unsupportedBlockingReason

def requireCapabilityReadiness (target : Bytes) (plan : BuildPlan)
    (capability : ExecutionCapability) : GuardOutcome :=
  let readiness := projectExecutionReadiness (assessPlanReasons plan) capability
  match readiness.reasons.find? (·.blocksProductionGuard) with
  | none => .returns
  | some blocking => throwProductionGuardReason relationDisplay target plan blocking.reason

def requireFetchableBuildPlan (target : Bytes) (plan : BuildPlan) : GuardOutcome :=
  requireCapabilityReadiness relationDisplay target plan .fetch

def requireExecutableBuildPlan (target : Bytes) (plan : BuildPlan) : GuardOutcome :=
  requireCapabilityReadiness relationDisplay target plan .build

def requireExecutableInstallPlan (target : Bytes) (plan : BuildPlan) : GuardOutcome :=
  requireCapabilityReadiness relationDisplay target plan .install

end Guards

/-- The reasons of a capability, as the readiness keeps them. -/
def capabilityReasons (assessed : List AssessedPlanReason)
    (capability : ExecutionCapability) : List ExecutionReadinessReason :=
  (assessed.filter fun item => capability ∈ item.capabilities).map readinessOf

theorem foldl_add_reasons (assessed : List AssessedPlanReason) (scan : ReadinessScan) :
    (assessed.foldl ReadinessScan.add scan).readiness.reasons = scan.readiness.reasons ++
        capabilityReasons assessed scan.readiness.capability := by
  induction assessed generalizing scan with
  | nil => simp [capabilityReasons]
  | cons item rest ih =>
    rw [List.foldl_cons, ih]
    by_cases hmem : scan.readiness.capability ∈ item.capabilities
    · simp [ReadinessScan.add, capabilityReasons, hmem]
    · simp [ReadinessScan.add, capabilityReasons, hmem]

theorem foldl_add_isBlocked (assessed : List AssessedPlanReason) (scan : ReadinessScan) :
    (assessed.foldl ReadinessScan.add scan).readiness.isBlockedByProductionGuard =
      (scan.readiness.isBlockedByProductionGuard ||
        (capabilityReasons assessed scan.readiness.capability).any (·.blocksProductionGuard)) := by
  induction assessed generalizing scan with
  | nil => simp [capabilityReasons]
  | cons item rest ih =>
    rw [List.foldl_cons, ih]
    by_cases hmem : scan.readiness.capability ∈ item.capabilities
    · simp [ReadinessScan.add, capabilityReasons, readinessOf, hmem, Bool.or_assoc]
    · simp [ReadinessScan.add, capabilityReasons, hmem]

/-- The state of a readiness is decided after its reasons and its flag. -/
theorem projectExecutionReadiness_reasons (assessed : List AssessedPlanReason)
    (capability : ExecutionCapability) :
    (projectExecutionReadiness assessed capability).reasons =
      capabilityReasons assessed capability := by
  have hreasons := foldl_add_reasons assessed { readiness := { capability } }
  unfold projectExecutionReadiness
  dsimp only
  split
  · exact hreasons
  · split
    · exact hreasons
    · split <;> exact hreasons

theorem projectExecutionReadiness_isBlocked (assessed : List AssessedPlanReason)
    (capability : ExecutionCapability) :
    (projectExecutionReadiness assessed capability).isBlockedByProductionGuard =
      (capabilityReasons assessed capability).any (·.blocksProductionGuard) := by
  have hblocked := foldl_add_isBlocked assessed { readiness := { capability } }
  rw [Bool.false_or] at hblocked
  unfold projectExecutionReadiness
  dsimp only
  split
  · exact hblocked
  · split
    · exact hblocked
    · split <;> exact hblocked

theorem isBlocked_eq_false_iff {assessed : List AssessedPlanReason} :
    (projectExecutionReadiness assessed capability).isBlockedByProductionGuard = false ↔
      ∀ item ∈ assessed, capability ∈ item.capabilities → item.blocksProductionGuard = false := by
  rw [projectExecutionReadiness_isBlocked, List.any_eq_false]
  unfold capabilityReasons
  constructor
  · intro h item hmem hcapability
    have hkept : item ∈ assessed.filter fun item => capability ∈ item.capabilities :=
      List.mem_filter.mpr ⟨hmem, by simpa using hcapability⟩
    have hfree := h _ (List.mem_map_of_mem hkept)
    simpa [readinessOf] using hfree
  · intro h kept hkept
    obtain ⟨item, hitem, rfl⟩ := List.mem_map.mp hkept
    rw [List.mem_filter] at hitem
    simpa [readinessOf] using h item hitem.1 (by simpa using hitem.2)

/-- The issue the plan has is an issue of the edge it names. -/
theorem constraintAuthorityIssue_edge (h : constraintAuthorityIssue plan = some issue) :
    ∃ edge, plan.dependencyEdges[issue.edgeIndex]? = some edge ∧
      issue.dependencySpecification = edge.dependencySpec ∧
      edgeAuthorityIssue edge = some (issue.kind, issue.satisfaction) := by
  obtain ⟨⟨edge, index⟩, hmem, hfound⟩ := List.exists_of_findSome?_eq_some h
  rw [Option.map_eq_some_iff] at hfound
  obtain ⟨found, hedge, rfl⟩ := hfound
  exact ⟨edge, List.mk_mem_zipIdx_iff_getElem?.mp hmem, rfl, hedge⟩

/-- An invalid or conflicting evaluation is found with the evaluation and the
satisfaction the diagnostic needs. -/
theorem throwAuthorityIssue_eq {edge : BuildPlanDependencyEdge}
    (hat : plan.dependencyEdges[issue.edgeIndex]? = some edge)
    (hspec : issue.dependencySpecification = edge.dependencySpec)
    (hissue : edgeAuthorityIssue edge = some (issue.kind, issue.satisfaction)) :
    throwAuthorityIssue issue edge =
      .throws ⟨.runtimeError, constraintAuthorityDiagnostic plan issue⟩ := by
  unfold throwAuthorityIssue constraintAuthorityDiagnostic edgeReasonDisplay
  rw [hat, hspec]
  have hevaluated : (issue.kind = .invalidEvaluation ∨ issue.kind = .conflictingEvaluation) →
      ∃ satisfaction evaluation, issue.satisfaction = some satisfaction ∧
        edge.constraintEvaluation = some evaluation := by
    intro hkind
    unfold edgeAuthorityIssue at hissue
    grind
  cases hkind : issue.kind with
  | missingRequirement | requirementIdentityChanged | sourceIdentityInconsistent
  | missingEvaluation => rfl
  | invalidEvaluation =>
    obtain ⟨satisfaction, evaluation, hsatisfaction, hevaluation⟩ :=
      hevaluated (.inl hkind)
    simp [hsatisfaction, hevaluation, runtimeError]
  | conflictingEvaluation =>
    obtain ⟨satisfaction, evaluation, hsatisfaction, hevaluation⟩ :=
      hevaluated (.inr hkind)
    simp [hsatisfaction, hevaluation, runtimeError]

/-- Asked again, the plan has the issue it was assessed with. -/
theorem requireConstructibleBuildPlanConstraints_eq (h : constraintAuthorityIssue plan = some issue)
    :
    requireConstructibleBuildPlanConstraints plan =
      .throws ⟨.runtimeError, constraintAuthorityDiagnostic plan issue⟩ := by
  obtain ⟨edge, hat, hspec, hissue⟩ := constraintAuthorityIssue_edge h
  unfold requireConstructibleBuildPlanConstraints
  rw [h]
  dsimp only
  rw [hat]
  exact throwAuthorityIssue_eq hat hspec hissue

section Throwing

variable (relationDisplay : PackageRelationAssessment → Bytes) (target : Bytes) {plan : BuildPlan}

/-- A blocking reason of the plan is thrown as a runtime error, with the text
`productionGuardDiagnostic` gives it. -/
theorem throwProductionGuardReason_blocking (hreason : Assessed plan reason)
    (hblocks : reason.blocksProductionGuard = true) :
    throwProductionGuardReason relationDisplay target plan reason.reason =
        .throws (productionGuardDiagnostic relationDisplay target plan reason.reason) ∧
      (productionGuardDiagnostic relationDisplay target plan reason.reason).kind =
        .runtimeError := by
  cases hreason with
  | conflict | unresolved | ambiguous | cycle | split => exact ⟨rfl, rfl⟩
  | failure | incomplete => cases hblocks
  | authority issue h =>
    refine ⟨?_, rfl⟩
    show (match requireConstructibleBuildPlanConstraints plan with
      | .returns => unsupportedBlockingReason
      | outcome => outcome) = _
    rw [requireConstructibleBuildPlanConstraints_eq h]
    rfl
  | constraint edge index reason hedge h =>
    unfold constraintReadinessReason at h
    cases hevaluation : edge.constraintEvaluation with
    | none => simp [hevaluation] at h
    | some evaluation =>
      cases evaluation <;> simp [hevaluation] at h <;>
        simp [← h, throwProductionGuardReason, productionGuardDiagnostic, hedge,
          hevaluation, edgeReasonDisplay, runtimeError]
  | relation assessment =>
    unfold declaredRelationReason
    dsimp only
    split <;> exact ⟨rfl, rfl⟩

theorem mem_capabilityReasons {assessed : List AssessedPlanReason}
    {reason : ExecutionReadinessReason} (h : reason ∈ capabilityReasons assessed capability) :
    ∃ item ∈ assessed, capability ∈ item.capabilities ∧ readinessOf item = reason := by
  unfold capabilityReasons at h
  obtain ⟨item, hitem, heq⟩ := List.mem_map.mp h
  rw [List.mem_filter] at hitem
  exact ⟨item, hitem.1, by simpa using hitem.2, heq⟩

/-- A guard either returns, when the projection is not blocked, or throws the
runtime error of a blocking reason, when it is. -/
theorem requireCapabilityReadiness_cases (plan : BuildPlan) (capability : ExecutionCapability) :
    (requireCapabilityReadiness relationDisplay target plan capability = .returns ∧
      (projectExecutionReadiness (assessPlanReasons plan)
        capability).isBlockedByProductionGuard = false) ∨
    ∃ what, requireCapabilityReadiness relationDisplay target plan capability =
        .throws ⟨.runtimeError, what⟩ ∧
      (projectExecutionReadiness (assessPlanReasons plan)
        capability).isBlockedByProductionGuard = true := by
  unfold requireCapabilityReadiness
  dsimp only
  rw [projectExecutionReadiness_reasons, projectExecutionReadiness_isBlocked]
  cases hfind : (capabilityReasons (assessPlanReasons plan) capability).find?
      (·.blocksProductionGuard) with
  | none =>
    left
    rw [List.find?_eq_none] at hfind
    exact ⟨rfl, by rw [List.any_eq_false]; exact hfind⟩
  | some blocking =>
    right
    have hmem := List.mem_of_find?_eq_some hfind
    have hblocks := List.find?_some hfind
    obtain ⟨item, hitem, -, rfl⟩ := mem_capabilityReasons hmem
    obtain ⟨hthrows, hkind⟩ := throwProductionGuardReason_blocking relationDisplay
      target (assessed_of_mem hitem) hblocks
    refine ⟨(productionGuardDiagnostic relationDisplay target plan item.reason).what, ?_,
      List.any_eq_true.mpr ⟨_, hmem, hblocks⟩⟩
    show throwProductionGuardReason relationDisplay target plan item.reason = _
    rw [hthrows, ← hkind]

end Throwing

/-- A reason for a capability is a reason for everything that needs more. -/
theorem Assessed.capabilities_mono (h : Assessed plan reason) :
    (.fetch ∈ reason.capabilities → .build ∈ reason.capabilities) ∧
      (.build ∈ reason.capabilities → .install ∈ reason.capabilities) := by
  cases h with
  | conflict | authority | failure | incomplete | unresolved | ambiguous | cycle =>
    exact ⟨fun _ => mem_allExecutionCapabilities _, fun _ => mem_allExecutionCapabilities _⟩
  | split target =>
    show (ExecutionCapability.fetch ∈ [ExecutionCapability.install] → _) ∧ _
    simp [splitPackageReason]
  | constraint edge index reason hedge h =>
    have hall : reason.capabilities = allExecutionCapabilities := by
      unfold constraintReadinessReason at h
      split at h
      · injection h with h
        rw [← h]
      · injection h with h
        rw [← h]
      · cases h
    rw [hall]
    decide
  | relation assessment =>
    unfold declaredRelationReason
    dsimp only
    split <;> simp

/-- Guards and projection of one plan. -/
structure GuardsAgree (relationDisplay : PackageRelationAssessment → Bytes)
    (target : Bytes) (plan : BuildPlan) : Prop where
  fetch : requireFetchableBuildPlan relationDisplay target plan = .returns ↔
    (executionReadiness (projectBuildPlanState plan)
      .fetch).isBlockedByProductionGuard = false
  build : requireExecutableBuildPlan relationDisplay target plan = .returns ↔
    (executionReadiness (projectBuildPlanState plan)
      .build).isBlockedByProductionGuard = false
  install : requireExecutableInstallPlan relationDisplay target plan = .returns ↔
    (executionReadiness (projectBuildPlanState plan)
      .install).isBlockedByProductionGuard = false
  /-- A guard that does not return throws `std::runtime_error`. -/
  rejects : ∀ outcome,
    outcome = requireFetchableBuildPlan relationDisplay target plan ∨
      outcome = requireExecutableBuildPlan relationDisplay target plan ∨
      outcome = requireExecutableInstallPlan relationDisplay target plan →
    outcome ≠ .returns → ∃ what, outcome = .throws ⟨.runtimeError, what⟩
  build_of_install : requireExecutableInstallPlan relationDisplay target plan = .returns →
    requireExecutableBuildPlan relationDisplay target plan = .returns
  fetch_of_build : requireExecutableBuildPlan relationDisplay target plan = .returns →
    requireFetchableBuildPlan relationDisplay target plan = .returns

section Agreement

variable (relationDisplay : PackageRelationAssessment → Bytes) (target : Bytes) (plan : BuildPlan)

theorem requireCapabilityReadiness_returns_iff (capability : ExecutionCapability) :
    requireCapabilityReadiness relationDisplay target plan capability = .returns ↔
      (projectExecutionReadiness (assessPlanReasons plan)
        capability).isBlockedByProductionGuard = false := by
  rcases requireCapabilityReadiness_cases relationDisplay target plan capability with
    ⟨hreturns, hfree⟩ | ⟨what, hthrows, hblocked⟩
  · simp [hreturns, hfree]
  · simp [hthrows, hblocked]

theorem requireCapabilityReadiness_rejects
    (h : requireCapabilityReadiness relationDisplay target plan capability ≠ .returns) :
    ∃ what, requireCapabilityReadiness relationDisplay target plan capability =
      .throws ⟨.runtimeError, what⟩ := by
  rcases requireCapabilityReadiness_cases relationDisplay target plan capability with
    ⟨hreturns, -⟩ | ⟨what, hthrows, -⟩
  · exact absurd hreturns h
  · exact ⟨what, hthrows⟩

/-- A guard returns when one returns whose capability every reason for the
first also counts for. -/
theorem requireCapabilityReadiness_mono {lower upper : ExecutionCapability}
    (hmono : ∀ reason ∈ assessPlanReasons plan,
      lower ∈ reason.capabilities → upper ∈ reason.capabilities)
    (h : requireCapabilityReadiness relationDisplay target plan upper = .returns) :
    requireCapabilityReadiness relationDisplay target plan lower = .returns := by
  rw [requireCapabilityReadiness_returns_iff, isBlocked_eq_false_iff] at h ⊢
  intro reason hmem hlower
  exact h reason hmem (hmono reason hmem hlower)

/-- **Guards and projection agree** on every plan. -/
theorem requireBuildPlan_agrees : GuardsAgree relationDisplay target plan where
  fetch := requireCapabilityReadiness_returns_iff relationDisplay target plan .fetch
  build := requireCapabilityReadiness_returns_iff relationDisplay target plan .build
  install := requireCapabilityReadiness_returns_iff relationDisplay target plan .install
  rejects := by
    intro outcome houtcome hrejects
    rcases houtcome with rfl | rfl | rfl
    · exact requireCapabilityReadiness_rejects relationDisplay target plan hrejects
    · exact requireCapabilityReadiness_rejects relationDisplay target plan hrejects
    · exact requireCapabilityReadiness_rejects relationDisplay target plan hrejects
  build_of_install := by
    apply requireCapabilityReadiness_mono
    intro reason hmem
    exact (Assessed.capabilities_mono (assessed_of_mem hmem)).2
  fetch_of_build := by
    apply requireCapabilityReadiness_mono
    intro reason hmem
    exact (Assessed.capabilities_mono (assessed_of_mem hmem)).1

end Agreement

end Moguet.Plan.Guard
