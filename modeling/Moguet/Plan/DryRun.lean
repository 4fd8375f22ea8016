import Moguet.Plan.Acceptance
import Moguet.Plan.BuildOrder
import Moguet.Plan.FailureReport

/-!
# The dry run of a plan

A dry run shows the blockers of a plan instead of running it
(`append_build_plan_blockers` of `unified_plan_projection.cpp`), and reports
the route as ready when there are none. The routes themselves ask
`require_executable_build_plan`. The two lists of conditions are written
independently of each other.

They differ in one place. A package whose name is not the name of its base is
a blocker of the dry run, while the guard of a build lets it through: only the
singular install needs a selection there.
-/

namespace Moguet.Plan.DryRun

open Verified.ByteString Verified.Checked Constraint Model Discovery Readiness Resolver Resolution
open Interaction BuildOrder Acceptance FailureReport Relation.Assessment

variable {plan : BuildPlan} {assessment : PackageRelationAssessment} {env : MetadataEnvironment}
  {targets : List Bytes} {selectProvider : Option ProviderSelectionCallback} {result : PassResult}

/-- `BuildPlanStateUnifiedPlanBlockerKind`. -/
inductive StateBlockerKind
  | unresolvedDependency
  | dependencyCycle
  | splitPackageSelectionRequired
  deriving DecidableEq

/-- The alternatives of `UnifiedPlanBlocker` that a build plan gives rise to.
References to the plan are copies of what they refer to. -/
inductive UnifiedPlanBlocker
  | sourceFailure (failure : BuildPlanResolutionFailure)
  | incompleteSource (candidateSet : IncompleteProviderCandidateSet)
  | ambiguous (dependency : AmbiguousProvidedDependency)
  | metadataRisk (assessment : PackageRelationAssessment)
  | constraintFailure (edge : BuildPlanDependencyEdge)
  | unknown (edge : BuildPlanDependencyEdge)
  | buildPlanState (kind : StateBlockerKind) (authorityIndex : Nat)
  deriving DecidableEq

def isBlockingConstraint (evaluation : ConstraintEvaluation) : Bool :=
  evaluation.satisfaction = .unsatisfied || evaluation.satisfaction = .unknown

/-- The reasons of `execution_readiness(state, Install)`. -/
def installReasons (plan : BuildPlan) : List AssessedPlanReason :=
  (assessPlanReasons plan).filter fun reason => .install ∈ reason.capabilities

def relationBlocker (reason : AssessedPlanReason) : Option UnifiedPlanBlocker :=
  match reason.reason with
  | .declaredRelation assessment =>
    if reason.blocksProductionGuard then some (.metadataRisk assessment) else none
  | _ => none

def edgeBlocker (edge : BuildPlanDependencyEdge) : Option UnifiedPlanBlocker :=
  if edge.constraintEvaluation.any isBlockingConstraint then
    some (.constraintFailure edge)
  else if edge.kind = .unknown then some (.unknown edge)
  else none

def stateBlockers (kind : StateBlockerKind) (count : Nat) : List UnifiedPlanBlocker :=
  (List.range count).map (.buildPlanState kind)

def appendBuildPlanBlockers (plan : BuildPlan) (blockers : List UnifiedPlanBlocker) :
    List UnifiedPlanBlocker :=
  blockers ++
  plan.resolutionFailures.map .sourceFailure ++
  plan.incompleteProviderCandidateSets.map .incompleteSource ++
  plan.ambiguousProviders.map .ambiguous ++
  (installReasons plan).filterMap relationBlocker ++
  plan.dependencyEdges.filterMap edgeBlocker ++
  stateBlockers .unresolvedDependency plan.unresolved.length ++
  stateBlockers .dependencyCycle plan.cycles.length ++
  stateBlockers .splitPackageSelectionRequired plan.splitPackageTargets.length

theorem edgeBlocker_eq_none_iff {edge : BuildPlanDependencyEdge} : edgeBlocker edge = none ↔
      (∀ evaluation, edge.constraintEvaluation = some evaluation →
        evaluation.satisfaction ≠ .unknown ∧ evaluation.satisfaction ≠ .unsatisfied) ∧
      edge.kind ≠ .unknown := by
  unfold edgeBlocker
  cases hevaluation : edge.constraintEvaluation with
  | none => simp
  | some evaluation =>
    unfold isBlockingConstraint
    cases evaluation <;> simp [ConstraintEvaluation.satisfaction]

theorem stateBlockers_eq_nil_iff {α : Type} {kind : StateBlockerKind} {values : List α} :
    stateBlockers kind values.length = [] ↔ values = [] := by
  unfold stateBlockers
  rw [List.map_eq_nil_iff, List.range_eq_nil, List.length_eq_zero_iff]

/-- Only an assessment of the plan is behind a relation reason. -/
theorem declaredRelation_of_mem {reason : AssessedPlanReason}
    (hmem : reason ∈ assessPlanReasons plan)
    (hreason : reason.reason = .declaredRelation assessment) :
    assessment ∈ plan.relationAssessments ∧ reason = declaredRelationReason assessment := by
  unfold assessPlanReasons at hmem
  simp only [List.mem_append, List.mem_map, List.mem_filterMap, Option.mem_toList,
    Option.map_eq_some_iff] at hmem
  rcases hmem with (((((((((⟨_, -, rfl⟩ | ⟨_, -, rfl⟩) | ⟨item, -, hitem⟩) |
    ⟨_, -, rfl⟩) | ⟨_, -, rfl⟩) | ⟨_, -, rfl⟩) | ⟨_, -, rfl⟩) | ⟨_, -, rfl⟩) |
    ⟨found, hfound, rfl⟩) | ⟨_, -, rfl⟩)
  · cases hreason
  · cases hreason
  · unfold constraintReadinessReason at hitem
    split at hitem
    · injection hitem with hitem
      rw [← hitem] at hreason
      cases hreason
    · injection hitem with hitem
      rw [← hitem] at hreason
      cases hreason
    · cases hitem
  · cases hreason
  · cases hreason
  · cases hreason
  · cases hreason
  · cases hreason
  · have hsame : found = assessment := by
      unfold declaredRelationReason at hreason
      dsimp only at hreason
      split at hreason <;> exact PlanReason.declaredRelation.inj hreason
    rw [← hsame]
    exact ⟨hfound, rfl⟩
  · cases hreason

theorem declaredRelationReason_reason (assessment : PackageRelationAssessment) :
    (declaredRelationReason assessment).reason = .declaredRelation assessment := by
  unfold declaredRelationReason
  cases assessment.kind <;> rfl

theorem declaredRelationReason_install (assessment : PackageRelationAssessment) :
    ExecutionCapability.install ∈ (declaredRelationReason assessment).capabilities := by
  unfold declaredRelationReason
  cases assessment.kind <;> simp

theorem declaredRelationReason_blocks_iff (assessment : PackageRelationAssessment) :
    (declaredRelationReason assessment).blocksProductionGuard = false ↔
      assessment.kind = .confirmedNoMatchingCurrentOrPlannedTarget := by
  unfold declaredRelationReason
  cases assessment.kind <;> simp

theorem mem_assessPlanReasons_relation (h : assessment ∈ plan.relationAssessments) :
    declaredRelationReason assessment ∈ assessPlanReasons plan := by
  unfold assessPlanReasons
  simp only [List.mem_append, List.mem_map]
  exact Or.inl (Or.inr ⟨assessment, h, rfl⟩)

theorem relationBlockers_eq_nil_iff {plan : BuildPlan} :
    (installReasons plan).filterMap relationBlocker = [] ↔ ∀ assessment ∈ plan.relationAssessments,
        assessment.kind = .confirmedNoMatchingCurrentOrPlannedTarget := by
  unfold installReasons
  rw [List.filterMap_eq_nil_iff]
  constructor
  · intro h assessment hassessment
    have hnone := h (declaredRelationReason assessment) (List.mem_filter.mpr
      ⟨mem_assessPlanReasons_relation hassessment,
        by simpa using declaredRelationReason_install assessment⟩)
    unfold relationBlocker at hnone
    rw [declaredRelationReason_reason] at hnone
    dsimp only at hnone
    by_cases hblocks : (declaredRelationReason assessment).blocksProductionGuard = true
    · rw [if_pos hblocks] at hnone
      cases hnone
    · exact (declaredRelationReason_blocks_iff assessment).mp (by simpa using hblocks)
  · intro h reason hmem
    have hassessed := (List.mem_filter.mp hmem).1
    unfold relationBlocker
    split
    · rename_i assessment hreason
      obtain ⟨hassessment, rfl⟩ := declaredRelation_of_mem hassessed hreason
      have hfree := (declaredRelationReason_blocks_iff assessment).mpr (h assessment hassessment)
      rw [hfree]
      rfl
    · rfl

/-- A plan the dry run has nothing to say about. -/
structure Unblocked (plan : BuildPlan) : Prop where
  failures : plan.resolutionFailures = []
  incomplete : plan.incompleteProviderCandidateSets = []
  ambiguous : plan.ambiguousProviders = []
  relations : ∀ assessment ∈ plan.relationAssessments,
    assessment.kind = .confirmedNoMatchingCurrentOrPlannedTarget
  edges : ∀ edge ∈ plan.dependencyEdges,
    (∀ evaluation, edge.constraintEvaluation = some evaluation →
      evaluation.satisfaction ≠ .unknown ∧ evaluation.satisfaction ≠ .unsatisfied) ∧
    edge.kind ≠ .unknown
  unresolved : plan.unresolved = []
  cycles : plan.cycles = []
  splits : plan.splitPackageTargets = []

theorem appendBuildPlanBlockers_eq_self_iff {blockers : List UnifiedPlanBlocker} :
    appendBuildPlanBlockers plan blockers = blockers ↔ Unblocked plan := by
  unfold appendBuildPlanBlockers
  simp only [List.append_assoc, List.append_right_eq_self, List.append_eq_nil_iff,
    List.map_eq_nil_iff, stateBlockers_eq_nil_iff, relationBlockers_eq_nil_iff]
  rw [List.filterMap_eq_nil_iff]
  simp only [edgeBlocker_eq_none_iff]
  constructor
  · rintro ⟨hfailures, hincomplete, hambiguous, hrelations, hedges, hunresolved, hcycles, hsplits⟩
    exact ⟨hfailures, hincomplete, hambiguous, hrelations, hedges, hunresolved, hcycles, hsplits⟩
  · intro h
    exact ⟨h.failures, h.incomplete, h.ambiguous, h.relations, h.edges, h.unresolved,
      h.cycles, h.splits⟩

/-- What the resolver makes sure of by itself. -/
structure Constructed (plan : BuildPlan) : Prop where
  providers : selectedProviderIdentityConflict plan = none
  authority : ∀ edge ∈ plan.dependencyEdges, edgeAuthorityIssue edge = none
  evaluated : Evaluated plan
  reported : Reported plan

/-- Assessing relations leaves the rest of the plan alone. -/
theorem Constructed.finalize (h : Constructed plan) (env : MetadataEnvironment) :
    Constructed (finalizeBuildPlanRelationAssessments env plan) :=
  ⟨h.providers, h.authority, h.evaluated, h.reported⟩

/-- Finishing checks the providers and the authority of the edges. -/
theorem finishBuildPlan_checks {collected : BuildPlan}
    (h : finishBuildPlan env collected = .ok plan) :
    selectedProviderIdentityConflict plan = none ∧
      ∀ edge ∈ plan.dependencyEdges, edgeAuthorityIssue edge = none := by
  unfold finishBuildPlan at h
  simp only [bind_eq_ok] at h
  obtain ⟨ordered, -, projected, -, _, hproviders, _, hauthority, h⟩ := h
  injection h with h
  rw [← h]
  constructor
  · unfold requireCompatibleSelectedProviderPackageIdentities at hproviders
    split at hproviders
    · assumption
    · cases hproviders
  · unfold requireConstructibleBuildPlanConstraints at hauthority
    split at hauthority
    · rename_i hnone
      exact constraintAuthorityIssue_eq_none_iff.mp hnone
    · cases hauthority

theorem resolveBuildPlanOnce_constructed {context : BuildPlanResolutionContext}
    (h : resolveBuildPlanOnce env targets context selectProvider = .ok result) :
    Constructed result.plan := by
  have hevaluated := resolveBuildPlanOnce_evaluated h
  have hreported := resolveBuildPlanOnce_reported h
  unfold resolveBuildPlanOnce at h
  simp only [bind_eq_ok] at h
  obtain ⟨_, -, walked, -, plan, hplan, h⟩ := h
  injection h with h
  obtain ⟨hproviders, hauthority⟩ := finishBuildPlan_checks hplan
  rw [← h] at hevaluated hreported ⊢
  exact ⟨hproviders, hauthority, hevaluated, hreported⟩

theorem resolveBuildPlan_constructed {env : Nat → MetadataEnvironment}
    (h : resolveBuildPlan env targets selectProvider = .ok plan) : Constructed plan := by
  unfold resolveBuildPlan resolveBuildPlanWithInteraction at h
  simp only [bind_eq_ok] at h
  obtain ⟨interaction, ⟨passed, hpassed, hfinal⟩, h⟩ := h
  injection hfinal with hfinal
  injection h with h
  rw [← h, ← hfinal]
  obtain ⟨callback, hresult⟩ := resolveWithProviderInteraction_pass hpassed
  exact (resolveBuildPlanOnce_constructed hresult).finalize _

/-- No record of the plan stands against its execution. -/
structure Unhindered (plan : BuildPlan) : Prop where
  unresolved : plan.unresolved = []
  ambiguous : plan.ambiguousProviders = []
  cycles : plan.cycles = []
  evaluations : ∀ edge ∈ plan.dependencyEdges, ∀ evaluation,
    edge.constraintEvaluation = some evaluation →
      evaluation.satisfaction ≠ .unknown ∧ evaluation.satisfaction ≠ .unsatisfied
  relations : ∀ assessment ∈ plan.relationAssessments,
    assessment.kind = .confirmedNoMatchingCurrentOrPlannedTarget

theorem Constructed.accepted_iff (h : Constructed plan) : BuildAccepted plan ↔ Unhindered plan := by
  constructor
  · intro haccepted
    exact ⟨haccepted.unresolved, haccepted.ambiguous, haccepted.cycles,
      haccepted.evaluations, haccepted.relations⟩
  · intro hunhindered
    exact ⟨⟨h.providers, h.authority, hunhindered.evaluations, hunhindered.unresolved,
      hunhindered.ambiguous, hunhindered.cycles⟩, hunhindered.relations⟩

theorem Constructed.unblocked_iff (h : Constructed plan) :
    Unblocked plan ↔ BuildAccepted plan ∧ plan.splitPackageTargets = [] := by
  constructor
  · intro hunblocked
    refine ⟨h.accepted_iff.mpr ?_, hunblocked.splits⟩
    exact ⟨hunblocked.unresolved, hunblocked.ambiguous, hunblocked.cycles,
      fun edge hedge => (hunblocked.edges edge hedge).1, hunblocked.relations⟩
  · rintro ⟨haccepted, hsplits⟩
    -- A recorded failure is reported as unresolved, which the guard refuses.
    have hquiet : ¬ RecordsFailure plan := fun hrecords =>
      h.reported hrecords haccepted.unresolved
    unfold RecordsFailure at hquiet
    push Not at hquiet
    exact {
      failures := hquiet.1
      incomplete := hquiet.2
      ambiguous := haccepted.ambiguous
      relations := haccepted.relations
      edges := fun edge hedge => ⟨haccepted.evaluations edge hedge,
        haccepted.kind_ne_unknown h.evaluated edge hedge⟩
      unresolved := haccepted.unresolved
      cycles := haccepted.cycles
      splits := hsplits }

/-- **Dry run against guard**: on a resolved plan the dry run adds no blocker
exactly when the guard accepts, if and only if the plan has no split package
target or a record that blocks both. -/
theorem appendBuildPlanBlockers_agrees_iff (env : Nat → MetadataEnvironment)
    (targets : List Bytes) (selectProvider : Option ProviderSelectionCallback)
    (plan : BuildPlan) (relationDisplay : PackageRelationAssessment → Bytes)
    (target : Bytes) (blockers : List UnifiedPlanBlocker)
    (h : resolveBuildPlan env targets selectProvider = .ok plan) :
    (appendBuildPlanBlockers plan blockers = blockers ↔
        requireExecutableBuildPlan relationDisplay target plan = .ok ()) ↔
      (plan.splitPackageTargets = [] ∨ ¬ Unhindered plan) := by
  have hconstructed := resolveBuildPlan_constructed h
  rw [appendBuildPlanBlockers_eq_self_iff, requireExecutableBuildPlan_ok_iff,
    hconstructed.unblocked_iff, hconstructed.accepted_iff]
  by_cases hsplits : plan.splitPackageTargets = []
  · simp [hsplits]
  · by_cases hunhindered : Unhindered plan
    · simp [hsplits, hunhindered]
    · simp [hsplits, hunhindered]

/-- `app` of the package base `suite` depends on nothing. -/
def splitApp : MetadataEnvironment :=
  MetadataEnvironment.ofAurRecords
    [{ name := ascii "app", packageBase := ascii "suite", version := ascii "1-1" }]

/-- The plan for `app` is accepted, and the dry run blocks it. -/
theorem appendBuildPlanBlockers_blocks_accepted :
    ∃ plan, resolveBuildPlan (fun _ => splitApp) [ascii "app"] none = .ok plan ∧
      requireExecutableBuildPlan (fun _ => []) (ascii "app") plan = .ok () ∧
      appendBuildPlanBlockers plan [] =
        [.buildPlanState .splitPackageSelectionRequired 0] := by
  have hview : (resolveBuildPlan (fun _ => splitApp) [ascii "app"] none).toOption.map
      (fun plan =>
        (decide (requireExecutableBuildPlan (fun _ => []) (ascii "app") plan = .ok ()),
          appendBuildPlanBlockers plan [])) =
        some (true, [.buildPlanState .splitPackageSelectionRequired 0]) := by
    decide +kernel
  obtain ⟨plan, hplan, hseen⟩ := exists_ok_of_view hview
  simp only [Prod.mk.injEq, decide_eq_true_eq] at hseen
  exact ⟨plan, hplan, hseen.1, hseen.2⟩

/-- Without a split package the two agree: the plan for `app`, which depends
on `lib`, is accepted and not blocked. -/
theorem appendBuildPlanBlockers_agrees_app :
    ∃ plan, resolveBuildPlan (fun _ => appAndLib) [ascii "app"] none = .ok plan ∧
      plan.splitPackageTargets = [] ∧
      (appendBuildPlanBlockers plan [] = [] ↔
        requireExecutableBuildPlan (fun _ => []) (ascii "app") plan = .ok ()) := by
  have hview : (resolveBuildPlan (fun _ => appAndLib) [ascii "app"] none).toOption.map
      (fun plan => plan.splitPackageTargets) = some [] := by
    decide +kernel
  obtain ⟨plan, hplan, hsplits⟩ := exists_ok_of_view hview
  have hagrees := appendBuildPlanBlockers_agrees_iff (fun _ => appAndLib) [ascii "app"]
    none plan (fun _ => []) (ascii "app") [] hplan
  exact ⟨plan, hplan, hsplits, hagrees.mpr (Or.inl hsplits)⟩

end Moguet.Plan.DryRun
