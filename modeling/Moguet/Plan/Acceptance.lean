import Moguet.Plan.Descent

/-!
# Plans the build guard accepts

`require_executable_build_plan` passes a plan with no blocking reason for a
build. `BuildAccepted` says what that leaves of each list of the plan.

A passed plan has an evaluation on every edge: an edge is recorded without one
only next to an unresolved or an ambiguous dependency, and both block.
-/

namespace Moguet.Plan.Acceptance

open Verified.ByteString Verified.Checked Verified.Upsert Constraint Metadata Model Discovery
open Readiness Resolver Walk Resolution Relation.Assessment

variable {α : Type} {action : PlanRequiredAction}
  {relationDisplay : PackageRelationAssessment → Bytes} {target parent : Bytes}
  {plan before : BuildPlan} {edge : BuildPlanDependencyEdge} {state after : WalkState}
  {evaluation : ConstraintEvaluation} {settings : ResolverSettings} {env : MetadataEnvironment}
  {targets : List Bytes} {selectProvider : Option ProviderSelectionCallback} {result : PassResult}
  {reason : α → PlanReason}

/-- A plan without a reason that blocks a fetch. -/
structure FetchAccepted (plan : BuildPlan) : Prop where
  providers : selectedProviderIdentityConflict plan = none
  authority : ∀ edge ∈ plan.dependencyEdges, edgeAuthorityIssue edge = none
  evaluations : ∀ edge ∈ plan.dependencyEdges, ∀ evaluation,
    edge.constraintEvaluation = some evaluation →
      evaluation.satisfaction ≠ .unknown ∧ evaluation.satisfaction ≠ .unsatisfied
  unresolved : plan.unresolved = []
  ambiguous : plan.ambiguousProviders = []
  cycles : plan.cycles = []

/-- A plan without a reason that blocks a build. -/
structure BuildAccepted (plan : BuildPlan) : Prop extends FetchAccepted plan where
  relations : ∀ assessment ∈ plan.relationAssessments,
    assessment.kind = .confirmedNoMatchingCurrentOrPlannedTarget

section Reasons

variable {capability : ExecutionCapability}

/-- The reasons of a list of blocking ones leave it empty. -/
theorem forall_blocking_iff {values : List α} :
    (∀ item ∈ values.map (fun value => blockingReason (reason value) action),
      capability ∈ item.capabilities → item.blocksProductionGuard = false) ↔
      values = [] := by
  constructor
  · intro h
    cases values with
    | nil => rfl
    | cons value rest =>
      have hfree := h _ (List.mem_map.mpr ⟨value, List.mem_cons_self, rfl⟩)
        (mem_allExecutionCapabilities _)
      cases hfree
  · rintro rfl
    simp

theorem forall_blocking_option_iff {value : Option α} :
    (∀ item ∈ (value.map fun found => blockingReason (reason found) action).toList,
      capability ∈ item.capabilities → item.blocksProductionGuard = false) ↔
      value = none := by
  cases value with
  | none => simp
  | some found =>
    constructor
    · intro h
      have hfree := h (blockingReason (reason found) action) (by simp)
        (mem_allExecutionCapabilities _)
      cases hfree
    · intro h
      cases h

theorem forall_unknown {values : List α} :
    ∀ item ∈ values.map (fun value => unknownReason (reason value)),
      capability ∈ item.capabilities → item.blocksProductionGuard = false := by
  intro item hitem _
  obtain ⟨value, -, rfl⟩ := List.mem_map.mp hitem
  rfl

theorem constraintReadinessReason_free_iff {edge : BuildPlanDependencyEdge} {index : Nat} :
    (∀ item ∈ constraintReadinessReason edge index,
      capability ∈ item.capabilities → item.blocksProductionGuard = false) ↔
      ∀ evaluation, edge.constraintEvaluation = some evaluation →
        evaluation.satisfaction ≠ .unknown ∧ evaluation.satisfaction ≠ .unsatisfied := by
  have hall := mem_allExecutionCapabilities capability
  unfold constraintReadinessReason
  cases edge.constraintEvaluation with
  | none => simp
  | some evaluation =>
    cases evaluation <;> simp [ConstraintEvaluation.satisfaction, hall]

/-- The reasons of all edges, one edge at a time. -/
theorem forall_constraintReadiness_iff {edges : List BuildPlanDependencyEdge} :
    (∀ item ∈ edges.zipIdx.filterMap fun item => constraintReadinessReason item.1 item.2,
      capability ∈ item.capabilities → item.blocksProductionGuard = false) ↔
      ∀ edge ∈ edges, ∀ evaluation, edge.constraintEvaluation = some evaluation →
        evaluation.satisfaction ≠ .unknown ∧ evaluation.satisfaction ≠ .unsatisfied := by
  constructor
  · intro h edge hedge
    obtain ⟨index, hindex⟩ := List.mem_iff_getElem?.mp hedge
    refine (@constraintReadinessReason_free_iff capability edge index).mp ?_
    intro item hitem
    refine h item (List.mem_filterMap.mpr ⟨(edge, index), ?_, hitem⟩)
    exact List.mk_mem_zipIdx_iff_getElem?.mpr hindex
  · intro h item hitem
    obtain ⟨⟨edge, index⟩, hedge, hreason⟩ := List.mem_filterMap.mp hitem
    have hfree := h edge (List.fst_mem_of_mem_zipIdx hedge)
    exact constraintReadinessReason_free_iff.mpr hfree item hreason

end Reasons

theorem declaredRelationReason_free_iff {assessment : PackageRelationAssessment} :
    (ExecutionCapability.build ∈ (declaredRelationReason assessment).capabilities →
      (declaredRelationReason assessment).blocksProductionGuard = false) ↔
      assessment.kind = .confirmedNoMatchingCurrentOrPlannedTarget := by
  unfold declaredRelationReason
  cases assessment.kind <;> simp

theorem splitPackageReason_free (target : BuildPlanSplitPackageTarget) :
    ExecutionCapability.build ∈ (splitPackageReason target).capabilities →
      (splitPackageReason target).blocksProductionGuard = false := by
  intro h
  have hnever : ExecutionCapability.build ∉ (splitPackageReason target).capabilities := by
    show ExecutionCapability.build ∉ [ExecutionCapability.install]
    decide
  exact absurd h hnever

/-- The guard of a build passes exactly the accepted plans. -/
theorem requireExecutableBuildPlan_ok_iff :
    requireExecutableBuildPlan relationDisplay target plan = .ok () ↔ BuildAccepted plan := by
  unfold requireExecutableBuildPlan
  rw [requireCapabilityReadiness_ok_iff]
  unfold assessPlanReasons
  simp only [List.forall_mem_append]
  rw [forall_blocking_option_iff, forall_blocking_option_iff, forall_blocking_iff,
    forall_blocking_iff, forall_blocking_iff, forall_constraintReadiness_iff]
  constructor
  · rintro ⟨⟨⟨⟨⟨⟨⟨⟨⟨hproviders, hauthority⟩, hevaluations⟩, -⟩, -⟩, hunresolved⟩,
      hambiguous⟩, hcycles⟩, hrelations⟩, -⟩
    refine ⟨⟨hproviders, constraintAuthorityIssue_eq_none_iff.mp hauthority, hevaluations,
      hunresolved, hambiguous, hcycles⟩, ?_⟩
    intro assessment hassessment
    exact declaredRelationReason_free_iff.mp
      (hrelations _ (List.mem_map.mpr ⟨assessment, hassessment, rfl⟩))
  · intro h
    refine ⟨⟨⟨⟨⟨⟨⟨⟨⟨h.providers, constraintAuthorityIssue_eq_none_iff.mpr h.authority⟩,
      h.evaluations⟩, forall_unknown⟩, forall_unknown⟩, h.unresolved⟩, h.ambiguous⟩,
      h.cycles⟩, ?_⟩, ?_⟩
    · intro item hitem
      obtain ⟨assessment, hassessment, rfl⟩ := List.mem_map.mp hitem
      exact declaredRelationReason_free_iff.mpr (h.relations assessment hassessment)
    · intro item hitem
      obtain ⟨split, -, rfl⟩ := List.mem_map.mp hitem
      exact splitPackageReason_free split

/-- The edge has an evaluation, and one that holds only when its kind is
known. -/
structure EdgeEvaluated (edge : BuildPlanDependencyEdge) : Prop where
  evaluated : edge.constraintEvaluation ≠ none
  doubtful : edge.kind = .unknown → edge.constraintEvaluation ≠ some .satisfied ∧
    edge.constraintEvaluation ≠ some .unconstrained

theorem EdgeEvaluated.of_kind (hevaluated : edge.constraintEvaluation ≠ none)
    (hkind : edge.kind ≠ .unknown) : EdgeEvaluated edge :=
  ⟨hevaluated, fun hunknown => absurd hunknown hkind⟩

/-- Every edge has an evaluation, or the plan reports a dependency. -/
def Evaluated (plan : BuildPlan) : Prop :=
  (∀ edge ∈ plan.dependencyEdges, EdgeEvaluated edge) ∨
    plan.unresolved ≠ [] ∨ plan.ambiguousProviders ≠ []

theorem Evaluated.of_unresolved {plan : BuildPlan} (h : plan.unresolved ≠ []) : Evaluated plan :=
  Or.inr (Or.inl h)

/-- A change that keeps the reports and adds evaluated edges. -/
theorem Evaluated.grow {after : BuildPlan} (h : Evaluated before)
    (hunresolved : before.unresolved <+: after.unresolved)
    (hambiguous : after.ambiguousProviders = before.ambiguousProviders)
    (hedges : ∀ edge ∈ after.dependencyEdges,
      edge ∈ before.dependencyEdges ∨ EdgeEvaluated edge) : Evaluated after := by
  rcases h with h | h | h
  · refine Or.inl ?_
    intro edge hedge
    rcases hedges edge hedge with hbefore | hevaluated
    · exact h edge hbefore
    · exact hevaluated
  · refine Or.inr (Or.inl ?_)
    intro hnil
    rw [hnil] at hunresolved
    exact h (List.prefix_nil.mp hunresolved)
  · refine Or.inr (Or.inr ?_)
    rw [hambiguous]
    exact h

theorem Evaluated.of_eq {after : BuildPlan} (h : Evaluated before)
    (hedges : after.dependencyEdges = before.dependencyEdges)
    (hunresolved : before.unresolved <+: after.unresolved)
    (hambiguous : after.ambiguousProviders = before.ambiguousProviders) : Evaluated after := by
  refine h.grow hunresolved hambiguous ?_
  rw [hedges]
  exact fun edge hedge => Or.inl hedge

/-- The edges of a site share the evaluation of the one they come from. -/
theorem Evaluated.addEdges (h : Evaluated state.plan) (site : DependencySite)
    (hedge : EdgeEvaluated edge) : Evaluated (state.addEdges site edge).plan := by
  refine h.grow (List.prefix_refl _) rfl ?_
  intro other hother
  rcases List.mem_append.mp hother with hother | hother
  · exact Or.inl hother
  · obtain ⟨declaration, -, rfl⟩ := List.mem_map.mp hother
    exact Or.inr ⟨hedge.evaluated, hedge.doubtful⟩

theorem Evaluated.recordProvided {site : DependencySite} {first : TypedPackageDependency}
    {discovery : ProviderCandidateDiscovery} {provider : ProvidedDependency}
    {resolution : ProviderResolutionKind} (h : Evaluated state.plan)
    (hrecord : Resolver.recordProvided site (site.edge first) discovery provider
      evaluation resolution state = .ok after) : Evaluated after.plan := by
  rw [recordProvided_ok hrecord]
  refine Evaluated.addEdges ?_ site (EdgeEvaluated.of_kind (Option.some_ne_none _) nofun)
  exact h.of_eq rfl (List.prefix_refl _) rfl

theorem ambiguous_ne_nil {dependency : Bytes} {candidates : List ProvidedDependency}
    (hdependency : trim dependency ≠ []) (hcandidates : candidates ≠ []) :
    (addBuildPlanAmbiguousProvider plan dependency candidates).ambiguousProviders ≠ [] := by
  show addAmbiguousProviderDependency plan.ambiguousProviders dependency candidates ≠ []
  unfold addAmbiguousProviderDependency
  dsimp only
  rw [if_neg (by simp [hdependency, hcandidates])]
  exact upsert_ne_nil _ _ _ _

theorem Evaluated.quiet {before : WalkState} (h : Evaluated before.plan)
    (hquiet : Quiet settings parent before after) : Evaluated after.plan := by
  cases hquiet with
  | retained | locallyAsked | requested | conflicted =>
    exact h.of_eq rfl (List.prefix_refl _) rfl
  | decided decision =>
    refine h.of_eq ?_ (PlanGrows.applyDecision _ decision).unresolved ?_
    · show (applyDecision before.plan decision).dependencyEdges = _
      unfold applyDecision
      cases decision.cyclePackageBase <;> cases decision.unresolvedReason <;> rfl
    · show (applyDecision before.plan decision).ambiguousProviders = _
      unfold applyDecision
      cases decision.cyclePackageBase <;> cases decision.unresolvedReason <;> rfl
  | unclassified site first =>
    exact h.addEdges site ⟨Option.some_ne_none _, fun _ => ⟨nofun, nofun⟩⟩
  | unresolved site edge value failures incomplete provided order hsite hvalue =>
    exact Evaluated.of_unresolved (addUniqueValue_ne_nil hvalue)
  | repository site first consumer candidate plan hresolving hplan =>
    have hobserved : Evaluated (before.withPlan plan).plan := by
      show Evaluated plan
      rw [addPlannedRelationObservation_ok hplan]
      exact h.of_eq rfl (List.prefix_refl _) rfl
    exact hobserved.addEdges site (EdgeEvaluated.of_kind (Option.some_ne_none _) nofun)
  | ambiguous site first consumer discovery hresolving hdiscovered hmany =>
    refine Or.inr (Or.inr ?_)
    refine ambiguous_ne_nil hresolving.siteAt.dependency_visible ?_
    intro hnil
    rw [hnil] at hmany
    exact absurd hmany (by decide)
  | installed site first =>
    exact h.addEdges site (EdgeEvaluated.of_kind (Option.some_ne_none _) nofun)
  | provided =>
    exact h.recordProvided ‹Resolver.recordProvided _ _ _ _ _ _ before = .ok after›

theorem Evaluated.leads {before : WalkState} {info : AurPackageInfo} {request : CollectRequest}
    (h : Evaluated before.plan) (hleads : Leads settings parent before after info request) :
    Evaluated after.plan := by
  cases hleads with
  | aur site first =>
    exact h.addEdges site (EdgeEvaluated.of_kind (Option.some_ne_none _) nofun)
  | provided =>
    exact h.recordProvided ‹Resolver.recordProvided _ _ _ _ _ _ before = .ok after›

theorem keeps_evaluated (settings : ResolverSettings) :
    Keeps settings fun state => Evaluated state.plan where
  quiet := fun h hquiet => h.quiet hquiet
  leads := fun h hleads => h.leads hleads
  stops := by
    intro request before after _ hrequest hstops
    refine Evaluated.of_unresolved ?_
    cases hstops with
    | unresolved value hvalue => exact addUniqueValue_ne_nil hvalue
    | failed context kind diagnostic =>
      refine addUniqueValue_ne_nil ?_
      rw [trim_of_isValidPackageName hrequest.name_valid]
      exact isValidPackageName_ne_nil hrequest.name_valid
  enters := by
    intro request before info plan h henters
    show Evaluated plan
    rw [recordPackage_ok henters.recorded]
    exact h.of_eq rfl (List.prefix_refl _) rfl
  cycle := fun h => h.of_eq rfl (List.prefix_refl _) rfl
  opened := fun h _ _ => h
  closed := by
    intro state info h
    have hgrows := PlanGrows.closePackage info state
    refine h.of_eq (closePackage_edges_eq info state) hgrows.unresolved ?_
    unfold closePackage addBuildPlanSplitPackageTarget
    dsimp only
    split <;> rfl

theorem propagateRootIdentities_edges_eq (plan : BuildPlan) :
    (propagateRootIdentities plan).dependencyEdges = plan.dependencyEdges := by
  rw [propagateRootIdentities_frame]

/-- Requirements that contradict each other are evaluated as such. -/
theorem projectConflictingConstraintInvocation_some {vercmp : Bytes → Bytes → Int}
    {requirements : List ConsumerDependencyRequirement}
    (h : projectConflictingConstraintInvocation vercmp requirements =
      .ok (some evaluation)) : evaluation = .conflicting .incompatibleRequirements := by
  unfold projectConflictingConstraintInvocation at h
  split at h
  · cases h
  · cases h
  · split at h
    · cases h
    · dsimp only at h
      split at h
      · injection h with h
        exact (Option.some.inj h).symm
      · split at h
        · injection h with h
          exact (Option.some.inj h).symm
        · cases h

/-- Comparing the requirements of a plan takes no evaluation away. -/
theorem projectBuildPlanConstraintConflicts_evaluated {after : BuildPlan}
    (hplan : ∀ edge ∈ plan.dependencyEdges, EdgeEvaluated edge)
    (h : projectBuildPlanConstraintConflicts env plan = .ok after) :
    ∀ edge ∈ after.dependencyEdges, EdgeEvaluated edge := by
  unfold projectBuildPlanConstraintConflicts at h
  refine foldlM_inv (P := fun current =>
    ∀ edge ∈ current.dependencyEdges, EdgeEvaluated edge) ?_ hplan h
  intro indices _ current next hcurrent hstep
  unfold projectGroup at hstep
  split at hstep
  · cases hstep
  · injection hstep with hstep
    rw [← hstep]
    exact hcurrent
  · rename_i conflict hconflict
    injection hstep with hstep
    rw [← hstep, projectConflictingConstraintInvocation_some hconflict]
    intro edge hedge
    obtain ⟨⟨origin, index⟩, horigin, rfl⟩ := List.mem_map.mp hedge
    dsimp only
    split
    · exact ⟨Option.some_ne_none _, fun _ => ⟨nofun, nofun⟩⟩
    · exact hcurrent origin (List.fst_mem_of_mem_zipIdx horigin)

/-- Finishing keeps the evaluations and the reports. -/
theorem finishBuildPlan_evaluated {collected : BuildPlan} (hcollected : Evaluated collected)
    (h : finishBuildPlan env collected = .ok plan) : Evaluated plan := by
  obtain ⟨ordered, hordered, hannotated⟩ := finishBuildPlan_spec h
  have hframe := orderBuildPlanEntries_frame hordered
  have hreports : plan.unresolved = collected.unresolved ∧
      plan.ambiguousProviders = collected.ambiguousProviders := by
    rw [hannotated.frame, hframe]
    exact ⟨rfl, rfl⟩
  rcases hcollected with hevaluated | hreported | hreported
  · refine Or.inl ?_
    unfold finishBuildPlan at h
    simp only [bind_eq_ok] at h
    obtain ⟨ordered', hordered', projected, hprojected, _, -, _, -, h⟩ := h
    injection h with h
    rw [← h]
    refine projectBuildPlanConstraintConflicts_evaluated ?_ hprojected
    show ∀ edge ∈ (propagateRootIdentities ordered').dependencyEdges, _
    rw [propagateRootIdentities_edges_eq, orderBuildPlanEntries_frame hordered']
    exact hevaluated
  · refine Or.inr (Or.inl ?_)
    rw [hreports.1]
    exact hreported
  · refine Or.inr (Or.inr ?_)
    rw [hreports.2]
    exact hreported

theorem collectRoots_evaluated {walked : WalkState}
    (hvalid : ∀ target ∈ targets, isValidPackageName target = true)
    (h : collectRoots settings targets = .ok walked) : Evaluated walked.plan := by
  refine collectRoots_keeps (keeps_evaluated settings) ?_ ?_ hvalid h
  · exact Or.inl (by simp)
  · intro state root hstate
    exact hstate.of_eq rfl (List.prefix_refl _) rfl

theorem resolveBuildPlanOnce_evaluated {context : BuildPlanResolutionContext}
    (h : resolveBuildPlanOnce env targets context selectProvider = .ok result) :
    Evaluated result.plan := by
  unfold resolveBuildPlanOnce at h
  simp only [bind_eq_ok] at h
  obtain ⟨_, htargets, walked, hwalked, plan, hplan, h⟩ := h
  injection h with h
  rw [← h]
  exact finishBuildPlan_evaluated
    (collectRoots_evaluated (requireTargets_valid htargets) hwalked) hplan

/-- Every edge of an accepted plan is satisfied, or asks for nothing. -/
theorem FetchAccepted.satisfied {plan : BuildPlan} (h : FetchAccepted plan)
    (hevaluated : Evaluated plan) :
    ∀ edge ∈ plan.dependencyEdges, edge.constraintEvaluation = some .satisfied ∨
      edge.constraintEvaluation = some .unconstrained := by
  intro edge hedge
  have hsome : edge.constraintEvaluation ≠ none := by
    rcases hevaluated with hevaluated | hreported | hreported
    · exact (hevaluated edge hedge).evaluated
    · exact absurd h.unresolved hreported
    · exact absurd h.ambiguous hreported
  have hauthority := h.authority edge hedge
  have hevaluations := h.evaluations edge hedge
  unfold edgeAuthorityIssue at hauthority
  cases hevaluation : edge.constraintEvaluation with
  | none => exact absurd hevaluation hsome
  | some evaluation =>
    rw [hevaluation] at hauthority hevaluations
    have hfree := hevaluations evaluation rfl
    cases evaluation with
    | satisfied => exact Or.inl rfl
    | unconstrained => exact Or.inr rfl
    | unsatisfied => exact absurd rfl hfree.2
    | unknown reason => exact absurd rfl hfree.1
    | invalid reason =>
      simp only [reduceCtorEq, and_false, if_false] at hauthority
      split at hauthority
      · cases hauthority
      · split at hauthority
        · cases hauthority
        · split at hauthority <;> cases hauthority
    | conflicting reason =>
      simp only [reduceCtorEq, and_false, if_false] at hauthority
      split at hauthority
      · cases hauthority
      · split at hauthority
        · cases hauthority
        · split at hauthority <;> cases hauthority

/-- No edge of an accepted plan was left without a kind. -/
theorem FetchAccepted.kind_ne_unknown (h : FetchAccepted plan) (hevaluated : Evaluated plan) :
    ∀ edge ∈ plan.dependencyEdges, edge.kind ≠ .unknown := by
  intro edge hedge hkind
  have hsatisfied := h.satisfied hevaluated edge hedge
  rcases hevaluated with hevaluated | hreported | hreported
  · have hdoubtful := (hevaluated edge hedge).doubtful hkind
    rcases hsatisfied with hsatisfied | hsatisfied
    · exact hdoubtful.1 hsatisfied
    · exact hdoubtful.2 hsatisfied
  · exact hreported h.unresolved
  · exact hreported h.ambiguous

end Moguet.Plan.Acceptance
