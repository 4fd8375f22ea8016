import Moguet.Plan.Interaction

/-!
# Recorded failures are reported

The guards of a plan look at its unresolved dependencies and never at the
failures it recorded. They are safe because every place of the resolver that
records a failed lookup or an incomplete candidate set reports the dependency
as unresolved too.
-/

namespace Moguet.Plan.FailureReport

open Verified.ByteString Verified.Checked Constraint Metadata Model Discovery Readiness Resolver
open Walk Resolution Interaction Relation.Assessment

variable {plan : BuildPlan} {edge : BuildPlanDependencyEdge} {after before : WalkState}
  {settings : ResolverSettings} {parent : Bytes} {request : CollectRequest}
  {env : MetadataEnvironment} {targets : List Bytes}
  {selectProvider : Option ProviderSelectionCallback} {result : PassResult}
  {reason : AssessedPlanReason}

/-- The plan recorded a failed lookup or a candidate set it could not
complete. -/
def RecordsFailure (plan : BuildPlan) : Prop :=
  plan.resolutionFailures ≠ [] ∨ plan.incompleteProviderCandidateSets ≠ []

/-- What was recorded is reported. -/
def Reported (plan : BuildPlan) : Prop :=
  RecordsFailure plan → plan.unresolved ≠ []

theorem Reported.of_unresolved {plan : BuildPlan} (h : plan.unresolved ≠ []) : Reported plan :=
  fun _ => h

theorem reported_addUnresolved (plan : BuildPlan) {value : Bytes}
    (h : trim value ≠ []) : Reported (addUnresolved plan value) :=
  Reported.of_unresolved (addUniqueValue_ne_nil h)

/-- A change that records nothing and takes no report back. -/
theorem Reported.of_records {before after : BuildPlan} (h : Reported before)
    (hfailures : after.resolutionFailures = before.resolutionFailures)
    (hincomplete : after.incompleteProviderCandidateSets = before.incompleteProviderCandidateSets)
    (hunresolved : before.unresolved <+: after.unresolved) : Reported after := by
  intro hrecords
  have hbefore : RecordsFailure before := by
    unfold RecordsFailure at hrecords
    rw [hfailures, hincomplete] at hrecords
    exact hrecords
  intro hnil
  rw [hnil] at hunresolved
  exact h hbefore (List.prefix_nil.mp hunresolved)

theorem Reported.applyDecision (h : Reported plan) (decision : DependencyDecision) :
    Reported (applyDecision plan decision) := by
  have hgrows := PlanGrows.applyDecision plan decision
  refine h.of_records ?_ ?_ hgrows.unresolved
  · unfold Resolver.applyDecision
    cases decision.cyclePackageBase <;> cases decision.unresolvedReason <;> rfl
  · unfold Resolver.applyDecision
    cases decision.cyclePackageBase <;> cases decision.unresolvedReason <;> rfl

theorem Reported.of_recordProvided {site : DependencySite} {discovery : ProviderCandidateDiscovery}
    {provider : ProvidedDependency} {evaluation : ConstraintEvaluation}
    {resolution : ProviderResolutionKind} {state : WalkState} (h : Reported state.plan)
    (hrecord : recordProvided site edge discovery provider evaluation resolution state =
      .ok after) : Reported after.plan := by
  rw [recordProvided_ok hrecord]
  exact h.of_records rfl rfl (List.prefix_refl _)

theorem Reported.quiet (h : Reported before.plan) (hquiet : Quiet settings parent before after) :
    Reported after.plan := by
  cases hquiet with
  | decided decision => exact h.applyDecision decision
  | unresolved site edge value failures incomplete provided order hsite hvalue =>
    exact Reported.of_unresolved (addUniqueValue_ne_nil hvalue)
  | repository site first consumer candidate plan hresolving hplan =>
    show Reported (WalkState.addEdges (before.withPlan plan) site _).plan
    rw [addPlannedRelationObservation_ok hplan]
    exact h.of_records rfl rfl (List.prefix_refl _)
  | provided =>
    exact h.of_recordProvided ‹recordProvided _ _ _ _ _ _ before = .ok after›
  | retained | locallyAsked | requested | conflicted | unclassified | ambiguous
  | installed => exact h.of_records rfl rfl (List.prefix_refl _)

theorem Reported.leads {info : AurPackageInfo} (h : Reported before.plan)
    (hleads : Leads settings parent before after info request) : Reported after.plan := by
  cases hleads with
  | aur => exact h.of_records rfl rfl (List.prefix_refl _)
  | provided =>
    exact h.of_recordProvided ‹recordProvided _ _ _ _ _ _ before = .ok after›

theorem reported_stops (hrequest : RequestAt settings before.plan request)
    (hstops : Stops request before after) : Reported after.plan := by
  cases hstops with
  | unresolved value hvalue => exact reported_addUnresolved _ hvalue
  | failed context kind diagnostic =>
    refine reported_addUnresolved _ ?_
    rw [trim_of_isValidPackageName hrequest.name_valid]
    exact isValidPackageName_ne_nil hrequest.name_valid

theorem keeps_reported (settings : ResolverSettings) :
    Keeps settings fun state => Reported state.plan where
  quiet := fun h hquiet => h.quiet hquiet
  leads := fun h hleads => h.leads hleads
  stops := fun _ hrequest hstops => reported_stops hrequest hstops
  enters := by
    intro request before info plan h henters
    show Reported plan
    rw [recordPackage_ok henters.recorded]
    exact h.of_records rfl rfl (List.prefix_refl _)
  cycle := fun h => h.of_records rfl rfl (List.prefix_refl _)
  opened := fun h _ _ => h
  closed := by
    intro state info h
    refine h.of_records ?_ ?_ (PlanGrows.closePackage info state).unresolved
    · unfold closePackage addBuildPlanSplitPackageTarget
      dsimp only
      split <;> rfl
    · unfold closePackage addBuildPlanSplitPackageTarget
      dsimp only
      split <;> rfl

theorem collectRoots_reported {walked : WalkState}
    (hvalid : ∀ target ∈ targets, isValidPackageName target = true)
    (h : collectRoots settings targets = .ok walked) : Reported walked.plan := by
  refine collectRoots_keeps (keeps_reported settings) ?_ ?_ hvalid h
  · intro hrecords
    rcases hrecords with hfailures | hincomplete
    · exact absurd rfl hfailures
    · exact absurd rfl hincomplete
  · intro state root hstate
    exact hstate.of_records rfl rfl (List.prefix_refl _)

theorem finishBuildPlan_reported {collected : BuildPlan} (hcollected : Reported collected)
    (h : finishBuildPlan env collected = .ok plan) : Reported plan := by
  obtain ⟨ordered, hordered, hannotated⟩ := finishBuildPlan_spec h
  have hframe := orderBuildPlanEntries_frame hordered
  have hunresolved : plan.unresolved = collected.unresolved := by
    rw [hannotated.frame, hframe]
  have hincomplete : plan.incompleteProviderCandidateSets =
      collected.incompleteProviderCandidateSets := by
    rw [hannotated.frame, hframe]
  have hfailures : plan.resolutionFailures.length = collected.resolutionFailures.length := by
    rw [hannotated.failures, hframe]
  intro hrecords
  rw [hunresolved]
  apply hcollected
  rcases hrecords with hrecords | hrecords
  · left
    rw [← List.length_pos_iff] at hrecords ⊢
    omega
  · right
    rw [← hincomplete]
    exact hrecords

/-- The plans the build-plan resolver returns: of a single pass, of the fetch
pass, and of both with provider interaction. -/
inductive ResolvedPlan : BuildPlan → Prop
  | pass (env : MetadataEnvironment) (targets : List Bytes)
      (context : BuildPlanResolutionContext)
      (selectProvider : Option ProviderSelectionCallback) (result : PassResult)
      (h : resolveBuildPlanOnce env targets context selectProvider = .ok result) :
      ResolvedPlan result.plan
  | fetchPass (env : MetadataEnvironment) (targets : List Bytes)
      (selectProvider : Option ProviderSelectionCallback) (result : PassResult)
      (h : resolveFetchPlanOnce env targets selectProvider = .ok result) :
      ResolvedPlan result.plan
  | interaction (env : Nat → MetadataEnvironment) (targets : List Bytes)
      (context : BuildPlanResolutionContext)
      (selectProvider : Option ProviderSelectionCallback)
      (interaction : InteractionResult)
      (h : resolveBuildPlanWithInteraction env targets context selectProvider =
        .ok interaction) : ResolvedPlan interaction.result.plan
  | fetchInteraction (env : Nat → MetadataEnvironment) (targets : List Bytes)
      (selectProvider : Option ProviderSelectionCallback)
      (interaction : InteractionResult)
      (h : resolveFetchPlanWithInteraction env targets selectProvider =
        .ok interaction) : ResolvedPlan interaction.result.plan

theorem resolveBuildPlanOnce_reported {context : BuildPlanResolutionContext}
    (h : resolveBuildPlanOnce env targets context selectProvider = .ok result) :
    Reported result.plan := by
  unfold resolveBuildPlanOnce at h
  simp only [bind_eq_ok] at h
  obtain ⟨_, htargets, walked, hwalked, plan, hplan, h⟩ := h
  injection h with h
  rw [← h]
  exact finishBuildPlan_reported
    (collectRoots_reported (requireTargets_valid htargets) hwalked) hplan

theorem resolveFetchPlanOnce_reported
    (h : resolveFetchPlanOnce env targets selectProvider = .ok result) : Reported result.plan := by
  unfold resolveFetchPlanOnce at h
  simp only [bind_eq_ok] at h
  obtain ⟨_, htargets, walked, hwalked, plan, hplan, h⟩ := h
  injection h with h
  rw [← h]
  exact finishBuildPlan_reported
    (collectRoots_reported (requireFetchTargets_valid htargets) hwalked) hplan

theorem ResolvedPlan.reported (h : ResolvedPlan plan) : Reported plan := by
  cases h with
  | pass env targets context selectProvider result h =>
    exact resolveBuildPlanOnce_reported h
  | fetchPass env targets selectProvider result h =>
    exact resolveFetchPlanOnce_reported h
  | interaction env targets context selectProvider interaction h =>
    unfold resolveBuildPlanWithInteraction at h
    rw [bind_eq_ok] at h
    obtain ⟨passed, hpassed, h⟩ := h
    injection h with h
    rw [← h]
    obtain ⟨callback, hresult⟩ := resolveWithProviderInteraction_pass hpassed
    exact (resolveBuildPlanOnce_reported hresult).of_records rfl rfl (List.prefix_refl _)
  | fetchInteraction env targets selectProvider interaction h =>
    unfold resolveFetchPlanWithInteraction at h
    rw [bind_eq_ok] at h
    obtain ⟨passed, hpassed, h⟩ := h
    injection h with h
    rw [← h]
    obtain ⟨callback, hresult⟩ := resolveWithProviderInteraction_pass hpassed
    exact (resolveFetchPlanOnce_reported hresult).of_records rfl rfl (List.prefix_refl _)

/-- A reason that stands for a recorded failure. -/
def isRecordedFailure : PlanReason → Bool
  | .resolution _ | .incompleteProviderCandidate _ => true
  | _ => false

theorem constraintReadinessReason_not_recorded {index : Nat}
    (h : constraintReadinessReason edge index = some reason) :
    isRecordedFailure reason.reason = false := by
  unfold constraintReadinessReason at h
  split at h
  · injection h with h
    rw [← h]
    rfl
  · injection h with h
    rw [← h]
    rfl
  · cases h

theorem declaredRelationReason_not_recorded (assessment : PackageRelationAssessment) :
    isRecordedFailure (declaredRelationReason assessment).reason = false := by
  unfold declaredRelationReason
  dsimp only
  split <;> rfl

/-- A recorded failure alone blocks no guard. -/
theorem recordedFailure_not_blocking (hmem : reason ∈ assessPlanReasons plan)
    (hrecorded : isRecordedFailure reason.reason = true) :
    reason.blocksProductionGuard = false := by
  cases assessed_of_mem hmem with
  | failure | incomplete => rfl
  | constraint edge index reason _ h =>
    rw [constraintReadinessReason_not_recorded h] at hrecorded
    cases hrecorded
  | relation assessment =>
    rw [declaredRelationReason_not_recorded] at hrecorded
    cases hrecorded
  | conflict | authority | unresolved | ambiguous | cycle | split => cases hrecorded

/-- A plan none of the guards lets through, although the failures it recorded
do not block them. -/
structure FailuresGuarded (plan : BuildPlan) : Prop where
  unresolved : plan.unresolved ≠ []
  fetch : ∀ relationDisplay target, ∃ thrown,
    requireFetchableBuildPlan relationDisplay target plan = .error thrown
  build : ∀ relationDisplay target, ∃ thrown,
    requireExecutableBuildPlan relationDisplay target plan = .error thrown
  install : ∀ relationDisplay target, ∃ thrown,
    requireExecutableInstallPlan relationDisplay target plan = .error thrown
  not_blocking : ∀ reason ∈ assessPlanReasons plan,
    isRecordedFailure reason.reason = true → reason.blocksProductionGuard = false

/-- **Recorded failures stop a plan**: a plan of the resolver that records a
resolution failure or an incomplete provider candidate set has an unresolved
dependency, and each of the three guards throws on it. -/
theorem resolvedPlan_failures_guarded (plan : BuildPlan) (hplan : ResolvedPlan plan)
    (hrecords : plan.resolutionFailures ≠ [] ∨
      plan.incompleteProviderCandidateSets ≠ []) : FailuresGuarded plan := by
  have hunresolved : plan.unresolved ≠ [] := hplan.reported hrecords
  exact {
    unresolved := hunresolved
    fetch := fun _ _ => requireCapabilityReadiness_of_unresolved hunresolved .fetch
    build := fun _ _ => requireCapabilityReadiness_of_unresolved hunresolved .build
    install := fun _ _ => requireCapabilityReadiness_of_unresolved hunresolved .install
    not_blocking := fun _ hmem hrecorded => recordedFailure_not_blocking hmem hrecorded }

/-- `app` depends on `lib`, and the repositories cannot be read. -/
def unreadableRepositories : MetadataEnvironment :=
  { MetadataEnvironment.ofAurRecords
      [{ name := ascii "app", packageBase := ascii "app", version := ascii "1-1",
         depends := [ascii "lib"] }] with
    queryRepositoryPackageStrict := fun _ =>
      .ok (.failure { diagnostic := ascii "unreadable database" }) }

/-- The failed lookup of `lib` is recorded, and the plan is stopped. -/
theorem resolvedPlan_failures_guarded_app :
    ∃ result,
      resolveBuildPlanOnce unreadableRepositories [ascii "app"]
          { mode := .captureOrdinaryFailures } none = .ok result ∧
        result.plan.resolutionFailures.length = 1 ∧ FailuresGuarded result.plan := by
  have hview : (resolveBuildPlanOnce unreadableRepositories [ascii "app"]
      { mode := .captureOrdinaryFailures } none).toOption.map
        (fun result => result.plan.resolutionFailures.length) = some 1 := by
    decide +kernel
  obtain ⟨result, hresult, hseen⟩ := exists_ok_of_view hview
  have hrecords : result.plan.resolutionFailures ≠ [] :=
    List.length_pos_iff.mp (by omega)
  exact ⟨result, hresult, hseen, resolvedPlan_failures_guarded result.plan
    (ResolvedPlan.pass _ _ _ _ _ hresult) (Or.inl hrecords)⟩

end Moguet.Plan.FailureReport
