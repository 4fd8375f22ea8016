import Moguet.Plan.Refresh

/-!
# Every declared dependency leaves an edge

Each way through the resolver ends in edges for all declarations of the site
it was called for, whatever the lookups return and whatever the walk below it
does: a collector only appends edges. The one exception is a dependency the
local resolver takes.
-/

namespace Moguet.Plan.Records

open Verified.ByteString Verified.Checked Constraint Metadata Model Discovery Dependency Resolver
open Walk Refresh

variable {after state : WalkState} {site : DependencySite}

variable {between : WalkState} {before : BuildPlan} {discovery : ProviderCandidateDiscovery}
  {provider : ProvidedDependency} {resolution : ProviderResolutionKind} {info : AurPackageInfo}
  {root : RootTargetIdentity}

/-- The edges of the first plan stand at the front of the second. -/
def Extends (before after : BuildPlan) : Prop :=
  before.dependencyEdges <+: after.dependencyEdges

theorem Extends.refl (plan : BuildPlan) : Extends plan plan :=
  List.prefix_refl _

theorem Extends.trans {first second third : BuildPlan} (h : Extends first second)
    (h' : Extends second third) : Extends first third :=
  List.IsPrefix.trans h h'

theorem Extends.of_eq {after : BuildPlan} (h : after.dependencyEdges = before.dependencyEdges) :
    Extends before after :=
  ⟨[], by rw [h, List.append_nil]⟩

theorem lookupFrame_edges_eq {after : BuildPlan} (h : LookupFrame before after) :
    after.dependencyEdges = before.dependencyEdges := by
  unfold LookupFrame at h
  rw [h]

/-- A failed lookup and the report of it add no edge. -/
theorem addUnresolved_edges_eq {after : BuildPlan} (h : LookupFrame before after) (value : Bytes) :
    (addUnresolved after value).dependencyEdges = before.dependencyEdges := by
  show after.dependencyEdges = before.dependencyEdges
  exact lookupFrame_edges_eq h

/-- A collector that appends edges only. -/
def ExtendsAll (collect : Collector) : Prop :=
  ∀ request before after, collect request before = .ok after →
    Extends before.plan after.plan

/-- The site's declarations have their edges. -/
def Recorded (site : DependencySite) (plan : BuildPlan) : Prop :=
  ∀ declaration ∈ site.declarations, ∃ edge ∈ plan.dependencyEdges,
    edge.parentPackageName = site.parentPackageName ∧
      edge.parentPackageBase = site.parentPackageBase ∧
      edge.dependencySpec = declaration.specification ∧
      edge.role = declaration.role

theorem Recorded.extend {after : BuildPlan} (h : Recorded site before)
    (hextends : Extends before after) : Recorded site after := by
  intro declaration hdeclaration
  obtain ⟨edge, hedge, hfields⟩ := h declaration hdeclaration
  exact ⟨edge, hextends.subset hedge, hfields⟩

/-- What resolving a site does: edges are appended, its own among them. -/
def Recording (site : DependencySite) (before after : WalkState) : Prop :=
  Extends before.plan after.plan ∧ Recorded site after.plan

/-- The edges of the site are appended to a plan with the edges so far. -/
theorem records_addEdges {before : WalkState} {edge : BuildPlanDependencyEdge}
    (hedges : between.plan.dependencyEdges = before.plan.dependencyEdges)
    (hname : edge.parentPackageName = site.parentPackageName)
    (hbase : edge.parentPackageBase = site.parentPackageBase) :
    Recording site before (between.addEdges site edge) := by
  constructor
  · show before.plan.dependencyEdges <+: between.plan.dependencyEdges ++ _
    rw [hedges]
    exact List.prefix_append _ _
  · intro declaration hdeclaration
    refine ⟨{ edge with
        dependencySpec := declaration.specification
        role := declaration.role
        requirement := declaration.requirement }, ?_, hname, hbase, rfl, rfl⟩
    exact List.mem_append.mpr (Or.inr (List.mem_map.mpr ⟨declaration, hdeclaration, rfl⟩))

theorem Recording.extend {before : WalkState} (h : Recording site before between)
    (hextends : Extends between.plan after.plan) : Recording site before after :=
  ⟨h.1.trans hextends, h.2.extend hextends⟩

/-- A site is recorded from a state on that has the edges of the first. -/
theorem Recording.from_eq {before : WalkState}
    (hedges : between.plan.dependencyEdges = before.plan.dependencyEdges)
    (h : Recording site between after) : Recording site before after :=
  ⟨(Extends.of_eq hedges).trans h.1, h.2⟩

section Stages

variable {settings : ResolverSettings} {collect : Collector}
  {site : DependencySite} {first : TypedPackageDependency}
  {consumer : ConsumerDependencyRequirement} {state after : WalkState}

theorem resolveInstalled_records
    (h : resolveInstalled settings site (site.edge first) consumer state =
      .ok after) : Recording site state after := by
  unfold resolveInstalled at h
  rw [bind_eq_ok] at h
  obtain ⟨result, -, h⟩ := h
  cases result with
  | present package =>
    injection h with h
    rw [← h]
    exact records_addEdges rfl rfl rfl
  | absent name =>
    injection h with h
    rw [← h]
    exact records_addEdges rfl rfl rfl
  | queryFailure name diagnostic =>
    injection h with h
    rw [← h]
    refine records_addEdges ?_ rfl rfl
    exact addUnresolved_edges_eq (addResolutionFailure_frame _ _ _ _ _) _

theorem recordProvided_records {evaluation : ConstraintEvaluation}
    (h : recordProvided site (site.edge first) discovery provider evaluation
      resolution state = .ok after) : Recording site state after := by
  rw [recordProvided_ok h]
  exact records_addEdges rfl rfl rfl

theorem retainUserSelection_edges_eq {plan : BuildPlan} :
    (retainUserSelection site provider resolution plan).dependencyEdges = plan.dependencyEdges := by
  rw [retainUserSelection_frame]

theorem planProvider_records (hcollect : ExtendsAll collect) {selected : ProvidedDependency}
    (h : planProvider settings collect site (site.edge first) consumer discovery
      resolution state selected = .ok after) : Recording site state after := by
  unfold planProvider at h
  rw [bind_eq_ok] at h
  obtain ⟨⟨refresh, plan⟩, hrefresh, h⟩ := h
  have hplan : plan.dependencyEdges = state.plan.dependencyEdges := by
    cases refreshSelectedProvider_spec hrefresh with
    | unknown reason _ hframe => exact lookupFrame_edges_eq hframe
    | asSelected => rfl
    | reread => rfl
  cases refresh with
  | unknown reason =>
    injection h with h
    rw [← h]
    refine records_addEdges ?_ rfl rfl
    show (retainUserSelection site selected resolution plan).dependencyEdges = _
    rw [retainUserSelection_edges_eq, hplan]
  | current provider evaluation info =>
    dsimp only at h
    split at h
    · injection h with h
      rw [← h]
      refine records_addEdges ?_ rfl rfl
      show (retainUserSelection site provider resolution _).dependencyEdges = _
      rw [retainUserSelection_edges_eq]
      exact hplan
    · rw [bind_eq_ok] at h
      obtain ⟨recorded, hrecorded, h⟩ := h
      have hplan' : (state.withPlan plan).plan.dependencyEdges = state.plan.dependencyEdges := hplan
      have hrecords : Recording site state recorded :=
        Recording.from_eq hplan' (recordProvided_records hrecorded)
      split at h
      · split at h
        · injection h with h
          rw [← h]
          exact hrecords.extend (Extends.refl _)
        · exact hrecords.extend (hcollect _ _ _ h)
      · injection h with h
        rw [← h]
        exact hrecords

theorem resolveThroughProviders_records (hcollect : ExtendsAll collect)
    (h : resolveThroughProviders settings collect site (site.edge first) consumer
      state = .ok after) : Recording site state after := by
  unfold resolveThroughProviders at h
  rw [bind_eq_ok] at h
  obtain ⟨⟨discovery, plan⟩, hfound, h⟩ := h
  have hplan : plan.dependencyEdges = state.plan.dependencyEdges :=
    lookupFrame_edges_eq (findDependencyProviders_spec hfound).frame
  dsimp only at h
  split at h
  · injection h with h
    rw [← h]
    refine records_addEdges ?_ rfl rfl
    show (addIncompleteProviderCandidateSet plan site.dependency discovery).dependencyEdges = _
    unfold addIncompleteProviderCandidateSet
    split
    · exact hplan
    · split <;> exact hplan
  · simp only [bind_eq_ok] at h
    obtain ⟨-, -, ⟨choice, requests⟩, -, h⟩ := h
    dsimp only at h
    have hplan' : ({ state with plan := plan, requests := requests } :
        WalkState).plan.dependencyEdges = state.plan.dependencyEdges := hplan
    refine Recording.from_eq hplan' ?_
    cases choice with
    | none =>
      dsimp only at h
      split at h
      · injection h with h
        rw [← h]
        exact records_addEdges rfl rfl rfl
      · exact resolveInstalled_records h
    | some choice =>
      obtain ⟨selection, resolution⟩ := choice
      dsimp only at h
      -- The selection is not empty: the first member records the site.
      cases hmembers : selection.members with
      | nil => exact absurd hmembers selection.members_ne_nil
      | cons member rest =>
        rw [hmembers, List.foldlM_cons, bind_eq_ok] at h
        obtain ⟨planned, hplanned, h⟩ := h
        refine (planProvider_records hcollect hplanned).extend ?_
        refine foldlM_inv (P := fun current => Extends planned.plan current.plan)
          ?_ (Extends.refl _) h
        intro other _ current next hcurrent hstep
        exact hcurrent.trans (planProvider_records hcollect hstep).1

theorem planAurDependency_records (hcollect : ExtendsAll collect)
    (h : planAurDependency settings collect site (site.edge first) consumer info
      state = .ok after) : Recording site state after := by
  unfold planAurDependency at h
  rw [bind_eq_ok] at h
  obtain ⟨candidate, -, h⟩ := h
  have hrecords : Recording site state (state.addEdges site
      (aurEdge settings (site.edge first) consumer candidate)) :=
    records_addEdges rfl rfl rfl
  dsimp only at h
  split at h
  · injection h with h
    rw [← h]
    exact hrecords.extend (Extends.refl _)
  · exact hrecords.extend (hcollect _ _ _ h)

theorem resolveInAur_records (hcollect : ExtendsAll collect)
    (h : resolveInAur settings collect site (site.edge first) consumer state =
      .ok after) : Recording site state after := by
  unfold resolveInAur at h
  split at h
  · exact planAurDependency_records hcollect h
  · exact resolveThroughProviders_records hcollect h
  · split at h
    · cases h
    · split at h
      · cases h
      · dsimp only at h
        split at h
        · injection h with h
          rw [← h]
          refine records_addEdges ?_ rfl rfl
          exact addUnresolved_edges_eq (addResolutionFailure_frame _ _ _ _ _) _
        · refine Recording.from_eq ?_ (resolveThroughProviders_records hcollect h)
          exact lookupFrame_edges_eq (addResolutionFailure_frame _ _ _ _ _)

theorem resolveInRepositories_records (hcollect : ExtendsAll collect)
    (h : resolveInRepositories settings collect site (site.edge first) consumer
      state = .ok after) : Recording site state after := by
  unfold resolveInRepositories at h
  rw [bind_eq_ok] at h
  obtain ⟨⟨status, plan⟩, hstatus, h⟩ := h
  dsimp only at h
  cases queryRepositoryPackage_spec hstatus with
  | unavailable _ hframe =>
    injection h with h
    rw [← h]
    exact records_addEdges (addUnresolved_edges_eq hframe _) rfl rfl
  | present package order =>
    dsimp only at h
    rw [bind_eq_ok] at h
    obtain ⟨observed, hobserved, h⟩ := h
    injection h with h
    rw [← h]
    refine records_addEdges ?_ rfl rfl
    show observed.dependencyEdges = _
    rw [addPlannedRelationObservation_ok hobserved]
  | notFound order =>
    have hplan : (state.withPlan { state.plan with
        configuredRepositoryOrder := order }).plan.dependencyEdges =
        state.plan.dependencyEdges := rfl
    exact Recording.from_eq hplan (resolveInAur_records hcollect h)

theorem resolveRequirement_records (hcollect : ExtendsAll collect)
    (h : resolveRequirement settings collect site first state = .ok after) :
    Recording site state after := by
  unfold resolveRequirement at h
  dsimp only at h
  split at h
  · rw [bind_eq_ok] at h
    obtain ⟨_, -, h⟩ := h
    injection h with h
    rw [← h]
    exact records_addEdges rfl rfl rfl
  · injection h with h
    rw [← h]
    exact records_addEdges rfl rfl rfl
  · exact resolveInRepositories_records hcollect h

end Stages

section Walks

variable {settings : ResolverSettings} {collect : Collector}

theorem applyDecision_edges_eq (plan : BuildPlan) (decision : DependencyDecision) :
    (applyDecision plan decision).dependencyEdges = plan.dependencyEdges := by
  unfold applyDecision
  cases decision.cyclePackageBase <;> cases decision.unresolvedReason <;> rfl

/-- A local decision adds no edge, and is taken only by a local resolver. -/
theorem decideLocally_edges_eq {handled : Bool}
    (h : decideLocally settings site state = .ok (handled, after)) :
    after.plan.dependencyEdges = state.plan.dependencyEdges ∧
      (settings.resolveLocalDependency = none → handled = false) := by
  unfold decideLocally at h
  split at h
  · injection h with h
    injection h with hhandled h
    rw [← h]
    exact ⟨rfl, fun _ => hhandled.symm⟩
  · rename_i resolve hresolve
    rw [bind_eq_ok] at h
    obtain ⟨decision, -, h⟩ := h
    have hlocal : settings.resolveLocalDependency = none → handled = false := by
      intro hnone
      rw [hresolve] at hnone
      cases hnone
    dsimp only at h
    split at h
    · injection h with h
      injection h with _ h
      rw [← h]
      exact ⟨applyDecision_edges_eq _ _, hlocal⟩
    · injection h with h
      injection h with _ h
      rw [← h]
      exact ⟨rfl, hlocal⟩

theorem resolveBuildPlanDependency_records (hcollect : ExtendsAll collect)
    (h : resolveBuildPlanDependency settings collect site state = .ok after) :
    Extends state.plan after.plan ∧
      (settings.resolveLocalDependency = none → Recorded site after.plan) := by
  unfold resolveBuildPlanDependency at h
  split at h
  · cases h
  · rename_i first rest hdeclarations
    rw [bind_eq_ok] at h
    obtain ⟨⟨handled, decided⟩, hdecided, h⟩ := h
    obtain ⟨hedges, hlocal⟩ := decideLocally_edges_eq hdecided
    dsimp only at h
    split at h
    · rename_i hhandled
      injection h with h
      rw [← h]
      refine ⟨Extends.of_eq hedges, ?_⟩
      intro hnone
      rw [hlocal hnone] at hhandled
      cases hhandled
    · have hrecords := Recording.from_eq hedges (resolveRequirement_records hcollect h)
      exact ⟨hrecords.1, fun _ => hrecords.2⟩

theorem walkDependencies_declared (hcollect : ExtendsAll collect)
    (h : walkDependencies settings collect info root state = .ok after) :
    Extends state.plan after.plan ∧
      (settings.resolveLocalDependency = none → Declared info after.plan) := by
  unfold walkDependencies at h
  rw [bind_eq_ok] at h
  obtain ⟨typed, htyped, h⟩ := h
  let site (dependency : Bytes) : DependencySite :=
    ⟨info.name, info.packageBase, dependency,
      typedDependenciesForSpecification typed dependency, root⟩
  -- Over the specifications walked so far, the edges grow and each has its own.
  have hwalk : ∀ (dependencies : List Bytes) {before after : WalkState},
      dependencies.foldlM (fun state dependency =>
        resolveBuildPlanDependency settings collect (site dependency) state) before = .ok after →
      Extends before.plan after.plan ∧ (settings.resolveLocalDependency = none →
          ∀ dependency ∈ dependencies, Recorded (site dependency) after.plan) := by
    intro dependencies
    induction dependencies with
    | nil =>
      intro before after h
      injection h with h
      rw [← h]
      exact ⟨Extends.refl _, by simp⟩
    | cons dependency rest ih =>
      intro before after h
      rw [List.foldlM_cons, bind_eq_ok] at h
      obtain ⟨between, hbetween, h⟩ := h
      obtain ⟨hextends, hrecorded⟩ := resolveBuildPlanDependency_records hcollect hbetween
      obtain ⟨hextends', hrecorded'⟩ := ih h
      refine ⟨hextends.trans hextends', ?_⟩
      intro hnone other hother
      rcases List.mem_cons.mp hother with rfl | hother
      · exact (hrecorded hnone).extend hextends'
      · exact hrecorded' hnone other hother
  obtain ⟨hextends, hrecorded⟩ := hwalk _ h
  refine ⟨hextends, ?_⟩
  intro hnone
  refine ⟨typed, htyped, ?_⟩
  intro declaration hdeclaration
  have hmem := collectTypedBuildDependencies_walked htyped declaration hdeclaration
  exact hrecorded hnone _ hmem declaration (List.mem_filter.mpr ⟨hdeclaration, by simp⟩)

theorem visitPackage_extends (hcollect : ExtendsAll collect) {roles : List PackageRole}
    (h : visitPackage settings collect info roles root state = .ok after) :
    Extends state.plan after.plan := by
  unfold visitPackage at h
  rw [bind_eq_ok] at h
  obtain ⟨plan, hplan, h⟩ := h
  have hrecorded : Extends state.plan plan := (PlanGrows.recordPackage hplan).edges
  dsimp only at h
  split at h
  · injection h with h
    rw [← h]
    exact hrecorded
  · split at h
    · injection h with h
      rw [← h]
      exact hrecorded
    · rw [bind_eq_ok] at h
      obtain ⟨walked, hwalked, h⟩ := h
      injection h with h
      rw [← h]
      have hwalk : Extends plan walked.plan := (walkDependencies_declared hcollect hwalked).1
      exact (hrecorded.trans hwalk).trans (PlanGrows.closePackage info walked).edges

theorem collectPackage_extends (hcollect : ExtendsAll collect) :
    ExtendsAll (collectPackage settings collect) := by
  intro request before after h
  have hfailed : ∀ context kind diagnostic value,
      Extends before.plan (addUnresolved (addResolutionFailure context kind
        request.packageName diagnostic before.plan) value) :=
    fun context kind diagnostic value =>
      Extends.of_eq (addUnresolved_edges_eq (addResolutionFailure_frame context kind
        request.packageName diagnostic before.plan) value)
  unfold collectPackage at h
  dsimp only at h
  split at h
  · split at h
    · cases h
    · split at h
      · cases h
      · injection h with h
        rw [← h]
        exact hfailed _ _ _ _
  · injection h with h
    rw [← h]
    exact Extends.of_eq rfl
  · split at h
    · split at h
      · cases h
      · injection h with h
        rw [← h]
        exact hfailed _ _ _ _
    · exact visitPackage_extends hcollect h

end Walks

theorem collectAurBuildPlan_extends (settings : ResolverSettings) :
    ∀ remaining, ExtendsAll (collectAurBuildPlan settings remaining) := by
  intro remaining
  induction remaining with
  | zero =>
    intro request before after h
    injection h with h
    rw [← h]
    exact Extends.of_eq rfl
  | succ remaining ih => exact collectPackage_extends ih

end Moguet.Plan.Records
