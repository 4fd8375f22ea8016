import Moguet.Plan.Resolver

/-!
# What the build-plan walk can do

The resolver is one long cascade; this module says once which changes of the
state it can make, with what it knows at each of them, and derives from that
the two rules every invariant of the walk is proved by.

* `Quiet` — the changes that finish a dependency on the spot;
* `Leads` — an edge to an AUR package, after which the walk descends;
* `Stops` — a package the walk cannot enter;
* `WalkRule.collect` — the induction over a whole walk for a relation between
  its two ends;
* `Keeps.collect` — the same for an invariant of single states.
-/

namespace Moguet.Plan.Walk

open Verified.ByteString Verified.Checked Verified.Upsert Constraint Metadata Model Discovery
open Dependency Resolver Relation.Observation

variable {before after state : WalkState} {plan : BuildPlan}
  {observation : PlannedPackageRelationObservation} {root : RootTargetIdentity}
  {info : AurPackageInfo} {roles : List PackageRole} {site : DependencySite}
  {edge : BuildPlanDependencyEdge} {discovery : ProviderCandidateDiscovery}
  {provider : ProvidedDependency} {evaluation : ConstraintEvaluation}
  {resolution : ProviderResolutionKind} {settings : ResolverSettings} {parent : Bytes}
  {request : CollectRequest} {dependency base : Option Bytes}

/-! ## Growth of a plan -/

/-- Nothing a walk records is taken back. -/
structure PlanGrows (before after : BuildPlan) : Prop where
  rootTargets : after.rootTargets = before.rootTargets
  edges : before.dependencyEdges <+: after.dependencyEdges
  unresolved : before.unresolved <+: after.unresolved
  cycles : before.cycles <+: after.cycles
  targets : ∀ target ∈ before.packageTargets, ∃ kept ∈ after.packageTargets,
    kept.packageName = target.packageName ∧
      kept.packageBase = target.packageBase ∧ target.roots ⊆ kept.roots ∧
      target.roles ⊆ kept.roles
  entries : ∀ entry ∈ before.order, ∃ kept ∈ after.order,
    kept.packageBase = entry.packageBase ∧
      entry.packageNames ⊆ kept.packageNames

/-- A change outside the fields that grow. -/
theorem PlanGrows.of_eq {before after : BuildPlan} (hroots : after.rootTargets = before.rootTargets)
    (hedges : after.dependencyEdges = before.dependencyEdges)
    (hunresolved : before.unresolved <+: after.unresolved)
    (hcycles : before.cycles <+: after.cycles)
    (htargets : after.packageTargets = before.packageTargets)
    (horder : after.order = before.order) : PlanGrows before after where
  rootTargets := hroots
  edges := hedges ▸ List.prefix_refl _
  unresolved := hunresolved
  cycles := hcycles
  targets := by
    rw [htargets]
    intro target hmem
    exact ⟨target, hmem, rfl, rfl, List.Subset.refl _, List.Subset.refl _⟩
  entries := by
    rw [horder]
    intro entry hmem
    exact ⟨entry, hmem, rfl, List.Subset.refl _⟩

theorem PlanGrows.refl (plan : BuildPlan) : PlanGrows plan plan :=
  PlanGrows.of_eq rfl rfl (List.prefix_refl _) (List.prefix_refl _) rfl rfl

theorem PlanGrows.trans {first second third : BuildPlan}
    (h : PlanGrows first second) (h' : PlanGrows second third) :
    PlanGrows first third where
  rootTargets := h'.rootTargets.trans h.rootTargets
  edges := h.edges.trans h'.edges
  unresolved := h.unresolved.trans h'.unresolved
  cycles := h.cycles.trans h'.cycles
  targets := by
    intro target hmem
    obtain ⟨kept, hkept, hname, hbase, hroots, hroles⟩ := h.targets target hmem
    obtain ⟨last, hlast, hname', hbase', hroots', hroles'⟩ := h'.targets kept hkept
    exact ⟨last, hlast, hname'.trans hname, hbase'.trans hbase,
      List.Subset.trans hroots hroots', List.Subset.trans hroles hroles'⟩
  entries := by
    intro entry hmem
    obtain ⟨kept, hkept, hbase, hnames⟩ := h.entries entry hmem
    obtain ⟨last, hlast, hbase', hnames'⟩ := h'.entries kept hkept
    exact ⟨last, hlast, hbase'.trans hbase, List.Subset.trans hnames hnames'⟩

theorem PlanGrows.of_lookupFrame {before after : BuildPlan}
    (h : LookupFrame before after) : PlanGrows before after := by
  unfold LookupFrame at h
  rw [h]
  exact PlanGrows.of_eq rfl rfl (List.prefix_refl _) (List.prefix_refl _) rfl rfl

theorem PlanGrows.addUnresolved (plan : BuildPlan) (value : Bytes) :
    PlanGrows plan (addUnresolved plan value) :=
  PlanGrows.of_eq rfl rfl (prefix_addUniqueValue _ _) (List.prefix_refl _) rfl rfl

theorem PlanGrows.addCycle (plan : BuildPlan) (value : Bytes) :
    PlanGrows plan (addCycle plan value) :=
  PlanGrows.of_eq rfl rfl (List.prefix_refl _) (prefix_addUniqueValue _ _) rfl rfl

theorem PlanGrows.addEdges (state : WalkState) (site : DependencySite)
    (edge : BuildPlanDependencyEdge) :
    PlanGrows state.plan (state.addEdges site edge).plan := by
  exact {
    rootTargets := rfl
    edges := List.prefix_append _ _
    unresolved := List.prefix_refl _
    cycles := List.prefix_refl _
    targets := fun target hmem =>
      ⟨target, hmem, rfl, rfl, List.Subset.refl _, List.Subset.refl _⟩
    entries := fun entry hmem => ⟨entry, hmem, rfl, List.Subset.refl _⟩ }

theorem PlanGrows.applyDecision (plan : BuildPlan) (decision : DependencyDecision) :
    PlanGrows plan (applyDecision plan decision) := by
  unfold Resolver.applyDecision
  cases decision.cyclePackageBase with
  | none =>
    cases decision.unresolvedReason with
    | none => exact PlanGrows.refl plan
    | some reason => exact PlanGrows.addUnresolved plan reason
  | some base =>
    cases decision.unresolvedReason with
    | none => exact PlanGrows.addCycle plan base
    | some reason =>
      exact (PlanGrows.addCycle plan base).trans (PlanGrows.addUnresolved _ reason)

/-- A relation observation changes the observations only. -/
theorem addPlannedRelationObservation_ok {after : BuildPlan}
    (h : addPlannedRelationObservation plan observation root = .ok after) :
    after = { plan with
      plannedRelationObservations := after.plannedRelationObservations } := by
  unfold addPlannedRelationObservation at h
  split at h
  · cases h
  · injection h with h
    rw [← h]

theorem PlanGrows.addPlannedRelationObservation {after : BuildPlan}
    (h : addPlannedRelationObservation plan observation root = .ok after) :
    PlanGrows plan after := by
  rw [addPlannedRelationObservation_ok h]
  exact PlanGrows.of_eq rfl rfl (List.prefix_refl _) (List.prefix_refl _) rfl rfl

/-- The plan that `recordPackage` returns, field by field. -/
theorem recordPackage_ok {after : BuildPlan} (h : recordPackage info roles root plan = .ok after) :
    after = { addBuildPlanEntry
        (addPlannedPackageTarget plan info.name info.packageBase roles root)
        info.name info.packageBase with
      metadataRisks := after.metadataRisks
      plannedRelationObservations := after.plannedRelationObservations } := by
  unfold recordPackage at h
  dsimp only at h
  split at h
  · cases h
  · rw [bind_eq_ok] at h
    obtain ⟨observed, hobserved, h⟩ := h
    injection h with h
    rw [← h, addPlannedRelationObservation_ok hobserved]
    unfold addBuildPlanMetadataRisk
    split <;> rfl

theorem PlanGrows.recordPackage {after : BuildPlan}
    (h : recordPackage info roles root plan = .ok after) : PlanGrows plan after := by
  rw [recordPackage_ok h]
  refine {
    rootTargets := rfl
    edges := List.prefix_refl _
    unresolved := List.prefix_refl _
    cycles := List.prefix_refl _
    targets := ?_
    entries := ?_ }
  · intro target hmem
    show ∃ kept ∈ upsert _ _ _ plan.packageTargets, _
    rcases mem_upsert_of_mem hmem with hkept | hkept
    · exact ⟨target, hkept, rfl, rfl, List.Subset.refl _, List.Subset.refl _⟩
    · refine ⟨_, hkept, rfl, rfl, ?_, ?_⟩
      · intro other hother
        exact mem_addRootIdentity.mpr (Or.inl hother)
      · intro other hother
        exact mem_foldl_addPackageRole.mpr (Or.inl hother)
  · intro entry hmem
    show ∃ kept ∈ upsert _ _ _ plan.order, _
    rcases mem_upsert_of_mem hmem with hkept | hkept
    · exact ⟨entry, hkept, rfl, List.Subset.refl _⟩
    · exact ⟨_, hkept, rfl, (prefix_addUniqueValue _ _).subset⟩

theorem PlanGrows.closePackage (info : AurPackageInfo) (state : WalkState) :
    PlanGrows state.plan (closePackage info state).plan := by
  unfold Resolver.closePackage addBuildPlanSplitPackageTarget
  dsimp only
  split
  · exact PlanGrows.refl _
  · exact PlanGrows.of_eq rfl rfl (List.prefix_refl _) (List.prefix_refl _) rfl rfl

/-! ## Where the walk is -/

/-- A record some lookup of the walk returned. -/
def Known (settings : ResolverSettings) (info : AurPackageInfo) : Prop :=
  ∃ authoritative, queryAurPackageInfo settings.env settings.context info.name
    authoritative = .ok (some info)

/-- The package is planned under the root. -/
def Planned (plan : BuildPlan) (root : RootTargetIdentity) (name : Bytes) : Prop :=
  ∃ target ∈ plan.packageTargets,
    target.packageName = name ∧ root ∈ target.roots

/-- The package was asked for, or a planned package leads to it. -/
def Reached (plan : BuildPlan) (root : RootTargetIdentity) (name : Bytes) : Prop :=
  (root ∈ plan.rootTargets ∧ name = root.requestedName) ∨
    ∃ edge ∈ plan.dependencyEdges,
      resolvedAurDependencyName edge = some name ∧
        Planned plan root edge.parentPackageName

/-- What holds at a dependency: its parent is planned and entered, and its
declarations are spellings of the one specification, in dependency roles. -/
structure SiteAt (plan : BuildPlan) (site : DependencySite) : Prop where
  dependency_ne : site.dependency ≠ []
  dependency_trimmed : trim site.dependency = site.dependency
  declared : ∀ declaration ∈ site.declarations,
    trim declaration.specification = site.dependency
  parsed : ∀ declaration ∈ site.declarations, ∀ requirement,
    declaration.requirement = some requirement →
      parseDependencyRequirement declaration.specification = .ok requirement
  roles : ∀ declaration ∈ site.declarations, declaration.role ≠ .root
  parent : Planned plan site.root site.parentPackageName
  entry : ∃ entry ∈ plan.order, entry.packageBase = site.parentPackageBase ∧
    site.parentPackageName ∈ entry.packageNames

/-- Who asks for a package: a root for itself, or a planned package of the
root for a dependency. -/
def AskedBy (plan : BuildPlan) (request : CollectRequest) : Prop :=
  (.root ∈ request.roles ∧ request.packageName = request.root.requestedName ∧
      request.root ∈ plan.rootTargets) ∨
    (.root ∉ request.roles ∧ ∃ parent, Planned plan request.root parent)

/-- What holds when a package is about to be collected. -/
structure RequestAt (settings : ResolverSettings) (plan : BuildPlan)
    (request : CollectRequest) : Prop where
  name_valid : isValidPackageName request.packageName = true
  reached : Reached plan request.root request.packageName
  roles_ne : request.roles ≠ []
  asked : AskedBy plan request
  preloaded : ∀ info, request.preloadedPackageInfo = some info →
    info.name = request.packageName ∧ Known settings info

theorem Planned.grow {before after : BuildPlan} {name : Bytes} (h : Planned before root name)
    (hgrows : PlanGrows before after) : Planned after root name := by
  obtain ⟨target, hmem, hname, hroot⟩ := h
  obtain ⟨kept, hkept, hkeptName, -, hroots, -⟩ := hgrows.targets target hmem
  exact ⟨kept, hkept, hkeptName.trans hname, hroots hroot⟩

theorem SiteAt.grow {before after : BuildPlan} (h : SiteAt before site)
    (hgrows : PlanGrows before after) : SiteAt after site where
  dependency_ne := h.dependency_ne
  dependency_trimmed := h.dependency_trimmed
  declared := h.declared
  parsed := h.parsed
  roles := h.roles
  parent := h.parent.grow hgrows
  entry := by
    obtain ⟨entry, hmem, hbase, hname⟩ := h.entry
    obtain ⟨kept, hkept, hkeptBase, hnames⟩ := hgrows.entries entry hmem
    exact ⟨kept, hkept, hkeptBase.trans hbase, hnames hname⟩

theorem SiteAt.dependency_visible (h : SiteAt plan site) : trim site.dependency ≠ [] := by
  rw [h.dependency_trimmed]
  exact h.dependency_ne

/-- A recorded package is planned under its root and entered under its base. -/
theorem recordPackage_planned {after : BuildPlan}
    (h : recordPackage info roles root plan = .ok after) :
    Planned after root info.name ∧ ∃ entry ∈ after.order, entry.packageBase = info.packageBase ∧
        info.name ∈ entry.packageNames := by
  rw [recordPackage_ok h]
  constructor
  · show ∃ target ∈ upsert _ _ _ plan.packageTargets, _
    rcases exists_mem_upsert plan.packageTargets with hfresh | ⟨target, -, hname, hkept⟩
    · refine ⟨_, hfresh, rfl, ?_⟩
      show root ∈ addRootIdentity [] root
      exact mem_addRootIdentity.mpr (Or.inr rfl)
    · refine ⟨_, hkept, by simpa using hname, ?_⟩
      exact mem_addRootIdentity.mpr (Or.inr rfl)
  · show ∃ entry ∈ upsert _ _ _ plan.order, _
    rcases exists_mem_upsert plan.order with hfresh | ⟨entry, -, hbase, hkept⟩
    · exact ⟨_, hfresh, rfl, List.mem_singleton.mpr rfl⟩
    · refine ⟨_, hkept, by simpa using hbase, ?_⟩
      exact mem_addUniqueValue_of_valid info.name_valid

/-! ## What an edge rests on -/

/-- The site is being resolved by its first declaration, a requirement on a
package. -/
structure Resolving (plan : BuildPlan) (site : DependencySite)
    (first : TypedPackageDependency) (consumer : ConsumerDependencyRequirement) :
    Prop where
  siteAt : SiteAt plan site
  isFirst : site.declarations.head? = some first
  requires : first.requirement = some (.consumer consumer)

/-- The one way past an AUR lookup that failed: without a sink and without a
callback the failure is only warned about. -/
def AurFailureDropped (settings : ResolverSettings) (name : Bytes) : Prop :=
  settings.context.mode = .legacy ∧ settings.selectProvider = none ∧
    ∃ thrown, queryAurPackageInfo settings.env settings.context name false =
      .error thrown ∧ thrown.isOrdinary = true

/-- Both exact lookups are behind the walk. -/
structure LookedUp (settings : ResolverSettings) (name : Bytes) : Prop where
  repository : ∃ order, settings.env.queryRepositoryPackageStrict name =
    .ok (.notFound order)
  aur : queryAurPackageInfo settings.env settings.context name
      settings.selectProvider.isSome = .ok none ∨
    AurFailureDropped settings name

/-- The provider candidates of the requirement, completely read. -/
structure Discovered (settings : ResolverSettings) (site : DependencySite)
    (consumer : ConsumerDependencyRequirement)
    (discovery : ProviderCandidateDiscovery) : Prop where
  lookedUp : LookedUp settings consumer.packageName
  found : ∃ before after, findDependencyProviders settings.env
    consumer.packageName (some site.failureContext) true settings.context.recipes
    before = .ok (discovery, after)
  complete : discovery.isComplete = true

/-- A provider that is planned: a member of the selection, read again when it
comes from the AUR. -/
structure PlannedProvider (settings : ResolverSettings) (site : DependencySite)
    (consumer : ConsumerDependencyRequirement)
    (discovery : ProviderCandidateDiscovery) (resolution : ProviderResolutionKind)
    (provider : ProvidedDependency) : Prop where
  discovered : Discovered settings site consumer discovery
  chosen : ∃ selection selected before after,
    chooseProviders settings site discovery.candidates before =
        .ok (some (selection, resolution), after) ∧
      selected ∈ selection.members ∧
      ((selected.origin ≠ .aur ∧ provider = selected) ∨
        (selected.origin = .aur ∧ sameProviderIdentity selected provider = true ∧
          sameProviderContract selected provider = true))

/-! ## Changes of the state -/

/-- The changes that finish a dependency of the parent, and those between two
stages. -/
inductive Quiet (settings : ResolverSettings) (parent : Bytes) :
    WalkState → WalkState → Prop
  | retained (state : WalkState) (order : Option (List Bytes)) :
      Quiet settings parent state
        (state.withPlan { state.plan with configuredRepositoryOrder := order })
  | locallyAsked (state : WalkState) (context : DependencyContext) :
      Quiet settings parent state
        { state with localRequests := state.localRequests ++ [context] }
  | decided (state : WalkState) (decision : DependencyDecision)
      (hlocal : settings.resolveLocalDependency ≠ none) :
      Quiet settings parent state
        (state.withPlan (applyDecision state.plan decision))
  | requested (state : WalkState) (site : DependencySite)
      (consumer : ConsumerDependencyRequirement)
      (discovery : ProviderCandidateDiscovery)
      (choice : Option (ProviderSelectionSet × ProviderResolutionKind))
      (requests : List ProviderSelectionRequest)
      (hdiscovered : Discovered settings site consumer discovery)
      (hchoice : chooseProviders settings site discovery.candidates state.requests =
        .ok (choice, requests)) :
      Quiet settings parent state { state with requests := requests }
  | conflicted (state : WalkState)
      (conflicts : List RemoteProviderIdentityConflict) :
      Quiet settings parent state { state with identityConflicts := conflicts }
  | unclassified (state : WalkState) (site : DependencySite)
      (first : TypedPackageDependency) (reason : ObservedVersionUnknownReason)
      (hsite : SiteAt state.plan site)
      (hparent : site.parentPackageName = parent) :
      Quiet settings parent state (state.addEdges site
        { site.edge first with constraintEvaluation := some (.unknown reason) })
  | unresolved (state : WalkState) (site : DependencySite)
      (edge : BuildPlanDependencyEdge) (value : Bytes)
      (failures : List BuildPlanResolutionFailure)
      (incomplete : List IncompleteProviderCandidateSet)
      (provided : List BuildPlanProvidedDependency)
      (order : Option (List Bytes)) (hsite : SiteAt state.plan site)
      (hvalue : trim value ≠ []) (hkind : edge.kind = .unknown)
      (hname : edge.parentPackageName = site.parentPackageName)
      (hbase : edge.parentPackageBase = site.parentPackageBase)
      (hparent : site.parentPackageName = parent) :
      Quiet settings parent state ((state.withPlan (addUnresolved
        { state.plan with
          resolutionFailures := failures
          incompleteProviderCandidateSets := incomplete
          provided := provided
          configuredRepositoryOrder := order } value)).addEdges site edge)
  | repository (state : WalkState) (site : DependencySite)
      (first : TypedPackageDependency) (consumer : ConsumerDependencyRequirement)
      (candidate : RepositoryExactPackage) (plan : BuildPlan)
      (hresolving : Resolving state.plan site first consumer)
      (hplan : addPlannedRelationObservation state.plan
        (projectRepositoryPlannedRelationObservation candidate []) site.root =
          .ok plan)
      (hparent : site.parentPackageName = parent) :
      Quiet settings parent state ((state.withPlan plan).addEdges site
        (repositoryEdge settings (site.edge first) consumer candidate))
  | ambiguous (state : WalkState) (site : DependencySite)
      (first : TypedPackageDependency) (consumer : ConsumerDependencyRequirement)
      (discovery : ProviderCandidateDiscovery)
      (hresolving : Resolving state.plan site first consumer)
      (hdiscovered : Discovered settings site consumer discovery)
      (hmany : 1 < discovery.candidates.length)
      (hparent : site.parentPackageName = parent) :
      Quiet settings parent state
        (recordAmbiguous site (site.edge first) discovery.candidates state)
  | installed (state : WalkState) (site : DependencySite)
      (first : TypedPackageDependency) (consumer : ConsumerDependencyRequirement)
      (discovery : ProviderCandidateDiscovery) (package : InstalledExactPackage)
      (hresolving : Resolving state.plan site first consumer)
      (hdiscovered : Discovered settings site consumer discovery)
      (hnone : discovery.candidates = [])
      (hpresent : settings.env.queryInstalledExactPackageStrict
        consumer.packageName = .ok (.present package))
      (hparent : site.parentPackageName = parent) :
      Quiet settings parent state (state.addEdges site
        (installedEdge settings (site.edge first) consumer package))
  | provided (state after : WalkState) (site : DependencySite)
      (first : TypedPackageDependency) (consumer : ConsumerDependencyRequirement)
      (discovery : ProviderCandidateDiscovery) (resolution : ProviderResolutionKind)
      (provider : ProvidedDependency) (evaluation : ConstraintEvaluation)
      (hresolving : Resolving state.plan site first consumer)
      (hplanned : PlannedProvider settings site consumer discovery resolution provider)
      (horigin : provider.origin ≠ .aur)
      (hparent : site.parentPackageName = parent)
      (hrecord : recordProvided site (site.edge first) discovery provider evaluation
        resolution state = .ok after) :
      Quiet settings parent state after

/-- An edge of the parent to an AUR package: the record it leads to and the
request the walk would go on with. -/
inductive Leads (settings : ResolverSettings) (parent : Bytes) :
    WalkState → WalkState → AurPackageInfo → CollectRequest → Prop
  | aur (state : WalkState) (site : DependencySite)
      (first : TypedPackageDependency) (consumer : ConsumerDependencyRequirement)
      (info : AurPackageInfo) (candidate : AurResolvedDependencyCandidate)
      (hresolving : Resolving state.plan site first consumer)
      (hrepository : ∃ order, settings.env.queryRepositoryPackageStrict
        consumer.packageName = .ok (.notFound order))
      (hinfo : queryAurPackageInfo settings.env settings.context
        consumer.packageName settings.selectProvider.isSome = .ok (some info))
      (hcandidate : aurCandidate info = .ok candidate)
      (hparent : site.parentPackageName = parent) :
      Leads settings parent state
        (state.addEdges site (aurEdge settings (site.edge first) consumer candidate))
        info (aurRequest site consumer info)
  | provided (state after : WalkState) (site : DependencySite)
      (first : TypedPackageDependency) (consumer : ConsumerDependencyRequirement)
      (discovery : ProviderCandidateDiscovery) (resolution : ProviderResolutionKind)
      (provider : ProvidedDependency) (evaluation : ConstraintEvaluation)
      (info : AurPackageInfo)
      (hresolving : Resolving state.plan site first consumer)
      (hplanned : PlannedProvider settings site consumer discovery resolution provider)
      (horigin : provider.origin = .aur) (hinfo : Known settings info)
      (hname : provider.packageName = info.name)
      (hbase : provider.packageBase = info.packageBase)
      (hparent : site.parentPackageName = parent)
      (hrecord : recordProvided site (site.edge first) discovery provider evaluation
        resolution state = .ok after) :
      Leads settings parent state after info (providerRequest site provider (some info))

/-- A package the walk does not enter. -/
inductive Stops (request : CollectRequest) : WalkState → WalkState → Prop
  | unresolved (state : WalkState) (value : Bytes) (hvalue : trim value ≠ []) :
      Stops request state (state.withPlan (addUnresolved state.plan value))
  | failed (state : WalkState) (context : Option FailureContext)
      (kind : BuildPlanResolutionFailureKind) (diagnostic : Bytes) :
      Stops request state (state.withPlan (addUnresolved
        (addResolutionFailure context kind request.packageName diagnostic state.plan)
        request.packageName))

theorem recordProvided_ok
    (h : recordProvided site edge discovery provider evaluation resolution state = .ok after) :
    after = (state.withPlan { state.plan with
      plannedRelationObservations := after.plan.plannedRelationObservations
      provided := after.plan.provided }).addEdges site
        (providedEdge edge provider evaluation resolution) := by
  unfold recordProvided at h
  rw [bind_eq_ok] at h
  obtain ⟨plan, hplan, h⟩ := h
  have hobserved : plan = { state.plan with
      plannedRelationObservations := plan.plannedRelationObservations } := by
    unfold observeRepositoryProvider at hplan
    split at hplan
    · exact addPlannedRelationObservation_ok hplan
    · injection hplan with hplan
      rw [← hplan]
  injection h with h
  rw [← h, hobserved]
  unfold addBuildPlanProvidedDependency
  dsimp only
  split <;> rfl

theorem PlanGrows.recordProvided
    (h : recordProvided site edge discovery provider evaluation resolution state =
      .ok after) : PlanGrows state.plan after.plan := by
  rw [recordProvided_ok h]
  refine PlanGrows.trans ?_ (PlanGrows.addEdges _ _ _)
  exact PlanGrows.of_eq rfl rfl (List.prefix_refl _) (List.prefix_refl _) rfl rfl

theorem Quiet.grows (h : Quiet settings parent before after) :
    PlanGrows before.plan after.plan := by
  cases h with
  | retained order =>
    exact PlanGrows.of_eq rfl rfl (List.prefix_refl _) (List.prefix_refl _) rfl rfl
  | locallyAsked context => exact PlanGrows.refl _
  | decided decision => exact PlanGrows.applyDecision _ decision
  | requested => exact PlanGrows.refl _
  | conflicted conflicts => exact PlanGrows.refl _
  | unclassified => exact PlanGrows.addEdges _ _ _
  | unresolved site edge value failures incomplete provided order =>
    refine PlanGrows.trans ?_ (PlanGrows.addEdges _ _ _)
    refine PlanGrows.trans ?_ (PlanGrows.addUnresolved _ value)
    exact PlanGrows.of_eq rfl rfl (List.prefix_refl _) (List.prefix_refl _) rfl rfl
  | repository site first consumer candidate plan hresolving hplan =>
    refine PlanGrows.trans ?_ (PlanGrows.addEdges _ _ _)
    exact PlanGrows.addPlannedRelationObservation hplan
  | ambiguous site first consumer discovery =>
    refine PlanGrows.trans ?_ (PlanGrows.addEdges _ _ _)
    exact PlanGrows.of_eq rfl rfl (List.prefix_refl _) (List.prefix_refl _) rfl rfl
  | installed => exact PlanGrows.addEdges _ _ _
  | provided =>
    rename_i hrecord
    exact PlanGrows.recordProvided hrecord

theorem Leads.grows (h : Leads settings parent before after info request) :
    PlanGrows before.plan after.plan := by
  cases h with
  | aur => exact PlanGrows.addEdges _ _ _
  | provided =>
    exact PlanGrows.recordProvided ‹recordProvided _ _ _ _ _ _ before = .ok after›

theorem Stops.grows (h : Stops request before after) : PlanGrows before.plan after.plan := by
  cases h with
  | unresolved value => exact PlanGrows.addUnresolved _ value
  | failed context kind diagnostic =>
    refine PlanGrows.trans ?_ (PlanGrows.addUnresolved _ _)
    exact PlanGrows.of_lookupFrame (addResolutionFailure_frame _ _ _ _ _)

/-! ## Fields a change leaves alone -/

theorem applyDecision_order_eq (plan : BuildPlan) (decision : DependencyDecision) :
    (applyDecision plan decision).order = plan.order := by
  unfold applyDecision
  cases decision.cyclePackageBase <;> cases decision.unresolvedReason <;> rfl

theorem closePackage_order_eq (info : AurPackageInfo) (state : WalkState) :
    (closePackage info state).plan.order = state.plan.order := by
  unfold closePackage addBuildPlanSplitPackageTarget
  dsimp only
  split <;> rfl

theorem closePackage_edges_eq (info : AurPackageInfo) (state : WalkState) :
    (closePackage info state).plan.dependencyEdges = state.plan.dependencyEdges := by
  unfold closePackage addBuildPlanSplitPackageTarget
  dsimp only
  split <;> rfl

theorem closePackage_targets_eq (info : AurPackageInfo) (state : WalkState) :
    (closePackage info state).plan.packageTargets = state.plan.packageTargets := by
  unfold closePackage addBuildPlanSplitPackageTarget
  dsimp only
  split <;> rfl

theorem closePackage_cycles_eq (info : AurPackageInfo) (state : WalkState) :
    (closePackage info state).plan.cycles = state.plan.cycles := by
  unfold closePackage addBuildPlanSplitPackageTarget
  dsimp only
  split <;> rfl

/-- What only an entered package changes: its targets and entries, and the
two name sets. -/
structure Aside (before after : WalkState) : Prop where
  order : after.plan.order = before.plan.order
  targets : after.plan.packageTargets = before.plan.packageTargets
  splits : after.plan.splitPackageTargets = before.plan.splitPackageTargets
  visited : after.visited = before.visited
  visiting : after.visiting = before.visiting

theorem recordProvided_aside
    (h : recordProvided site edge discovery provider evaluation resolution state =
      .ok after) : Aside state after := by
  have hnames : after.visited = state.visited ∧ after.visiting = state.visiting := by
    unfold recordProvided at h
    rw [bind_eq_ok] at h
    obtain ⟨plan, -, h⟩ := h
    injection h with h
    rw [← h]
    exact ⟨rfl, rfl⟩
  have hplan := congrArg WalkState.plan (recordProvided_ok h)
  exact {
    order := by rw [hplan]; rfl
    targets := by rw [hplan]; rfl
    splits := by rw [hplan]; rfl
    visited := hnames.1
    visiting := hnames.2 }

theorem Quiet.aside (h : Quiet settings parent before after) : Aside before after := by
  cases h with
  | decided decision =>
    refine ⟨applyDecision_order_eq _ _, ?_, ?_, rfl, rfl⟩
    · show (applyDecision before.plan decision).packageTargets = _
      unfold applyDecision
      cases decision.cyclePackageBase <;> cases decision.unresolvedReason <;> rfl
    · show (applyDecision before.plan decision).splitPackageTargets = _
      unfold applyDecision
      cases decision.cyclePackageBase <;> cases decision.unresolvedReason <;> rfl
  | repository site first consumer candidate plan hresolving hplan =>
    have hobserved := addPlannedRelationObservation_ok hplan
    refine ⟨?_, ?_, ?_, rfl, rfl⟩
    · show plan.order = _
      rw [hobserved]
    · show plan.packageTargets = _
      rw [hobserved]
    · show plan.splitPackageTargets = _
      rw [hobserved]
  | provided =>
    exact recordProvided_aside ‹recordProvided _ _ _ _ _ _ before = .ok after›
  | retained | locallyAsked | requested | conflicted | unclassified | unresolved
  | ambiguous | installed => exact ⟨rfl, rfl, rfl, rfl, rfl⟩

theorem Leads.aside (h : Leads settings parent before after info request) : Aside before after := by
  cases h with
  | aur => exact ⟨rfl, rfl, rfl, rfl, rfl⟩
  | provided =>
    exact recordProvided_aside ‹recordProvided _ _ _ _ _ _ before = .ok after›

theorem Stops.aside (h : Stops request before after) : Aside before after := by
  cases h with
  | unresolved value => exact ⟨rfl, rfl, rfl, rfl, rfl⟩
  | failed context kind diagnostic =>
    have hframe := addResolutionFailure_frame context kind request.packageName
      diagnostic before.plan
    unfold LookupFrame at hframe
    refine ⟨?_, ?_, ?_, rfl, rfl⟩
    · show (addResolutionFailure context kind request.packageName diagnostic before.plan).order = _
      rw [hframe]
    · show (addResolutionFailure context kind request.packageName diagnostic
        before.plan).packageTargets = _
      rw [hframe]
    · show (addResolutionFailure context kind request.packageName diagnostic
        before.plan).splitPackageTargets = _
      rw [hframe]

/-! ## Edges a change adds -/

/-- The edges added by a change are edges of the parent, from the base it is
entered under, that lead to the dependency, or to no AUR package. The base of
an exact AUR edge is that of the record. -/
def AddsEdges (parent : Bytes) (dependency base : Option Bytes)
    (before after : BuildPlan) : Prop :=
  ∃ added, after.dependencyEdges = before.dependencyEdges ++ added ∧
    ∀ edge ∈ added, edge.parentPackageName = parent ∧
      resolvedAurDependencyName edge = dependency ∧
      (edge.kind = .aur → base ≠ none ∧ edge.resolvedPackageBase = base) ∧
      ∃ entry ∈ before.order, entry.packageBase = edge.parentPackageBase ∧
        parent ∈ entry.packageNames

theorem AddsEdges.of_eq {before after : BuildPlan}
    (h : after.dependencyEdges = before.dependencyEdges) :
    AddsEdges parent dependency base before after :=
  ⟨[], by rw [h, List.append_nil], by simp⟩

/-- The edges of a site are those of its parent. -/
theorem addsEdges_addEdges {between : WalkState} (hsite : SiteAt before.plan site)
    (hedges : between.plan.dependencyEdges = before.plan.dependencyEdges)
    (hname : edge.parentPackageName = site.parentPackageName)
    (hbase : edge.parentPackageBase = site.parentPackageBase)
    (hdependency : resolvedAurDependencyName edge = dependency)
    (haur : edge.kind = .aur → base ≠ none ∧ edge.resolvedPackageBase = base) :
    AddsEdges site.parentPackageName dependency base before.plan
      (between.addEdges site edge).plan := by
  refine ⟨site.declarations.map fun declaration =>
    { edge with
      dependencySpec := declaration.specification
      role := declaration.role
      requirement := declaration.requirement }, ?_, ?_⟩
  · show between.plan.dependencyEdges ++ _ = _
    rw [hedges]
  · intro other hother
    obtain ⟨declaration, -, rfl⟩ := List.mem_map.mp hother
    obtain ⟨entry, hentry, hentryBase, hentryName⟩ := hsite.entry
    exact ⟨hname, hdependency, haur, entry, hentry, hentryBase.trans hbase.symm, hentryName⟩

theorem Quiet.addsEdges (h : Quiet settings parent before after) :
    AddsEdges parent none none before.plan after.plan := by
  cases h with
  | retained | locallyAsked | requested | conflicted => exact AddsEdges.of_eq rfl
  | decided decision =>
    refine AddsEdges.of_eq ?_
    show (applyDecision before.plan decision).dependencyEdges = _
    unfold applyDecision
    cases decision.cyclePackageBase <;> cases decision.unresolvedReason <;> rfl
  | unclassified site first reason hsite hparent =>
    rw [← hparent]
    exact addsEdges_addEdges hsite rfl rfl rfl rfl nofun
  | unresolved site edge value failures incomplete provided order hsite hvalue hkind
      hname hbase hparent =>
      rw [← hparent]
      refine addsEdges_addEdges hsite rfl hname hbase ?_ (fun haur => by
        rw [hkind] at haur
        cases haur)
      unfold resolvedAurDependencyName
      rw [hkind]
      rfl
  | repository site first consumer candidate plan hresolving hplan hparent =>
    rw [← hparent]
    refine addsEdges_addEdges hresolving.siteAt ?_ rfl rfl rfl nofun
    show plan.dependencyEdges = _
    rw [addPlannedRelationObservation_ok hplan]
  | ambiguous site first consumer discovery hresolving hdiscovered hmany hparent =>
    rw [← hparent]
    exact addsEdges_addEdges hresolving.siteAt rfl rfl rfl rfl nofun
  | installed site first consumer discovery package hresolving hdiscovered hnone hpresent hparent =>
      rw [← hparent]
      exact addsEdges_addEdges hresolving.siteAt rfl rfl rfl rfl nofun
  | provided _ site first consumer discovery resolution provider evaluation hresolving
      hplanned horigin hparent hrecord =>
      rw [← hparent, recordProvided_ok hrecord]
      refine addsEdges_addEdges hresolving.siteAt rfl rfl rfl ?_ nofun
      simp [resolvedAurDependencyName, providedEdge, horigin]

/-- An edge that leads on names the package that is collected next. -/
theorem Leads.addsEdges (h : Leads settings parent before after info request) :
    AddsEdges parent (some request.packageName) (some info.packageBase) before.plan after.plan := by
  cases h with
  | aur site first consumer _ candidate hresolving hrepository hinfo hcandidate hparent =>
    rw [← hparent]
    refine addsEdges_addEdges hresolving.siteAt rfl rfl rfl ?_ (fun _ =>
      ⟨Option.some_ne_none _, congrArg some (aurCandidate_ok hcandidate).2⟩)
    show some candidate.packageName = some consumer.packageName
    rw [(aurCandidate_ok hcandidate).1, (queryAurPackageInfo_some hinfo).1]
  | provided _ site first consumer discovery resolution provider evaluation _
      hresolving hplanned horigin hinfo hname hbase hparent hrecord =>
      rw [← hparent, recordProvided_ok hrecord]
      refine addsEdges_addEdges hresolving.siteAt rfl rfl rfl ?_ nofun
      simp [resolvedAurDependencyName, providedEdge, providerRequest, horigin]

/-! ## Rules for whole walks -/

/-- A package that is entered: what it is and the plan that holds it. -/
structure Enters (settings : ResolverSettings) (request : CollectRequest)
    (before : WalkState) (info : AurPackageInfo) (plan : BuildPlan) : Prop where
  requestAt : RequestAt settings before.plan request
  known : Known settings info
  name : info.name = request.packageName
  preloaded : ∀ other, request.preloadedPackageInfo = some other → other = info
  recorded : recordPackage info request.roles request.root before.plan = .ok plan

/-- Every declaration of the package has its edge. -/
def Declared (info : AurPackageInfo) (plan : BuildPlan) : Prop :=
  ∃ typed, collectTypedBuildDependencies info = .ok typed ∧
    ∀ declaration ∈ typed, ∃ edge ∈ plan.dependencyEdges,
      edge.parentPackageName = info.name ∧
        edge.parentPackageBase = info.packageBase ∧
        edge.dependencySpec = declaration.specification ∧
        edge.role = declaration.role

/-- Induction over a walk: `R` relates the two ends of any part of the walk
over the dependencies of one parent, `C` the two ends of one collected
package. -/
structure WalkRule (settings : ResolverSettings)
    (R : Bytes → WalkState → WalkState → Prop)
    (C : CollectRequest → WalkState → WalkState → Prop) : Prop where
  refl : ∀ parent state, R parent state state
  trans : ∀ {parent first second third}, R parent first second →
    R parent second third → R parent first third
  quiet : ∀ {parent before after}, Quiet settings parent before after →
    R parent before after
  leads : ∀ {parent before between after info request},
    Leads settings parent before between info request →
      RequestAt settings between.plan request → C request between after →
      R parent before after
  turns : ∀ {parent before after info request},
    settings.localPackageBases ≠ [] →
      Leads settings parent before after info request →
      R parent before (after.withPlan (addCycle after.plan info.packageBase))
  untraversed : ∀ {parent before after info request},
    settings.traverseAurProviders = false →
      Leads settings parent before after info request → R parent before after
  stops : ∀ {request before after}, RequestAt settings before.plan request →
    Stops request before after → C request before after
  revisits : ∀ {request before info plan},
    Enters settings request before info plan → info.name ∈ before.visited →
      C request before (before.withPlan plan)
  closes : ∀ {request before info plan},
    Enters settings request before info plan → info.name ∉ before.visited →
      info.name ∈ before.visiting →
      C request before (before.withPlan (addCycle plan info.packageBase))
  walks : ∀ {request before info plan after},
    Enters settings request before info plan → info.name ∉ before.visited →
      info.name ∉ before.visiting →
      R info.name (openPackage info (before.withPlan plan)) after →
      (settings.resolveLocalDependency = none → Declared info after.plan) →
      C request before (closePackage info after)

end Moguet.Plan.Walk
