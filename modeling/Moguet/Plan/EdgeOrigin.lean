import Moguet.Plan.Interaction

/-!
# Where the edges of a plan come from

Every edge of a plan was recorded at one place of the walk. `EdgeOrigin` says
what the walk had established there, in terms of the environment only, so that
it still holds of the finished plan.
-/

namespace Moguet.Plan.EdgeOrigin

open Verified.ByteString Verified.Checked Constraint Metadata Model Discovery Resolver Walk
open Resolution

variable {site : DependencySite}

variable {settings : ResolverSettings} {edge : BuildPlanDependencyEdge} {plan : BuildPlan}
  {first : TypedPackageDependency} {consumer : ConsumerDependencyRequirement}
  {state after before : WalkState} {parent : Bytes} {env : MetadataEnvironment}
  {targets : List Bytes} {selectProvider : Option ProviderSelectionCallback} {result : PassResult}

/-- What the kind of an edge says about the lookups behind it. -/
structure EdgeOrigin (settings : ResolverSettings) (edge : BuildPlanDependencyEdge) :
    Prop where
  aur : edge.kind = .aur → ∃ info, Known settings info ∧
    edge.resolvedPackageName = some info.name ∧
    edge.resolvedPackageBase = some info.packageBase
  provided : edge.kind = .provided → ∃ site consumer discovery provider,
    parseDependencyRequirement edge.dependencySpec = .ok (.consumer consumer) ∧
      PlannedProvider settings site consumer discovery edge.providerResolution provider ∧
      edge.resolvedProvider = some provider ∧
      (provider.origin = .aur → ∃ info, Known settings info ∧
        provider.packageName = info.name ∧ provider.packageBase = info.packageBase)
  installed : edge.kind = .installed → ∃ site consumer discovery,
    parseDependencyRequirement edge.dependencySpec = .ok (.consumer consumer) ∧
      Discovered settings site consumer discovery ∧ discovery.candidates = []

/-- The kinds that say nothing. -/
theorem EdgeOrigin.of_kind
    (h : edge.kind = .unknown ∨ edge.kind = .repo ∨ edge.kind = .ambiguousProvider) :
    EdgeOrigin settings edge where
  aur := by
    intro hkind
    rcases h with h | h | h <;> · rw [hkind] at h; cases h
  provided := by
    intro hkind
    rcases h with h | h | h <;> · rw [hkind] at h; cases h
  installed := by
    intro hkind
    rcases h with h | h | h <;> · rw [hkind] at h; cases h

theorem EdgeOrigin.of_sameEdge {before after : BuildPlanDependencyEdge}
    (h : EdgeOrigin settings before) (hsame : SameEdge before after) :
    EdgeOrigin settings after := by
  unfold SameEdge at hsame
  rw [hsame]
  exact ⟨h.aur, h.provided, h.installed⟩

/-- A requirement is read from the trimmed text. -/
theorem parseDependencyRequirement_of_trim {first second : Bytes} (h : trim first = trim second) :
    parseDependencyRequirement first = parseDependencyRequirement second := by
  unfold parseDependencyRequirement
  rw [h]

/-- All declarations of a site state the requirement it is resolved for. -/
theorem declared_of_resolving (h : Resolving plan site first consumer) :
    ∀ declaration ∈ site.declarations,
      parseDependencyRequirement declaration.specification = .ok (.consumer consumer) := by
  intro declaration hmem
  have hfirst : first ∈ site.declarations := List.mem_of_head? h.isFirst
  have hparsed := h.siteAt.parsed first hfirst _ h.requires
  rw [← hparsed]
  apply parseDependencyRequirement_of_trim
  rw [h.siteAt.declared declaration hmem, h.siteAt.declared first hfirst]

/-- The edges of a plan have an origin. -/
def Traced (settings : ResolverSettings) (plan : BuildPlan) : Prop :=
  ∀ edge ∈ plan.dependencyEdges, EdgeOrigin settings edge

theorem Traced.of_edges_eq {before after : BuildPlan} (h : Traced settings before)
    (hedges : after.dependencyEdges = before.dependencyEdges) : Traced settings after := by
  unfold Traced
  rw [hedges]
  exact h

/-- Edges are added for each declaration of a site. -/
theorem Traced.addEdges {site : DependencySite} (h : Traced settings state.plan)
    (hedge : ∀ declaration ∈ site.declarations, EdgeOrigin settings
      { edge with
        dependencySpec := declaration.specification
        role := declaration.role
        requirement := declaration.requirement }) :
    Traced settings (state.addEdges site edge).plan := by
  intro other hmem
  rcases List.mem_append.mp hmem with hmem | hmem
  · exact h other hmem
  · obtain ⟨declaration, hdeclaration, rfl⟩ := List.mem_map.mp hmem
    exact hedge declaration hdeclaration

theorem Traced.recordProvided {discovery : ProviderCandidateDiscovery}
    {provider : ProvidedDependency} {evaluation : ConstraintEvaluation}
    {resolution : ProviderResolutionKind} (h : Traced settings state.plan)
    (hresolving : Resolving state.plan site first consumer)
    (hplanned : PlannedProvider settings site consumer discovery resolution provider)
    (haur : provider.origin = .aur → ∃ info, Known settings info ∧
      provider.packageName = info.name ∧ provider.packageBase = info.packageBase)
    (hrecord : Resolver.recordProvided site (site.edge first) discovery provider
      evaluation resolution state = .ok after) : Traced settings after.plan := by
  rw [recordProvided_ok hrecord]
  refine Traced.addEdges (h.of_edges_eq rfl) ?_
  intro declaration hdeclaration
  exact {
    aur := fun hkind => by cases hkind
    provided := fun _ => ⟨site, consumer, discovery, provider,
      declared_of_resolving hresolving declaration hdeclaration, hplanned, rfl, haur⟩
    installed := fun hkind => by cases hkind }

theorem Traced.quiet (h : Traced settings before.plan) (hquiet : Quiet settings parent before after)
    : Traced settings after.plan := by
  cases hquiet with
  | retained | locallyAsked | requested | conflicted => exact h
  | decided decision =>
    refine h.of_edges_eq ?_
    show (applyDecision before.plan decision).dependencyEdges = _
    unfold applyDecision
    cases decision.cyclePackageBase <;> cases decision.unresolvedReason <;> rfl
  | unclassified site first reason hsite =>
    exact h.addEdges fun _ _ => EdgeOrigin.of_kind (Or.inl rfl)
  | unresolved site edge value failures incomplete provided order hsite hvalue hkind =>
    exact Traced.addEdges (h.of_edges_eq rfl) fun _ _ => EdgeOrigin.of_kind (Or.inl hkind)
  | repository site first consumer candidate plan hresolving hplan =>
    refine Traced.addEdges (h.of_edges_eq ?_) fun _ _ => EdgeOrigin.of_kind (Or.inr (Or.inl rfl))
    show plan.dependencyEdges = _
    rw [addPlannedRelationObservation_ok hplan]
  | ambiguous site first consumer discovery =>
    exact Traced.addEdges (h.of_edges_eq rfl) fun _ _ => EdgeOrigin.of_kind (Or.inr (Or.inr rfl))
  | installed site first consumer discovery package hresolving hdiscovered hnone =>
    refine h.addEdges ?_
    intro declaration hdeclaration
    exact {
      aur := fun hkind => by cases hkind
      provided := fun hkind => by cases hkind
      installed := fun _ => ⟨site, consumer, discovery,
        declared_of_resolving hresolving declaration hdeclaration, hdiscovered, hnone⟩ }
  | provided _ site first consumer discovery resolution provider evaluation hresolving
      hplanned horigin hparent hrecord =>
      exact h.recordProvided hresolving hplanned (fun haur => absurd haur horigin) hrecord

theorem Traced.leads {info : AurPackageInfo} {request : CollectRequest}
    (h : Traced settings before.plan) (hleads : Leads settings parent before after info request) :
    Traced settings after.plan := by
  cases hleads with
  | aur site first consumer _ candidate hresolving hrepository hinfo hcandidate =>
    refine h.addEdges ?_
    intro declaration hdeclaration
    obtain ⟨hname, hbase⟩ := aurCandidate_ok hcandidate
    obtain ⟨hfound, -⟩ := queryAurPackageInfo_some hinfo
    exact {
      aur := fun _ => ⟨info, ⟨_, by rw [hfound]; exact hinfo⟩,
        congrArg some hname, congrArg some hbase⟩
      provided := fun hkind => by cases hkind
      installed := fun hkind => by cases hkind }
  | provided _ site first consumer discovery resolution provider evaluation _ hresolving
      hplanned horigin hinfo hname hbase hparent hrecord =>
      exact h.recordProvided hresolving hplanned (fun _ => ⟨info, hinfo, hname, hbase⟩) hrecord

theorem keeps_traced (settings : ResolverSettings) :
    Keeps settings fun state => Traced settings state.plan where
  quiet := fun h hquiet => h.quiet hquiet
  leads := fun h hleads => h.leads hleads
  stops := by
    intro request before after h _ hstops
    cases hstops with
    | unresolved value hvalue => exact h
    | failed context kind diagnostic =>
      refine h.of_edges_eq ?_
      show (addResolutionFailure context kind request.packageName diagnostic
        before.plan).dependencyEdges = _
      rw [addResolutionFailure_frame context kind request.packageName diagnostic before.plan]
  enters := by
    intro request before info plan h henters
    refine h.of_edges_eq ?_
    show plan.dependencyEdges = _
    rw [recordPackage_ok henters.recorded]
    rfl
  cycle := fun h => h
  opened := fun h _ _ => h
  closed := by
    intro state info h
    refine h.of_edges_eq ?_
    unfold closePackage addBuildPlanSplitPackageTarget
    dsimp only
    split <;> rfl

theorem finishBuildPlan_traced {collected : BuildPlan} (hcollected : Traced settings collected)
    (h : finishBuildPlan env collected = .ok plan) : Traced settings plan := by
  obtain ⟨ordered, hordered, hannotated⟩ := finishBuildPlan_spec h
  have hedges : ordered.dependencyEdges = collected.dependencyEdges := by
    rw [orderBuildPlanEntries_frame hordered]
  intro edge hedge
  obtain ⟨origin, horigin, hsame⟩ := forall₂_exists_right hannotated.edges edge hedge
  rw [hedges] at horigin
  exact (hcollected origin horigin).of_sameEdge hsame

theorem collectRoots_traced {walked : WalkState}
    (hvalid : ∀ target ∈ targets, isValidPackageName target = true)
    (h : collectRoots settings targets = .ok walked) : Traced settings walked.plan := by
  refine collectRoots_keeps (keeps_traced settings) ?_ ?_ hvalid h
  · intro edge hmem
    cases hmem
  · intro state root hstate
    exact hstate

theorem resolveBuildPlanOnce_edgeOrigin {context : BuildPlanResolutionContext}
    (h : resolveBuildPlanOnce env targets context selectProvider = .ok result) :
    Traced { env := env, context := context, selectProvider := selectProvider } result.plan := by
  unfold resolveBuildPlanOnce at h
  simp only [bind_eq_ok] at h
  obtain ⟨_, htargets, walked, hwalked, plan, hplan, h⟩ := h
  injection h with h
  rw [← h]
  exact finishBuildPlan_traced (collectRoots_traced (requireTargets_valid htargets) hwalked) hplan

theorem resolveFetchPlanOnce_edgeOrigin
    (h : resolveFetchPlanOnce env targets selectProvider = .ok result) :
    Traced
      { env := env, context := { mode := .legacy }, traverseAurProviders := false,
        selectProvider := selectProvider }
      result.plan := by
  unfold resolveFetchPlanOnce at h
  simp only [bind_eq_ok] at h
  obtain ⟨_, htargets, walked, hwalked, plan, hplan, h⟩ := h
  injection h with h
  rw [← h]
  exact finishBuildPlan_traced
    (collectRoots_traced (requireFetchTargets_valid htargets) hwalked) hplan

end Moguet.Plan.EdgeOrigin
