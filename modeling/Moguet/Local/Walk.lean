import Moguet.Plan.Refresh
import Moguet.Plan.Resolution

/-!
# The walk of a local resolution

What the resolver does when some packages are local: the steps it makes are
few, and each is stated with what the walk knows at it. A call of the local
resolver comes from a planned parent; edges are recorded only for a dependency
the local resolver left; and a package is entered only if it is neither a local
package nor of a local base.

* `LocalStep` — one step;
* `Walks` — a run of them, which every function of the resolver makes.
-/

namespace Moguet.Local.Walk

open Verified.ByteString Verified.Checked Verified.Upsert Plan.Constraint Plan.Metadata Plan.Model
open Plan.Discovery Plan.Dependency Plan.Order Plan.Resolver Plan.Walk Plan.Refresh Plan.Resolution

variable {after state : WalkState} {collect : Collector}

variable {before : WalkState} {name value : Bytes} {plan : BuildPlan}
  {discovery : ProviderCandidateDiscovery} {resolution : ProviderResolutionKind}
  {info : AurPackageInfo} {root : RootTargetIdentity}

/-! ## Parents -/

/-- A package of the remote metadata that is not one of the local ones. -/
structure Remote (settings : ResolverSettings) (name base : Bytes) : Prop where
  known : ∃ info, Known settings info ∧ info.name = name ∧ info.packageBase = base
  name_new : name ∉ settings.localPackageNames
  base_new : base ∉ settings.localPackageBases

/-- The declarations of one text, each read from it. -/
def ReadFromText (declarations : List TypedPackageDependency) (specification : Bytes) :
    Prop :=
  ∀ declaration ∈ declarations, trim declaration.specification = specification ∧
    ∃ requirement, declaration.requirement = some requirement ∧
      parseDependencyRequirement declaration.specification = .ok requirement

/-- Whose dependencies the local resolver is asked about: those a root
declares, and those of remote packages. -/
inductive Parent (settings : ResolverSettings) (roots : List RootPackage)
    (context : DependencyContext) : Prop
  | root (package : RootPackage) (specification : Bytes) (hmem : package ∈ roots)
      (hname : context.parentPackageName = package.packageName)
      (hbase : context.parentPackageBase = package.packageBase)
      (hdeclared : context.declarations =
        typedDependenciesForSpecification package.dependencies specification)
  | remote (specification : Bytes)
      (h : Remote settings context.parentPackageName context.parentPackageBase)
      (hdeclared : ReadFromText context.declarations specification)

/-- The call of the local resolver for a site. -/
def siteContext (site : DependencySite) : DependencyContext :=
  ⟨site.parentPackageName, site.parentPackageBase, site.declarations, site.root⟩

/-- The name is that of a planned target. -/
def Named (plan : BuildPlan) (name : Bytes) : Prop :=
  ∃ target ∈ plan.packageTargets, target.packageName = name

/-- The decisions of a local resolver, and that it leaves no package of a local
name to the remote lookups. -/
structure Decides (settings : ResolverSettings) (roots : List RootPackage)
    (decide : DependencyContext → DependencyDecision) : Prop where
  captures : settings.context = { mode := .captureOrdinaryFailures }
  resolver : settings.resolveLocalDependency = some fun _ context => .ok (decide context)
  keeps : ∀ {context : DependencyContext} {first : TypedPackageDependency}
    {rest : List TypedPackageDependency} {consumer : ConsumerDependencyRequirement},
    Parent settings roots context → context.declarations = first :: rest →
      (decide context).handledLocally = false →
      first.requirement = some (.consumer consumer) →
      consumer.packageName ∉ settings.localPackageNames

/-! ## Steps -/

/-- A change of nothing but the reports, which grow. -/
structure Beside (before after : WalkState) : Prop where
  targets : after.plan.packageTargets = before.plan.packageTargets
  edges : after.plan.dependencyEdges = before.plan.dependencyEdges
  calls : after.localRequests = before.localRequests
  reports : before.plan.unresolved ⊆ after.plan.unresolved

/-- The state after an answer of the local resolver: the plan takes over what
the answer reports if it takes the dependency. -/
def answeredState (decide : DependencyContext → DependencyDecision)
    (context : DependencyContext) (state : WalkState) : WalkState :=
  let asked := { state with localRequests := state.localRequests ++ [context] }
  if (decide context).handledLocally = true then
    asked.withPlan (applyDecision asked.plan (decide context))
  else asked

inductive LocalStep (settings : ResolverSettings) (roots : List RootPackage)
    (decide : DependencyContext → DependencyDecision) : WalkState → WalkState → Prop
  | beside {before after : WalkState} (h : Beside before after) :
      LocalStep settings roots decide before after
  | asked {before : WalkState} (context : DependencyContext)
      (hparent : Parent settings roots context)
      (hnamed : Named before.plan context.parentPackageName) :
      LocalStep settings roots decide before (answeredState decide context before)
  | recorded {before : WalkState} (site : DependencySite) (edge : BuildPlanDependencyEdge)
      (hasked : siteContext site ∈ before.localRequests)
      (hleft : (decide (siteContext site)).handledLocally = false)
      (hkind : edge.kind ≠ .local)
      (hname : edge.parentPackageName = site.parentPackageName)
      (hbase : edge.parentPackageBase = site.parentPackageBase) :
      LocalStep settings roots decide before (before.addEdges site edge)
  | entered {before : WalkState} (name base : Bytes) (roles : List PackageRole)
      (root : RootTargetIdentity) (hremote : Remote settings name base) :
      LocalStep settings roots decide before
        (before.withPlan (addPlannedPackageTarget before.plan name base roles root))
  | rooted {before : WalkState} (package : RootPackage) (root : RootTargetIdentity)
      (hmem : package ∈ roots) :
      LocalStep settings roots decide before
        (before.withPlan (addPlannedPackageTarget before.plan package.packageName
          package.packageBase [.root] root))

/-- A run of the walk. -/
abbrev Walks (settings : ResolverSettings) (roots : List RootPackage)
    (decide : DependencyContext → DependencyDecision) : WalkState → WalkState → Prop :=
  Relation.ReflTransGen (LocalStep settings roots decide)

section Growth

variable {settings : ResolverSettings} {roots : List RootPackage}
  {decide : DependencyContext → DependencyDecision}

/-- An answer changes nothing but the calls and the reports. -/
theorem answeredState_frame (decide : DependencyContext → DependencyDecision)
    (context : DependencyContext) (state : WalkState) :
    (answeredState decide context state).plan.packageTargets = state.plan.packageTargets ∧
      (answeredState decide context state).plan.dependencyEdges = state.plan.dependencyEdges ∧
      (answeredState decide context state).localRequests = state.localRequests ++ [context] := by
  unfold answeredState applyDecision
  dsimp only
  split
  · cases (decide context).cyclePackageBase <;>
      cases (decide context).unresolvedReason <;> exact ⟨rfl, rfl, rfl⟩
  · exact ⟨rfl, rfl, rfl⟩

theorem subset_addUnresolved (plan : BuildPlan) (value : Bytes) :
    plan.unresolved ⊆ (addUnresolved plan value).unresolved :=
  (prefix_addUniqueValue plan.unresolved value).subset

/-- The reports of an answer are added to those of the plan. -/
theorem applyDecision_reports (plan : BuildPlan) (decision : DependencyDecision) :
    plan.unresolved ⊆ (applyDecision plan decision).unresolved := by
  unfold applyDecision
  cases decision.cyclePackageBase with
  | none =>
    cases decision.unresolvedReason with
    | none => exact List.Subset.refl _
    | some reason => exact subset_addUnresolved plan reason
  | some base =>
    cases decision.unresolvedReason with
    | none => exact List.Subset.refl _
    | some reason => exact subset_addUnresolved (addCycle plan base) reason

theorem answeredState_reports (decide : DependencyContext → DependencyDecision)
    (context : DependencyContext) (state : WalkState) :
    state.plan.unresolved ⊆ (answeredState decide context state).plan.unresolved := by
  unfold answeredState
  dsimp only
  split
  · exact applyDecision_reports state.plan (decide context)
  · exact List.Subset.refl _

/-- A planned target keeps its name and base when another is added. -/
theorem addPlannedPackageTarget_keeps {name base : Bytes} {roles : List PackageRole}
    {root : RootTargetIdentity} {target : PlannedPackageTarget} (h : target ∈ plan.packageTargets) :
    ∃ kept ∈ (addPlannedPackageTarget plan name base roles root).packageTargets,
      kept.packageName = target.packageName ∧ kept.packageBase = target.packageBase := by
  show ∃ kept ∈ upsert _ _ _ plan.packageTargets, _
  rcases mem_upsert_of_mem h with hkept | hkept
  · exact ⟨target, hkept, rfl, rfl⟩
  · exact ⟨_, hkept, rfl, rfl⟩

theorem addPlannedPackageTarget_named (plan : BuildPlan) (name base : Bytes)
    (roles : List PackageRole) (root : RootTargetIdentity) :
    Named (addPlannedPackageTarget plan name base roles root) name := by
  show ∃ target ∈ upsert _ _ _ plan.packageTargets, _
  rcases exists_mem_upsert plan.packageTargets with hfresh | ⟨target, -, hname, hkept⟩
  · exact ⟨_, hfresh, rfl⟩
  · exact ⟨_, hkept, by simpa using hname⟩

theorem LocalStep.named (h : LocalStep settings roots decide before after)
    (hnamed : Named before.plan name) : Named after.plan name := by
  obtain ⟨target, hmem, hname⟩ := hnamed
  cases h with
  | beside h =>
    refine ⟨target, ?_, hname⟩
    rw [h.targets]
    exact hmem
  | asked context hparent hplanned =>
    refine ⟨target, ?_, hname⟩
    rw [(answeredState_frame decide context before).1]
    exact hmem
  | recorded => exact ⟨target, hmem, hname⟩
  | entered name base roles root =>
    obtain ⟨kept, hkept, hkeptName, -⟩ := addPlannedPackageTarget_keeps hmem
    exact ⟨kept, hkept, hkeptName.trans hname⟩
  | rooted package root =>
    obtain ⟨kept, hkept, hkeptName, -⟩ := addPlannedPackageTarget_keeps hmem
    exact ⟨kept, hkept, hkeptName.trans hname⟩

theorem LocalStep.calls (h : LocalStep settings roots decide before after) :
    before.localRequests ⊆ after.localRequests := by
  cases h with
  | beside h =>
    rw [h.calls]
    exact List.Subset.refl _
  | asked context hparent hplanned =>
    rw [(answeredState_frame decide context before).2.2]
    exact List.subset_append_left _ _
  | recorded => exact List.Subset.refl _
  | entered => exact List.Subset.refl _
  | rooted => exact List.Subset.refl _

/-- What was reported stays reported. -/
theorem LocalStep.reports (h : LocalStep settings roots decide before after) :
    before.plan.unresolved ⊆ after.plan.unresolved := by
  cases h with
  | beside h => exact h.reports
  | asked context hparent hplanned => exact answeredState_reports decide context before
  | recorded => exact List.Subset.refl _
  | entered => exact List.Subset.refl _
  | rooted => exact List.Subset.refl _

theorem Walks.named (h : Walks settings roots decide before after) (hnamed : Named before.plan name)
    : Named after.plan name := by
  induction h with
  | refl => exact hnamed
  | tail _ hstep ih => exact hstep.named ih

theorem Walks.calls (h : Walks settings roots decide before after) :
    before.localRequests ⊆ after.localRequests := by
  induction h with
  | refl => exact List.Subset.refl _
  | tail _ hstep ih => exact List.Subset.trans ih hstep.calls

end Growth

/-! ## Changes beside the plan -/

theorem Beside.refl (state : WalkState) : Beside state state :=
  ⟨rfl, rfl, rfl, List.Subset.refl _⟩

theorem Beside.trans {first second third : WalkState} (h : Beside first second)
    (h' : Beside second third) : Beside first third :=
  ⟨h'.targets.trans h.targets, h'.edges.trans h.edges, h'.calls.trans h.calls,
    List.Subset.trans h.reports h'.reports⟩

theorem Beside.lookup (h : LookupFrame state.plan plan) : Beside state (state.withPlan plan) := by
  unfold LookupFrame at h
  refine ⟨?_, ?_, rfl, ?_⟩
  · show plan.packageTargets = _
    rw [h]
  · show plan.dependencyEdges = _
    rw [h]
  · show _ ⊆ plan.unresolved
    rw [h]
    exact List.Subset.refl _

theorem Beside.unresolved (h : Beside before after) (value : Bytes) :
    Beside before (after.withPlan (addUnresolved after.plan value)) :=
  ⟨h.targets, h.edges, h.calls, List.Subset.trans h.reports (subset_addUnresolved after.plan value)⟩

theorem Beside.cycle (h : Beside before after) (value : Bytes) :
    Beside before (after.withPlan (addCycle after.plan value)) :=
  ⟨h.targets, h.edges, h.calls, h.reports⟩

theorem Beside.incomplete (h : LookupFrame state.plan plan) (dependency : Bytes)
    (discovery : ProviderCandidateDiscovery) :
    Beside state
      (state.withPlan (addIncompleteProviderCandidateSet plan dependency discovery)) := by
  have hplan := Beside.lookup h
  unfold addIncompleteProviderCandidateSet
  split
  · exact hplan
  · split
    · exact hplan
    · exact ⟨hplan.targets, hplan.edges, rfl, hplan.reports⟩

theorem Beside.retained (state : WalkState) (site : DependencySite)
    (provider : ProvidedDependency) (resolution : ProviderResolutionKind) :
    Beside state (state.withPlan (retainUserSelection site provider resolution state.plan)) := by
  rw [retainUserSelection_frame]
  exact ⟨rfl, rfl, rfl, List.Subset.refl _⟩

/-! ## One dependency -/

section Stages

variable {settings : ResolverSettings} {roots : List RootPackage}
  {decide : DependencyContext → DependencyDecision} {collect : Collector}
  {site : DependencySite} {first : TypedPackageDependency}
  {consumer : ConsumerDependencyRequirement} {state after : WalkState}

/-- The local resolver was asked about the site and left it. -/
structure Left (decide : DependencyContext → DependencyDecision) (site : DependencySite)
    (state : WalkState) : Prop where
  asked : siteContext site ∈ state.localRequests
  left : (decide (siteContext site)).handledLocally = false

/-- What a request carries in a local resolution. -/
def RemoteRequest (settings : ResolverSettings) (request : CollectRequest) : Prop :=
  ∃ info, request.preloadedPackageInfo = some info ∧ Known settings info ∧
    info.name ∉ settings.localPackageNames ∧ info.packageBase ∉ settings.localPackageBases

/-- A collector that makes a run of the walk. -/
def CollectsRemote (settings : ResolverSettings) (roots : List RootPackage)
    (decide : DependencyContext → DependencyDecision) (collect : Collector) : Prop :=
  ∀ {request before after}, RemoteRequest settings request →
    collect request before = .ok after → Walks settings roots decide before after

theorem Left.walks (h : Left decide site before) (hwalks : Walks settings roots decide before after)
    : Left decide site after :=
  ⟨hwalks.calls h.asked, h.left⟩

theorem Left.beside (h : Left decide site before) (hbeside : Beside before after) :
    Left decide site after := by
  constructor
  · rw [hbeside.calls]
    exact h.asked
  · exact h.left

theorem walks_beside (h : Beside before after) : Walks settings roots decide before after :=
  .single (.beside h)

/-- The edges of a site the local resolver left, after a change beside. -/
theorem Left.walks_addEdges {between : WalkState} {edge : BuildPlanDependencyEdge}
    (hleft : Left decide site state) (hbeside : Beside state between)
    (hkind : edge.kind ≠ .local)
    (hname : edge.parentPackageName = site.parentPackageName)
    (hbase : edge.parentPackageBase = site.parentPackageBase) :
    Walks settings roots decide state (between.addEdges site edge) :=
  (walks_beside hbeside).tail
    (.recorded site edge (hleft.beside hbeside).asked hleft.left hkind hname hbase)

theorem resolveInstalled_walks (hleft : Left decide site state)
    (h : resolveInstalled settings site (site.edge first) consumer state = .ok after) :
    Walks settings roots decide state after := by
  unfold resolveInstalled at h
  rw [bind_eq_ok] at h
  obtain ⟨result, -, h⟩ := h
  cases result with
  | present package =>
    injection h with h
    rw [← h]
    exact hleft.walks_addEdges (Beside.refl state) nofun rfl rfl
  | absent name =>
    injection h with h
    rw [← h]
    exact hleft.walks_addEdges ((Beside.refl state).unresolved _) nofun rfl rfl
  | queryFailure name diagnostic =>
    injection h with h
    rw [← h]
    exact hleft.walks_addEdges ((Beside.lookup (addResolutionFailure_frame _ _ _ _ _)).unresolved _)
      nofun rfl rfl

theorem recordProvided_walks (hleft : Left decide site state) {provider : ProvidedDependency}
    {evaluation : ConstraintEvaluation}
    (h : recordProvided site (site.edge first) discovery provider evaluation resolution
      state = .ok after) : Walks settings roots decide state after := by
  rw [recordProvided_ok h]
  exact hleft.walks_addEdges ⟨rfl, rfl, rfl, List.Subset.refl _⟩ nofun rfl rfl

theorem recordIdentityConflict_walks (hleft : Left decide site state)
    (provider : ProvidedDependency) (resolution : ProviderResolutionKind) :
    Walks settings roots decide state
      (recordIdentityConflict settings site (site.edge first) provider resolution state) := by
  refine hleft.walks_addEdges ?_ nofun rfl rfl
  have hretained := Beside.retained
    (state.withPlan (addUnresolved state.plan (localIdentityConflictText site.dependency)))
    site provider resolution
  exact ⟨hretained.targets, hretained.edges, rfl, List.Subset.trans
    (subset_addUnresolved state.plan (localIdentityConflictText site.dependency))
    hretained.reports⟩

theorem planProvider_walks (hcollect : CollectsRemote settings roots decide collect)
    (hleft : Left decide site state) {selected : ProvidedDependency}
    (h : planProvider settings collect site (site.edge first) consumer discovery
      resolution state selected = .ok after) : Walks settings roots decide state after := by
  unfold planProvider at h
  rw [bind_eq_ok] at h
  obtain ⟨⟨refresh, plan⟩, hrefresh, h⟩ := h
  cases refreshSelectedProvider_spec hrefresh with
  | unknown reason _ hframe =>
    injection h with h
    rw [← h]
    refine hleft.walks_addEdges ?_ nofun rfl rfl
    exact ((Beside.lookup hframe).trans (Beside.retained _ site selected resolution)).unresolved
      site.dependency
  | asSelected evaluation horigin =>
    dsimp only at h
    split at h
    · injection h with h
      rw [← h]
      exact recordIdentityConflict_walks hleft _ _
    · rw [bind_eq_ok] at h
      obtain ⟨recorded, hrecorded, h⟩ := h
      rw [if_neg (fun hand => horigin hand.2)] at h
      injection h with h
      rw [← h]
      exact recordProvided_walks hleft hrecorded
  | reread provider evaluation info horigin hprovider hidentity hcontract hknown hname hbase =>
    dsimp only at h
    split at h
    · injection h with h
      rw [← h]
      exact recordIdentityConflict_walks hleft _ _
    · rename_i hnew
      rw [bind_eq_ok] at h
      obtain ⟨recorded, hrecorded, h⟩ := h
      have hwalks : Walks settings roots decide state recorded :=
        recordProvided_walks hleft hrecorded
      split at h
      · split at h
        · injection h with h
          rw [← h]
          exact hwalks.trans (walks_beside ((Beside.refl recorded).cycle _))
        · -- The provider does not return to a local base, so its name is new too.
          rename_i hreturns
          apply hwalks.trans
          apply hcollect _ h
          have hbaseNew : info.packageBase ∉ settings.localPackageBases := by
            rw [← hbase]
            intro hmem
            apply hreturns
            simp [returnsLocalPackageBase, hprovider, hmem]
          have hnameNew : info.name ∉ settings.localPackageNames := by
            rw [← hname]
            intro hmem
            apply hnew
            constructor
            · exact hmem
            · simp [hreturns]
          exact ⟨info, rfl, hknown, hnameNew, hbaseNew⟩
      · injection h with h
        rw [← h]
        exact hwalks

theorem resolveThroughProviders_walks (hcollect : CollectsRemote settings roots decide collect)
    (hleft : Left decide site state)
    (h : resolveThroughProviders settings collect site (site.edge first) consumer state =
      .ok after) : Walks settings roots decide state after := by
  unfold resolveThroughProviders at h
  rw [bind_eq_ok] at h
  obtain ⟨⟨discovery, plan⟩, hfound, h⟩ := h
  have hframe := (findDependencyProviders_spec hfound).frame
  dsimp only at h
  split at h
  · injection h with h
    rw [← h]
    exact hleft.walks_addEdges ((Beside.incomplete hframe _ _).unresolved _) nofun
      rfl rfl
  · simp only [bind_eq_ok] at h
    obtain ⟨-, -, ⟨choice, requests⟩, -, h⟩ := h
    dsimp only at h
    have hfoundState : Beside state { state with plan := plan, requests := requests } := by
      have hplan := Beside.lookup hframe
      exact ⟨hplan.targets, hplan.edges, rfl, hplan.reports⟩
    have hstill := hleft.beside hfoundState
    apply (walks_beside hfoundState).trans
    cases choice with
    | none =>
      dsimp only at h
      split at h
      · injection h with h
        rw [← h]
        exact hstill.walks_addEdges ⟨rfl, rfl, rfl, List.Subset.refl _⟩ nofun rfl rfl
      · exact resolveInstalled_walks hstill h
    | some choice =>
      obtain ⟨selection, resolution⟩ := choice
      dsimp only at h
      -- Every member is planned from a state in which the site is still left.
      refine foldlM_inv (P := fun current => Walks settings roots decide _ current) ?_ .refl h
      intro member _ current next hcurrent hstep
      exact hcurrent.trans (planProvider_walks hcollect (hstill.walks hcurrent) hstep)

theorem planAurDependency_walks (decides : Decides settings roots decide)
    (hcollect : CollectsRemote settings roots decide collect) (hleft : Left decide site state)
    (hparent : Parent settings roots (siteContext site))
    (hfirst : ∃ rest, site.declarations = first :: rest)
    (hrequires : first.requirement = some (.consumer consumer))
    (hquery : queryAurPackageInfo settings.env settings.context consumer.packageName
      settings.selectProvider.isSome = .ok (some info))
    (h : planAurDependency settings collect site (site.edge first) consumer info state =
      .ok after) : Walks settings roots decide state after := by
  unfold planAurDependency at h
  rw [bind_eq_ok] at h
  obtain ⟨candidate, hcandidate, h⟩ := h
  have hwalks : Walks settings roots decide state (state.addEdges site
      (aurEdge settings (site.edge first) consumer candidate)) :=
    hleft.walks_addEdges (Beside.refl state) nofun rfl rfl
  dsimp only at h
  split at h
  · injection h with h
    rw [← h]
    exact hwalks.trans (walks_beside ((Beside.refl _).cycle _))
  · rename_i hnew
    apply hwalks.trans
    apply hcollect _ h
    obtain ⟨hname, -⟩ := queryAurPackageInfo_some hquery
    obtain ⟨rest, hdeclarations⟩ := hfirst
    have hnameNew : info.name ∉ settings.localPackageNames := by
      rw [hname]
      exact decides.keeps hparent hdeclarations hleft.left hrequires
    have hbaseNew : info.packageBase ∉ settings.localPackageBases := by
      rw [← (aurCandidate_ok hcandidate).2]
      exact hnew
    have hknown : Known settings info := by
      refine ⟨settings.selectProvider.isSome, ?_⟩
      rw [hname]
      exact hquery
    exact ⟨info, rfl, hknown, hnameNew, hbaseNew⟩

theorem resolveInAur_walks (decides : Decides settings roots decide)
    (hcollect : CollectsRemote settings roots decide collect)
    (hleft : Left decide site state) (hparent : Parent settings roots (siteContext site))
    (hfirst : ∃ rest, site.declarations = first :: rest)
    (hrequires : first.requirement = some (.consumer consumer))
    (h : resolveInAur settings collect site (site.edge first) consumer state = .ok after) :
    Walks settings roots decide state after := by
  unfold resolveInAur at h
  split at h
  · rename_i hquery
    exact planAurDependency_walks decides hcollect hleft hparent hfirst hrequires hquery h
  · exact resolveThroughProviders_walks hcollect hleft h
  · rename_i thrown _
    split at h
    · cases h
    · split at h
      · cases h
      · dsimp only at h
        have hfailed := Beside.lookup
          (addResolutionFailure_frame (failureSink settings site.failureContext)
            .aurPackageMetadataUnavailable consumer.packageName thrown.what state.plan)
        split at h
        · injection h with h
          rw [← h]
          exact hleft.walks_addEdges (hfailed.unresolved _) nofun rfl rfl
        · exact (walks_beside hfailed).trans
            (resolveThroughProviders_walks hcollect (hleft.beside hfailed) h)

theorem resolveInRepositories_walks (decides : Decides settings roots decide)
    (hcollect : CollectsRemote settings roots decide collect)
    (hleft : Left decide site state) (hparent : Parent settings roots (siteContext site))
    (hfirst : ∃ rest, site.declarations = first :: rest)
    (hrequires : first.requirement = some (.consumer consumer))
    (h : resolveInRepositories settings collect site (site.edge first) consumer state =
      .ok after) : Walks settings roots decide state after := by
  unfold resolveInRepositories at h
  rw [bind_eq_ok] at h
  obtain ⟨⟨status, plan⟩, hstatus, h⟩ := h
  dsimp only at h
  cases queryRepositoryPackage_spec hstatus with
  | unavailable _ hframe =>
    injection h with h
    rw [← h]
    exact hleft.walks_addEdges ((Beside.lookup hframe).unresolved _) nofun rfl rfl
  | present package order =>
    dsimp only at h
    rw [bind_eq_ok] at h
    obtain ⟨observed, hobserved, h⟩ := h
    injection h with h
    rw [← h]
    refine hleft.walks_addEdges ?_ nofun rfl rfl
    rw [addPlannedRelationObservation_ok hobserved]
    exact ⟨rfl, rfl, rfl, List.Subset.refl _⟩
  | notFound order =>
    have hbeside : Beside state (state.withPlan { state.plan with
        configuredRepositoryOrder := order }) := ⟨rfl, rfl, rfl, List.Subset.refl _⟩
    exact (walks_beside hbeside).trans (resolveInAur_walks decides hcollect
      (hleft.beside hbeside) hparent hfirst hrequires h)

theorem resolveRequirement_walks (decides : Decides settings roots decide)
    (hcollect : CollectsRemote settings roots decide collect)
    (hleft : Left decide site state) (hparent : Parent settings roots (siteContext site))
    (hfirst : ∃ rest, site.declarations = first :: rest)
    (h : resolveRequirement settings collect site first state = .ok after) :
    Walks settings roots decide state after := by
  unfold resolveRequirement at h
  dsimp only at h
  split at h
  · rw [bind_eq_ok] at h
    obtain ⟨_, -, h⟩ := h
    injection h with h
    rw [← h]
    exact hleft.walks_addEdges (Beside.refl state) nofun rfl rfl
  · injection h with h
    rw [← h]
    exact hleft.walks_addEdges (Beside.refl state) nofun rfl rfl
  · rename_i hrequires
    exact resolveInRepositories_walks decides hcollect hleft hparent hfirst hrequires h

/-- The local resolver is asked, and either takes the dependency or leaves
it. -/
theorem decideLocally_walks (decides : Decides settings roots decide) {handled : Bool}
    (hparent : Parent settings roots (siteContext site))
    (hnamed : Named state.plan site.parentPackageName)
    (h : decideLocally settings site state = .ok (handled, after)) :
    Walks settings roots decide state after ∧ siteContext site ∈ after.localRequests ∧
      (handled = false → Left decide site after) := by
  unfold decideLocally at h
  rw [decides.resolver] at h
  change (if (decide (siteContext site)).handledLocally = true then _ else _) = _ at h
  have hanswered : after = answeredState decide (siteContext site) state ∧
      handled = (decide (siteContext site)).handledLocally := by
    unfold answeredState
    dsimp only
    split at h
    · rename_i htaken
      injection h with h
      injection h with hhandled h
      rw [if_pos htaken, htaken]
      exact ⟨h.symm, hhandled.symm⟩
    · rename_i hleft
      injection h with h
      injection h with hhandled h
      rw [if_neg hleft, Bool.eq_false_iff.mpr hleft]
      exact ⟨h.symm, hhandled.symm⟩
  have hasked : siteContext site ∈ after.localRequests := by
    rw [hanswered.1, (answeredState_frame decide (siteContext site) state).2.2]
    exact List.mem_append_right _ (List.mem_singleton.mpr rfl)
  refine ⟨?_, hasked, ?_⟩
  · rw [hanswered.1]
    exact .single (.asked (siteContext site) hparent hnamed)
  · intro hfalse
    rw [hanswered.2] at hfalse
    exact ⟨hasked, hfalse⟩

theorem resolveBuildPlanDependency_walks (decides : Decides settings roots decide)
    (hcollect : CollectsRemote settings roots decide collect)
    (hparent : Parent settings roots (siteContext site))
    (hnamed : Named state.plan site.parentPackageName)
    (h : resolveBuildPlanDependency settings collect site state = .ok after) :
    Walks settings roots decide state after ∧ siteContext site ∈ after.localRequests := by
  unfold resolveBuildPlanDependency at h
  split at h
  · cases h
  · rename_i first rest hdeclarations
    rw [bind_eq_ok] at h
    obtain ⟨⟨handled, decided⟩, hdecided, h⟩ := h
    obtain ⟨hwalks, hasked, hleft⟩ := decideLocally_walks decides hparent hnamed hdecided
    dsimp only at h
    split at h
    · injection h with h
      rw [← h]
      exact ⟨hwalks, hasked⟩
    · rename_i hhandled
      have hresolved := resolveRequirement_walks decides hcollect
        (hleft (Bool.eq_false_iff.mpr hhandled)) hparent ⟨rest, hdeclarations⟩ h
      exact ⟨hwalks.trans hresolved, hresolved.calls hasked⟩

end Stages

/-! ## One package -/

section Packages

variable {settings : ResolverSettings} {roots : List RootPackage}
  {decide : DependencyContext → DependencyDecision}

/-- The sites of a fold, each resolved from a state its parent is named in. -/
theorem foldlM_walks (decides : Decides settings roots decide)
    (hcollect : CollectsRemote settings roots decide collect) (site : Bytes → DependencySite)
    (hname : ∀ dependency, (site dependency).parentPackageName = name)
    (hparent : ∀ dependency, Parent settings roots (siteContext (site dependency))) :
    ∀ {dependencies : List Bytes} {state after : WalkState}, Named state.plan name →
      dependencies.foldlM (fun state dependency =>
        resolveBuildPlanDependency settings collect (site dependency) state) state = .ok after →
      Walks settings roots decide state after ∧
        ∀ dependency ∈ dependencies, siteContext (site dependency) ∈ after.localRequests := by
  intro dependencies
  induction dependencies with
  | nil =>
    intro state after _ h
    injection h with h
    rw [← h]
    exact ⟨.refl, List.forall_mem_nil _⟩
  | cons dependency rest ih =>
    intro state after hnamed h
    rw [List.foldlM_cons, bind_eq_ok] at h
    obtain ⟨between, hbetween, h⟩ := h
    rw [← hname dependency] at hnamed
    obtain ⟨hwalks, hasked⟩ := resolveBuildPlanDependency_walks decides hcollect
      (hparent dependency) hnamed hbetween
    rw [hname dependency] at hnamed
    obtain ⟨hlater, hothers⟩ := ih (hwalks.named hnamed) h
    constructor
    · exact hwalks.trans hlater
    · intro other hother
      rcases List.mem_cons.mp hother with rfl | hother
      · exact hlater.calls hasked
      · exact hothers other hother

theorem walkDependencies_walks (decides : Decides settings roots decide)
    (hcollect : CollectsRemote settings roots decide collect)
    (hremote : Remote settings info.name info.packageBase) (hnamed : Named state.plan info.name)
    (h : walkDependencies settings collect info root state = .ok after) :
    Walks settings roots decide state after := by
  unfold walkDependencies at h
  rw [bind_eq_ok] at h
  obtain ⟨typed, htyped, h⟩ := h
  let site (dependency : Bytes) : DependencySite :=
    ⟨info.name, info.packageBase, dependency,
      typedDependenciesForSpecification typed dependency, root⟩
  have hread : ∀ dependency,
      ReadFromText (typedDependenciesForSpecification typed dependency) dependency := by
    intro dependency declaration hdeclaration
    obtain ⟨hmem, htext⟩ := List.mem_filter.mp hdeclaration
    constructor
    · simpa using htext
    · exact collectTypedBuildDependencies_parsed htyped declaration hmem
  exact (foldlM_walks decides hcollect site (fun _ => rfl)
    (fun dependency => .remote dependency hremote (hread dependency)) hnamed h).1

theorem recordPackage_walks {info : AurPackageInfo} {roles : List PackageRole}
    {root : RootTargetIdentity} {state : WalkState} {plan : BuildPlan}
    (hremote : Remote settings info.name info.packageBase)
    (h : recordPackage info roles root state.plan = .ok plan) :
    Walks settings roots decide state (state.withPlan plan) ∧ Named plan info.name := by
  have hplan := recordPackage_ok h
  have hnamed := addPlannedPackageTarget_named state.plan info.name info.packageBase roles root
  constructor
  · refine Relation.ReflTransGen.tail
      (.single (.entered info.name info.packageBase roles root hremote)) (.beside ?_)
    rw [hplan]
    exact ⟨rfl, rfl, rfl, List.Subset.refl _⟩
  · rw [hplan]
    exact hnamed

theorem closePackage_reports (info : AurPackageInfo) (state : WalkState) :
    state.plan.unresolved ⊆ (closePackage info state).plan.unresolved := by
  unfold closePackage addBuildPlanSplitPackageTarget
  dsimp only
  split <;> exact List.Subset.refl _

theorem visitPackage_walks (decides : Decides settings roots decide)
    (hcollect : CollectsRemote settings roots decide collect) {roles : List PackageRole}
    (hremote : Remote settings info.name info.packageBase)
    (h : visitPackage settings collect info roles root state = .ok after) :
    Walks settings roots decide state after := by
  unfold visitPackage at h
  rw [bind_eq_ok] at h
  obtain ⟨plan, hplan, h⟩ := h
  obtain ⟨hwalks, hnamed⟩ := @recordPackage_walks settings roots decide _ _ _ _ _ hremote hplan
  dsimp only at h
  split at h
  · injection h with h
    rw [← h]
    exact hwalks
  · split at h
    · injection h with h
      rw [← h]
      exact hwalks.trans (walks_beside ((Beside.refl _).cycle _))
    · rw [bind_eq_ok] at h
      obtain ⟨walked, hwalked, h⟩ := h
      injection h with h
      rw [← h]
      have hopened : Beside (state.withPlan plan) (openPackage info (state.withPlan plan)) :=
        ⟨rfl, rfl, rfl, List.Subset.refl _⟩
      have hdependencies := walkDependencies_walks decides hcollect hremote hnamed hwalked
      have hclosed : Beside walked (closePackage info walked) :=
        ⟨closePackage_targets_eq _ _, closePackage_edges_eq _ _, rfl,
          closePackage_reports info walked⟩
      exact ((hwalks.trans (walks_beside hopened)).trans hdependencies).trans (walks_beside hclosed)

theorem collectPackage_walks (decides : Decides settings roots decide)
    (hcollect : CollectsRemote settings roots decide collect) :
    CollectsRemote settings roots decide (collectPackage settings collect) := by
  intro request before after hrequest h
  obtain ⟨info, hpreloaded, hknown, hname, hbase⟩ := hrequest
  unfold collectPackage CollectRequest.lookup at h
  rw [hpreloaded] at h
  dsimp only at h
  split at h
  · split at h
    · cases h
    · injection h with h
      rw [← h]
      exact walks_beside ((Beside.lookup (addResolutionFailure_frame _ _ _ _ _)).unresolved _)
  · exact visitPackage_walks decides hcollect ⟨⟨info, hknown, rfl, rfl⟩, hname, hbase⟩ h

theorem collectAurBuildPlan_walks (decides : Decides settings roots decide) :
    ∀ remaining, CollectsRemote settings roots decide (collectAurBuildPlan settings remaining) := by
  intro remaining
  induction remaining with
  | zero =>
    intro request before after _ h
    injection h with h
    rw [← h]
    exact walks_beside ((Beside.refl before).unresolved _)
  | succ remaining ih => exact collectPackage_walks decides ih

/-! ## The roots -/

theorem enterRootPackage_walks {package : RootPackage} (hmem : package ∈ roots)
    (root : RootTargetIdentity) (state : WalkState) :
    Walks settings roots decide state (state.withPlan (enterRootPackage package root state.plan)) ∧
      Named (enterRootPackage package root state.plan) package.packageName := by
  have hplan : (enterRootPackage package root state.plan).packageTargets =
        (addPlannedPackageTarget state.plan package.packageName package.packageBase
          [.root] root).packageTargets ∧
      (enterRootPackage package root state.plan).dependencyEdges = state.plan.dependencyEdges ∧
      (enterRootPackage package root state.plan).unresolved = state.plan.unresolved := by
    unfold enterRootPackage addBuildPlanMetadataRisk addBuildPlanSplitPackageTarget
    dsimp only
    split <;> split <;> exact ⟨rfl, rfl, rfl⟩
  constructor
  · refine Relation.ReflTransGen.tail (.single (.rooted package root hmem)) (.beside ?_)
    refine ⟨hplan.1, hplan.2.1, rfl, ?_⟩
    show state.plan.unresolved ⊆ (enterRootPackage package root state.plan).unresolved
    rw [hplan.2.2]
    exact List.Subset.refl _
  · unfold Named
    rw [hplan.1]
    exact addPlannedPackageTarget_named _ _ _ _ _

/-- The call for a specification of a root. -/
def rootContext (item : RootPackage × Nat) (specification : Bytes) : DependencyContext :=
  ⟨item.1.packageName, item.1.packageBase,
    typedDependenciesForSpecification item.1.dependencies specification,
    ⟨item.2, item.1.packageName⟩⟩

/-- The specifications a root is walked for. -/
def rootSpecifications (package : RootPackage) : List Bytes :=
  (package.dependencies.map (·.specification)).foldl addUniqueValue []

/-- A visible text without blanks around it is kept as it is. -/
theorem mem_addUniqueValue_of_trimmed (values : List Bytes) (htrimmed : trim value = value)
    (hne : value ≠ []) : value ∈ addUniqueValue values value := by
  unfold addUniqueValue
  dsimp only
  rw [htrimmed, if_neg hne]
  exact mem_insertNew.mpr (Or.inr rfl)

theorem mem_foldl_addUniqueValue (htrimmed : trim value = value) (hne : value ≠ []) :
    ∀ {added : List Bytes} (values : List Bytes), value ∈ added →
      value ∈ added.foldl addUniqueValue values := by
  intro added
  induction added with
  | nil => exact fun _ h => absurd h List.not_mem_nil
  | cons first rest ih =>
    intro values h
    rcases List.mem_cons.mp h with rfl | h
    · exact (prefix_foldl_addUniqueValue rest _).subset
        (mem_addUniqueValue_of_trimmed values htrimmed hne)
    · exact ih _ h

/-- A root without dependencies asks nothing. -/
theorem collectRootPackage_walks {item : RootPackage × Nat} (hmem : item.1 ∈ roots)
    (decides : item.1.dependencies ≠ [] → Decides settings roots decide)
    (h : collectRootPackage settings state item = .ok after) :
    Walks settings roots decide state after ∧ Named after.plan item.1.packageName ∧
      ∀ specification ∈ rootSpecifications item.1,
        rootContext item specification ∈ after.localRequests := by
  unfold collectRootPackage at h
  dsimp only at h
  obtain ⟨hwalks, hnamed⟩ := @enterRootPackage_walks settings roots decide item.1 hmem
    ⟨item.2, item.1.packageName⟩ state
  by_cases hnone : item.1.dependencies = []
  · unfold rootSpecifications
    rw [hnone] at h ⊢
    injection h with h
    rw [← h]
    exact ⟨hwalks, hnamed, List.forall_mem_nil _⟩
  · let site (specification : Bytes) : DependencySite :=
      ⟨item.1.packageName, item.1.packageBase, specification,
        typedDependenciesForSpecification item.1.dependencies specification,
        ⟨item.2, item.1.packageName⟩⟩
    obtain ⟨hdependencies, hasked⟩ := foldlM_walks (decides hnone)
      (collectAurBuildPlan_walks (decides hnone) _) site (fun _ => rfl)
      (fun specification => .root item.1 specification hmem rfl rfl rfl) hnamed h
    exact ⟨hwalks.trans hdependencies, hdependencies.named hnamed, hasked⟩

/-- All roots: the collected plan is the end of one run from the empty one,
every root is planned in it, and what a root depends on was asked. -/
theorem collectRootPackages_walks
    (decides : ∀ package ∈ roots, package.dependencies ≠ [] → Decides settings roots decide) :
    ∀ {items : List (RootPackage × Nat)} {before after : WalkState},
      (∀ item ∈ items, item.1 ∈ roots) →
      items.foldlM (collectRootPackage settings) before = .ok after →
        Walks settings roots decide before after ∧
          ∀ item ∈ items, Named after.plan item.1.packageName ∧
            ∀ specification ∈ rootSpecifications item.1,
              rootContext item specification ∈ after.localRequests := by
  intro items
  induction items with
  | nil =>
    intro before after _ h
    injection h with h
    rw [← h]
    exact ⟨.refl, List.forall_mem_nil _⟩
  | cons item rest ih =>
    intro before after hitems h
    rw [List.foldlM_cons, bind_eq_ok] at h
    obtain ⟨between, hbetween, h⟩ := h
    have hmem := hitems item List.mem_cons_self
    obtain ⟨hwalks, hnamed, hasked⟩ :=
      collectRootPackage_walks hmem (decides item.1 hmem) hbetween
    obtain ⟨hlater, hothers⟩ :=
      ih (fun other hother => hitems other (List.mem_cons_of_mem _ hother)) h
    constructor
    · exact hwalks.trans hlater
    · intro other hother
      rcases List.mem_cons.mp hother with rfl | hother
      · refine ⟨hlater.named hnamed, ?_⟩
        intro specification hspecification
        exact hlater.calls (hasked specification hspecification)
      · exact hothers other hother

end Packages

end Moguet.Local.Walk
