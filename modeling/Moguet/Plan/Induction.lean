import Moguet.Plan.Records

/-!
# Induction over the build-plan walk

Every stage of the resolver is followed through its branches once, and each
branch is matched with the change of `Walk` it makes. A relation that obeys
`WalkRule` then holds between the two ends of every collected package, and an
invariant that obeys `Keeps` in every state a walk ends in.
-/

namespace Moguet.Plan.Induction

open Verified.ByteString Verified.Checked Constraint Metadata Model Discovery Dependency Readiness
open Resolver Walk Refresh Records

variable {settings : ResolverSettings}

variable {parent : Bytes} {before after state : WalkState} {request : CollectRequest}
  {P : WalkState → Prop} {site : DependencySite} {first : TypedPackageDependency}
  {consumer : ConsumerDependencyRequirement} {discovery : ProviderCandidateDiscovery}
  {info : AurPackageInfo} {resolution : ProviderResolutionKind}
  {asked answered : List ProviderSelectionRequest}

/-! ## The stages of one dependency -/

/-- A part of a walk over the dependencies of one parent: its two ends are
related and nothing was taken back. -/
def Follows (R : Bytes → WalkState → WalkState → Prop) (parent : Bytes)
    (before after : WalkState) : Prop :=
  R parent before after ∧ PlanGrows before.plan after.plan

/-- A collector that keeps to the rule. -/
def Collects (settings : ResolverSettings)
    (C : CollectRequest → WalkState → WalkState → Prop) (collect : Collector) :
    Prop :=
  ∀ request before after, RequestAt settings before.plan request →
    collect request before = .ok after →
      C request before after ∧ PlanGrows before.plan after.plan

section Rule

variable {settings : ResolverSettings} {R : Bytes → WalkState → WalkState → Prop}
  {C : CollectRequest → WalkState → WalkState → Prop}

theorem Follows.trans (rule : WalkRule settings R C) {first second third : WalkState}
    (h : Follows R parent first second) (h' : Follows R parent second third) :
    Follows R parent first third :=
  ⟨rule.trans h.1 h'.1, h.2.trans h'.2⟩

theorem Follows.refl (rule : WalkRule settings R C) (parent : Bytes)
    (state : WalkState) : Follows R parent state state :=
  ⟨rule.refl parent state, PlanGrows.refl _⟩

theorem Follows.of_quiet (rule : WalkRule settings R C) (h : Quiet settings parent before after) :
    Follows R parent before after :=
  ⟨rule.quiet h, h.grows⟩

/-- The changes a plan may take on the way to an unresolved dependency. -/
def UnresolvedFrame (before after : BuildPlan) : Prop :=
  after = { before with
    resolutionFailures := after.resolutionFailures
    incompleteProviderCandidateSets := after.incompleteProviderCandidateSets
    provided := after.provided
    configuredRepositoryOrder := after.configuredRepositoryOrder }

theorem UnresolvedFrame.of_lookupFrame {before after : BuildPlan}
    (h : LookupFrame before after) : UnresolvedFrame before after := by
  unfold LookupFrame at h
  unfold UnresolvedFrame
  rw [h]

theorem Follows.of_unresolved (rule : WalkRule settings R C) {state : WalkState}
    {site : DependencySite} {edge : BuildPlanDependencyEdge} {plan : BuildPlan}
    {value : Bytes} (hsite : SiteAt state.plan site)
    (hframe : UnresolvedFrame state.plan plan) (hvalue : trim value ≠ [])
    (hkind : edge.kind = .unknown)
    (hname : edge.parentPackageName = site.parentPackageName)
    (hbase : edge.parentPackageBase = site.parentPackageBase) :
    Follows R site.parentPackageName state
      ((state.withPlan (addUnresolved plan value)).addEdges site edge) := by
  unfold UnresolvedFrame at hframe
  rw [hframe]
  exact Follows.of_quiet rule
    (Quiet.unresolved state site edge value _ _ _ _ hsite hvalue hkind hname hbase rfl)

theorem resolveInstalled_follows (rule : WalkRule settings R C)
    (hresolving : Resolving state.plan site first consumer)
    (hdiscovered : Discovered settings site consumer discovery) (hnone : discovery.candidates = [])
    (h : resolveInstalled settings site (site.edge first) consumer state =
      .ok after) : Follows R site.parentPackageName state after := by
  unfold resolveInstalled at h
  rw [bind_eq_ok] at h
  obtain ⟨result, hresult, h⟩ := h
  cases result with
  | present package =>
    injection h with h
    rw [← h]
    exact Follows.of_quiet rule (Quiet.installed state site first consumer
      discovery package hresolving hdiscovered hnone hresult rfl)
  | absent name =>
    injection h with h
    rw [← h]
    exact Follows.of_unresolved rule hresolving.siteAt
      (UnresolvedFrame.of_lookupFrame (LookupFrame.refl _))
      hresolving.siteAt.dependency_visible rfl rfl rfl
  | queryFailure name diagnostic =>
    injection h with h
    rw [← h]
    exact Follows.of_unresolved rule hresolving.siteAt
      (UnresolvedFrame.of_lookupFrame (addResolutionFailure_frame _ _ _ _ _))
      hresolving.siteAt.dependency_visible rfl rfl rfl

/-- An edge that leads on, and the walk beyond it. -/
theorem Follows.of_leads (rule : WalkRule settings R C) {collect : Collector}
    (hcollect : Collects settings C collect) {between : WalkState}
    (hleads : Leads settings parent before between info request)
    (hrequest : RequestAt settings between.plan request) (h : collect request between = .ok after) :
    Follows R parent before after := by
  obtain ⟨hc, hgrows⟩ := hcollect request between after hrequest h
  exact ⟨rule.leads hleads hrequest hc, hleads.grows.trans hgrows⟩

theorem Follows.of_turn (rule : WalkRule settings R C) (hlocal : settings.localPackageBases ≠ [])
    (hleads : Leads settings parent before after info request) :
    Follows R parent before (after.withPlan (addCycle after.plan info.packageBase)) :=
  ⟨rule.turns hlocal hleads, hleads.grows.trans (PlanGrows.addCycle _ _)⟩

theorem site_roles_ne (h : site.declarations.head? = some first) : site.roles ≠ [] := by
  have hmem : first.role ∈ site.roles :=
    mem_packageRolesForDependencies.mpr ⟨first, List.mem_of_head? h, rfl⟩
  exact List.ne_nil_of_mem hmem

/-- A dependency is asked for by its parent. -/
theorem site_askedBy {plan : BuildPlan} (h : SiteAt plan site) (hroles : request.roles = site.roles)
    (hroot : request.root = site.root) : AskedBy plan request := by
  refine Or.inr ⟨?_, site.parentPackageName, ?_⟩
  · rw [hroles]
    intro hmem
    obtain ⟨declaration, hdeclaration, hrole⟩ := mem_packageRolesForDependencies.mp hmem
    exact h.roles declaration hdeclaration hrole
  · rw [hroot]
    exact h.parent

/-- The request an AUR edge is followed by. -/
theorem leads_requestAt (h : Leads settings parent before after info request) :
    RequestAt settings after.plan request ∧ info.name = request.packageName := by
  cases h with
  | aur site first consumer _ candidate hresolving hrepository hinfo hcandidate =>
    obtain ⟨hname, -⟩ := queryAurPackageInfo_some hinfo
    have hmem : first ∈ site.declarations :=
      List.mem_of_head? hresolving.isFirst
    have hcandidateName := (aurCandidate_ok hcandidate).1
    refine ⟨⟨?_, ?_, site_roles_ne hresolving.isFirst,
      site_askedBy (hresolving.siteAt.grow (PlanGrows.addEdges _ _ _)) rfl rfl, ?_⟩, hname⟩
    · show isValidPackageName consumer.packageName = true
      rw [← hname]
      exact info.name_valid
    · refine Or.inr ⟨{ aurEdge settings (site.edge first) consumer candidate with
          dependencySpec := first.specification
          role := first.role
          requirement := first.requirement }, ?_, ?_, ?_⟩
      · exact List.mem_append.mpr (Or.inr (List.mem_map.mpr ⟨first, hmem, rfl⟩))
      · show some candidate.packageName = some consumer.packageName
        rw [hcandidateName, hname]
      · exact hresolving.siteAt.parent
    · intro record hrecord
      injection hrecord with hrecord
      rw [← hrecord]
      exact ⟨hname, _, by rw [hname]; exact hinfo⟩
  | provided _ site first consumer discovery resolution provider evaluation _
      hresolving hplanned horigin hinfo hname hbase hparent hrecord =>
      have hmem : first ∈ site.declarations :=
        List.mem_of_head? hresolving.isFirst
      have hafter := recordProvided_ok hrecord
      have hsite := hresolving.siteAt.grow (PlanGrows.recordProvided hrecord)
      refine ⟨⟨?_, ?_, site_roles_ne hresolving.isFirst,
        site_askedBy hsite rfl rfl, ?_⟩, hname.symm⟩
      · show isValidPackageName provider.packageName = true
        rw [hname]
        exact info.name_valid
      · rw [hafter]
        refine Or.inr ⟨{ providedEdge (site.edge first) provider evaluation resolution with
            dependencySpec := first.specification
            role := first.role
            requirement := first.requirement }, ?_, ?_, ?_⟩
        · exact List.mem_append.mpr (Or.inr (List.mem_map.mpr ⟨first, hmem, rfl⟩))
        · simp [resolvedAurDependencyName, providedEdge, providerRequest, horigin]
        · exact hresolving.siteAt.parent
      · intro record hpreloaded
        injection hpreloaded with hpreloaded
        rw [← hpreloaded]
        exact ⟨hname.symm, hinfo⟩

theorem localIdentityConflictText_visible (site : DependencySite) :
    trim (localIdentityConflictText site.dependency) ≠ [] := by
  have hopen : byte '(' ∈ localIdentityConflictText site.dependency :=
    List.mem_append.mpr (Or.inr (by decide))
  exact trim_ne_nil hopen (by decide)

theorem recordIdentityConflict_follows (rule : WalkRule settings R C)
    {provider : ProvidedDependency} (hsite : SiteAt state.plan site) :
    Follows R site.parentPackageName state (recordIdentityConflict settings site
      (site.edge first) provider resolution state) := by
  unfold recordIdentityConflict
  dsimp only
  generalize (if settings.recordIdentityConflicts = true then
    state.identityConflicts ++ [⟨site.parentPackageName, site.dependency, provider⟩]
    else state.identityConflicts) = conflicts
  have hplan : retainUserSelection site provider resolution
      (addUnresolved state.plan (localIdentityConflictText site.dependency)) =
      addUnresolved
        { state.plan with
          provided := (retainUserSelection site provider resolution
            (addUnresolved state.plan (localIdentityConflictText site.dependency))).provided }
        (localIdentityConflictText site.dependency) := by
    rw [retainUserSelection_frame]
    rfl
  rw [hplan]
  refine Follows.trans rule (Follows.of_quiet rule (Quiet.conflicted state conflicts)) ?_
  exact @Follows.of_unresolved settings R C rule
    { state with identityConflicts := conflicts } site
    (unresolvedProviderEdge (site.edge first) provider resolution) _ _ hsite rfl
    (localIdentityConflictText_visible site) rfl rfl rfl

theorem planProvider_follows (rule : WalkRule settings R C) {collect : Collector}
    (hcollect : Collects settings C collect) {selected : ProvidedDependency}
    {selection : ProviderSelectionSet} (hresolving : Resolving state.plan site first consumer)
    (hdiscovered : Discovered settings site consumer discovery)
    (hchoice : chooseProviders settings site discovery.candidates asked =
      .ok (some (selection, resolution), answered)) (hmem : selected ∈ selection.members)
    (h : planProvider settings collect site (site.edge first) consumer discovery
      resolution state selected = .ok after) : Follows R site.parentPackageName state after := by
  unfold planProvider at h
  rw [bind_eq_ok] at h
  obtain ⟨⟨refresh, plan⟩, hrefresh, h⟩ := h
  have hspec := refreshSelectedProvider_spec hrefresh
  cases hspec with
  | unknown reason _ hframe =>
    injection h with h
    rw [← h]
    refine Follows.of_unresolved rule hresolving.siteAt ?_
      hresolving.siteAt.dependency_visible rfl rfl rfl
    unfold LookupFrame at hframe
    unfold UnresolvedFrame
    rw [retainUserSelection_frame, hframe]
  | asSelected evaluation horigin =>
    have hplanned : PlannedProvider settings site consumer discovery resolution
        selected :=
      ⟨hdiscovered, selection, selected, asked, answered, hchoice, hmem, Or.inl ⟨horigin, rfl⟩⟩
    dsimp only at h
    split at h
    · injection h with h
      rw [← h]
      exact recordIdentityConflict_follows rule hresolving.siteAt
    · rw [bind_eq_ok] at h
      obtain ⟨recorded, hrecorded, h⟩ := h
      rw [if_neg (fun hand => horigin hand.2)] at h
      injection h with h
      rw [← h]
      exact Follows.of_quiet rule (Quiet.provided state recorded site first
        consumer discovery resolution selected evaluation hresolving hplanned
        horigin rfl hrecorded)
  | reread provider evaluation info horigin hprovider hidentity hcontract hknown hname hbase =>
      have hplanned : PlannedProvider settings site consumer discovery resolution
          provider :=
        ⟨hdiscovered, selection, selected, asked, answered, hchoice, hmem,
          Or.inr ⟨horigin, hidentity, hcontract⟩⟩
      dsimp only at h
      split at h
      · injection h with h
        rw [← h]
        exact recordIdentityConflict_follows rule hresolving.siteAt
      · rw [bind_eq_ok] at h
        obtain ⟨recorded, hrecorded, h⟩ := h
        have hleads : Leads settings site.parentPackageName state recorded info
            (providerRequest site provider (some info)) :=
          Leads.provided state recorded site first consumer discovery resolution
            provider evaluation info hresolving hplanned hprovider hknown hname
            hbase rfl hrecorded
        split at h
        · split at h
          · rename_i hlocal
            injection h with h
            rw [← h, hbase]
            refine Follows.of_turn rule ?_ hleads
            intro hnone
            simp [returnsLocalPackageBase, hnone] at hlocal
          · exact Follows.of_leads rule hcollect hleads (leads_requestAt hleads).1 h
        · rename_i hstay
          injection h with h
          rw [← h]
          have huntraversed : settings.traverseAurProviders = false := by
            by_contra htraverse
            exact hstay ⟨Or.inl (by simpa using htraverse), hprovider⟩
          exact ⟨rule.untraversed huntraversed hleads, hleads.grows⟩

/-- A choice of no one leaves no candidate or several. -/
theorem chooseProviders_none {candidates : List ProvidedDependency}
    (h : chooseProviders settings site candidates asked = .ok (none, answered)) :
    candidates.length ≠ 1 := by
  unfold chooseProviders at h
  rw [bind_eq_ok] at h
  obtain ⟨⟨selection, requests⟩, -, h⟩ := h
  dsimp only at h
  cases selection with
  | some selection => cases h
  | none =>
    dsimp only at h
    split at h
    · rw [bind_eq_ok] at h
      obtain ⟨selection, -, h⟩ := h
      cases h
    · assumption

theorem resolveThroughProviders_follows (rule : WalkRule settings R C) {collect : Collector}
    (hcollect : Collects settings C collect) (hresolving : Resolving state.plan site first consumer)
    (hlookedUp : LookedUp settings consumer.packageName)
    (h : resolveThroughProviders settings collect site (site.edge first) consumer
      state = .ok after) : Follows R site.parentPackageName state after := by
  unfold resolveThroughProviders at h
  rw [bind_eq_ok] at h
  obtain ⟨⟨discovery, plan⟩, hfound, h⟩ := h
  have hspec := findDependencyProviders_spec hfound
  dsimp only at h
  split at h
  · rename_i hincomplete
    injection h with h
    rw [← h]
    refine Follows.of_unresolved rule hresolving.siteAt ?_
      hresolving.siteAt.dependency_visible rfl rfl rfl
    have hframe := hspec.frame
    unfold LookupFrame at hframe
    dsimp only at hframe
    unfold UnresolvedFrame addIncompleteProviderCandidateSet
    split
    · rw [hframe]
    · split
      · rw [hframe]
      · rw [hframe]
  · rename_i hcomplete
    have hcomplete : discovery.isComplete = true := by simpa using hcomplete
    have hdiscovered : Discovered settings site consumer discovery :=
      ⟨hlookedUp, ⟨state.plan, plan, hfound⟩, hcomplete⟩
    simp only [bind_eq_ok] at h
    obtain ⟨-, -, ⟨choice, requests⟩, hchoice, h⟩ := h
    dsimp only at h
    -- The plan after a complete discovery differs in the retained order only.
    have hplan : plan = { state.plan with
        configuredRepositoryOrder := plan.configuredRepositoryOrder } := by
      have hframe := hspec.frame
      unfold LookupFrame at hframe
      dsimp only at hframe
      have hfailures := hspec.failures hcomplete
      dsimp only at hfailures
      rw [hframe]
      simp only [hfailures]
    have hretained : Follows R site.parentPackageName state (state.withPlan plan) := by
      rw [hplan]
      exact Follows.of_quiet rule (Quiet.retained state _)
    have hasked : Follows R site.parentPackageName (state.withPlan plan)
        { state with plan := plan, requests := requests } :=
      Follows.of_quiet rule (Quiet.requested (state.withPlan plan) site consumer
        discovery choice requests hdiscovered hchoice)
    have hready := Follows.trans rule hretained hasked
    have hresolving' : Resolving plan site first consumer :=
      ⟨hresolving.siteAt.grow hretained.2, hresolving.isFirst, hresolving.requires⟩
    refine Follows.trans rule hready ?_
    cases choice with
    | none =>
      dsimp only at h
      have hlength := chooseProviders_none hchoice
      split at h
      · rename_i hmany
        injection h with h
        rw [← h]
        exact Follows.of_quiet rule (Quiet.ambiguous
          { state with plan := plan, requests := requests } site first consumer
          discovery hresolving' hdiscovered hmany rfl)
      · rename_i hfew
        have hnone : discovery.candidates = [] := by
          rw [← List.length_eq_zero_iff]
          omega
        exact resolveInstalled_follows rule hresolving' hdiscovered hnone h
    | some choice =>
      obtain ⟨selection, resolution⟩ := choice
      dsimp only at h
      have hrun := foldlM_inv (P := fun current => Follows R site.parentPackageName
          { state with plan := plan, requests := requests } current)
        (fun selected hmember current next hcurrent hstep => by
          refine Follows.trans rule hcurrent ?_
          exact planProvider_follows rule hcollect
            ⟨hresolving'.siteAt.grow hcurrent.2, hresolving'.isFirst, hresolving'.requires⟩
            hdiscovered hchoice hmember hstep)
        (Follows.refl rule _ _) h
      exact hrun

/-! ## The stages before it -/

theorem planAurDependency_follows (rule : WalkRule settings R C) {collect : Collector}
    (hcollect : Collects settings C collect) (hresolving : Resolving state.plan site first consumer)
    (hrepository : ∃ order, settings.env.queryRepositoryPackageStrict
      consumer.packageName = .ok (.notFound order))
    (hinfo : queryAurPackageInfo settings.env settings.context consumer.packageName
      settings.selectProvider.isSome = .ok (some info))
    (h : planAurDependency settings collect site (site.edge first) consumer info
      state = .ok after) : Follows R site.parentPackageName state after := by
  unfold planAurDependency at h
  rw [bind_eq_ok] at h
  obtain ⟨candidate, hcandidate, h⟩ := h
  have hleads : Leads settings site.parentPackageName state
      (state.addEdges site (aurEdge settings (site.edge first) consumer candidate))
      info (aurRequest site consumer info) :=
    Leads.aur state site first consumer info candidate hresolving hrepository hinfo hcandidate rfl
  have hbase : candidate.packageBase = info.packageBase :=
    (aurCandidate_ok hcandidate).2
  dsimp only at h
  split at h
  · rename_i hlocal
    injection h with h
    rw [← h, hbase]
    exact Follows.of_turn rule (List.ne_nil_of_mem hlocal) hleads
  · exact Follows.of_leads rule hcollect hleads (leads_requestAt hleads).1 h

theorem resolveInAur_follows (rule : WalkRule settings R C) {collect : Collector}
    (hcollect : Collects settings C collect) (hresolving : Resolving state.plan site first consumer)
    (hrepository : ∃ order, settings.env.queryRepositoryPackageStrict
      consumer.packageName = .ok (.notFound order))
    (h : resolveInAur settings collect site (site.edge first) consumer state =
      .ok after) : Follows R site.parentPackageName state after := by
  unfold resolveInAur at h
  split at h
  · rename_i info hinfo
    exact planAurDependency_follows rule hcollect hresolving hrepository hinfo h
  · rename_i habsent
    exact resolveThroughProviders_follows rule hcollect hresolving ⟨hrepository, Or.inl habsent⟩ h
  · rename_i thrown hthrown
    split at h
    · cases h
    · rename_i hordinary
      split at h
      · cases h
      · rename_i hquiet
        dsimp only at h
        split at h
        · injection h with h
          rw [← h]
          exact Follows.of_unresolved rule hresolving.siteAt
            (UnresolvedFrame.of_lookupFrame (addResolutionFailure_frame _ _ _ _ _))
            hresolving.siteAt.dependency_visible rfl rfl rfl
        · rename_i hsink
          have hlegacy : settings.context.mode = .legacy := by
            cases hmode : settings.context.mode with
            | legacy => rfl
            | captureOrdinaryFailures => simp [failureSink, hmode] at hsink
          have hcallback : settings.selectProvider = none := by
            cases hselect : settings.selectProvider with
            | none => rfl
            | some select => simp [hlegacy, hselect] at hquiet
          have hsinkNone : failureSink settings site.failureContext = none := by
            simp [failureSink, hlegacy]
          rw [hsinkNone] at h
          rw [hcallback] at hthrown
          exact resolveThroughProviders_follows rule hcollect hresolving
            ⟨hrepository, Or.inr ⟨hlegacy, hcallback, thrown, hthrown, by simpa using hordinary⟩⟩ h

theorem resolveInRepositories_follows (rule : WalkRule settings R C) {collect : Collector}
    (hcollect : Collects settings C collect) (hresolving : Resolving state.plan site first consumer)
    (h : resolveInRepositories settings collect site (site.edge first) consumer
      state = .ok after) : Follows R site.parentPackageName state after := by
  unfold resolveInRepositories at h
  rw [bind_eq_ok] at h
  obtain ⟨⟨status, plan⟩, hstatus, h⟩ := h
  dsimp only at h
  cases queryRepositoryPackage_spec hstatus with
  | unavailable _ hframe =>
    injection h with h
    rw [← h]
    exact Follows.of_unresolved rule hresolving.siteAt
      (UnresolvedFrame.of_lookupFrame hframe) hresolving.siteAt.dependency_visible
      rfl rfl rfl
  | present package order =>
    dsimp only at h
    rw [bind_eq_ok] at h
    obtain ⟨observed, hobserved, h⟩ := h
    injection h with h
    have hretained : Follows R site.parentPackageName state (state.withPlan
        { state.plan with configuredRepositoryOrder := order }) :=
      Follows.of_quiet rule (Quiet.retained state order)
    rw [← h]
    refine Follows.trans rule hretained ?_
    exact Follows.of_quiet rule (Quiet.repository _ site first consumer _ observed
      ⟨hresolving.siteAt.grow hretained.2, hresolving.isFirst, hresolving.requires⟩ hobserved rfl)
  | notFound order habsent =>
    have hretained : Follows R site.parentPackageName state (state.withPlan
        { state.plan with configuredRepositoryOrder := order }) :=
      Follows.of_quiet rule (Quiet.retained state order)
    refine Follows.trans rule hretained ?_
    exact resolveInAur_follows rule hcollect
      ⟨hresolving.siteAt.grow hretained.2, hresolving.isFirst, hresolving.requires⟩ habsent h

/-- A declaration without a requirement cannot be planned: its edge fails the
construction check. -/
theorem unconstrained_not_constructible (hfirst : site.declarations.head? = some first)
    (hnone : first.requirement = none) (evaluation : ConstraintEvaluation) :
    requireConstructibleBuildPlanConstraints (state.addEdges site { site.edge first with
        constraintEvaluation := some evaluation }).plan ≠ .ok () := by
  intro h
  unfold requireConstructibleBuildPlanConstraints at h
  split at h
  · rename_i hissue
    rw [constraintAuthorityIssue_eq_none_iff] at hissue
    have hmem : first ∈ site.declarations := List.mem_of_head? hfirst
    have hedge := hissue { site.edge first with
        constraintEvaluation := some evaluation
        dependencySpec := first.specification
        role := first.role
        requirement := first.requirement }
      (List.mem_append.mpr (Or.inr (List.mem_map.mpr ⟨first, hmem, rfl⟩)))
    simp [edgeAuthorityIssue, hnone] at hedge
  · cases h

theorem resolveRequirement_follows (rule : WalkRule settings R C) {collect : Collector}
    (hcollect : Collects settings C collect) (hsite : SiteAt state.plan site)
    (hfirst : site.declarations.head? = some first)
    (h : resolveRequirement settings collect site first state = .ok after) :
    Follows R site.parentPackageName state after := by
  unfold resolveRequirement at h
  dsimp only at h
  split at h
  · rename_i hnone
    rw [bind_eq_ok] at h
    obtain ⟨_, hconstructible, _⟩ := h
    exact absurd hconstructible (unconstrained_not_constructible hfirst hnone _)
  · injection h with h
    rw [← h]
    exact Follows.of_quiet rule (Quiet.unclassified state site first _ hsite rfl)
  · rename_i consumer hconsumer
    exact resolveInRepositories_follows rule hcollect ⟨hsite, hfirst, hconsumer⟩ h

theorem decideLocally_follows (rule : WalkRule settings R C) {handled : Bool}
    (h : decideLocally settings site state = .ok (handled, after)) :
    Follows R site.parentPackageName state after := by
  unfold decideLocally at h
  split at h
  · injection h with h
    injection h with _ h
    rw [← h]
    exact Follows.refl rule _ state
  · rename_i resolve hresolve
    have hlocal : settings.resolveLocalDependency ≠ none := by
      rw [hresolve]
      exact Option.some_ne_none resolve
    rw [bind_eq_ok] at h
    obtain ⟨decision, -, h⟩ := h
    dsimp only at h
    let context : DependencyContext :=
      ⟨site.parentPackageName, site.parentPackageBase, site.declarations, site.root⟩
    have hasked : Follows R site.parentPackageName state
        { state with localRequests := state.localRequests ++ [context] } :=
      Follows.of_quiet rule (Quiet.locallyAsked state context)
    split at h
    · injection h with h
      injection h with _ h
      rw [← h]
      exact Follows.trans rule hasked (Follows.of_quiet rule (Quiet.decided _ decision hlocal))
    · injection h with h
      injection h with _ h
      rw [← h]
      exact hasked

theorem resolveBuildPlanDependency_follows (rule : WalkRule settings R C) {collect : Collector}
    (hcollect : Collects settings C collect) (hsite : SiteAt state.plan site)
    (h : resolveBuildPlanDependency settings collect site state = .ok after) :
    Follows R site.parentPackageName state after := by
  unfold resolveBuildPlanDependency at h
  split at h
  · cases h
  · rename_i first rest hdeclarations
    rw [bind_eq_ok] at h
    obtain ⟨⟨handled, decided⟩, hdecided, h⟩ := h
    have hdecision := decideLocally_follows rule hdecided
    dsimp only at h
    split at h
    · injection h with h
      rw [← h]
      exact hdecision
    · refine Follows.trans rule hdecision ?_
      refine resolveRequirement_follows rule hcollect (hsite.grow hdecision.2) ?_ h
      rw [hdeclarations]
      rfl

/-! ## Packages -/

theorem walkDependencies_follows (rule : WalkRule settings R C) {collect : Collector}
    (hcollect : Collects settings C collect) {root : RootTargetIdentity}
    (hplanned : Planned state.plan root info.name)
    (hentry : ∃ entry ∈ state.plan.order, entry.packageBase = info.packageBase ∧
      info.name ∈ entry.packageNames)
    (h : walkDependencies settings collect info root state = .ok after) :
    Follows R info.name state after := by
  unfold walkDependencies at h
  rw [bind_eq_ok] at h
  obtain ⟨typed, htyped, h⟩ := h
  have hparsed := collectTypedBuildDependencies_parsed htyped
  refine foldlM_inv ?_ (Follows.refl rule _ state) h
  intro dependency hmem current next hcurrent hstep
  refine Follows.trans rule hcurrent ?_
  refine resolveBuildPlanDependency_follows rule hcollect ?_ hstep
  obtain ⟨hne, htrimmed⟩ := collectBuildDependencies_trimmed dependency hmem
  refine SiteAt.grow ?_ hcurrent.2
  refine {
    dependency_ne := hne
    dependency_trimmed := htrimmed
    declared := ?_
    parsed := ?_
    roles := ?_
    parent := hplanned
    entry := hentry }
  · intro declaration hdeclaration
    simpa using (List.mem_filter.mp hdeclaration).2
  · intro declaration hdeclaration requirement hrequirement
    obtain ⟨own, hown, hparse⟩ :=
      hparsed declaration (List.mem_filter.mp hdeclaration).1
    rw [hrequirement] at hown
    injection hown with hown
    rw [hown]
    exact hparse
  · intro declaration hdeclaration
    obtain ⟨requirement, -, -, hsource⟩ := collectTypedBuildDependencies_source htyped
      declaration (List.mem_filter.mp hdeclaration).1
    exact declaredDependencies_role_ne _ hsource

theorem visitPackage_collects (rule : WalkRule settings R C) {collect : Collector}
    (hcollect : Collects settings C collect) (hextends : ExtendsAll collect)
    (hrequest : RequestAt settings before.plan request) (hknown : Known settings info)
    (hname : info.name = request.packageName)
    (hpreloaded : ∀ other, request.preloadedPackageInfo = some other → other = info)
    (h : visitPackage settings collect info request.roles request.root before =
      .ok after) : C request before after ∧ PlanGrows before.plan after.plan := by
  unfold visitPackage at h
  rw [bind_eq_ok] at h
  obtain ⟨plan, hplan, h⟩ := h
  have henters : Enters settings request before info plan :=
    ⟨hrequest, hknown, hname, hpreloaded, hplan⟩
  have hgrows := PlanGrows.recordPackage hplan
  dsimp only at h
  split at h
  · rename_i hvisited
    injection h with h
    rw [← h]
    exact ⟨rule.revisits henters hvisited, hgrows⟩
  · rename_i hvisited
    split at h
    · rename_i hvisiting
      injection h with h
      rw [← h]
      exact ⟨rule.closes henters hvisited hvisiting, hgrows.trans (PlanGrows.addCycle _ _)⟩
    · rename_i hvisiting
      rw [bind_eq_ok] at h
      obtain ⟨walked, hwalked, h⟩ := h
      injection h with h
      obtain ⟨hplanned, hentry⟩ := recordPackage_planned hplan
      have hfollows : Follows R info.name (openPackage info (before.withPlan plan)) walked :=
        walkDependencies_follows rule hcollect hplanned hentry hwalked
      rw [← h]
      have hdeclared := (walkDependencies_declared hextends hwalked).2
      exact ⟨rule.walks henters hvisited hvisiting hfollows.1 hdeclared,
        hgrows.trans (hfollows.2.trans (PlanGrows.closePackage info walked))⟩

theorem collectPackage_collects (rule : WalkRule settings R C) {collect : Collector}
    (hcollect : Collects settings C collect) (hextends : ExtendsAll collect) :
    Collects settings C (collectPackage settings collect) := by
  intro request before after hrequest h
  have hvisible : trim request.packageName ≠ [] := by
    rw [trim_of_isValidPackageName hrequest.name_valid]
    exact isValidPackageName_ne_nil hrequest.name_valid
  have hstops : ∀ {after}, Stops request before after →
      C request before after ∧ PlanGrows before.plan after.plan :=
    fun hstop => ⟨rule.stops hrequest hstop, hstop.grows⟩
  unfold collectPackage at h
  dsimp only at h
  split at h
  · split at h
    · cases h
    · split at h
      · cases h
      · injection h with h
        rw [← h]
        exact hstops (Stops.failed before _ _ _)
  · injection h with h
    rw [← h]
    exact hstops (Stops.unresolved before _ hvisible)
  · rename_i info hinfo
    split at h
    · split at h
      · cases h
      · injection h with h
        rw [← h]
        exact hstops (Stops.failed before _ _ _)
    · have hpreloaded : ∀ other, request.preloadedPackageInfo = some other → other = info := by
        intro other hother
        unfold CollectRequest.lookup at hinfo
        rw [hother] at hinfo
        injection hinfo with hinfo
        injection hinfo
      have hrecord : info.name = request.packageName ∧ Known settings info := by
        unfold CollectRequest.lookup at hinfo
        split at hinfo
        · rename_i preloaded hpreloaded
          injection hinfo with hinfo
          injection hinfo with hinfo
          rw [← hinfo]
          exact hrequest.preloaded preloaded hpreloaded
        · have hname := (queryAurPackageInfo_some hinfo).1
          exact ⟨hname, _, by rw [hname]; exact hinfo⟩
      exact visitPackage_collects rule hcollect hextends hrequest hrecord.2 hrecord.1 hpreloaded h

end Rule

theorem maxDepthReached_visible (packageName : Bytes) :
    trim (maxDepthReached packageName) ≠ [] := by
  have hopen : byte '(' ∈ maxDepthReached packageName :=
    List.mem_append.mpr (Or.inr (by decide))
  exact trim_ne_nil hopen (by decide)

end Moguet.Plan.Induction

namespace Moguet.Plan.Walk

open Verified.ByteString Metadata Model Resolver Records Induction

/-- What obeys the rule holds of every collected package. -/
theorem WalkRule.collect {R : Bytes → WalkState → WalkState → Prop}
    {C : CollectRequest → WalkState → WalkState → Prop} (rule : WalkRule settings R C) :
    ∀ remaining, Collects settings C (collectAurBuildPlan settings remaining) := by
  intro remaining
  induction remaining with
  | zero =>
    intro request before after hrequest h
    injection h with h
    rw [← h]
    have hstop : Stops request before _ :=
      Stops.unresolved before _ (maxDepthReached_visible request.packageName)
    exact ⟨rule.stops hrequest hstop, hstop.grows⟩
  | succ remaining ih =>
    exact collectPackage_collects rule ih (collectAurBuildPlan_extends settings remaining)

/-- An invariant of the states of a walk: every single change keeps it. -/
structure Keeps (settings : ResolverSettings) (P : WalkState → Prop) : Prop where
  quiet : ∀ {parent before after}, P before →
    Quiet settings parent before after → P after
  leads : ∀ {parent before after info request}, P before →
    Leads settings parent before after info request → P after
  stops : ∀ {request before after}, P before →
    RequestAt settings before.plan request → Stops request before after → P after
  enters : ∀ {request before info plan}, P before →
    Enters settings request before info plan → P (before.withPlan plan)
  cycle : ∀ {state} {info : AurPackageInfo}, P state →
    P (state.withPlan (addCycle state.plan info.packageBase))
  opened : ∀ {state} {info : AurPackageInfo}, P state →
    info.name ∉ state.visited → info.name ∉ state.visiting →
    P (openPackage info state)
  closed : ∀ {state} {info : AurPackageInfo}, P state → P (closePackage info state)

theorem Keeps.rule (keeps : Keeps settings P) :
    WalkRule settings (fun _ before after => P before → P after)
      (fun _ before after => P before → P after) where
  refl := fun _ _ h => h
  trans := fun first second h => second (first h)
  quiet := fun hquiet h => keeps.quiet h hquiet
  leads := fun hleads _ hcollected h => hcollected (keeps.leads h hleads)
  turns := fun _ hleads h => keeps.cycle (keeps.leads h hleads)
  untraversed := fun _ hleads h => keeps.leads h hleads
  stops := fun hrequest hstops h => keeps.stops h hrequest hstops
  revisits := fun henters _ h => keeps.enters h henters
  closes := fun henters _ _ h => keeps.cycle (keeps.enters h henters)
  walks := fun henters hvisited hvisiting hwalked _ h =>
    keeps.closed (hwalked (keeps.opened (keeps.enters h henters) hvisited hvisiting))

theorem Keeps.collect (keeps : Keeps settings P) {remaining : Nat}
    (hrequest : RequestAt settings before.plan request) (hbefore : P before)
    (h : collectAurBuildPlan settings remaining request before = .ok after) : P after :=
  (keeps.rule.collect remaining request before after hrequest h).1 hbefore

end Moguet.Plan.Walk
