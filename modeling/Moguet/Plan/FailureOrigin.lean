import Moguet.Plan.Resolution

/-!
# Where a recorded failure belongs

A failure names the parent whose dependency could not be resolved, with the
base the parent was walked under. The parent is a target of the plan and has
that very base: a package is walked when it is met for the first time, by the
record that made it a target, and never again.

Like `Records`, the stages of the resolver are followed through their branches
once.
-/

namespace Moguet.Plan.FailureOrigin

open Verified.ByteString Verified.Checked Verified.Upsert Constraint Metadata Model Discovery
open Dependency Resolver Walk Refresh Resolution

variable {before after first plan : BuildPlan} {base name : Option Bytes}
  {info : Option AurPackageInfo} {settings : ResolverSettings}

variable {second third : BuildPlan} {dependencyName : Bytes} {recipes : Option AurRecipeMetadataSet}
  {targets : List Bytes} {walked : WalkState} {found : DiscoveryState}
  {selected : ProvidedDependency} {discovery : ProviderCandidateDiscovery}
  {resolution : ProviderResolutionKind}

/-! ## Parents -/

/-- The plan has a target of the name and of the base. -/
def OwnedBy (plan : BuildPlan) (parent : Bytes) (base : Option Bytes) : Prop :=
  ∃ target ∈ plan.packageTargets,
    target.packageName = parent ∧ base = some target.packageBase

/-- The parent, if there is one, is a target. -/
def ParentOwned (plan : BuildPlan) (name base : Option Bytes) : Prop :=
  ∀ parent, name = some parent → OwnedBy plan parent base

/-- The parent of every failure is a target. -/
def FailuresOwned (plan : BuildPlan) : Prop :=
  ∀ failure ∈ plan.resolutionFailures, ∀ parent,
    failure.parentPackageName = some parent →
      OwnedBy plan parent failure.parentPackageBase

/-- Every target was walked or is being walked. -/
def TargetsSeen (state : WalkState) : Prop :=
  ∀ target ∈ state.plan.packageTargets,
    target.packageName ∈ state.visited ∨ target.packageName ∈ state.visiting

/-- A target is never dropped and keeps its base. -/
def KeepsTargets (before after : BuildPlan) : Prop :=
  ∀ target ∈ before.packageTargets, ∃ kept ∈ after.packageTargets,
    kept.packageName = target.packageName ∧ kept.packageBase = target.packageBase

theorem KeepsTargets.of_eq (h : after.packageTargets = before.packageTargets) :
    KeepsTargets before after := by
  intro target htarget
  rw [← h] at htarget
  exact ⟨target, htarget, rfl, rfl⟩

theorem KeepsTargets.trans (h : KeepsTargets first second) (h' : KeepsTargets second third) :
    KeepsTargets first third := by
  intro target htarget
  obtain ⟨kept, hkept, hname, hbase⟩ := h target htarget
  obtain ⟨last, hlast, hname', hbase'⟩ := h' kept hkept
  exact ⟨last, hlast, hname'.trans hname, hbase'.trans hbase⟩

theorem OwnedBy.keep {parent : Bytes} (h : OwnedBy before parent base)
    (hkeeps : KeepsTargets before after) : OwnedBy after parent base := by
  obtain ⟨target, htarget, hname, hbase⟩ := h
  obtain ⟨kept, hkept, hkeptName, hkeptBase⟩ := hkeeps target htarget
  exact ⟨kept, hkept, hkeptName.trans hname, by rw [hbase, hkeptBase]⟩

theorem ParentOwned.keep (h : ParentOwned before name base) (hkeeps : KeepsTargets before after) :
    ParentOwned after name base :=
  fun parent hparent => (h parent hparent).keep hkeeps

theorem FailuresOwned.keep (h : FailuresOwned before)
    (hfailures : after.resolutionFailures = before.resolutionFailures)
    (hkeeps : KeepsTargets before after) : FailuresOwned after := by
  intro failure hfailure parent hparent
  rw [hfailures] at hfailure
  exact (h failure hfailure parent hparent).keep hkeeps

/-- A sink for the failures of a parent. -/
def SinkOf (name base : Option Bytes) (sink : Option FailureContext) : Prop :=
  ∀ context, sink = some context →
    context.parentPackageName = name ∧ context.parentPackageBase = base

theorem sinkOf_some (context : FailureContext) :
    SinkOf context.parentPackageName context.parentPackageBase (some context) := by
  intro own hown
  injection hown with hown
  rw [← hown]
  exact ⟨rfl, rfl⟩

theorem sinkOf_failureSink (settings : ResolverSettings) (context : FailureContext) :
    SinkOf context.parentPackageName context.parentPackageBase (failureSink settings context) := by
  unfold failureSink
  split
  · exact sinkOf_some context
  · intro own hown
    cases hown

/-! ## Lookups -/

/-- A lookup for a parent: it touches no target and its failures are those of
the parent. -/
structure LooksUp (name base : Option Bytes) (before after : BuildPlan) : Prop where
  targets : after.packageTargets = before.packageTargets
  failures : ParentOwned before name base → FailuresOwned before → FailuresOwned after

section Lookups

variable {name base : Option Bytes}

theorem LooksUp.of_eq (htargets : after.packageTargets = before.packageTargets)
    (hfailures : after.resolutionFailures = before.resolutionFailures) :
    LooksUp name base before after :=
  ⟨htargets, fun _ h => h.keep hfailures (KeepsTargets.of_eq htargets)⟩

theorem LooksUp.refl (plan : BuildPlan) : LooksUp name base plan plan :=
  LooksUp.of_eq rfl rfl

theorem LooksUp.trans (h : LooksUp name base first second) (h' : LooksUp name base second third) :
    LooksUp name base first third where
  targets := h'.targets.trans h.targets
  failures := fun hparent howned =>
    h'.failures (hparent.keep (KeepsTargets.of_eq h.targets)) (h.failures hparent howned)

/-- One that was recorded before gains a root only. -/
theorem looksUp_addResolutionFailure {sink : Option FailureContext}
    (hsink : SinkOf name base sink) (kind : BuildPlanResolutionFailureKind)
    (subject diagnostic : Bytes) (plan : BuildPlan) :
    LooksUp name base plan (addResolutionFailure sink kind subject diagnostic plan) := by
  cases sink with
  | none => exact LooksUp.refl plan
  | some context =>
    obtain ⟨hname, hbase⟩ := hsink context rfl
    refine ⟨rfl, ?_⟩
    intro hparent howned failure hfailure parent hfailureParent
    show OwnedBy plan parent failure.parentPackageBase
    rcases mem_upsert hfailure with hold | rfl | ⟨existing, hexisting, -, rfl⟩
    · exact howned failure hold parent hfailureParent
    · show OwnedBy plan parent context.parentPackageBase
      rw [hbase]
      exact hparent parent (hname.symm.trans hfailureParent)
    · exact howned existing hexisting parent hfailureParent

theorem looksUp_retained {order : Option (List Bytes)}
    (h : retainConfiguredRepositoryOrder plan order = .ok after) :
    LooksUp name base plan after := by
  rw [retainConfiguredRepositoryOrder_ok h]
  exact LooksUp.of_eq rfl rfl

variable {env : MetadataEnvironment} {sink : Option FailureContext} {plan : BuildPlan}

theorem queryRepositoryPackage_looksUp {packageName : Bytes} {status : RepositoryPackageQueryStatus}
    (hsink : SinkOf name base sink)
    (h : queryRepositoryPackage env packageName sink plan = .ok (status, after)) :
    LooksUp name base plan after := by
  unfold queryRepositoryPackage at h
  rw [bind_eq_ok] at h
  obtain ⟨result, -, h⟩ := h
  cases result with
  | present package =>
    simp only [bind_eq_ok] at h
    obtain ⟨retained, hretained, h⟩ := h
    injection h with h
    injection h with _ hafter
    rw [← hafter]
    exact looksUp_retained hretained
  | notFound order =>
    simp only [bind_eq_ok] at h
    obtain ⟨retained, hretained, h⟩ := h
    injection h with h
    injection h with _ hafter
    rw [← hafter]
    exact looksUp_retained hretained
  | failure failure =>
    simp only [bind_eq_ok] at h
    obtain ⟨retained, hretained, h⟩ := h
    split at h
    · cases h
    · injection h with h
      injection h with _ hafter
      rw [← hafter]
      apply (looksUp_retained hretained).trans
      exact looksUp_addResolutionFailure hsink _ _ _ _

theorem checkAurProviderCandidate_looksUp {context : BuildPlanResolutionContext} {candidate : Bytes}
    {state after : DiscoveryState} (hsink : SinkOf name base sink)
    (h : checkAurProviderCandidate env context sink dependencyName state candidate =
      .ok after) : LooksUp name base state.2 after.2 := by
  have hunread : ∀ diagnostic, LooksUp name base state.2
      (recordUnreadCandidate sink candidate diagnostic state).2 :=
    fun diagnostic => looksUp_addResolutionFailure hsink _ _ _ _
  unfold checkAurProviderCandidate at h
  split at h
  · injection h with h
    rw [← h]
    exact LooksUp.refl _
  · split at h
    · split at h
      · injection h with h
        rw [← h]
        exact hunread _
      · cases h
    · injection h with h
      rw [← h]
      exact hunread _
    · simp only [bind_eq_ok] at h
      obtain ⟨info, -, provider, -, h⟩ := h
      split at h
      · injection h with h
        rw [← h]
        exact LooksUp.refl _
      · injection h with h
        rw [← h]
        exact LooksUp.refl _

theorem findAurProviders_looksUp {requireComplete : Bool} (hsink : SinkOf name base sink)
    (h : findAurProviders env dependencyName sink requireComplete recipes plan =
      .ok found) : LooksUp name base plan found.2 := by
  unfold findAurProviders at h
  split at h
  · injection h with h
    rw [← h]
    exact LooksUp.refl _
  · dsimp only at h
    split at h
    · split at h
      · injection h with h
        rw [← h]
        exact looksUp_addResolutionFailure hsink _ _ _ _
      · cases h
    · rw [bind_eq_ok] at h
      obtain ⟨candidates, -, h⟩ := h
      refine foldlM_inv (P := fun state : DiscoveryState => LooksUp name base plan state.2)
        ?_ (LooksUp.refl _) h
      intro candidate _ state after hstate hstep
      exact hstate.trans (checkAurProviderCandidate_looksUp hsink hstep)

theorem foldl_addResolutionFailure_looksUp (hsink : SinkOf name base sink) :
    ∀ (failures : List RepositoryMetadataFailure) (plan : BuildPlan),
      LooksUp name base plan (failures.foldl (fun plan failure =>
          addResolutionFailure sink .repositoryMetadataUnavailable
            dependencyName failure.diagnostic plan)
        plan) := by
  intro failures
  induction failures with
  | nil => exact LooksUp.refl
  | cons failure rest ih =>
    intro plan
    rw [List.foldl_cons]
    apply (looksUp_addResolutionFailure hsink _ _ _ plan).trans
    exact ih _

theorem findDependencyProviders_looksUp {requireAuthoritative : Bool}
    (hsink : SinkOf name base sink)
    (h : findDependencyProviders env dependencyName sink requireAuthoritative recipes
      plan = .ok found) : LooksUp name base plan found.2 := by
  unfold findDependencyProviders at h
  rw [bind_eq_ok] at h
  obtain ⟨result, -, h⟩ := h
  cases result with
  | failure failure =>
    simp only [bind_eq_ok] at h
    obtain ⟨retained, hretained, h⟩ := h
    injection h with h
    rw [← h]
    apply (looksUp_retained hretained).trans
    exact looksUp_addResolutionFailure hsink _ _ _ _
  | snapshot repository =>
    simp only [bind_eq_ok] at h
    obtain ⟨retained, hretained, h⟩ := h
    have hlooked : LooksUp name base plan retained := looksUp_retained hretained
    split at h
    · injection h with h
      rw [← h]
      apply hlooked.trans
      exact foldl_addResolutionFailure_looksUp hsink _ _
    · split at h
      · injection h with h
        rw [← h]
        exact hlooked
      · exact hlooked.trans (findAurProviders_looksUp hsink h)

end Lookups

/-! ## The stages of one dependency -/

/-- Every target was seen and the parent of every failure is a target. -/
structure Accounted (state : WalkState) : Prop where
  seen : TargetsSeen state
  owned : FailuresOwned state.plan

/-- A part of a walk for a parent: targets stay, and what was accounted for
still is. -/
structure Accounts (name base : Option Bytes) (before after : WalkState) : Prop where
  keeps : KeepsTargets before.plan after.plan
  accounted : ParentOwned before.plan name base → Accounted before → Accounted after

section Parts

variable {name base : Option Bytes}

theorem Accounts.trans {first second third : WalkState}
    (h : Accounts name base first second) (h' : Accounts name base second third) :
    Accounts name base first third where
  keeps := h.keeps.trans h'.keeps
  accounted := fun hparent haccounted =>
    h'.accounted (hparent.keep h.keeps) (h.accounted hparent haccounted)

/-- A change of the plan that a lookup can make. -/
theorem Accounts.of_looksUp {before after : WalkState}
    (h : LooksUp name base before.plan after.plan)
    (hvisited : after.visited = before.visited)
    (hvisiting : after.visiting = before.visiting) : Accounts name base before after where
  keeps := KeepsTargets.of_eq h.targets
  accounted := by
    intro hparent haccounted
    refine ⟨?_, h.failures hparent haccounted.owned⟩
    intro target htarget
    rw [h.targets] at htarget
    rw [hvisited, hvisiting]
    exact haccounted.seen target htarget

/-- A change outside the targets, the failures and the two name sets. -/
theorem Accounts.of_eq {before after : WalkState}
    (htargets : after.plan.packageTargets = before.plan.packageTargets)
    (hfailures : after.plan.resolutionFailures = before.plan.resolutionFailures)
    (hvisited : after.visited = before.visited)
    (hvisiting : after.visiting = before.visiting) : Accounts name base before after :=
  Accounts.of_looksUp (LooksUp.of_eq htargets hfailures) hvisited hvisiting

theorem Accounts.refl (state : WalkState) : Accounts name base state state :=
  Accounts.of_eq rfl rfl rfl rfl

/-- A lookup that leaves the dependency unresolved. -/
theorem accounts_addUnresolved {site : DependencySite} {edge : BuildPlanDependencyEdge}
    {state : WalkState} (h : LooksUp name base state.plan plan) (value : Bytes) :
    Accounts name base state ((state.withPlan (addUnresolved plan value)).addEdges site edge) :=
  Accounts.of_looksUp (h.trans (LooksUp.of_eq rfl rfl)) rfl rfl

end Parts

/-- A collector that accounts for what it records. -/
def AccountsAll (collect : Collector) : Prop :=
  ∀ request before after, collect request before = .ok after →
    Accounts request.parentPackageName request.parentPackageBase before after

/-- A part of the walk over the dependencies of the parent of a site. -/
def SiteAccounts (site : DependencySite) (before after : WalkState) : Prop :=
  Accounts (some site.parentPackageName) (some site.parentPackageBase) before after

section Stages

variable {settings : ResolverSettings} {collect : Collector} {site : DependencySite}
  {edge : BuildPlanDependencyEdge} {consumer : ConsumerDependencyRequirement}
  {first : TypedPackageDependency} {state after : WalkState}

/-- A failed lookup of the site. -/
theorem looksUp_site (kind : BuildPlanResolutionFailureKind) (subject diagnostic : Bytes)
    (plan : BuildPlan) :
    LooksUp (some site.parentPackageName) (some site.parentPackageBase) plan
      (addResolutionFailure (some site.failureContext) kind subject diagnostic plan) :=
  looksUp_addResolutionFailure (sinkOf_some site.failureContext) kind subject diagnostic plan

theorem resolveInstalled_accounts
    (h : resolveInstalled settings site edge consumer state = .ok after) :
    SiteAccounts site state after := by
  unfold resolveInstalled at h
  rw [bind_eq_ok] at h
  obtain ⟨result, -, h⟩ := h
  cases result with
  | present package =>
    injection h with h
    rw [← h]
    exact Accounts.of_eq rfl rfl rfl rfl
  | absent name =>
    injection h with h
    rw [← h]
    exact accounts_addUnresolved (LooksUp.refl _) _
  | queryFailure name diagnostic =>
    injection h with h
    rw [← h]
    exact accounts_addUnresolved (looksUp_site _ _ _ _) _

theorem readSelectedProvider_looksUp {read : BuildPlan}
    (h : readSelectedProvider settings site selected plan = .ok (info, read)) :
    LooksUp (some site.parentPackageName) (some site.parentPackageBase) plan read := by
  unfold readSelectedProvider at h
  split at h
  · injection h with h
    injection h with _ hplan
    rw [← hplan]
    exact LooksUp.refl plan
  · split at h
    · injection h with h
      injection h with _ hplan
      rw [← hplan]
      exact looksUp_site _ _ _ _
    · cases h

theorem currentProviderMetadata_looksUp {read : Option AurPackageInfo}
    {metadata : AurProviderCandidateMetadata} {current : BuildPlan}
    (h : currentProviderMetadata site selected info plan = .ok (metadata, read, current)) :
    LooksUp (some site.parentPackageName) (some site.parentPackageBase) plan current := by
  unfold currentProviderMetadata at h
  cases info with
  | none =>
    injection h with h
    injection h with _ h
    injection h with _ hplan
    rw [← hplan]
    exact looksUp_site _ _ _ _
  | some record =>
    dsimp only at h
    rw [bind_eq_ok] at h
    obtain ⟨typed, -, h⟩ := h
    split at h
    · injection h with h
      injection h with _ h
      injection h with _ hplan
      rw [← hplan]
      exact LooksUp.refl plan
    · cases h

theorem refreshSelectedProvider_looksUp {refresh : ProviderRefresh} {changed : BuildPlan}
    (h : refreshSelectedProvider settings site consumer selected plan = .ok (refresh, changed)) :
    LooksUp (some site.parentPackageName) (some site.parentPackageBase) plan changed := by
  unfold refreshSelectedProvider at h
  dsimp only at h
  split at h
  · injection h with h
    injection h with _ hplan
    rw [← hplan]
    exact LooksUp.refl plan
  · simp only [bind_eq_ok] at h
    obtain ⟨⟨info, read⟩, hread, ⟨metadata, record, current⟩, hcurrent, result, -, h⟩ := h
    have hlooked := (readSelectedProvider_looksUp hread).trans
      (currentProviderMetadata_looksUp hcurrent)
    cases result with
    | projection projection =>
      injection h with h
      injection h with _ hplan
      rw [← hplan]
      exact hlooked
    | unknown reason =>
      injection h with h
      injection h with _ hplan
      rw [← hplan]
      exact hlooked
    | failure kind => cases h

theorem looksUp_retainUserSelection (site : DependencySite) (provider : ProvidedDependency)
    (resolution : ProviderResolutionKind) (plan : BuildPlan) :
    LooksUp name base plan (retainUserSelection site provider resolution plan) := by
  rw [retainUserSelection_frame]
  exact LooksUp.of_eq rfl rfl

theorem recordIdentityConflict_accounts (provider : ProvidedDependency)
    (resolution : ProviderResolutionKind) :
    SiteAccounts site state
      (recordIdentityConflict settings site edge provider resolution state) := by
  have hadded : LooksUp (some site.parentPackageName) (some site.parentPackageBase)
      state.plan (addUnresolved state.plan (localIdentityConflictText site.dependency)) :=
    LooksUp.of_eq rfl rfl
  have hretained := hadded.trans (looksUp_retainUserSelection site provider resolution _)
  unfold recordIdentityConflict
  exact Accounts.of_looksUp (hretained.trans (LooksUp.of_eq rfl rfl)) rfl rfl

theorem recordProvided_accounts {provider : ProvidedDependency} {evaluation : ConstraintEvaluation}
    (h : recordProvided site (site.edge first) discovery provider evaluation resolution
      state = .ok after) : SiteAccounts site state after := by
  have haside := recordProvided_aside h
  refine Accounts.of_eq haside.targets ?_ haside.visited haside.visiting
  rw [recordProvided_ok h]
  rfl

theorem planProvider_accounts (hcollect : AccountsAll collect)
    (h : planProvider settings collect site (site.edge first) consumer discovery
      resolution state selected = .ok after) : SiteAccounts site state after := by
  unfold planProvider at h
  rw [bind_eq_ok] at h
  obtain ⟨⟨refresh, plan⟩, hrefresh, h⟩ := h
  have hlooked := refreshSelectedProvider_looksUp hrefresh
  cases refresh with
  | unknown reason =>
    injection h with h
    rw [← h]
    exact accounts_addUnresolved (hlooked.trans (looksUp_retainUserSelection _ _ _ _)) _
  | current provider evaluation info =>
    have hstart : SiteAccounts site state (state.withPlan plan) :=
      Accounts.of_looksUp hlooked rfl rfl
    dsimp only at h
    split at h
    · injection h with h
      rw [← h]
      exact hstart.trans (recordIdentityConflict_accounts provider resolution)
    · rw [bind_eq_ok] at h
      obtain ⟨recorded, hrecorded, h⟩ := h
      have hprovided : SiteAccounts site state recorded :=
        hstart.trans (recordProvided_accounts hrecorded)
      split at h
      · split at h
        · injection h with h
          rw [← h]
          exact hprovided.trans (Accounts.of_eq rfl rfl rfl rfl)
        · exact hprovided.trans (hcollect _ _ _ h)
      · injection h with h
        rw [← h]
        exact hprovided

theorem resolveThroughProviders_accounts (hcollect : AccountsAll collect)
    (h : resolveThroughProviders settings collect site (site.edge first) consumer state =
      .ok after) : SiteAccounts site state after := by
  unfold resolveThroughProviders at h
  rw [bind_eq_ok] at h
  obtain ⟨⟨discovery, plan⟩, hfound, h⟩ := h
  have hlooked : LooksUp (some site.parentPackageName) (some site.parentPackageBase)
      state.plan plan := findDependencyProviders_looksUp (sinkOf_some _) hfound
  dsimp only at h
  split at h
  · injection h with h
    rw [← h]
    apply accounts_addUnresolved
    apply hlooked.trans
    unfold addIncompleteProviderCandidateSet
    split
    · exact LooksUp.refl plan
    · split
      · exact LooksUp.of_eq rfl rfl
      · exact LooksUp.of_eq rfl rfl
  · simp only [bind_eq_ok] at h
    obtain ⟨-, -, ⟨choice, requests⟩, -, h⟩ := h
    dsimp only at h
    have hstart : SiteAccounts site state { state with plan := plan, requests := requests } :=
      Accounts.of_looksUp hlooked rfl rfl
    apply hstart.trans
    cases choice with
    | none =>
      dsimp only at h
      split at h
      · injection h with h
        rw [← h]
        exact Accounts.of_eq rfl rfl rfl rfl
      · exact resolveInstalled_accounts h
    | some choice =>
      obtain ⟨selection, resolution⟩ := choice
      dsimp only at h
      refine foldlM_inv (P := fun current => SiteAccounts site
        { state with plan := plan, requests := requests } current) ?_
        (Accounts.refl _) h
      intro selected _ current next hcurrent hstep
      exact hcurrent.trans (planProvider_accounts hcollect hstep)

theorem planAurDependency_accounts (hcollect : AccountsAll collect)
    {info : AurPackageInfo}
    (h : planAurDependency settings collect site edge consumer info state = .ok after) :
    SiteAccounts site state after := by
  unfold planAurDependency at h
  rw [bind_eq_ok] at h
  obtain ⟨candidate, -, h⟩ := h
  have hadded : SiteAccounts site state
      (state.addEdges site (aurEdge settings edge consumer candidate)) :=
    Accounts.of_eq rfl rfl rfl rfl
  dsimp only at h
  split at h
  · injection h with h
    rw [← h]
    exact hadded.trans (Accounts.of_eq rfl rfl rfl rfl)
  · exact hadded.trans (hcollect _ _ _ h)

theorem resolveInAur_accounts (hcollect : AccountsAll collect)
    (h : resolveInAur settings collect site (site.edge first) consumer state = .ok after) :
    SiteAccounts site state after := by
  unfold resolveInAur at h
  split at h
  · exact planAurDependency_accounts hcollect h
  · exact resolveThroughProviders_accounts hcollect h
  · rename_i thrown _
    have hlooked := looksUp_addResolutionFailure
      (sinkOf_failureSink settings site.failureContext) .aurPackageMetadataUnavailable
      consumer.packageName thrown.what state.plan
    split at h
    · cases h
    · split at h
      · cases h
      · dsimp only at h
        split at h
        · injection h with h
          rw [← h]
          exact accounts_addUnresolved hlooked _
        · refine Accounts.trans ?_ (resolveThroughProviders_accounts hcollect h)
          exact Accounts.of_looksUp hlooked rfl rfl

theorem resolveInRepositories_accounts (hcollect : AccountsAll collect)
    (h : resolveInRepositories settings collect site (site.edge first) consumer state =
      .ok after) : SiteAccounts site state after := by
  unfold resolveInRepositories at h
  rw [bind_eq_ok] at h
  obtain ⟨⟨status, plan⟩, hstatus, h⟩ := h
  have hlooked := queryRepositoryPackage_looksUp
    (sinkOf_failureSink settings site.failureContext) hstatus
  dsimp only at h
  cases status with
  | unavailable =>
    injection h with h
    rw [← h]
    exact accounts_addUnresolved hlooked _
  | present package =>
    dsimp only at h
    rw [bind_eq_ok] at h
    obtain ⟨observed, hobserved, h⟩ := h
    injection h with h
    rw [← h]
    have hadded : LooksUp (some site.parentPackageName) (some site.parentPackageBase)
        plan observed := by
      rw [addPlannedRelationObservation_ok hobserved]
      exact LooksUp.of_eq rfl rfl
    exact Accounts.of_looksUp ((hlooked.trans hadded).trans (LooksUp.of_eq rfl rfl))
      rfl rfl
  | notFound =>
    refine Accounts.trans ?_ (resolveInAur_accounts hcollect h)
    exact Accounts.of_looksUp hlooked rfl rfl

theorem resolveRequirement_accounts (hcollect : AccountsAll collect)
    (h : resolveRequirement settings collect site first state = .ok after) :
    SiteAccounts site state after := by
  unfold resolveRequirement at h
  dsimp only at h
  split at h
  · rw [bind_eq_ok] at h
    obtain ⟨_, -, h⟩ := h
    injection h with h
    rw [← h]
    exact Accounts.of_eq rfl rfl rfl rfl
  · injection h with h
    rw [← h]
    exact Accounts.of_eq rfl rfl rfl rfl
  · exact resolveInRepositories_accounts hcollect h

theorem decideLocally_accounts {handled : Bool}
    (h : decideLocally settings site state = .ok (handled, after)) :
    SiteAccounts site state after := by
  unfold decideLocally at h
  split at h
  · injection h with h
    injection h with _ h
    rw [← h]
    exact Accounts.refl state
  · rw [bind_eq_ok] at h
    obtain ⟨decision, -, h⟩ := h
    dsimp only at h
    split at h
    · injection h with h
      injection h with _ h
      rw [← h]
      apply Accounts.of_eq
      · show (applyDecision state.plan decision).packageTargets = _
        unfold applyDecision
        cases decision.cyclePackageBase <;> cases decision.unresolvedReason <;> rfl
      · show (applyDecision state.plan decision).resolutionFailures = _
        unfold applyDecision
        cases decision.cyclePackageBase <;> cases decision.unresolvedReason <;> rfl
      · rfl
      · rfl
    · injection h with h
      injection h with _ h
      rw [← h]
      exact Accounts.of_eq rfl rfl rfl rfl

theorem resolveBuildPlanDependency_accounts (hcollect : AccountsAll collect)
    (h : resolveBuildPlanDependency settings collect site state = .ok after) :
    SiteAccounts site state after := by
  unfold resolveBuildPlanDependency at h
  split at h
  · cases h
  · rw [bind_eq_ok] at h
    obtain ⟨⟨handled, decided⟩, hdecided, h⟩ := h
    have hdecision := decideLocally_accounts hdecided
    dsimp only at h
    split at h
    · injection h with h
      rw [← h]
      exact hdecision
    · exact hdecision.trans (resolveRequirement_accounts hcollect h)

end Stages

/-! ## Packages -/

theorem KeepsTargets.of_grows (h : PlanGrows before after) : KeepsTargets before after := by
  intro target htarget
  obtain ⟨kept, hkept, hname, hbase, -⟩ := h.targets target htarget
  exact ⟨kept, hkept, hname, hbase⟩

section Packages

variable {settings : ResolverSettings} {collect : Collector} {info : AurPackageInfo}
  {roles : List PackageRole} {root : RootTargetIdentity} {before after : WalkState}

theorem walkDependencies_accounts (hcollect : AccountsAll collect)
    (h : walkDependencies settings collect info root before = .ok after) :
    Accounts (some info.name) (some info.packageBase) before after := by
  unfold walkDependencies at h
  rw [bind_eq_ok] at h
  obtain ⟨typed, -, h⟩ := h
  refine foldlM_inv (P := fun current =>
    Accounts (some info.name) (some info.packageBase) before current) ?_
    (Accounts.refl _) h
  intro dependency _ current next hcurrent hstep
  exact hcurrent.trans (resolveBuildPlanDependency_accounts hcollect hstep)

section Recorded

variable {plan : BuildPlan}

theorem recordPackage_failures_eq (h : recordPackage info roles root before.plan = .ok plan) :
    plan.resolutionFailures = before.plan.resolutionFailures := by
  rw [recordPackage_ok h]
  rfl

/-- A package that was not met before becomes a target of its own base. -/
theorem recordPackage_owned (hseen : TargetsSeen before)
    (hvisited : info.name ∉ before.visited) (hvisiting : info.name ∉ before.visiting)
    (h : recordPackage info roles root before.plan = .ok plan) :
    OwnedBy plan info.name (some info.packageBase) := by
  rw [recordPackage_ok h]
  show ∃ target ∈ upsert _ _ _ before.plan.packageTargets, _
  rcases exists_mem_upsert before.plan.packageTargets with hfresh | ⟨target, hmem, hname, -⟩
  · exact ⟨_, hfresh, rfl, rfl⟩
  · have hname : target.packageName = info.name := by simpa using hname
    rcases hseen target hmem with hin | hin
    · rw [hname] at hin
      exact absurd hin hvisited
    · rw [hname] at hin
      exact absurd hin hvisiting

/-- A recorded package is the only target that may be new. -/
theorem recordPackage_seen (hseen : TargetsSeen before)
    (h : recordPackage info roles root before.plan = .ok plan) :
    ∀ target ∈ plan.packageTargets, target.packageName = info.name ∨
      target.packageName ∈ before.visited ∨ target.packageName ∈ before.visiting := by
  intro target htarget
  rw [recordPackage_ok h] at htarget
  rcases mem_upsert htarget with htarget | rfl | ⟨existing, -, hname, rfl⟩
  · exact Or.inr (hseen target htarget)
  · exact Or.inl rfl
  · exact Or.inl (by simpa using hname)

/-- The package is on the path when its dependencies are walked. -/
theorem openPackage_accounted (haccounted : Accounted before)
    (h : recordPackage info roles root before.plan = .ok plan) :
    Accounted (openPackage info (before.withPlan plan)) where
  seen := by
    intro target htarget
    rcases recordPackage_seen haccounted.seen h target htarget with hname | hin | hin
    · exact Or.inr (mem_insertNew.mpr (Or.inr hname))
    · exact Or.inl hin
    · exact Or.inr (mem_insertNew.mpr (Or.inl hin))
  owned := haccounted.owned.keep (recordPackage_failures_eq h)
    (KeepsTargets.of_grows (PlanGrows.recordPackage h))

end Recorded

theorem closePackage_accounted (haccounted : Accounted before) :
    Accounted (closePackage info before) where
  seen := by
    intro target htarget
    rw [closePackage_targets_eq] at htarget
    by_cases hname : target.packageName = info.name
    · exact Or.inl (mem_insertNew.mpr (Or.inr hname))
    · rcases haccounted.seen target htarget with hin | hin
      · exact Or.inl (mem_insertNew.mpr (Or.inl hin))
      · exact Or.inr (List.mem_filter.mpr ⟨hin, by simpa using hname⟩)
  owned := by
    refine haccounted.owned.keep ?_ (KeepsTargets.of_eq (closePackage_targets_eq _ _))
    unfold closePackage addBuildPlanSplitPackageTarget
    dsimp only
    split <;> rfl

theorem visitPackage_accounts (hcollect : AccountsAll collect)
    (h : visitPackage settings collect info roles root before = .ok after) :
    Accounts name base before after := by
  unfold visitPackage at h
  rw [bind_eq_ok] at h
  obtain ⟨plan, hplan, h⟩ := h
  have hkeeps : KeepsTargets before.plan plan :=
    KeepsTargets.of_grows (PlanGrows.recordPackage hplan)
  -- A package that is met again is in one of the two name sets.
  have hmet : info.name ∈ before.visited ∨ info.name ∈ before.visiting →
      Accounts name base before (before.withPlan plan) := by
    intro hin
    refine ⟨hkeeps, ?_⟩
    intro _ haccounted
    refine ⟨?_, haccounted.owned.keep (recordPackage_failures_eq hplan) hkeeps⟩
    intro target htarget
    rcases recordPackage_seen haccounted.seen hplan target htarget with hname | hseen
    · rw [hname]
      exact hin
    · exact hseen
  dsimp only at h
  split at h
  · rename_i hvisited
    injection h with h
    rw [← h]
    exact hmet (Or.inl hvisited)
  · rename_i hvisited
    split at h
    · rename_i hvisiting
      injection h with h
      rw [← h]
      exact (hmet (Or.inr hvisiting)).trans (Accounts.of_eq rfl rfl rfl rfl)
    · rename_i hvisiting
      rw [bind_eq_ok] at h
      obtain ⟨walked, hwalked, h⟩ := h
      injection h with h
      rw [← h]
      have hwalk := walkDependencies_accounts hcollect hwalked
      have hclosed : KeepsTargets walked.plan (closePackage info walked).plan :=
        KeepsTargets.of_grows (PlanGrows.closePackage info walked)
      refine ⟨(hkeeps.trans hwalk.keeps).trans hclosed, ?_⟩
      intro _ haccounted
      apply closePackage_accounted
      refine hwalk.accounted ?_ (openPackage_accounted haccounted hplan)
      intro parent hparent
      injection hparent with hparent
      rw [← hparent]
      exact recordPackage_owned haccounted.seen hvisited hvisiting hplan

theorem collectPackage_accounts (hcollect : AccountsAll collect) :
    AccountsAll (collectPackage settings collect) := by
  intro request before after h
  have hfailed : ∀ kind subject diagnostic, Accounts request.parentPackageName
      request.parentPackageBase before (before.withPlan (addUnresolved
        (addResolutionFailure (failureSink settings request.failureContext) kind subject
          diagnostic before.plan) request.packageName)) := by
    intro kind subject diagnostic
    have hlooked := looksUp_addResolutionFailure
      (sinkOf_failureSink settings request.failureContext) kind subject diagnostic before.plan
    exact Accounts.of_looksUp (hlooked.trans (LooksUp.of_eq rfl rfl)) rfl rfl
  unfold collectPackage at h
  dsimp only at h
  split at h
  · split at h
    · cases h
    · split at h
      · cases h
      · injection h with h
        rw [← h]
        exact hfailed _ _ _
  · injection h with h
    rw [← h]
    exact Accounts.of_eq rfl rfl rfl rfl
  · split at h
    · split at h
      · cases h
      · injection h with h
        rw [← h]
        exact hfailed _ _ _
    · exact visitPackage_accounts hcollect h

end Packages

theorem collectAurBuildPlan_accounts (settings : ResolverSettings) :
    ∀ remaining, AccountsAll (collectAurBuildPlan settings remaining) := by
  intro remaining
  induction remaining with
  | zero =>
    intro request before after h
    injection h with h
    rw [← h]
    exact Accounts.of_eq rfl rfl rfl rfl
  | succ remaining ih => exact collectPackage_accounts ih

theorem collectRoots_accounted (h : collectRoots settings targets = .ok walked) :
    Accounted walked := by
  unfold collectRoots at h
  refine foldlM_inv ?_ ⟨?_, ?_⟩ h
  · intro item _ state next hstate hstep
    refine (collectAurBuildPlan_accounts settings _ _ _ _ hstep).accounted nofun ?_
    exact ⟨hstate.seen, hstate.owned⟩
  · intro target htarget
    cases htarget
  · intro failure hfailure
    cases hfailure

/-- The parent of every failure of a collection is a target. -/
theorem collectRoots_failuresOwned (h : collectRoots settings targets = .ok walked) :
    FailuresOwned walked.plan :=
  (collectRoots_accounted h).owned

end Moguet.Plan.FailureOrigin
