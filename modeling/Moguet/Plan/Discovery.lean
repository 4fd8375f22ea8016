import Moguet.Plan.RepositoryQuery

/-!
# Metadata lookups and provider discovery

The lookups a resolution rests on are the parameters of a
`MetadataEnvironment`: the repository, AUR and installed queries, and the
version order of libalpm. Everything the resolver does with them is
modelled: which AUR query it uses in which mode, what counts as an absent
package and what as a failed lookup, how provider candidates are collected
and how a selection is projected back onto the candidates.

The repository providers are what the configured repositories reported; the
other lookups answer as a whole. The environment carries the one promise of
the AUR client the planner relies on: a returned record bears the name that
was asked for.
-/

namespace Moguet.Plan.Discovery

open Verified.ByteString Verified.Checked Constraint Metadata Model RepositoryQuery
open Relation.Observation

variable {info package : AurPackageInfo} {packageName dependencyName candidate : Bytes}
  {plan after plan' : BuildPlan} {failureContext failureContext' : Option FailureContext}

/-! ## The environment -/

structure MetadataEnvironment where
  queryRepositoryPackageStrict :
    Bytes → Except Thrown StrictRepositoryPackageQueryResult
  observeRepositoryProviders :
    Bytes → Except Thrown RepositoryProviderObservationResult
  queryInstalledExactPackageStrict :
    Bytes → Except Thrown InstalledExactPackageObservationResult
  aurInfo : Bytes → Except Thrown (Option AurPackageInfo)
  aurInfoStrict : Bytes → Except Thrown (Option AurPackageInfo)
  searchNamesByProvides : Bytes → Except Thrown (List Bytes)
  searchNamesByProvidesStrict : Bytes → Except Thrown (List Bytes)
  installedRelationObservations : PackageRelationObservationSet
  vercmp : Bytes → Bytes → Int
  aurInfo_name : ∀ name info, aurInfo name = .ok (some info) → info.name = name
  aurInfoStrict_name :
    ∀ name info, aurInfoStrict name = .ok (some info) → info.name = name

variable {env : MetadataEnvironment}

def MetadataEnvironment.queryRepositoryProvidersStrict (env : MetadataEnvironment)
    (dependencyName : Bytes) : Except Thrown StrictRepositoryProvidersQueryResult :=
  queryProvidersStrict env.observeRepositoryProviders dependencyName

theorem AurPackageInfo.ofRecord?_name {package : AurPackageRecord}
    (h : AurPackageInfo.ofRecord? package = some info) : info.name = package.name := by
  unfold AurPackageInfo.ofRecord? at h
  split at h
  · split at h
    · split at h
      · cases h
      · injection h with h
        rw [← h]
    · cases h
  · cases h

/-- A world of AUR records only: every lookup answers, no repository knows
any package and nothing is installed. -/
def MetadataEnvironment.ofAurRecords (records : List AurPackageRecord) :
    MetadataEnvironment :=
  let find (name : Bytes) : Option AurPackageInfo :=
    match records.find? fun record => record.name = name with
    | none => none
    | some record => AurPackageInfo.ofRecord? record
  have find_name : ∀ name info, find name = some info → info.name = name := by
    intro name info h
    unfold find at h
    split at h
    · cases h
    · rename_i record hrecord
      have hname : record.name = name := by simpa using List.find?_some hrecord
      exact (AurPackageInfo.ofRecord?_name h).trans hname
  let providing (name : Bytes) : List Bytes :=
    (records.filter fun record =>
      record.provides.any fun specification =>
        match parseProviderCapability specification with
        | .ok capability => capability.packageName = name
        | .error _ => false).map (·.name)
  { queryRepositoryPackageStrict := fun _ => .ok (.notFound none)
    observeRepositoryProviders := fun _ => .ok (.observation ⟨[], []⟩)
    queryInstalledExactPackageStrict := fun name => .ok (.absent name)
    aurInfo := fun name => .ok (find name)
    aurInfoStrict := fun name => .ok (find name)
    searchNamesByProvides := fun name => .ok (providing name)
    searchNamesByProvidesStrict := fun name => .ok (providing name)
    installedRelationObservations := {}
    vercmp := bytewiseVercmp
    aurInfo_name := by
      intro name info h
      injection h with h
      exact find_name name info h
    aurInfoStrict_name := by
      intro name info h
      injection h with h
      exact find_name name info h }

inductive BuildPlanResolutionMode
  | legacy
  | captureOrdinaryFailures
  deriving DecidableEq

/-- `AurRecipeMetadataSet`: evaluated recipes in key order. A plan is built
from recipes only after each was found under its own name and with its typed
projection (`resolve_recipe_build_plan`). -/
structure AurRecipeMetadataSet where
  recipes : List (Bytes × AurPackageInfo)
  keyed : ∀ recipe ∈ recipes, recipe.1 = recipe.2.name
  typed : ∀ recipe ∈ recipes, recipe.2.constraintMetadata.isSome = true

variable {recipes : Option AurRecipeMetadataSet}

structure BuildPlanResolutionContext where
  mode : BuildPlanResolutionMode
  recipes : Option AurRecipeMetadataSet := none

variable {context : BuildPlanResolutionContext}

def findRecipe (recipes : Option AurRecipeMetadataSet) (packageName : Bytes) :
    Option AurPackageInfo :=
  match recipes with
  | none => none
  | some recipes =>
    (recipes.recipes.find? fun recipe => recipe.1 = packageName).map (·.2)

def recipeList (recipes : Option AurRecipeMetadataSet) :
    List (Bytes × AurPackageInfo) :=
  match recipes with
  | none => []
  | some recipes => recipes.recipes

/-! ## AUR lookups -/

def projectionFailed (packageName : Bytes) : Thrown :=
  ⟨.aurConstraintMetadataProjectionError,
    ascii "AUR package metadata constraint projection failed: " ++ packageName⟩

def requireTypedAurPackageInfo (package : AurPackageInfo) :
    Except Thrown AurPackageInfo :=
  if package.constraintMetadata.isSome then .ok package
  else
    match hprojection : projectAurConstraintMetadata package.toAurPackageRecord with
    | .error _ => .error (projectionFailed package.name)
    | .ok metadata =>
      .ok { package with
        constraintMetadata := some metadata
        constraintMetadata_projected := by
          intro other hother
          injection hother with hother
          rw [hprojection, hother] }

def recipeArchitectureUnsupported : Thrown :=
  ⟨.runtimeError,
    ascii "Selected recipe child does not support the effective architecture."⟩

def recipeIdentityDiffers : Thrown :=
  ⟨.runtimeError, ascii
    ("Current recipe child identity differs from AUR metadata; " ++
      "no RPC fallback for the selected PackageBase.")⟩

/-- The strict query is used when ordinary failures are captured or
authoritative metadata is required. -/
def aurInfoQuery (env : MetadataEnvironment)
    (context : BuildPlanResolutionContext) (packageName : Bytes)
    (requireAuthoritativeMetadata : Bool) :
    Except Thrown (Option AurPackageInfo) :=
  if context.mode = .captureOrdinaryFailures || requireAuthoritativeMetadata
  then env.aurInfoStrict packageName
  else env.aurInfo packageName

/-- `query_aur_package_info`. -/
def queryAurPackageInfo (env : MetadataEnvironment)
    (context : BuildPlanResolutionContext) (packageName : Bytes)
    (requireAuthoritativeMetadata : Bool := false) :
    Except Thrown (Option AurPackageInfo) :=
  match findRecipe context.recipes packageName with
  | some recipe =>
    if !recipe.recipeArchitectureSupported then
      .error recipeArchitectureUnsupported
    else .ok (some recipe)
  | none => do
      match ← aurInfoQuery env context packageName requireAuthoritativeMetadata with
      | none => .ok none
      | some package =>
        if (recipeList context.recipes).any fun selected =>
            selected.2.packageBase = package.packageBase then
          .error recipeIdentityDiffers
        else do
          let typed ← requireTypedAurPackageInfo package
          .ok (some typed)

/-! ## What an AUR lookup returns -/

theorem findRecipe_spec (h : findRecipe recipes packageName = some info) :
    info.name = packageName ∧ info.constraintMetadata.isSome = true := by
  unfold findRecipe at h
  cases recipes with
  | none => cases h
  | some recipes =>
    obtain ⟨recipe, hfind, rfl⟩ := Option.map_eq_some_iff.mp h
    have hmem := List.mem_of_find?_eq_some hfind
    have hkey : recipe.1 = packageName := by
      simpa using List.find?_some hfind
    exact ⟨(recipes.keyed recipe hmem).symm.trans hkey, recipes.typed recipe hmem⟩

theorem requireTypedAurPackageInfo_ok {typed : AurPackageInfo}
    (h : requireTypedAurPackageInfo package = .ok typed) :
    typed.toAurPackageRecord = package.toAurPackageRecord ∧
      typed.constraintMetadata.isSome = true := by
  unfold requireTypedAurPackageInfo at h
  split at h
  · rename_i htyped
    injection h with h
    rw [← h]
    exact ⟨rfl, htyped⟩
  · split at h
    · cases h
    · injection h with h
      rw [← h]
      exact ⟨rfl, rfl⟩

/-- A record that already carries its projection is returned as it is. -/
theorem requireTypedAurPackageInfo_of_typed (h : package.constraintMetadata.isSome = true) :
    requireTypedAurPackageInfo package = .ok package := by
  unfold requireTypedAurPackageInfo
  rw [if_pos h]

/-- A record a lookup returns bears the name that was asked for and carries
its typed projection. -/
theorem queryAurPackageInfo_some {authoritative : Bool}
    (h : queryAurPackageInfo env context packageName authoritative =
      .ok (some info)) : info.name = packageName ∧ info.constraintMetadata.isSome = true := by
  unfold queryAurPackageInfo at h
  split at h
  · rename_i recipe hrecipe
    split at h
    · cases h
    · injection h with h
      injection h with h
      rw [← h]
      exact findRecipe_spec hrecipe
  · rw [bind_eq_ok] at h
    obtain ⟨package, hquery, h⟩ := h
    cases package with
    | none => cases h
    | some package =>
      have hname : package.name = packageName := by
        unfold aurInfoQuery at hquery
        split at hquery
        · exact env.aurInfoStrict_name packageName package hquery
        · exact env.aurInfo_name packageName package hquery
      dsimp only at h
      split at h
      · cases h
      · rw [bind_eq_ok] at h
        obtain ⟨typed, htyped, h⟩ := h
        injection h with h
        injection h with h
        obtain ⟨hrecord, hsome⟩ := requireTypedAurPackageInfo_ok htyped
        rw [← h]
        refine ⟨?_, hsome⟩
        rw [hrecord]
        exact hname

/-! ## Repository lookups -/

inductive RepositoryPackageQueryStatus
  | present (package : RepositoryPackagePresent)
  | notFound
  | unavailable

/-- The repository configuration seen first is the one of the whole plan. -/
def retainConfiguredRepositoryOrder (plan : BuildPlan)
    (configuredOrder : Option (List Bytes)) : Except Thrown BuildPlan :=
  match configuredOrder with
  | none => .ok plan
  | some order =>
    match plan.configuredRepositoryOrder with
    | none => .ok { plan with configuredRepositoryOrder := some order }
    | some retained =>
      if retained ≠ order then
        .error ⟨.runtimeError, ascii
          "Repository configuration changed during BuildPlan resolution."⟩
      else .ok plan

def queryRepositoryPackage (env : MetadataEnvironment) (packageName : Bytes)
    (failureContext : Option FailureContext) (plan : BuildPlan) :
    Except Thrown (RepositoryPackageQueryStatus × BuildPlan) := do
  match ← env.queryRepositoryPackageStrict packageName with
  | .present package =>
    let plan ←
      retainConfiguredRepositoryOrder plan package.configuredRepositoryOrder
    .ok (.present package, plan)
  | .notFound configuredOrder =>
    let plan ← retainConfiguredRepositoryOrder plan configuredOrder
    .ok (.notFound, plan)
  | .failure failure =>
    let plan ←
      retainConfiguredRepositoryOrder plan failure.configuredRepositoryOrder
    if failureContext = none then .error ⟨.runtimeError, failure.diagnostic⟩
    else
      .ok (.unavailable,
        addResolutionFailure failureContext .repositoryMetadataUnavailable
          packageName failure.diagnostic plan)

def repositoryCandidate (present : RepositoryPackagePresent)
    (packageName : Bytes) : RepositoryExactPackage where
  repository := ⟨present.repositoryName, present.configuredOrder⟩
  packageName :=
    if present.packageName = [] then packageName else present.packageName
  packageBase := present.packageBase
  packageVersion := present.packageVersion.getD
    (ObservedVersion.unknown .repositoryExactPackage .metadataQueryFailure)
  provides := present.provides
  architecture := present.architecture

/-! ## Evaluation -/

def evaluateDependencyRequirement (env : MetadataEnvironment)
    (requirement : DependencyRequirement) (observedVersion : ObservedVersion) :
    ConstraintEvaluation :=
  match requirement with
  | .consumer consumer =>
    evaluateConsumerDependencyRequirement env.vercmp consumer observedVersion
  | .soname _ => .unknown .relationKindNotComparable

def evaluateProviderRequirement (env : MetadataEnvironment)
    (requirement : DependencyRequirement) (provider : ProvidedDependency) :
    ConstraintEvaluation :=
  match requirement with
  | .soname _ => .unknown .relationKindNotComparable
  | .consumer consumer =>
    match provider.constraintMetadata with
    | none => .unknown .candidateVersionUnavailable
    | some metadata =>
      if metadata.providedCapability.packageName ≠ consumer.packageName then
        .invalid .internalInvariantViolation
      else
        evaluateConsumerDependencyRequirement env.vercmp consumer
          metadata.providedVersion

def providerObservedVersion (provider : ProvidedDependency) : ObservedVersion :=
  match provider.constraintMetadata with
  | some metadata => metadata.providedVersion
  | none =>
    match provider.origin with
    | .repository _ _ =>
      ObservedVersion.unknown .repositoryProviderCapability
        .candidateVersionUnavailable
    | .aur =>
      ObservedVersion.unknown .aurProviderCapability
        .candidateVersionUnavailable

def aurCandidate (package : AurPackageInfo) :
    Except Thrown AurResolvedDependencyCandidate :=
  match package.constraintMetadata with
  | none =>
    .error ⟨.logicError, ascii
      "AUR package metadata is missing its typed constraint projection: " ++
        package.name⟩
  | some metadata =>
    if metadata.packageName ≠ package.name ∨
        metadata.packageBase ≠ package.packageBase then
      .error ⟨.logicError, ascii
        "AUR package metadata constraint identity is inconsistent: " ++
          package.name⟩
    else
      .ok ⟨metadata.packageName, metadata.packageBase, metadata.packageVersion⟩

theorem aurCandidate_ok {candidate : AurResolvedDependencyCandidate}
    (h : aurCandidate package = .ok candidate) :
    candidate.packageName = package.name ∧ candidate.packageBase = package.packageBase := by
  unfold aurCandidate at h
  split at h
  · cases h
  · split at h
    · cases h
    · rename_i hsame
      push Not at hsame
      injection h with h
      rw [← h]
      exact hsame

/-! ## AUR providers -/

/-- The first capability of the record that bears the dependency's name. -/
def findProvidedCapability (metadata : AurPackageConstraintMetadata)
    (dependencyName : Bytes) : Option AurProviderCapabilityMetadata :=
  metadata.provides.find? fun candidate =>
    candidate.capability.packageName = dependencyName

def aurProviderFromMetadata (info : AurPackageInfo) (dependencyName : Bytes) :
    Except Thrown (Option ProvidedDependency) :=
  match info.constraintMetadata with
  | none => .ok none
  | some metadata =>
    match findProvidedCapability metadata dependencyName with
    | none => .ok none
    | some provided => do
        let provider ← ProvidedDependency.fromAurConstraintMetadata
          metadata.packageName metadata.packageBase
          ⟨provided.capability, metadata.packageVersion,
            provided.providedVersion⟩
        .ok (some provider)

def providerMetadataNotReturned : Bytes :=
  ascii "AUR provider candidate metadata was not returned."

/-- What the discovery loops thread: the candidates so far and the plan the
failures go to. -/
abbrev DiscoveryState := ProviderCandidateDiscovery × BuildPlan

variable {state found found' : DiscoveryState}

/-- A candidate whose metadata could not be read: the set is no longer
complete. -/
def recordUnreadCandidate (failureContext : Option FailureContext)
    (candidate diagnostic : Bytes) (state : DiscoveryState) : DiscoveryState :=
  ({ state.1 with
      isComplete := false
      incompleteReason := some .partialSourceFailure },
    addResolutionFailure failureContext .providerCandidateMetadataUnavailable
      candidate diagnostic state.2)

/-- One turn of the candidate loop of `find_aur_providers`. -/
def checkAurProviderCandidate (env : MetadataEnvironment)
    (context : BuildPlanResolutionContext)
    (failureContext : Option FailureContext) (dependencyName : Bytes)
    (state : DiscoveryState) (candidate : Bytes) :
    Except Thrown DiscoveryState :=
  if (findRecipe context.recipes candidate).any fun recipe =>
      !recipe.recipeArchitectureSupported then .ok state
  else
    match queryAurPackageInfo env context candidate with
    | .error thrown =>
      if thrown.isOrdinary then
        .ok (recordUnreadCandidate failureContext candidate thrown.what state)
      else .error thrown
    | .ok none =>
      .ok (recordUnreadCandidate failureContext candidate
        providerMetadataNotReturned state)
    | .ok (some info) => do
        let info ← requireTypedAurPackageInfo info
        match ← aurProviderFromMetadata info dependencyName with
        | some provider =>
          .ok ({ state.1 with
            candidates := addProviderCandidate state.1.candidates provider },
            state.2)
        | none => .ok state

/-- The names of supported recipes that provide the dependency, added to the
names the search returned. -/
def addRecipeProviders (recipes : Option AurRecipeMetadataSet)
    (dependencyName : Bytes) (candidates : List Bytes) :
    Except Thrown (List Bytes) :=
  (recipeList recipes).foldlM
    (fun candidates recipe =>
      if !recipe.2.recipeArchitectureSupported then .ok candidates
      else do
        match ← aurProviderFromMetadata recipe.2 dependencyName with
        | some _ => .ok (addUniqueValue candidates recipe.1)
        | none => .ok candidates)
    candidates

def findAurProviders (env : MetadataEnvironment) (dependencyName : Bytes)
    (failureContext : Option FailureContext) (requireCompleteCandidates : Bool)
    (recipes : Option AurRecipeMetadataSet) (plan : BuildPlan) :
    Except Thrown DiscoveryState :=
  if !isValidPackageName dependencyName then .ok ({}, plan)
  else
    let useStrictQuery := failureContext.isSome || requireCompleteCandidates
    let search :=
      if useStrictQuery then env.searchNamesByProvidesStrict dependencyName
      else env.searchNamesByProvides dependencyName
    match search with
    | .error thrown =>
      if thrown.isOrdinary then
        .ok ({ isComplete := false, incompleteReason := some .metadataQueryFailure },
          addResolutionFailure failureContext .providerSearchUnavailable
            dependencyName thrown.what plan)
      else .error thrown
    | .ok names => do
        let candidates ← addRecipeProviders recipes dependencyName names
        candidates.foldlM
          (checkAurProviderCandidate env
            ⟨if useStrictQuery then .captureOrdinaryFailures else .legacy, recipes⟩
            failureContext dependencyName)
          ({}, plan)

/-- `find_dependency_providers`: repository providers first; AUR providers
are searched only when every repository answered and none provides the
dependency. -/
def findDependencyProviders (env : MetadataEnvironment) (dependencyName : Bytes)
    (failureContext : Option FailureContext)
    (requireAuthoritativeCandidates : Bool)
    (recipes : Option AurRecipeMetadataSet) (plan : BuildPlan) :
    Except Thrown DiscoveryState := do
  match ← env.queryRepositoryProvidersStrict dependencyName with
  | .failure failure =>
    let plan ←
      retainConfiguredRepositoryOrder plan failure.configuredRepositoryOrder
    .ok ({ isComplete := false, incompleteReason := some .metadataQueryFailure },
      addResolutionFailure failureContext .repositoryMetadataUnavailable
        dependencyName failure.diagnostic plan)
  | .snapshot repository =>
    let plan ←
      retainConfiguredRepositoryOrder plan repository.configuredRepositoryOrder
    if repository.sourceFailures ≠ [] then
      .ok ({
          candidates := repository.candidates
          isComplete := false
          incompleteReason := some .partialSourceFailure
          repositoryObservations := repository.observedPackages },
        repository.sourceFailures.foldl
          (fun plan failure =>
            addResolutionFailure failureContext .repositoryMetadataUnavailable
              dependencyName failure.diagnostic plan)
          plan)
    else if repository.candidates ≠ [] then
      .ok ({
          candidates := repository.candidates
          repositoryObservations := repository.observedPackages }, plan)
    else
      findAurProviders env dependencyName failureContext
        requireAuthoritativeCandidates recipes plan

/-! ## What a lookup changes -/

/-- Lookups touch the failures and the retained repository order only. -/
def LookupFrame (before after : BuildPlan) : Prop :=
  after = { before with
    resolutionFailures := after.resolutionFailures
    configuredRepositoryOrder := after.configuredRepositoryOrder }

theorem LookupFrame.refl (plan : BuildPlan) : LookupFrame plan plan := rfl

theorem LookupFrame.trans {first second third : BuildPlan}
    (h : LookupFrame first second) (h' : LookupFrame second third) :
    LookupFrame first third := by
  unfold LookupFrame at h h' ⊢
  rw [h', h]

theorem addResolutionFailure_frame (context : Option FailureContext)
    (kind : BuildPlanResolutionFailureKind) (subject diagnostic : Bytes)
    (plan : BuildPlan) :
    LookupFrame plan (addResolutionFailure context kind subject diagnostic plan) := by
  unfold addResolutionFailure
  cases context <;> rfl

/-- The retained order is the only change. -/
theorem retainConfiguredRepositoryOrder_ok {configuredOrder : Option (List Bytes)}
    (h : retainConfiguredRepositoryOrder plan configuredOrder = .ok after) :
    after = { plan with
      configuredRepositoryOrder := after.configuredRepositoryOrder } := by
  unfold retainConfiguredRepositoryOrder at h
  split at h
  · injection h with h
    rw [← h]
  · split at h
    · injection h with h
      rw [← h]
    · split at h
      · cases h
      · injection h with h
        rw [← h]

/-- What a repository lookup says and what it changed. -/
inductive RepositoryQuerySpec (env : MetadataEnvironment) (packageName : Bytes)
    (plan : BuildPlan) : RepositoryPackageQueryStatus → BuildPlan → Prop
  | present (package : RepositoryPackagePresent) (order : Option (List Bytes)) :
      RepositoryQuerySpec env packageName plan (.present package)
        { plan with configuredRepositoryOrder := order }
  | notFound (order : Option (List Bytes))
      (habsent : ∃ configured, env.queryRepositoryPackageStrict packageName =
        .ok (.notFound configured)) :
      RepositoryQuerySpec env packageName plan .notFound
        { plan with configuredRepositoryOrder := order }
  | unavailable (after : BuildPlan) (hframe : LookupFrame plan after) :
      RepositoryQuerySpec env packageName plan .unavailable after

theorem queryRepositoryPackage_spec {status : RepositoryPackageQueryStatus}
    (h : queryRepositoryPackage env packageName failureContext plan =
      .ok (status, after)) : RepositoryQuerySpec env packageName plan status after := by
  unfold queryRepositoryPackage at h
  rw [bind_eq_ok] at h
  obtain ⟨result, hresult, h⟩ := h
  cases result with
  | present package =>
    simp only [bind_eq_ok] at h
    obtain ⟨retained, hretained, h⟩ := h
    injection h with h
    injection h with hstatus hafter
    rw [← hstatus, ← hafter, retainConfiguredRepositoryOrder_ok hretained]
    exact RepositoryQuerySpec.present package _
  | notFound order =>
    simp only [bind_eq_ok] at h
    obtain ⟨retained, hretained, h⟩ := h
    injection h with h
    injection h with hstatus hafter
    rw [← hstatus, ← hafter, retainConfiguredRepositoryOrder_ok hretained]
    exact RepositoryQuerySpec.notFound _ ⟨order, hresult⟩
  | failure failure =>
    simp only [bind_eq_ok] at h
    obtain ⟨retained, hretained, h⟩ := h
    split at h
    · cases h
    · injection h with h
      injection h with hstatus hafter
      have hframe : LookupFrame plan retained := by
        unfold LookupFrame
        rw [retainConfiguredRepositoryOrder_ok hretained]
      rw [← hstatus, ← hafter]
      exact RepositoryQuerySpec.unavailable _ (hframe.trans (addResolutionFailure_frame _ _ _ _ _))

/-- What a finished discovery offers and what it left in the plan: candidates
of the name that was asked for; a complete one recorded no failure, and an
incomplete one says why. -/
structure DiscoverySpec (dependencyName : Bytes) (before : BuildPlan)
    (found : DiscoveryState) : Prop where
  named : CandidatesFor dependencyName found.1.candidates
  frame : LookupFrame before found.2
  failures : found.1.isComplete = true →
    found.2.resolutionFailures = before.resolutionFailures
  reason : found.1.isComplete = false → found.1.incompleteReason.isSome = true

theorem aurProviderFromMetadata_name {provider : ProvidedDependency}
    (h : aurProviderFromMetadata info dependencyName = .ok (some provider)) :
    provider.providedDependencyName = dependencyName := by
  unfold aurProviderFromMetadata at h
  split at h
  · cases h
  · split at h
    · cases h
    · rename_i provided hprovided
      rw [bind_eq_ok] at h
      obtain ⟨built, hbuilt, h⟩ := h
      injection h with h
      injection h with h
      have hname := List.find?_some hprovided
      rw [← h, ProvidedDependency.fromAurConstraintMetadata_ok hbuilt]
      simpa using hname

theorem checkAurProviderCandidate_spec {before : BuildPlan} {after : DiscoveryState}
    (hstate : DiscoverySpec dependencyName before state)
    (h : checkAurProviderCandidate env context failureContext dependencyName state
      candidate = .ok after) : DiscoverySpec dependencyName before after := by
  have hunread : ∀ diagnostic, DiscoverySpec dependencyName before
      (recordUnreadCandidate failureContext candidate diagnostic state) := by
    intro diagnostic
    exact {
      named := hstate.named
      frame := hstate.frame.trans (addResolutionFailure_frame _ _ _ _ _)
      failures := fun hcomplete => by cases hcomplete
      reason := fun _ => rfl }
  unfold checkAurProviderCandidate at h
  split at h
  · injection h with h
    rw [← h]
    exact hstate
  · split at h
    · split at h
      · injection h with h
        rw [← h]
        exact hunread _
      · cases h
    · injection h with h
      rw [← h]
      exact hunread _
    · simp only [bind_eq_ok] at h
      obtain ⟨info, -, provider, hprovider, h⟩ := h
      split at h
      · injection h with h
        rw [← h]
        exact ⟨hstate.named.add (aurProviderFromMetadata_name hprovider),
          hstate.frame, hstate.failures, hstate.reason⟩
      · injection h with h
        rw [← h]
        exact hstate

theorem findAurProviders_spec {requireComplete : Bool}
    (h : findAurProviders env dependencyName failureContext requireComplete recipes
      plan = .ok found) : DiscoverySpec dependencyName plan found := by
  have hnone : CandidatesFor dependencyName [] := fun _ hmem => by cases hmem
  have hinitial : DiscoverySpec dependencyName plan ({}, plan) :=
    ⟨hnone, LookupFrame.refl plan, fun _ => rfl, fun hcomplete => by cases hcomplete⟩
  unfold findAurProviders at h
  split at h
  · injection h with h
    rw [← h]
    exact hinitial
  · dsimp only at h
    split at h
    · split at h
      · injection h with h
        rw [← h]
        exact {
          named := hnone
          frame := addResolutionFailure_frame _ _ _ _ _
          failures := fun hcomplete => by cases hcomplete
          reason := fun _ => rfl }
      · cases h
    · rw [bind_eq_ok] at h
      obtain ⟨candidates, -, h⟩ := h
      refine foldlM_inv ?_ hinitial h
      intro candidate _ state after hstate hstep
      exact checkAurProviderCandidate_spec hstate hstep

theorem foldl_addResolutionFailure_frame {context : Option FailureContext} :
    ∀ (failures : List RepositoryMetadataFailure) (plan : BuildPlan),
      LookupFrame plan (failures.foldl (fun plan failure =>
          addResolutionFailure context .repositoryMetadataUnavailable
            dependencyName failure.diagnostic plan)
        plan) := by
  intro failures
  induction failures with
  | nil => exact LookupFrame.refl
  | cons failure rest ih =>
    intro plan
    rw [List.foldl_cons]
    exact (addResolutionFailure_frame _ _ _ _ _).trans (ih _)

theorem findDependencyProviders_spec {requireAuthoritative : Bool}
    (h : findDependencyProviders env dependencyName failureContext
      requireAuthoritative recipes plan = .ok found) : DiscoverySpec dependencyName plan found := by
  unfold findDependencyProviders at h
  rw [bind_eq_ok] at h
  obtain ⟨result, hresult, h⟩ := h
  cases result with
  | failure failure =>
    simp only [bind_eq_ok] at h
    obtain ⟨retained, hretained, h⟩ := h
    injection h with h
    have horder := retainConfiguredRepositoryOrder_ok hretained
    have hframe : LookupFrame plan retained := by
      unfold LookupFrame
      rw [horder]
    rw [← h]
    exact {
      named := fun _ hmem => by cases hmem
      frame := hframe.trans (addResolutionFailure_frame _ _ _ _ _)
      failures := fun hcomplete => by cases hcomplete
      reason := fun _ => rfl }
  | snapshot repository =>
    have hnamed := queryProvidersStrict_candidates hresult
    simp only [bind_eq_ok] at h
    obtain ⟨retained, hretained, h⟩ := h
    have horder := retainConfiguredRepositoryOrder_ok hretained
    have hframe : LookupFrame plan retained := by
      unfold LookupFrame
      rw [horder]
    have hfailures : retained.resolutionFailures = plan.resolutionFailures := by
      rw [horder]
    split at h
    · injection h with h
      rw [← h]
      exact {
        named := hnamed
        frame := hframe.trans (foldl_addResolutionFailure_frame _ _)
        failures := fun hcomplete => by cases hcomplete
        reason := fun _ => rfl }
    · split at h
      · injection h with h
        rw [← h]
        exact {
          named := hnamed
          frame := hframe
          failures := fun _ => hfailures
          reason := fun hcomplete => by cases hcomplete }
      · have hfound := findAurProviders_spec h
        exact {
          named := hfound.named
          frame := hframe.trans hfound.frame
          failures := fun hcomplete =>
            (hfound.failures hcomplete).trans hfailures
          reason := hfound.reason }

/-! ## The candidates of a name -/

theorem checkAurProviderCandidate_agree {state' after after' : DiscoveryState}
    (hsame : state.1 = state'.1)
    (h : checkAurProviderCandidate env context failureContext dependencyName state
      candidate = .ok after)
    (h' : checkAurProviderCandidate env context failureContext' dependencyName state'
      candidate = .ok after') : after.1 = after'.1 := by
  unfold checkAurProviderCandidate at h h'
  split at h
  · rename_i hskipped
    rw [if_pos hskipped] at h'
    injection h with h
    injection h' with h'
    rw [← h, ← h', hsame]
  · rename_i hchecked
    rw [if_neg hchecked] at h'
    cases hinfo : queryAurPackageInfo env context candidate with
    | error thrown =>
      simp only [hinfo] at h h'
      split at h
      · rename_i hordinary
        rw [if_pos hordinary] at h'
        injection h with h
        injection h' with h'
        rw [← h, ← h']
        unfold recordUnreadCandidate
        rw [hsame]
      · cases h
    | ok info =>
      cases info with
      | none =>
        simp only [hinfo] at h h'
        injection h with h
        injection h' with h'
        rw [← h, ← h']
        unfold recordUnreadCandidate
        rw [hsame]
      | some info =>
        simp only [hinfo, bind_eq_ok] at h h'
        obtain ⟨typed, htyped, provider, hprovider, h⟩ := h
        obtain ⟨typed', htyped', provider', hprovider', h'⟩ := h'
        rw [htyped] at htyped'
        injection htyped' with htyped'
        rw [← htyped', hprovider] at hprovider'
        injection hprovider' with hprovider'
        rw [← hprovider'] at h'
        cases provider with
        | none =>
          injection h with h
          injection h' with h'
          rw [← h, ← h', hsame]
        | some provider =>
          injection h with h
          injection h' with h'
          rw [← h, ← h']
          dsimp only
          rw [hsame]

theorem findAurProviders_agree
    (h : findAurProviders env dependencyName failureContext true recipes plan =
      .ok found) (h' : findAurProviders env dependencyName failureContext' true recipes plan' =
      .ok found') : found.1 = found'.1 := by
  unfold findAurProviders at h h'
  simp only [Bool.or_true, if_true] at h h'
  split at h
  · rename_i hinvalid
    rw [if_pos hinvalid] at h'
    injection h with h
    injection h' with h'
    rw [← h, ← h']
  · rename_i hvalid
    rw [if_neg hvalid] at h'
    cases hsearch : env.searchNamesByProvidesStrict dependencyName with
    | error thrown =>
      simp only [hsearch] at h h'
      split at h
      · rename_i hordinary
        rw [if_pos hordinary] at h'
        injection h with h
        injection h' with h'
        rw [← h, ← h']
      · cases h
    | ok names =>
      simp only [hsearch, bind_eq_ok] at h h'
      obtain ⟨candidates, hcandidates, h⟩ := h
      obtain ⟨candidates', hcandidates', h'⟩ := h'
      rw [hcandidates] at hcandidates'
      injection hcandidates' with hcandidates'
      rw [← hcandidates'] at h'
      refine foldlM_agree (R := fun first second : DiscoveryState =>
        first.1 = second.1) ?_ ?_ h h'
      · intro candidate state state' after after' hsame hstep hstep'
        exact checkAurProviderCandidate_agree hsame hstep hstep'
      · rfl

/-- The candidates depend on the name and the metadata only: not on the plan
the failures go to. -/
theorem findDependencyProviders_agree
    (h : findDependencyProviders env dependencyName failureContext true recipes plan = .ok found)
    (h' : findDependencyProviders env dependencyName failureContext' true recipes plan' =
      .ok found') : found.1 = found'.1 := by
  unfold findDependencyProviders at h h'
  rw [bind_eq_ok] at h h'
  obtain ⟨result, hresult, h⟩ := h
  obtain ⟨result', hresult', h'⟩ := h'
  rw [hresult] at hresult'
  injection hresult' with hresult'
  rw [← hresult'] at h'
  cases result with
  | failure failure =>
    simp only [bind_eq_ok] at h h'
    obtain ⟨retained, -, h⟩ := h
    obtain ⟨retained', -, h'⟩ := h'
    injection h with h
    injection h' with h'
    rw [← h, ← h']
  | snapshot repository =>
    simp only [bind_eq_ok] at h h'
    obtain ⟨retained, -, h⟩ := h
    obtain ⟨retained', -, h'⟩ := h'
    by_cases hfailures : repository.sourceFailures ≠ []
    · rw [if_pos hfailures] at h h'
      injection h with h
      injection h' with h'
      rw [← h, ← h']
    · rw [if_neg hfailures] at h h'
      by_cases hcandidates : repository.candidates ≠ []
      · rw [if_pos hcandidates] at h h'
        injection h with h
        injection h' with h'
        rw [← h, ← h']
      · rw [if_neg hcandidates] at h h'
        exact findAurProviders_agree h h'

def repositoryProviderObservation (discovery : ProviderCandidateDiscovery)
    (provider : ProvidedDependency) : Option RepositoryExactPackage :=
  match provider.origin with
  | .repository repositoryName (some configuredOrder) =>
    discovery.repositoryObservations.find? fun package =>
      package.packageName = provider.packageName &&
        package.repository.repositoryName = repositoryName &&
        package.repository.configuredOrder = configuredOrder
  | _ => none

/-! ## Provider selection -/

/-- Explicitly selected providers, in candidate order. The empty set cannot
be built. -/
structure ProviderSelectionSet where
  members : List ProvidedDependency
  members_ne_nil : members ≠ []

def incompatibleProviders (existing selected : ProvidedDependency) : Bytes :=
  ascii "Selected providers use incompatible identities for package " ++
    selected.packageName ++ ascii ": " ++
    providerPackageIdentityDisplay existing ++ ascii " and " ++
    providerPackageIdentityDisplay selected ++ ascii "."

/-- The members among the candidates from one-origin position `index` on. -/
def collectMembers (indices : List Nat) :
    Nat → List ProvidedDependency → List ProvidedDependency →
      Except Thrown (List ProvidedDependency)
  | _, [], members => .ok members
  | index, candidate :: rest, members =>
    if index ∉ indices then collectMembers indices (index + 1) rest members
    else if members.any (sameProviderIdentity · candidate) then
      collectMembers indices (index + 1) rest members
    else
      match members.find? fun member =>
          hasIncompatibleProviderPackageIdentity member candidate with
      | some incompatible =>
        .error ⟨.runtimeError, incompatibleProviders incompatible candidate⟩
      | none =>
        collectMembers indices (index + 1) rest (members ++ [candidate])

def emptySelection : Thrown :=
  ⟨.invalidArgument, ascii "Provider selection set cannot be empty."⟩

/-- `ProviderSelectionSet::from_candidate_indices`. -/
def ProviderSelectionSet.fromCandidateIndices
    (candidates : List ProvidedDependency) (indices : List Nat) :
    Except Thrown ProviderSelectionSet :=
  if indices = [] then .error emptySelection
  else if indices.any fun index => index = 0 || candidates.length < index then
    .error ⟨.outOfRange, ascii "Provider selection index is out of range."⟩
  else
    match collectMembers indices 1 candidates [] with
    | .error thrown => .error thrown
    | .ok members =>
      if h : members = [] then .error emptySelection
      else .ok ⟨members, h⟩

structure ProviderSelectionRequest where
  dependency : Bytes
  candidates : List ProvidedDependency

/-- A selection callback may keep state of its own, which only its earlier
calls can change: its answer is a function of those calls and the present
one. -/
abbrev ProviderSelectionCallback :=
  List ProviderSelectionRequest → Bytes → List ProvidedDependency →
    Except Thrown (Option ProviderSelectionSet)

/-- The one-origin position of the first candidate with the member's
identity. -/
def offeredIndex (dependency : Bytes) (candidates : List ProvidedDependency)
    (member : ProvidedDependency) : Except Thrown Nat :=
  match candidates.findIdx? (sameProviderIdentity · member) with
  | some index => .ok (index + 1)
  | none =>
    .error ⟨.logicError, ascii
      "Provider selection returned a candidate that was not offered for " ++
        dependency ++ ascii "."⟩

/-- `select_provider_candidates`: ask the callback, then rebuild every member
from the candidates offered. The second component is the log of calls. -/
def selectProviderCandidates (dependency : Bytes)
    (candidates : List ProvidedDependency)
    (selectProvider : Option ProviderSelectionCallback)
    (requests : List ProviderSelectionRequest) :
    Except Thrown (Option ProviderSelectionSet × List ProviderSelectionRequest) :=
  match selectProvider with
  | none => .ok (none, requests)
  | some select =>
    if candidates = [] then .ok (none, requests)
    else do
      let selected ← select requests dependency candidates
      let asked := requests ++ [⟨dependency, candidates⟩]
      match selected with
      | none => .ok (none, asked)
      | some selected =>
        let indices ← selected.members.mapM (offeredIndex dependency candidates)
        let rebuilt ←
          ProviderSelectionSet.fromCandidateIndices candidates indices
        .ok (some rebuilt, asked)

end Moguet.Plan.Discovery
