import Moguet.Plan.Dependency
import Moguet.Plan.Readiness

/-!
# The build-plan walk

`collect_aur_build_plan` and `resolve_build_plan_dependency`: a mutually
recursive descent through package names that records, for every declared
dependency, what it was resolved to.

The two functions are tied through the collector a dependency is given for
its own sub-walk. The depth limit of the source makes the descent structural:
`remaining` is what is left of it, and a collector with nothing left records
the package as unresolved.

The cascade of `resolve_build_plan_dependency` is cut where its early returns
stand: the local resolver, the requirement, the repositories, the AUR, the
providers and the installed packages, each stage ending in the next.
-/

namespace Moguet.Plan.Resolver

open Verified.ByteString Verified.Upsert Constraint Metadata Model Discovery Dependency Readiness

/-! ## Settings and state of a walk -/

/-- `dependency_plan_projection_support::DependencyContext`. -/
structure DependencyContext where
  parentPackageName : Bytes
  parentPackageBase : Bytes
  declarations : List TypedPackageDependency
  root : RootTargetIdentity

structure DependencyDecision where
  handledLocally : Bool
  cyclePackageBase : Option Bytes := none
  unresolvedReason : Option Bytes := none

/-- Like a selection callback, the local resolver is a function of its
earlier calls and the present one. -/
abbrev LocalDependencyResolver :=
  List DependencyContext → DependencyContext → Except Thrown DependencyDecision

structure RemoteProviderIdentityConflict where
  parentPackageName : Bytes
  dependencySpecification : Bytes
  provider : ProvidedDependency

/-- The arguments every call of the walk passes on unchanged. -/
structure ResolverSettings where
  env : MetadataEnvironment
  context : BuildPlanResolutionContext
  traverseAurProviders : Bool := true
  selectProvider : Option ProviderSelectionCallback := none
  localPackageBases : List Bytes := []
  localPackageNames : List Bytes := []
  recordIdentityConflicts : Bool := false
  resolveLocalDependency : Option LocalDependencyResolver := none

/-- The state the walk threads: the plan, the two name sets, and the calls
made so far to the two callbacks. -/
structure WalkState where
  plan : BuildPlan := {}
  visited : List Bytes := []
  visiting : List Bytes := []
  identityConflicts : List RemoteProviderIdentityConflict := []
  requests : List ProviderSelectionRequest := []
  localRequests : List DependencyContext := []

def WalkState.withPlan (state : WalkState) (plan : BuildPlan) : WalkState :=
  { state with plan := plan }

/-- The arguments of one `collect_aur_build_plan` call. -/
structure CollectRequest where
  packageName : Bytes
  roles : List PackageRole
  root : RootTargetIdentity
  parentPackageName : Option Bytes := none
  parentPackageBase : Option Bytes := none
  dependencySpecification : Option Bytes := none
  expectedSelectedProvider : Option ProvidedDependency := none
  preloadedPackageInfo : Option AurPackageInfo := none

abbrev Collector := CollectRequest → WalkState → Except Thrown WalkState

/-- One dependency of one parent: the specification that is resolved and the
declarations it stands for. -/
structure DependencySite where
  parentPackageName : Bytes
  parentPackageBase : Bytes
  dependency : Bytes
  declarations : List TypedPackageDependency
  root : RootTargetIdentity

namespace DependencySite

def failureContext (site : DependencySite) : FailureContext where
  root := site.root
  parentPackageName := some site.parentPackageName
  parentPackageBase := some site.parentPackageBase
  dependencySpecification := some site.dependency

/-- The edge every classification of the site starts from. -/
def edge (site : DependencySite) (first : TypedPackageDependency) :
    BuildPlanDependencyEdge where
  parentPackageName := site.parentPackageName
  parentPackageBase := site.parentPackageBase
  dependencySpec := first.specification
  role := first.role

def roles (site : DependencySite) : List PackageRole :=
  packageRolesForDependencies site.declarations

end DependencySite

/-- The sink of a lookup failure: absent in the legacy mode. -/
def failureSink (settings : ResolverSettings) (context : FailureContext) :
    Option FailureContext :=
  if settings.context.mode = .captureOrdinaryFailures then some context else none

/-- The state with the edges of a site appended to its plan. -/
def WalkState.addEdges (state : WalkState) (site : DependencySite)
    (edge : BuildPlanDependencyEdge) : WalkState :=
  state.withPlan (addBuildPlanDependencyEdges state.plan edge site.declarations)

def applyDecision (plan : BuildPlan) (decision : DependencyDecision) :
    BuildPlan :=
  let plan :=
    match decision.cyclePackageBase with
    | some base => addCycle plan base
    | none => plan
  match decision.unresolvedReason with
  | some reason => addUnresolved plan reason
  | none => plan

/-- Whether the local resolver took the dependency, and the state after its
decision. -/
def decideLocally (settings : ResolverSettings) (site : DependencySite)
    (state : WalkState) : Except Thrown (Bool × WalkState) :=
  match settings.resolveLocalDependency with
  | none => .ok (false, state)
  | some resolve => do
      let context : DependencyContext :=
        ⟨site.parentPackageName, site.parentPackageBase, site.declarations,
          site.root⟩
      let decision ← resolve state.localRequests context
      let asked := { state with localRequests := state.localRequests ++ [context] }
      if decision.handledLocally then
        .ok (true, asked.withPlan (applyDecision asked.plan decision))
      else .ok (false, asked)

/-! ## Installed packages and ambiguous candidates -/

def installedEdge (settings : ResolverSettings) (edge : BuildPlanDependencyEdge)
    (consumer : ConsumerDependencyRequirement) (installed : InstalledExactPackage) :
    BuildPlanDependencyEdge :=
  { edge with
    kind := .installed
    resolvedPackageName := some installed.packageName
    resolvedCandidate := some (.installed installed)
    constraintEvaluation := some (evaluateDependencyRequirement settings.env
      (.consumer consumer) installed.observedVersion) }

/-- No candidate was left to offer: the dependency is installed, absent, or
its installed metadata could not be read. -/
def resolveInstalled (settings : ResolverSettings) (site : DependencySite)
    (edge : BuildPlanDependencyEdge) (consumer : ConsumerDependencyRequirement)
    (state : WalkState) : Except Thrown WalkState := do
  match ← settings.env.queryInstalledExactPackageStrict consumer.packageName with
  | .present installed =>
    .ok (state.addEdges site (installedEdge settings edge consumer installed))
  | .absent _ =>
    .ok ((state.withPlan (addUnresolved state.plan site.dependency)).addEdges
      site edge)
  | .queryFailure _ diagnostic =>
    let plan := addResolutionFailure (some site.failureContext)
      .installedPackageMetadataUnavailable consumer.packageName diagnostic
      state.plan
    .ok ((state.withPlan (addUnresolved plan site.dependency)).addEdges site
      { edge with constraintEvaluation := some (.unknown .metadataQueryFailure) })

def recordAmbiguous (site : DependencySite) (edge : BuildPlanDependencyEdge)
    (candidates : List ProvidedDependency) (state : WalkState) : WalkState :=
  (state.withPlan
    (addBuildPlanAmbiguousProvider state.plan site.dependency candidates)).addEdges
      site { edge with kind := .ambiguousProvider }

/-! ## Selected providers -/

/-- What re-reading a selected provider gave. -/
inductive ProviderRefresh
  | current (provider : ProvidedDependency) (evaluation : ConstraintEvaluation)
      (info : Option AurPackageInfo)
  | unknown (reason : ObservedVersionUnknownReason)

/-- The lookup of a selected AUR provider. An ordinary failure is recorded and
leaves the provider without a record. -/
def readSelectedProvider (settings : ResolverSettings) (site : DependencySite)
    (selected : ProvidedDependency) (plan : BuildPlan) :
    Except Thrown (Option AurPackageInfo × BuildPlan) :=
  match queryAurPackageInfo settings.env settings.context selected.packageName
      true with
  | .ok info => .ok (info, plan)
  | .error thrown =>
    if thrown.isOrdinary then
      .ok (none, addResolutionFailure (some site.failureContext)
        .providerCandidateMetadataUnavailable selected.packageName thrown.what
        plan)
    else .error thrown

/-- The record an AUR provider has now, or that it is unknown, which is
recorded too. -/
def currentProviderMetadata (site : DependencySite)
    (selected : ProvidedDependency) (info : Option AurPackageInfo)
    (plan : BuildPlan) :
    Except Thrown (AurProviderCandidateMetadata × Option AurPackageInfo × BuildPlan) :=
  match info with
  | some info => do
      let info ← requireTypedAurPackageInfo info
      match info.constraintMetadata with
      | some metadata => .ok (.metadata metadata, some info, plan)
      | none => .error ⟨.badOptionalAccess, ascii "bad optional access"⟩
  | none =>
    .ok (.unavailable selected.packageName (some selected.packageBase)
        .metadataQueryFailure,
      none,
      addResolutionFailure (some site.failureContext)
        .providerCandidateMetadataUnavailable selected.packageName
        providerMetadataNotReturned plan)

/-- An AUR provider is read again before it is planned; a repository provider
is taken as it was discovered. -/
def refreshSelectedProvider (settings : ResolverSettings)
    (site : DependencySite) (consumer : ConsumerDependencyRequirement)
    (selected : ProvidedDependency) (plan : BuildPlan) :
    Except Thrown (ProviderRefresh × BuildPlan) :=
  let evaluation :=
    evaluateProviderRequirement settings.env (.consumer consumer) selected
  if selected.origin ≠ .aur then .ok (.current selected evaluation none, plan)
  else do
    let (read, plan) ← readSelectedProvider settings site selected plan
    let (metadata, info, plan) ← currentProviderMetadata site selected read plan
    match ← refreshAurProviderDependency settings.env
        ⟨consumer, selected, evaluation⟩ metadata with
    | .projection projection =>
      .ok (.current projection.provider projection.evaluation info, plan)
    | .unknown reason => .ok (.unknown reason, plan)
    | .failure _ =>
      .error ⟨.runtimeError,
        selectedAurProviderRevalidationFailureDiagnostic selected⟩

/-- The edge of a provider that stays unresolved. A choice of the user is
kept on it. -/
def unresolvedProviderEdge (edge : BuildPlanDependencyEdge)
    (provider : ProvidedDependency) (resolution : ProviderResolutionKind) :
    BuildPlanDependencyEdge :=
  { edge with
    kind := .unknown
    resolvedProvider :=
      if resolution = .userSelected then some provider else edge.resolvedProvider
    providerResolution := resolution }

def retainUserSelection (site : DependencySite) (provider : ProvidedDependency)
    (resolution : ProviderResolutionKind) (plan : BuildPlan) : BuildPlan :=
  if resolution = .userSelected then
    addBuildPlanProvidedDependency plan site.dependency provider resolution
  else plan

def returnsLocalPackageBase (settings : ResolverSettings)
    (provider : ProvidedDependency) : Bool :=
  provider.origin = .aur && provider.packageBase ∈ settings.localPackageBases

def localIdentityConflictText (dependency : Bytes) : Bytes :=
  dependency ++ ascii " (remote provider conflicts with local package identity)"

def recordIdentityConflict (settings : ResolverSettings) (site : DependencySite)
    (edge : BuildPlanDependencyEdge) (provider : ProvidedDependency)
    (resolution : ProviderResolutionKind) (state : WalkState) : WalkState :=
  let conflicts :=
    if settings.recordIdentityConflicts then
      state.identityConflicts ++
        [⟨site.parentPackageName, site.dependency, provider⟩]
    else state.identityConflicts
  ({ state with
      identityConflicts := conflicts
      plan := retainUserSelection site provider resolution
        (addUnresolved state.plan (localIdentityConflictText site.dependency)) }).addEdges
    site (unresolvedProviderEdge edge provider resolution)

/-- The edge of a provider the dependency is resolved to. -/
def providedEdge (edge : BuildPlanDependencyEdge) (provider : ProvidedDependency)
    (evaluation : ConstraintEvaluation) (resolution : ProviderResolutionKind) :
    BuildPlanDependencyEdge :=
  { edge with
    kind := .provided
    resolvedProvider := some provider
    providerResolution := resolution
    resolvedCandidate :=
      some (.provider ⟨provider, providerObservedVersion provider⟩)
    constraintEvaluation := some evaluation }

/-- A repository provider the discovery observed is a planned target of the
relation assessment. -/
def observeRepositoryProvider (site : DependencySite)
    (discovery : ProviderCandidateDiscovery) (provider : ProvidedDependency)
    (plan : BuildPlan) : Except Thrown BuildPlan :=
  match repositoryProviderObservation discovery provider with
  | some observation =>
    addPlannedRelationObservation plan
      (projectRepositoryPlannedRelationObservation observation []) site.root
  | none => .ok plan

/-- The plan with a resolved provider in it, before its own sub-walk. -/
def recordProvided (site : DependencySite) (edge : BuildPlanDependencyEdge)
    (discovery : ProviderCandidateDiscovery) (provider : ProvidedDependency)
    (evaluation : ConstraintEvaluation) (resolution : ProviderResolutionKind)
    (state : WalkState) : Except Thrown WalkState := do
  let plan ← observeRepositoryProvider site discovery provider state.plan
  .ok ((state.withPlan (addBuildPlanProvidedDependency plan site.dependency
    provider resolution)).addEdges site
      (providedEdge edge provider evaluation resolution))

def providerRequest (site : DependencySite) (provider : ProvidedDependency)
    (info : Option AurPackageInfo) : CollectRequest where
  packageName := provider.packageName
  roles := site.roles
  root := site.root
  parentPackageName := some site.parentPackageName
  parentPackageBase := some site.parentPackageBase
  dependencySpecification := some site.dependency
  expectedSelectedProvider := some provider
  preloadedPackageInfo := info

/-- One turn of the loop over the selected members. -/
def planProvider (settings : ResolverSettings) (collect : Collector)
    (site : DependencySite) (edge : BuildPlanDependencyEdge)
    (consumer : ConsumerDependencyRequirement)
    (discovery : ProviderCandidateDiscovery) (resolution : ProviderResolutionKind)
    (state : WalkState) (selected : ProvidedDependency) :
    Except Thrown WalkState := do
  let (refresh, plan) ←
    refreshSelectedProvider settings site consumer selected state.plan
  match refresh with
  | .unknown reason =>
    let plan := addUnresolved
      (retainUserSelection site selected resolution plan) site.dependency
    .ok ((state.withPlan plan).addEdges site
      { unresolvedProviderEdge edge selected resolution with
        constraintEvaluation := some (.unknown reason) })
  | .current provider evaluation info =>
    let state := state.withPlan plan
    if provider.packageName ∈ settings.localPackageNames ∧
        !returnsLocalPackageBase settings provider then
      .ok (recordIdentityConflict settings site edge provider resolution state)
    else do
      let state ←
        recordProvided site edge discovery provider evaluation resolution state
      if (settings.traverseAurProviders ∨ resolution = .userSelected) ∧
          provider.origin = .aur then
        if returnsLocalPackageBase settings provider then
          .ok (state.withPlan (addCycle state.plan provider.packageBase))
        else collect (providerRequest site provider info) state
      else .ok state

/-! ## Provider discovery -/

def unusableProvider (dependency : Bytes) (provider : ProvidedDependency)
    (evaluation : ConstraintEvaluation) : Thrown :=
  ⟨.runtimeError,
    ascii "Cannot select a provider for " ++ dependency ++
      ascii "; candidate " ++ providerPackageIdentityDisplay provider ++
      ascii " is " ++ constraintSatisfactionDisplay evaluation.satisfaction ++
      ascii ": " ++ constraintEvaluationReasonDisplay evaluation ++ ascii "."⟩

/-- A candidate whose evaluation is invalid or conflicting ends the
resolution. -/
def checkProviderEvaluation (settings : ResolverSettings)
    (site : DependencySite) (consumer : ConsumerDependencyRequirement)
    (provider : ProvidedDependency) : Except Thrown Unit :=
  let evaluation :=
    evaluateProviderRequirement settings.env (.consumer consumer) provider
  if evaluation.satisfaction = .invalid ∨
      evaluation.satisfaction = .conflicting then
    .error (unusableProvider site.dependency provider evaluation)
  else .ok ()

/-- The members to plan and how they were arrived at: a choice of the
callback, or the only candidate. -/
def chooseProviders (settings : ResolverSettings) (site : DependencySite)
    (candidates : List ProvidedDependency)
    (requests : List ProviderSelectionRequest) :
    Except Thrown (Option (ProviderSelectionSet × ProviderResolutionKind) ×
      List ProviderSelectionRequest) := do
  let (selection, requests) ← selectProviderCandidates site.dependency candidates
    settings.selectProvider requests
  match selection with
  | some selection => .ok (some (selection, .userSelected), requests)
  | none =>
    if candidates.length = 1 then
      let selection ← ProviderSelectionSet.fromCandidateIndices candidates [1]
      .ok (some (selection, .unique), requests)
    else .ok (none, requests)

def resolveThroughProviders (settings : ResolverSettings) (collect : Collector)
    (site : DependencySite) (edge : BuildPlanDependencyEdge)
    (consumer : ConsumerDependencyRequirement) (state : WalkState) :
    Except Thrown WalkState := do
  let (discovery, plan) ← findDependencyProviders settings.env
    consumer.packageName (some site.failureContext) true settings.context.recipes
    state.plan
  if !discovery.isComplete then
    let plan := addUnresolved
      (addIncompleteProviderCandidateSet plan site.dependency discovery)
      site.dependency
    .ok ((state.withPlan plan).addEdges site { edge with
      kind := .unknown
      constraintEvaluation :=
        some (.unknown (discovery.incompleteReason.getD .metadataQueryFailure)) })
  else do
    discovery.candidates.forM (checkProviderEvaluation settings site consumer)
    let (choice, requests) ←
      chooseProviders settings site discovery.candidates state.requests
    let state := { state with plan := plan, requests := requests }
    match choice with
    | some (selection, resolution) =>
      selection.members.foldlM
        (planProvider settings collect site edge consumer discovery resolution)
        state
    | none =>
      if 1 < discovery.candidates.length then
        .ok (recordAmbiguous site edge discovery.candidates state)
      else resolveInstalled settings site edge consumer state

/-! ## Exact packages -/

def aurEdge (settings : ResolverSettings) (edge : BuildPlanDependencyEdge)
    (consumer : ConsumerDependencyRequirement)
    (candidate : AurResolvedDependencyCandidate) : BuildPlanDependencyEdge :=
  { edge with
    kind := .aur
    resolvedPackageName := some candidate.packageName
    resolvedPackageBase := some candidate.packageBase
    resolvedCandidate := some (.aur candidate)
    constraintEvaluation := some (evaluateDependencyRequirement settings.env
      (.consumer consumer) candidate.packageVersion) }

def aurRequest (site : DependencySite) (consumer : ConsumerDependencyRequirement)
    (info : AurPackageInfo) : CollectRequest where
  packageName := consumer.packageName
  roles := site.roles
  root := site.root
  parentPackageName := some site.parentPackageName
  parentPackageBase := some site.parentPackageBase
  dependencySpecification := some site.dependency
  preloadedPackageInfo := some info

/-- An exact AUR package: its edge, and its own sub-walk unless it leads back
to a local build unit. -/
def planAurDependency (settings : ResolverSettings) (collect : Collector)
    (site : DependencySite) (edge : BuildPlanDependencyEdge)
    (consumer : ConsumerDependencyRequirement) (info : AurPackageInfo)
    (state : WalkState) : Except Thrown WalkState := do
  let candidate ← aurCandidate info
  let state := state.addEdges site (aurEdge settings edge consumer candidate)
  if candidate.packageBase ∈ settings.localPackageBases then
    .ok (state.withPlan (addCycle state.plan candidate.packageBase))
  else collect (aurRequest site consumer info) state

def resolveInAur (settings : ResolverSettings) (collect : Collector)
    (site : DependencySite) (edge : BuildPlanDependencyEdge)
    (consumer : ConsumerDependencyRequirement) (state : WalkState) :
    Except Thrown WalkState :=
  match queryAurPackageInfo settings.env settings.context consumer.packageName
      settings.selectProvider.isSome with
  | .ok (some info) =>
    planAurDependency settings collect site edge consumer info state
  | .ok none => resolveThroughProviders settings collect site edge consumer state
  | .error thrown =>
    if !thrown.isOrdinary then .error thrown
    else if settings.context.mode = .legacy ∧ settings.selectProvider.isSome then
      .error thrown
    else
      let sink := failureSink settings site.failureContext
      let plan := addResolutionFailure sink .aurPackageMetadataUnavailable
        consumer.packageName thrown.what state.plan
      if sink.isSome then
        .ok ((state.withPlan (addUnresolved plan site.dependency)).addEdges
          site edge)
      else
        -- Without a sink the warning is all that is left of the failure.
        resolveThroughProviders settings collect site edge consumer
          (state.withPlan plan)

def repositoryEdge (settings : ResolverSettings) (edge : BuildPlanDependencyEdge)
    (consumer : ConsumerDependencyRequirement)
    (candidate : RepositoryExactPackage) : BuildPlanDependencyEdge :=
  { edge with
    kind := .repo
    resolvedPackageName := some candidate.packageName
    resolvedCandidate := some (.repository candidate)
    constraintEvaluation := some (evaluateDependencyRequirement settings.env
      (.consumer consumer) candidate.packageVersion) }

def resolveInRepositories (settings : ResolverSettings) (collect : Collector)
    (site : DependencySite) (edge : BuildPlanDependencyEdge)
    (consumer : ConsumerDependencyRequirement) (state : WalkState) :
    Except Thrown WalkState := do
  let (status, plan) ← queryRepositoryPackage settings.env consumer.packageName
    (failureSink settings site.failureContext) state.plan
  match status with
  | .present package =>
    let candidate := repositoryCandidate package consumer.packageName
    let plan ← addPlannedRelationObservation plan
      (projectRepositoryPlannedRelationObservation candidate []) site.root
    .ok ((state.withPlan plan).addEdges site
      (repositoryEdge settings edge consumer candidate))
  | .unavailable =>
    .ok ((state.withPlan (addUnresolved plan site.dependency)).addEdges site edge)
  | .notFound =>
    resolveInAur settings collect site edge consumer (state.withPlan plan)

def resolveRequirement (settings : ResolverSettings) (collect : Collector)
    (site : DependencySite) (first : TypedPackageDependency)
    (state : WalkState) : Except Thrown WalkState :=
  let edge := site.edge first
  match first.requirement with
  | none => do
      let state := state.addEdges site { edge with
        constraintEvaluation := some (.invalid .malformedRequirement) }
      requireConstructibleBuildPlanConstraints state.plan
      .ok state
  | some (.soname _) =>
    .ok (state.addEdges site { edge with
      constraintEvaluation := some (.unknown .relationKindNotComparable) })
  | some (.consumer consumer) =>
    resolveInRepositories settings collect site edge consumer state

def resolveBuildPlanDependency (settings : ResolverSettings)
    (collect : Collector) (site : DependencySite) (state : WalkState) :
    Except Thrown WalkState :=
  match site.declarations with
  | [] =>
    .error ⟨.logicError, ascii "Build dependency is missing its package role: " ++
      site.dependency⟩
  | first :: _ => do
      let (handled, state) ← decideLocally settings site state
      if handled then .ok state
      else resolveRequirement settings collect site first state

/-! ## One package -/

namespace CollectRequest

def failureContext (request : CollectRequest) : FailureContext where
  root := request.root
  parentPackageName := request.parentPackageName
  parentPackageBase := request.parentPackageBase
  dependencySpecification := request.dependencySpecification

/-- The record of the package: the one the caller already read, or a lookup. -/
def lookup (settings : ResolverSettings) (request : CollectRequest) :
    Except Thrown (Option AurPackageInfo) :=
  match request.preloadedPackageInfo with
  | some info => .ok (some info)
  | none =>
    queryAurPackageInfo settings.env settings.context request.packageName
      settings.selectProvider.isSome

end CollectRequest

/-- The package enters the plan before its dependencies are walked, and again
each time it is reached. -/
def recordPackage (info : AurPackageInfo) (roles : List PackageRole)
    (root : RootTargetIdentity) (plan : BuildPlan) : Except Thrown BuildPlan := do
  let plan := addBuildPlanMetadataRisk plan info.name info.packageBase
    info.conflicts info.replaces
  let plan := addPlannedPackageTarget plan info.name info.packageBase roles root
  match info.constraintMetadata with
  | none => .error ⟨.badOptionalAccess, ascii "bad optional access"⟩
  | some metadata =>
    let plan ← addPlannedRelationObservation plan
      (projectAurRelationObservation metadata []) root
    .ok (addBuildPlanEntry plan info.name info.packageBase)

/-- The dependencies of one package, in declaration order. -/
def walkDependencies (settings : ResolverSettings) (collect : Collector)
    (info : AurPackageInfo) (root : RootTargetIdentity) (state : WalkState) :
    Except Thrown WalkState := do
  let typed ← collectTypedBuildDependencies info
  (collectBuildDependencies info).foldlM
    (fun state dependency =>
      resolveBuildPlanDependency settings collect
        ⟨info.name, info.packageBase, dependency,
          typedDependenciesForSpecification typed dependency, root⟩ state)
    state

/-- The package is on the path of the walk. -/
def openPackage (info : AurPackageInfo) (state : WalkState) : WalkState :=
  { state with visiting := insertNew state.visiting info.name }

/-- The package has been walked: it leaves the path and is not walked again. -/
def closePackage (info : AurPackageInfo) (state : WalkState) : WalkState :=
  { state with
    visiting := state.visiting.filter (· ≠ info.name)
    visited := insertNew state.visited info.name
    plan := addBuildPlanSplitPackageTarget state.plan info.name info.packageBase }

/-- A package whose record is known. -/
def visitPackage (settings : ResolverSettings) (collect : Collector)
    (info : AurPackageInfo) (roles : List PackageRole)
    (root : RootTargetIdentity) (state : WalkState) :
    Except Thrown WalkState := do
  let plan ← recordPackage info roles root state.plan
  let state := state.withPlan plan
  if info.name ∈ state.visited then .ok state
  else if info.name ∈ state.visiting then
    .ok (state.withPlan (addCycle state.plan info.packageBase))
  else do
    let state ← walkDependencies settings collect info root
      (openPackage info state)
    .ok (closePackage info state)

def collectPackage (settings : ResolverSettings) (collect : Collector)
    (request : CollectRequest) (state : WalkState) : Except Thrown WalkState :=
  let sink := failureSink settings request.failureContext
  match request.lookup settings with
  | .error thrown =>
    if !thrown.isOrdinary then .error thrown
    else if settings.context.mode = .legacy ∧ settings.selectProvider.isSome then
      .error thrown
    else
      let plan := addResolutionFailure sink .aurPackageMetadataUnavailable
        request.packageName thrown.what state.plan
      .ok (state.withPlan (addUnresolved plan request.packageName))
  | .ok none =>
    .ok (state.withPlan (addUnresolved state.plan request.packageName))
  | .ok (some info) =>
    match request.expectedSelectedProvider.filter fun expected =>
        !matchesSelectedAurProviderContract info expected with
    | some expected =>
      let diagnostic := selectedAurProviderRevalidationFailureDiagnostic expected
      if sink = none then .error ⟨.runtimeError, diagnostic⟩
      else
        let plan := addResolutionFailure sink
          .providerCandidateMetadataUnavailable request.packageName diagnostic
          state.plan
        .ok (state.withPlan (addUnresolved plan request.packageName))
    | none =>
      visitPackage settings collect info request.roles request.root state

def maxRecursiveDepDepth : Nat := 16

def maxDepthReached (packageName : Bytes) : Bytes :=
  packageName ++ ascii " (max depth reached)"

/-- `collect_aur_build_plan`, at depth `maxRecursiveDepDepth + 1 - remaining`. -/
def collectAurBuildPlan (settings : ResolverSettings) : Nat → Collector
  | 0, request, state =>
    .ok (state.withPlan
      (addUnresolved state.plan (maxDepthReached request.packageName)))
  | remaining + 1, request, state =>
    collectPackage settings (collectAurBuildPlan settings remaining) request state

end Moguet.Plan.Resolver
