import Mathlib.Data.List.Sort
import Moguet.Relation.Assessment

/-!
# The build plan

The plan and its parts (`dependency_plan.hpp`) and the operations that grow
it while a resolution walks the metadata (the file-local adders of
`dependency_plan.cpp`).

Every set of the plan lives in a vector: an adder looks for the first entry
with the same identity, changes it in place and appends when there is none,
so all of them are `upsert`s.
-/

namespace Moguet.Plan.Model

open Verified.ByteString Verified.Upsert Constraint Metadata Relation.Observation
open Relation.Assessment

variable {values : List Bytes}

structure AmbiguousProvidedDependency where
  dependency : Bytes
  candidates : List ProvidedDependency
  deriving DecidableEq

inductive ProviderResolutionKind
  | unique
  | userSelected
  deriving DecidableEq

inductive PackageRole
  | root
  | runtimeDependency
  | buildDependency
  | checkDependency
  deriving DecidableEq

variable {other : PackageRole}

inductive DependencyKind
  | installed
  | repo
  | aur
  | «local»
  | provided
  | ambiguousProvider
  | unknown
  deriving DecidableEq

structure TypedPackageDependency where
  specification : Bytes
  role : PackageRole
  requirement : Option DependencyRequirement := none

/-- A root of the invocation. The index keeps the order of the command
line. -/
structure RootTargetIdentity where
  invocationIndex : Nat
  requestedName : Bytes
  deriving DecidableEq

inductive BuildPlanResolutionFailureKind
  | installedPackageMetadataUnavailable
  | repositoryMetadataUnavailable
  | aurPackageMetadataUnavailable
  | providerSearchUnavailable
  | providerCandidateMetadataUnavailable
  deriving DecidableEq

structure BuildPlanResolutionFailure where
  kind : BuildPlanResolutionFailureKind
  parentPackageName : Option Bytes
  parentPackageBase : Option Bytes
  subject : Bytes
  dependencySpecification : Option Bytes
  roots : List RootTargetIdentity
  diagnostic : Bytes
  deriving DecidableEq

structure PlannedPackageTarget where
  packageName : Bytes
  packageBase : Bytes
  roles : List PackageRole := []
  roots : List RootTargetIdentity := []

structure AurResolvedDependencyCandidate where
  packageName : Bytes
  packageBase : Bytes
  packageVersion : ObservedVersion
  deriving DecidableEq

structure LocalResolvedDependencyCandidate where
  packageName : Bytes
  packageBase : Bytes
  providedCapability : Option ProviderCapability
  observedVersion : ObservedVersion
  deriving DecidableEq

structure ProviderResolvedDependencyCandidate where
  provider : ProvidedDependency
  providedVersion : ObservedVersion
  deriving DecidableEq

inductive ResolvedDependencyCandidate
  | installed (candidate : InstalledExactPackage)
  | repository (candidate : RepositoryExactPackage)
  | aur (candidate : AurResolvedDependencyCandidate)
  | «local» (candidate : LocalResolvedDependencyCandidate)
  | provider (candidate : ProviderResolvedDependencyCandidate)
  deriving DecidableEq

/-- A dependency declaration joined to what it was resolved to. -/
structure BuildPlanDependencyEdge where
  parentPackageName : Bytes
  parentPackageBase : Bytes
  dependencySpec : Bytes
  role : PackageRole
  kind : DependencyKind := .unknown
  resolvedPackageName : Option Bytes := none
  resolvedPackageBase : Option Bytes := none
  resolvedProvider : Option ProvidedDependency := none
  providerResolution : ProviderResolutionKind := .unique
  requirement : Option DependencyRequirement := none
  resolvedCandidate : Option ResolvedDependencyCandidate := none
  constraintEvaluation : Option ConstraintEvaluation := none
  deriving DecidableEq

structure BuildPlanEntry where
  packageBase : Bytes
  packageNames : List Bytes

structure BuildPlanSplitPackageTarget where
  packageBase : Bytes
  packageName : Bytes
  deriving DecidableEq

structure BuildPlanProvidedDependency where
  dependency : Bytes
  provider : ProvidedDependency
  resolution : ProviderResolutionKind := .unique

structure IncompleteProviderCandidateSet where
  dependency : Bytes
  observedCandidates : List ProvidedDependency
  reason : ObservedVersionUnknownReason
  deriving DecidableEq

structure BuildPlanMetadataRisk where
  packageName : Bytes
  packageBase : Bytes
  conflicts : List Bytes
  replaces : List Bytes

structure BuildPlan where
  order : List BuildPlanEntry := []
  rootTargets : List RootTargetIdentity := []
  packageTargets : List PlannedPackageTarget := []
  plannedRelationObservations : List PlannedPackageRelationObservation := []
  relationAssessments : List PackageRelationAssessment := []
  dependencyEdges : List BuildPlanDependencyEdge := []
  resolutionFailures : List BuildPlanResolutionFailure := []
  splitPackageTargets : List BuildPlanSplitPackageTarget := []
  provided : List BuildPlanProvidedDependency := []
  metadataRisks : List BuildPlanMetadataRisk := []
  ambiguousProviders : List AmbiguousProvidedDependency := []
  cancelledProviderDependencies : List Bytes := []
  unresolved : List Bytes := []
  cycles : List Bytes := []
  incompleteProviderCandidateSets : List IncompleteProviderCandidateSet := []
  configuredRepositoryOrder : Option (List Bytes) := none

/-- `add_unique_value`: the trimmed value once, nothing for a blank one. -/
def addUniqueValue (values : List Bytes) (value : Bytes) : List Bytes :=
  let trimmed := trim value
  if trimmed = [] then values else insertNew values trimmed

theorem prefix_addUniqueValue (values : List Bytes) (value : Bytes) :
    values <+: addUniqueValue values value := by
  unfold addUniqueValue
  dsimp only
  split
  · exact List.prefix_refl _
  · exact prefix_insertNew _ _

/-- A value that is not blank leaves the set non-empty. -/
theorem addUniqueValue_ne_nil {value : Bytes} (h : trim value ≠ []) :
    addUniqueValue values value ≠ [] := by
  unfold addUniqueValue
  dsimp only
  rw [if_neg h]
  intro hnil
  have hmem : trim value ∈ insertNew values (trim value) :=
    mem_insertNew.mpr (Or.inr rfl)
  rw [hnil] at hmem
  cases hmem

/-- A package name is added as it is. -/
theorem mem_addUniqueValue_of_valid {name : Bytes} (h : isValidPackageName name = true) :
    name ∈ addUniqueValue values name := by
  unfold addUniqueValue
  dsimp only
  rw [trim_of_isValidPackageName h, if_neg (isValidPackageName_ne_nil h)]
  exact mem_insertNew.mpr (Or.inr rfl)

def packageRoleRank : PackageRole → Nat
  | .root => 0
  | .runtimeDependency => 1
  | .buildDependency => 2
  | .checkDependency => 3

def addPackageRole (roles : List PackageRole) (role : PackageRole) :
    List PackageRole :=
  if role ∈ roles then roles
  else (roles ++ [role]).insertionSort fun lhs rhs =>
    packageRoleRank lhs ≤ packageRoleRank rhs

theorem mem_addPackageRole {roles : List PackageRole} {role : PackageRole} :
    other ∈ addPackageRole roles role ↔ other ∈ roles ∨ other = role := by
  unfold addPackageRole
  by_cases h : role ∈ roles
  · rw [if_pos h]
    constructor
    · exact Or.inl
    · rintro (hmem | rfl)
      · exact hmem
      · exact h
  · rw [if_neg h, List.mem_insertionSort]
    simp

theorem mem_foldl_addPackageRole : ∀ {added roles : List PackageRole},
      other ∈ added.foldl addPackageRole roles ↔ other ∈ roles ∨ other ∈ added := by
  intro added
  induction added with
  | nil => simp
  | cons role rest ih =>
    intro roles
    rw [List.foldl_cons, ih, mem_addPackageRole, List.mem_cons, or_assoc]

def rootIdentityLess (lhs rhs : RootTargetIdentity) : Bool :=
  if lhs.invocationIndex ≠ rhs.invocationIndex then
    lhs.invocationIndex < rhs.invocationIndex
  else lhs.requestedName < rhs.requestedName

def addRootIdentity (roots : List RootTargetIdentity)
    (root : RootTargetIdentity) : List RootTargetIdentity :=
  if root ∈ roots then roots
  else (roots ++ [root]).insertionSort fun lhs rhs =>
    rootIdentityLess rhs lhs = false

theorem mem_addRootIdentity {roots : List RootTargetIdentity}
    {root other : RootTargetIdentity} :
    other ∈ addRootIdentity roots root ↔ other ∈ roots ∨ other = root := by
  unfold addRootIdentity
  by_cases h : root ∈ roots
  · rw [if_pos h]
    constructor
    · exact Or.inl
    · rintro (hmem | rfl)
      · exact hmem
      · exact h
  · rw [if_neg h, List.mem_insertionSort]
    simp

def rootAttributionLess (lhs rhs : PackageRelationRootAttribution) : Bool :=
  if lhs.invocationIndex ≠ rhs.invocationIndex then
    lhs.invocationIndex < rhs.invocationIndex
  else lhs.requestedName < rhs.requestedName

def addPackageRelationRootAttribution (package : PackageRelationObservedPackage)
    (root : PackageRelationRootAttribution) : PackageRelationObservedPackage :=
  if root ∈ package.roots then package
  else
    { package with
      roots := (package.roots ++ [root]).insertionSort fun lhs rhs =>
        rootAttributionLess rhs lhs = false }

def relationRootAttribution (root : RootTargetIdentity) :
    PackageRelationRootAttribution :=
  ⟨root.invocationIndex, root.requestedName⟩

/-- `BuildPlanResolutionFailureContext`, less the plan it refers to. -/
structure FailureContext where
  root : RootTargetIdentity
  parentPackageName : Option Bytes
  parentPackageBase : Option Bytes
  dependencySpecification : Option Bytes

def sameResolutionFailure (lhs rhs : BuildPlanResolutionFailure) : Bool :=
  lhs.kind = rhs.kind && lhs.parentPackageName = rhs.parentPackageName &&
    lhs.parentPackageBase = rhs.parentPackageBase &&
    lhs.subject = rhs.subject &&
    lhs.dependencySpecification = rhs.dependencySpecification

/-- A missing context is a missing sink: nothing is recorded. -/
def addResolutionFailure (context : Option FailureContext)
    (kind : BuildPlanResolutionFailureKind) (subject diagnostic : Bytes)
    (plan : BuildPlan) : BuildPlan :=
  match context with
  | none => plan
  | some context =>
    let failure : BuildPlanResolutionFailure := {
      kind := kind
      parentPackageName := context.parentPackageName
      parentPackageBase := context.parentPackageBase
      subject := subject
      dependencySpecification := context.dependencySpecification
      roots := [context.root]
      diagnostic := diagnostic }
    { plan with
      resolutionFailures :=
        upsert (sameResolutionFailure · failure)
          (fun existing =>
            { existing with roots := insertNew existing.roots context.root })
          failure plan.resolutionFailures }

def addProviderCandidate (candidates : List ProvidedDependency)
    (provider : ProvidedDependency) : List ProvidedDependency :=
  if candidates.any (sameProviderIdentity · provider) then candidates
  else candidates ++ [provider]

/-- Provider choices are aggregated here and never made implicitly. -/
def addAmbiguousProviderDependency
    (dependencies : List AmbiguousProvidedDependency) (dependency : Bytes)
    (candidates : List ProvidedDependency) :
    List AmbiguousProvidedDependency :=
  let trimmed := trim dependency
  if trimmed = [] ∨ candidates = [] then dependencies
  else
    upsert (fun existing => existing.dependency = trimmed)
      (fun existing =>
        { existing with
          candidates := candidates.foldl addProviderCandidate existing.candidates })
      ⟨trimmed, candidates.foldl addProviderCandidate []⟩ dependencies

def addBuildPlanAmbiguousProvider (plan : BuildPlan) (dependency : Bytes)
    (candidates : List ProvidedDependency) : BuildPlan :=
  { plan with
    ambiguousProviders :=
      addAmbiguousProviderDependency plan.ambiguousProviders dependency
        candidates }

def addBuildPlanProvidedDependency (plan : BuildPlan) (dependency : Bytes)
    (provider : ProvidedDependency) (resolution : ProviderResolutionKind) :
    BuildPlan :=
  let trimmed := trim dependency
  if trimmed = [] then plan
  else
    { plan with
      provided :=
        upsert
          (fun existing => existing.dependency = trimmed &&
            sameProviderIdentity existing.provider provider)
          (fun existing =>
            if existing.resolution ≠ resolution then
              { existing with resolution := .userSelected }
            else existing)
          ⟨trimmed, provider, resolution⟩ plan.provided }

/-- `ProviderCandidateDiscovery`. -/
structure ProviderCandidateDiscovery where
  candidates : List ProvidedDependency := []
  isComplete : Bool := true
  incompleteReason : Option ObservedVersionUnknownReason := none
  repositoryObservations : List RepositoryExactPackage := []

def addIncompleteProviderCandidateSet (plan : BuildPlan) (dependency : Bytes)
    (discovery : ProviderCandidateDiscovery) : BuildPlan :=
  if discovery.isComplete then plan
  else
    match discovery.incompleteReason with
    | none => plan
    | some reason =>
      { plan with
        incompleteProviderCandidateSets :=
          upsert (fun existing => existing.dependency = dependency)
            (fun existing =>
              { existing with
                observedCandidates :=
                  discovery.candidates.foldl addProviderCandidate
                    existing.observedCandidates })
            ⟨dependency, discovery.candidates, reason⟩
            plan.incompleteProviderCandidateSets }

def findPackageTarget (plan : BuildPlan) (packageName : Bytes) :
    Option PlannedPackageTarget :=
  plan.packageTargets.find? fun target => target.packageName = packageName

/-- The first target of the name keeps its base; roles and the root are
merged into it. -/
def addPlannedPackageTarget (plan : BuildPlan) (packageName packageBase : Bytes)
    (roles : List PackageRole) (root : RootTargetIdentity) : BuildPlan :=
  let merge (target : PlannedPackageTarget) : PlannedPackageTarget :=
    { target with
      roles := roles.foldl addPackageRole target.roles
      roots := addRootIdentity target.roots root }
  { plan with
    packageTargets :=
      upsert (fun target => target.packageName = packageName) merge
        (merge { packageName := packageName, packageBase := packageBase })
        plan.packageTargets }

/-- The first snapshot of a package stays the authority of the invocation;
a later one contributes its roots only. -/
def addPlannedRelationObservation (plan : BuildPlan)
    (observation : PlannedPackageRelationObservation)
    (root : RootTargetIdentity) : Except Thrown BuildPlan :=
  if observation.package.role ≠ .plannedTarget then
    .error ⟨.logicError,
      ascii "BuildPlan relation observation is not a planned target."⟩
  else
    let attributed : PlannedPackageRelationObservation :=
      { observation with
        package := addPackageRelationRootAttribution observation.package
          (relationRootAttribution root) }
    .ok { plan with
      plannedRelationObservations :=
        upsert
          (fun existing =>
            existing.package.packageName = attributed.package.packageName &&
              existing.package.source = attributed.package.source)
          (fun existing =>
            { existing with
              package := attributed.package.roots.foldl
                addPackageRelationRootAttribution existing.package })
          attributed plan.plannedRelationObservations }

def addRelationRootToPackage (plan : BuildPlan) (packageName : Bytes)
    (root : RootTargetIdentity) : BuildPlan :=
  { plan with
    plannedRelationObservations :=
      plan.plannedRelationObservations.map fun observation =>
        if observation.package.packageName ≠ packageName then observation
        else
          { observation with
            package := addPackageRelationRootAttribution observation.package
              (relationRootAttribution root) } }

def addBuildPlanSplitPackageTarget (plan : BuildPlan)
    (packageName packageBase : Bytes) : BuildPlan :=
  if packageName = packageBase then plan
  else
    { plan with
      splitPackageTargets :=
        insertNew plan.splitPackageTargets ⟨packageBase, packageName⟩ }

def addBuildPlanMetadataRisk (plan : BuildPlan) (packageName packageBase : Bytes)
    (conflicts replaces : List Bytes) : BuildPlan :=
  if conflicts = [] ∧ replaces = [] then plan
  else
    { plan with
      metadataRisks :=
        upsert
          (fun existing => existing.packageName = packageName &&
            existing.packageBase = packageBase)
          id ⟨packageName, packageBase, conflicts, replaces⟩ plan.metadataRisks }

def addBuildPlanEntry (plan : BuildPlan) (packageName packageBase : Bytes) :
    BuildPlan :=
  { plan with
    order :=
      upsert (fun existing => existing.packageBase = packageBase)
        (fun existing =>
          { existing with
            packageNames := addUniqueValue existing.packageNames packageName })
        ⟨packageBase, [packageName]⟩ plan.order }

def findBuildPlanEntry (entries : List BuildPlanEntry) (packageBase : Bytes) :
    Option BuildPlanEntry :=
  entries.find? fun entry => entry.packageBase = packageBase

def addBuildPlanDependencyEdges (plan : BuildPlan)
    (classifiedEdge : BuildPlanDependencyEdge)
    (dependencies : List TypedPackageDependency) : BuildPlan :=
  { plan with
    dependencyEdges := plan.dependencyEdges ++
      dependencies.map fun dependency =>
        { classifiedEdge with
          dependencySpec := dependency.specification
          role := dependency.role
          requirement := dependency.requirement } }

def addUnresolved (plan : BuildPlan) (value : Bytes) : BuildPlan :=
  { plan with unresolved := addUniqueValue plan.unresolved value }

def addCycle (plan : BuildPlan) (value : Bytes) : BuildPlan :=
  { plan with cycles := addUniqueValue plan.cycles value }

def resolvedAurDependencyName (edge : BuildPlanDependencyEdge) : Option Bytes :=
  if edge.kind = .aur then edge.resolvedPackageName
  else if edge.kind = .provided then
    match edge.resolvedProvider with
    | some provider =>
      if provider.origin = .aur then some provider.packageName else none
    | none => none
  else none

/-- The base an edge depends on: the one recorded on an AUR edge, else the
base of the planned target that bears the resolved name. -/
def resolvedAurDependencyPackageBase (plan : BuildPlan)
    (edge : BuildPlanDependencyEdge) : Option Bytes :=
  if edge.kind = .aur ∧ edge.resolvedPackageBase.isSome ∧
      edge.resolvedPackageBase ≠ some [] then
    edge.resolvedPackageBase
  else
    match resolvedAurDependencyName edge with
    | none => none
    | some packageName =>
      (findPackageTarget plan packageName).map (·.packageBase)

end Moguet.Plan.Model
