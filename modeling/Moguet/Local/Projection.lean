import Moguet.Plan.Interaction
import Moguet.Local.Metadata
import Moguet.Verified.DepthFirst
import Moguet.Verified.Worklist

/-!
# Plans of local packages

`resolve_local_build_plan` (`local_dependency_plan_projection.cpp`): the
children of a local package base are the roots of a resolution, and a
dependency a child satisfies is answered before any remote lookup. The answers
for the children's own dependencies are worked out before the resolution
starts; those for the remote packages it meets are given while it runs.

Each answer adds internal edges and failures to two lists of the invocation.
They are collected here from the calls the resolution made to its local
resolver, in order.
-/

namespace Moguet.Local.Projection

open Verified.ByteString Verified.Upsert Plan.Constraint Plan.Metadata Plan.Model Plan.Discovery
open Plan.Readiness Plan.Resolver Plan.Resolution Plan.Interaction Metadata

/-! ## Effective children -/

structure EffectiveChild where
  packageName : Bytes
  architectureSupported : Bool
  relations : List Relation

def architectureMatches (architectures : List Bytes) (effectiveArchitecture : Bytes) :
    Bool :=
  architectures.contains (ascii "any") || architectures.contains effectiveArchitecture

def childSupportsArchitecture (metadata : LocalPackageMetadata)
    (child : LocalPackageMetadataChild) (effectiveArchitecture : Bytes) : Bool :=
  if child.hasArchitectureOverride then
    architectureMatches child.architectures effectiveArchitecture
  else architectureMatches metadata.architectures effectiveArchitecture

def sameRelationKey (lhs rhs : Relation) : Bool :=
  lhs.kind = rhs.kind && lhs.architectureQualifier = rhs.architectureQualifier

def isChildRelationFor (relation : Relation) (packageName : Bytes) : Bool :=
  relation.scope.kind = .childPackage && relation.scope.packageName = some packageName

def childOverridesRelationKey (metadata : LocalPackageMetadata) (packageName : Bytes)
    (baseRelation : Relation) : Bool :=
  metadata.relations.any fun relation =>
    isChildRelationFor relation packageName && sameRelationKey relation baseRelation

/-- Whether a relation applies to a child: a relation of the base is inherited
unless the child declares its key, an unset included. -/
def relationApplies (metadata : LocalPackageMetadata) (packageName : Bytes)
    (relation : Relation) : Bool :=
  match relation.scope.kind with
  | .packageBase => !childOverridesRelationKey metadata packageName relation
  | .childPackage => isChildRelationFor relation packageName

def effectiveRelations (metadata : LocalPackageMetadata) (packageName : Bytes)
    (effectiveArchitecture : Bytes) : List Relation :=
  metadata.relations.filter fun relation =>
    (relation.architectureQualifier = none ||
        relation.architectureQualifier = some effectiveArchitecture) &&
      relationApplies metadata packageName relation && !relation.isExplicitUnset

def collectEffectiveChildren (metadata : LocalPackageMetadata)
    (effectiveArchitecture : Bytes) : List EffectiveChild :=
  metadata.children.map fun child =>
    { packageName := child.name
      architectureSupported :=
        childSupportsArchitecture metadata child effectiveArchitecture
      relations := effectiveRelations metadata child.name effectiveArchitecture }

def localPackageVersion (metadata : LocalPackageMetadata) : Bytes :=
  let epoch :=
    match metadata.epoch with
    | some epoch => epoch ++ ascii ":"
    | none => []
  epoch ++ metadata.pkgver ++ ascii "-" ++ metadata.pkgrel

/-! ## Root packages -/

def packageRole : RelationKind → Option PackageRole
  | .depends => some .runtimeDependency
  | .makedepends => some .buildDependency
  | .checkdepends => some .checkDependency
  | .optdepends | .provides | .conflicts | .replaces => none

def relationFromLocalComparison : Comparison → DependencyVersionRelation
  | .lessThan => .lessThan
  | .lessThanOrEqual => .lessThanOrEqual
  | .equal => .equal
  | .greaterThanOrEqual => .greaterThanOrEqual
  | .greaterThan => .greaterThan

/-- A comparison without a version, or a version without a comparison, has no
typed requirement. -/
def typedRequirementFromRelation (relation : Relation) : Option DependencyRequirement :=
  match relation.target with
  | none => none
  | some target =>
    match target.kind with
    | .soname => some (.soname ⟨relation.rawValue, target.name⟩)
    | .package =>
      match target.comparison, target.version with
      | some comparison, some version =>
        some (.consumer ⟨relation.rawValue, target.name,
          some ⟨relationFromLocalComparison comparison, version⟩⟩)
      | none, none => some (.consumer ⟨relation.rawValue, target.name, none⟩)
      | _, _ => none

def providerCapabilityFromRelation (relation : Relation) : Option ProviderCapability :=
  match relation.target with
  | none => none
  | some target =>
    match target.kind with
    | .soname => none
    | .package => some ⟨relation.rawValue, target.name, target.version⟩

/-- One declaration for each specification and role. -/
def addTypedDependency (dependencies : List TypedPackageDependency) (relation : Relation)
    (role : PackageRole) : List TypedPackageDependency :=
  if dependencies.any fun existing =>
      existing.specification = relation.rawValue && existing.role = role then
    dependencies
  else
    dependencies ++ [⟨relation.rawValue, role, typedRequirementFromRelation relation⟩]

/-- One relation of a supported child. -/
def addRootRelation (root : RootPackage) (relation : Relation) : RootPackage :=
  match packageRole relation.kind with
  | some role =>
    { root with dependencies := addTypedDependency root.dependencies relation role }
  | none =>
    match relation.kind with
    | .conflicts => { root with conflicts := root.conflicts ++ [relation.rawValue] }
    | .replaces => { root with replaces := root.replaces ++ [relation.rawValue] }
    | _ => root

def collectRootPackages (children : List EffectiveChild) (packageBase : Bytes) :
    List RootPackage :=
  children.map fun child =>
    let root : RootPackage := ⟨child.packageName, packageBase, [], [], []⟩
    if child.architectureSupported then child.relations.foldl addRootRelation root else root

/-! ## What a declaration requires -/

/-- `ParsedDependency`. -/
structure ParsedDependency where
  raw : Bytes
  name : Bytes
  op : Option Bytes
  version : Option Bytes

namespace ParsedDependency

def hasConstraint (parsed : ParsedDependency) : Bool := parsed.op.isSome

def hasParseableConstraint (parsed : ParsedDependency) : Bool :=
  parsed.op.isSome &&
    match parsed.version with
    | some (b :: _) => !isOperatorByte b
    | _ => false

def hasMalformedConstraint (parsed : ParsedDependency) : Bool :=
  parsed.hasConstraint && !parsed.hasParseableConstraint

end ParsedDependency

def parseDependencyString (dependency : Bytes) : ParsedDependency :=
  let raw := trim dependency
  match splitAtFirst isOperatorByte raw with
  | none => ⟨raw, raw, none, none⟩
  | some (front, operator) =>
    let size :=
      if (operator.head? = some (byte '<') ∨ operator.head? = some (byte '>')) ∧
          operator[1]? = some (byte '=') then 2
      else 1
    ⟨raw, trim front, some (operator.take size), some (trim (operator.drop size))⟩

structure RequiredDependency where
  kind : TargetKind
  name : Bytes
  requirement : Option ConsumerDependencyRequirement
  malformedConstraint : Bool

def relationFromOperator (value : Option Bytes) : Option DependencyVersionRelation :=
  if value = some (ascii "<") then some .lessThan
  else if value = some (ascii "<=") then some .lessThanOrEqual
  else if value = some (ascii "=") then some .equal
  else if value = some (ascii ">=") then some .greaterThanOrEqual
  else if value = some (ascii ">") then some .greaterThan
  else none

/-- A declaration without a typed requirement is read from its text. -/
def requiredDependencyOfText (specification : Bytes) : RequiredDependency :=
  let parsed := parseDependencyString specification
  let isSoname := !parsed.hasConstraint && parsed.name.contains (byte ':')
  { kind := if isSoname then .soname else .package
    name := parsed.name
    requirement :=
      match relationFromOperator parsed.op, parsed.version with
      | some relation, some version =>
        if isSoname then none
        else some ⟨parsed.raw, parsed.name, some ⟨relation, version⟩⟩
      | _, _ =>
        if !isSoname && !parsed.hasConstraint then some ⟨parsed.raw, parsed.name, none⟩
        else none
    malformedConstraint := parsed.hasMalformedConstraint }

def parseRequiredDependency (declaration : TypedPackageDependency) : RequiredDependency :=
  match declaration.requirement with
  | some (.consumer consumer) => ⟨.package, consumer.packageName, some consumer, false⟩
  | some (.soname soname) => ⟨.soname, soname.soname, none, false⟩
  | none => requiredDependencyOfText declaration.specification

/-! ## Local candidates -/

inductive LocalDependencyResolutionKind
  | package
  | provided
  deriving DecidableEq

structure Candidate where
  packageName : Bytes
  resolutionKind : LocalDependencyResolutionKind
  providedSpecification : Option Bytes
  providerCapability : Option ProviderCapability
  observedVersion : ObservedVersion
  architectureSupported : Bool

def sameCandidateIdentity (lhs rhs : Candidate) : Bool :=
  lhs.packageName = rhs.packageName && lhs.resolutionKind = rhs.resolutionKind &&
    lhs.providedSpecification = rhs.providedSpecification

def addCandidate : List Candidate → Candidate → List Candidate :=
  insertUnlike sameCandidateIdentity

def exactCandidate (children : List EffectiveChild) (dependency : RequiredDependency)
    (packageVersion : Bytes) : Option Candidate :=
  if dependency.kind ≠ .package then none
  else
    (children.find? fun child => child.packageName = dependency.name).map fun child =>
      { packageName := child.packageName
        resolutionKind := .package
        providedSpecification := none
        providerCapability := none
        observedVersion := .available .localExactPackage packageVersion
        architectureSupported := child.architectureSupported }

/-- The relation publishes the required component. -/
def providesDependency (dependency : RequiredDependency) (relation : Relation) : Bool :=
  relation.kind = .provides &&
    match relation.target with
    | some target => target.kind = dependency.kind && target.name = dependency.name
    | none => false

/-- The version a capability shows: its own, never the one of its package. -/
def capabilityVersion (dependency : RequiredDependency)
    (capability : Option ProviderCapability) : ObservedVersion :=
  match capability.bind (·.version) with
  | some version => .available .localProviderCapability version
  | none =>
    .unknown .localProviderCapability
      (match dependency.kind with
      | .package => .unversionedProviderCapability
      | .soname => .relationKindNotComparable)

def providedCandidate (dependency : RequiredDependency) (child : EffectiveChild)
    (relation : Relation) : Candidate :=
  let capability := providerCapabilityFromRelation relation
  { packageName := child.packageName
    resolutionKind := .provided
    providedSpecification := some relation.rawValue
    providerCapability := capability
    observedVersion := capabilityVersion dependency capability
    architectureSupported := child.architectureSupported }

def addProvidedCandidates (children : List EffectiveChild)
    (dependency : RequiredDependency) : List Candidate :=
  (children.flatMap fun child =>
    (child.relations.filter (providesDependency dependency)).map
      (providedCandidate dependency child)).foldl addCandidate []

/-- An exact child hides every provider of its name. -/
def localCandidates (children : List EffectiveChild) (dependency : RequiredDependency)
    (packageVersion : Bytes) : List Candidate :=
  match exactCandidate children dependency packageVersion with
  | some exact => [exact]
  | none => addProvidedCandidates children dependency

/-- The candidates that can be built here, one for each package. -/
def selectableCandidates (candidates : List Candidate) : List Candidate :=
  (candidates.filter (·.architectureSupported)).foldl
    (insertUnlike fun lhs rhs => lhs.packageName = rhs.packageName) []

def candidateConstraintEvaluation (vercmp : Bytes → Bytes → Int) (candidate : Candidate)
    (dependency : RequiredDependency) : ConstraintEvaluation :=
  if dependency.malformedConstraint then .invalid .malformedRequirement
  else if dependency.kind = .soname then .unknown .relationKindNotComparable
  else
    match dependency.requirement with
    | none => .invalid .internalInvariantViolation
    | some requirement =>
      evaluateConsumerDependencyRequirement vercmp requirement candidate.observedVersion

structure LocalDependencyPlanCandidate where
  packageName : Bytes
  providedSpecification : Option Bytes
  version : Option Bytes
  remoteProvider : Option ProvidedDependency := none
  constraintEvaluation : Option ConstraintEvaluation := none

def publicCandidate (vercmp : Bytes → Bytes → Int) (dependency : RequiredDependency)
    (candidate : Candidate) : LocalDependencyPlanCandidate where
  packageName := candidate.packageName
  providedSpecification := candidate.providedSpecification
  version := candidate.observedVersion.version?
  constraintEvaluation := some (candidateConstraintEvaluation vercmp candidate dependency)

/-! ## Failures and internal edges -/

inductive LocalDependencyPlanFailureKind
  | unsupportedArchitecture
  | constraintMismatch
  | ambiguousLocalProvider
  | remoteProviderIdentityConflict
  deriving DecidableEq

structure LocalDependencyPlanFailure where
  kind : LocalDependencyPlanFailureKind
  parentPackageName : Bytes
  dependencySpecification : Option Bytes
  effectiveArchitecture : Option Bytes
  candidates : List LocalDependencyPlanCandidate

def sameFailure (lhs rhs : LocalDependencyPlanFailure) : Bool :=
  lhs.kind = rhs.kind && lhs.parentPackageName = rhs.parentPackageName &&
    lhs.dependencySpecification = rhs.dependencySpecification

def addFailure : List LocalDependencyPlanFailure → LocalDependencyPlanFailure →
    List LocalDependencyPlanFailure :=
  insertUnlike sameFailure

structure LocalDependencyPlanInternalEdge where
  parentPackageName : Bytes
  dependencySpecification : Bytes
  role : PackageRole
  resolvedPackageName : Bytes
  resolutionKind : LocalDependencyResolutionKind
  providedSpecification : Option Bytes
  isCycle : Bool
  requirement : Option DependencyRequirement := none
  resolvedCandidate : Option LocalResolvedDependencyCandidate := none
  constraintEvaluation : Option ConstraintEvaluation := none

def sameInternalEdge (lhs rhs : LocalDependencyPlanInternalEdge) : Bool :=
  lhs.parentPackageName = rhs.parentPackageName &&
    lhs.dependencySpecification = rhs.dependencySpecification && lhs.role = rhs.role &&
    lhs.resolvedPackageName = rhs.resolvedPackageName &&
    lhs.resolutionKind = rhs.resolutionKind &&
    lhs.providedSpecification = rhs.providedSpecification

def addInternalEdge : List LocalDependencyPlanInternalEdge →
    LocalDependencyPlanInternalEdge → List LocalDependencyPlanInternalEdge :=
  insertUnlike sameInternalEdge

def isLocalChild (children : List EffectiveChild) (packageName : Bytes) : Bool :=
  children.any (·.packageName = packageName)

/-! ## The local resolver -/

/-- One call of `resolve_local_candidate`: its decision, and what it adds to
the two lists of the invocation. -/
structure LocalAnswer where
  decision : DependencyDecision
  internalEdges : List LocalDependencyPlanInternalEdge := []
  failures : List LocalDependencyPlanFailure := []

/-- The dependency is left to the remote resolution. -/
def notHandled : LocalAnswer := { decision := { handledLocally := false } }

/-- What the local answers are given from. -/
structure LocalUnit where
  vercmp : Bytes → Bytes → Int
  children : List EffectiveChild
  packageBase : Bytes
  packageVersion : Bytes

/-- The parent is not one of the children, or depends on itself. -/
def startsAsCycle (localUnit : LocalUnit) (context : DependencyContext)
    (candidate : Candidate) : Bool :=
  context.parentPackageBase ≠ localUnit.packageBase ||
    context.parentPackageName = candidate.packageName

def internalEdge (localUnit : LocalUnit) (context : DependencyContext)
    (dependency : RequiredDependency) (candidate : Candidate)
    (declaration : TypedPackageDependency) : LocalDependencyPlanInternalEdge where
  parentPackageName := context.parentPackageName
  dependencySpecification := declaration.specification
  role := declaration.role
  resolvedPackageName := candidate.packageName
  resolutionKind := candidate.resolutionKind
  providedSpecification := candidate.providedSpecification
  isCycle := startsAsCycle localUnit context candidate
  requirement := declaration.requirement
  resolvedCandidate := some
    { packageName := candidate.packageName
      packageBase := localUnit.packageBase
      providedCapability := candidate.providerCapability
      observedVersion := candidate.observedVersion }
  constraintEvaluation := some
    (candidateConstraintEvaluation localUnit.vercmp candidate dependency)

/-- The one candidate is taken. A constraint it does not meet is reported and
never sends the dependency to a remote package. -/
def takeCandidate (localUnit : LocalUnit) (context : DependencyContext)
    (specification : Bytes) (dependency : RequiredDependency) (candidate : Candidate) :
    LocalAnswer :=
  let satisfaction :=
    (candidateConstraintEvaluation localUnit.vercmp candidate dependency).satisfaction
  { decision :=
      { handledLocally := true
        cyclePackageBase :=
          if startsAsCycle localUnit context candidate then some localUnit.packageBase
          else none }
    internalEdges :=
      context.declarations.map (internalEdge localUnit context dependency candidate)
    failures :=
      if dependency.kind = .package ∧
          (satisfaction = .unsatisfied ∨ satisfaction = .unknown) then
        [⟨.constraintMismatch, context.parentPackageName, some specification, none,
          [publicCandidate localUnit.vercmp dependency candidate]⟩]
      else [] }

/-- Several children offer the dependency: it is unresolved. -/
def reportAmbiguous (localUnit : LocalUnit) (context : DependencyContext)
    (specification : Bytes) (dependency : RequiredDependency)
    (selectable : List Candidate) : LocalAnswer where
  decision :=
    { handledLocally := true
      unresolvedReason := some (specification ++ ascii " (ambiguous local providers)") }
  failures :=
    [⟨.ambiguousLocalProvider, context.parentPackageName, some specification, none,
      selectable.map (publicCandidate localUnit.vercmp dependency)⟩]

def resolveLocalCandidate (localUnit : LocalUnit) (context : DependencyContext) :
    LocalAnswer :=
  match context.declarations with
  | [] => notHandled
  | first :: _ =>
    let dependency := parseRequiredDependency first
    if dependency.malformedConstraint then notHandled
    else
      match selectableCandidates
          (localCandidates localUnit.children dependency localUnit.packageVersion) with
      | [] => notHandled
      | [candidate] =>
        takeCandidate localUnit context first.specification dependency candidate
      | selectable =>
        reportAmbiguous localUnit context first.specification dependency selectable

/-- The two lists every answer writes to. -/
structure LocalRecords where
  internalEdges : List LocalDependencyPlanInternalEdge := []
  failures : List LocalDependencyPlanFailure := []

def LocalRecords.add (records : LocalRecords) (answer : LocalAnswer) : LocalRecords where
  internalEdges := answer.internalEdges.foldl addInternalEdge records.internalEdges
  failures := answer.failures.foldl addFailure records.failures

/-! ## Cycles, roles and roots -/

/-- `resolved_aur_package_name`, which the walk computes the same way. -/
def resolvedAurPackageName (edge : BuildPlanDependencyEdge) : Option Bytes :=
  resolvedAurDependencyName edge

/-- The packages an internal edge, or an AUR edge to a planned package, leads
to. -/
def dependencySuccessors (plan : BuildPlan)
    (internalEdges : List LocalDependencyPlanInternalEdge) (packageName : Bytes) :
    List Bytes :=
  (internalEdges.filter fun edge => edge.parentPackageName = packageName).map
      (·.resolvedPackageName) ++
    (plan.dependencyEdges.filter fun edge =>
      edge.parentPackageName = packageName).filterMap fun edge =>
        (resolvedAurPackageName edge).filter fun name =>
          (findPackageTarget plan name).isSome

/-- Every package but the first is the end of an edge. -/
def pathBudget (plan : BuildPlan)
    (internalEdges : List LocalDependencyPlanInternalEdge) : Nat :=
  internalEdges.length + plan.dependencyEdges.length + 2

def hasDependencyPath (origin target : Bytes) (plan : BuildPlan)
    (internalEdges : List LocalDependencyPlanInternalEdge) : Bool :=
  (Verified.DepthFirst.search (dependencySuccessors plan internalEdges) target
    (pathBudget plan internalEdges) origin []).1

/-- The search reads which packages an edge joins, never the mark of an edge,
so the edges are marked independently of each other. -/
def markCycles (plan : BuildPlan) (internalEdges : List LocalDependencyPlanInternalEdge) :
    List LocalDependencyPlanInternalEdge :=
  internalEdges.map fun edge =>
    if edge.isCycle then edge
    else
      { edge with
        isCycle := hasDependencyPath edge.resolvedPackageName edge.parentPackageName plan
          internalEdges }

/-- The cycles of a plan with those the internal edges close. -/
def cyclesWith (cycles : List Bytes)
    (internalEdges : List LocalDependencyPlanInternalEdge) (packageBase : Bytes) :
    List Bytes :=
  if internalEdges.any (·.isCycle) then insertNew cycles packageBase else cycles

def classifyLocalCycles (plan : BuildPlan)
    (internalEdges : List LocalDependencyPlanInternalEdge) (packageBase : Bytes) :
    BuildPlan × List LocalDependencyPlanInternalEdge :=
  let marked := markCycles plan internalEdges
  ({ plan with cycles := cyclesWith plan.cycles marked packageBase }, marked)

def aggregateLocalRoles (plan : BuildPlan)
    (internalEdges : List LocalDependencyPlanInternalEdge)
    (children : List EffectiveChild) : BuildPlan :=
  internalEdges.foldl
    (fun plan edge =>
      if isLocalChild children edge.resolvedPackageName then
        { plan with
          packageTargets :=
            updateFirst (fun target => target.packageName = edge.resolvedPackageName)
              (fun target => { target with roles := addPackageRole target.roles edge.role })
              plan.packageTargets }
      else plan) plan

def localBuildPlanEdge (packageBase : Bytes) (edge : LocalDependencyPlanInternalEdge) :
    BuildPlanDependencyEdge where
  parentPackageName := edge.parentPackageName
  parentPackageBase := packageBase
  dependencySpec := edge.dependencySpecification
  role := edge.role
  kind := .local
  resolvedPackageName := some edge.resolvedPackageName
  resolvedPackageBase := some packageBase
  requirement := edge.requirement
  resolvedCandidate := edge.resolvedCandidate.map .local
  constraintEvaluation := edge.constraintEvaluation

def appendLocalBuildPlanEdges (plan : BuildPlan)
    (internalEdges : List LocalDependencyPlanInternalEdge) (packageBase : Bytes) :
    BuildPlan :=
  { plan with
    dependencyEdges :=
      plan.dependencyEdges ++ internalEdges.map (localBuildPlanEdge packageBase) }

/-- The packages a root identity is passed on to. -/
def rootSuccessors (plan : BuildPlan)
    (internalEdges : List LocalDependencyPlanInternalEdge) (packageName : Bytes) :
    List Bytes :=
  (internalEdges.filter fun edge => edge.parentPackageName = packageName).map
      (·.resolvedPackageName) ++
    (plan.dependencyEdges.filter fun edge =>
      edge.parentPackageName = packageName).filterMap resolvedAurPackageName

def rootBudget (plan : BuildPlan)
    (internalEdges : List LocalDependencyPlanInternalEdge) : Nat :=
  let edges := internalEdges.length + plan.dependencyEdges.length
  edges * edges + 2

def propagateLocalRoot (internalEdges : List LocalDependencyPlanInternalEdge)
    (plan : BuildPlan) (root : RootTargetIdentity) : BuildPlan :=
  (Verified.Worklist.explore (rootSuccessors plan internalEdges)
    (rootBudget plan internalEdges) [root.requestedName] []).foldl
      (fun plan name => addRootToTarget plan name root) plan

def propagateLocalRootIdentities (plan : BuildPlan)
    (internalEdges : List LocalDependencyPlanInternalEdge) : BuildPlan :=
  let marked := plan.rootTargets.foldl (propagateLocalRoot internalEdges) plan
  { marked with
    resolutionFailures := marked.resolutionFailures.map fun failure =>
      match failure.parentPackageName.bind (findPackageTarget marked) with
      | none => failure
      | some parent =>
        { failure with roots := parent.roots.foldl addRootIdentity failure.roots } }

/-! ## Before the resolution -/

def unsupportedArchitectureText (child : EffectiveChild) (effectiveArchitecture : Bytes) :
    Bytes :=
  child.packageName ++ ascii " (unsupported architecture: " ++ effectiveArchitecture ++
    ascii ")"

/-- `add_unsupported_architecture_failures`: the failures, and the unresolved
texts of the preflight plan. -/
def unsupportedArchitectures (children : List EffectiveChild)
    (effectiveArchitecture : Bytes) : List LocalDependencyPlanFailure × List Bytes :=
  let unsupported := children.filter fun child => !child.architectureSupported
  ((unsupported.map fun child =>
      ⟨.unsupportedArchitecture, child.packageName, none, some effectiveArchitecture,
        []⟩).foldl addFailure [],
    (unsupported.map (unsupportedArchitectureText · effectiveArchitecture)).foldl
      insertNew [])

structure CachedDependencyDecision where
  parentPackageName : Bytes
  dependencySpecification : Bytes
  decision : DependencyDecision

def uniqueDependencySpecifications (root : RootPackage) : List Bytes :=
  (root.dependencies.map (·.specification)).foldl insertNew []

def declarationsForSpecification (root : RootPackage) (specification : Bytes) :
    List TypedPackageDependency :=
  root.dependencies.filter fun dependency => dependency.specification = specification

/-- The calls of `preclassify_local_dependencies`, with the specification each
is cached under. -/
def preclassifiedContexts (roots : List RootPackage) : List (Bytes × DependencyContext) :=
  roots.zipIdx.flatMap fun item =>
    (uniqueDependencySpecifications item.1).map fun specification =>
      (specification,
        ⟨item.1.packageName, item.1.packageBase,
          declarationsForSpecification item.1 specification,
          ⟨item.2, item.1.packageName⟩⟩)

def preclassifyLocalDependencies (localUnit : LocalUnit) (roots : List RootPackage) :
    List CachedDependencyDecision :=
  (preclassifiedContexts roots).map fun call =>
    ⟨call.2.parentPackageName, call.1, (resolveLocalCandidate localUnit call.2).decision⟩

def findCachedDecision (decisions : List CachedDependencyDecision)
    (context : DependencyContext) : Option DependencyDecision :=
  match context.declarations with
  | [] => none
  | first :: _ =>
    (decisions.find? fun decision =>
      decision.parentPackageName = context.parentPackageName &&
        decision.dependencySpecification = first.specification).map (·.decision)

/-- The answers of these calls, written down in order. -/
def recordCalls (localUnit : LocalUnit) (contexts : List DependencyContext)
    (records : LocalRecords) : LocalRecords :=
  contexts.foldl
    (fun current context => current.add (resolveLocalCandidate localUnit context)) records

def localUnitOf (vercmp : Bytes → Bytes → Int) (metadata : LocalPackageMetadata)
    (effectiveArchitecture : Bytes) : LocalUnit where
  vercmp := vercmp
  children := collectEffectiveChildren metadata effectiveArchitecture
  packageBase := metadata.packageBase
  packageVersion := localPackageVersion metadata

/-- What is known before the resolution starts. -/
structure LocalPreflight where
  localUnit : LocalUnit
  roots : List RootPackage
  unresolved : List Bytes
  cycles : List Bytes
  records : LocalRecords
  cachedDecisions : List CachedDependencyDecision

/-- With a child of another architecture nothing is classified, and the roots
lose their dependencies: the resolution has nothing left to ask. -/
def localPreflight (vercmp : Bytes → Bytes → Int) (metadata : LocalPackageMetadata)
    (effectiveArchitecture : Bytes) : LocalPreflight :=
  let localUnit := localUnitOf vercmp metadata effectiveArchitecture
  let roots := collectRootPackages localUnit.children metadata.packageBase
  let unsupported := unsupportedArchitectures localUnit.children effectiveArchitecture
  if unsupported.2 = [] then
    let records := recordCalls localUnit ((preclassifiedContexts roots).map (·.2))
      { failures := unsupported.1 }
    let classified := classifyLocalCycles {} records.internalEdges metadata.packageBase
    { localUnit := localUnit
      roots := roots
      unresolved := []
      cycles := classified.1.cycles
      records := { records with internalEdges := classified.2 }
      cachedDecisions := preclassifyLocalDependencies localUnit roots }
  else
    { localUnit := localUnit
      roots := roots.map fun root => { root with dependencies := [] }
      unresolved := unsupported.2
      cycles := []
      records := { failures := unsupported.1 }
      cachedDecisions := [] }

namespace LocalPreflight

/-- The decision of the `local_resolver` of an invocation. -/
def decide (preflight : LocalPreflight) (context : DependencyContext) :
    DependencyDecision :=
  (findCachedDecision preflight.cachedDecisions context).getD
    (resolveLocalCandidate preflight.localUnit context).decision

/-- The calls that were made before the resolution started. -/
def preclassified (preflight : LocalPreflight) : List DependencyContext :=
  if preflight.unresolved = [] then (preclassifiedContexts preflight.roots).map (·.2) else []

/-- The calls that were not cached. -/
def classified (preflight : LocalPreflight) (calls : List DependencyContext) :
    List DependencyContext :=
  calls.filter fun context =>
    findCachedDecision preflight.cachedDecisions context = none

/-- The records after a resolution that made these calls. -/
def recordsAfter (preflight : LocalPreflight) (calls : List DependencyContext) :
    LocalRecords :=
  recordCalls preflight.localUnit (preflight.classified calls) preflight.records

end LocalPreflight

/-! ## The plan -/

structure LocalBuildPlan where
  buildPlan : BuildPlan
  localMetadata : LocalPackageMetadata
  effectiveArchitecture : Bytes
  internalEdges : List LocalDependencyPlanInternalEdge
  failures : List LocalDependencyPlanFailure

def remoteIdentityConflictFailure (conflict : RemoteProviderIdentityConflict) :
    LocalDependencyPlanFailure where
  kind := .remoteProviderIdentityConflict
  parentPackageName := conflict.parentPackageName
  dependencySpecification := some conflict.dependencySpecification
  effectiveArchitecture := none
  candidates :=
    [{ packageName := conflict.provider.packageName
       providedSpecification := some conflict.provider.providedDependencySpecification
       version := conflict.provider.packageVersion
       remoteProvider := some conflict.provider }]

def finalizeBuildPlanConstraints (env : MetadataEnvironment) (plan : BuildPlan) :
    Except Thrown BuildPlan := do
  let projected ← projectBuildPlanConstraintConflicts env plan
  requireConstructibleBuildPlanConstraints projected
  .ok projected

/-- The two lists of a returned plan, and the calls that wrote to them. -/
structure LocalRun where
  plan : LocalBuildPlan
  contexts : List DependencyContext

def emptyArchitecture : Thrown :=
  ⟨.invalidArgument, ascii "Effective architecture must not be empty."⟩

/-- What the local projection does with the result of a resolution. -/
def finishLocalBuildPlan (env : MetadataEnvironment) (metadata : LocalPackageMetadata)
    (effectiveArchitecture : Bytes) (preflight : LocalPreflight)
    (interaction : InteractionResult) : Except Thrown LocalRun := do
  let calls := interaction.earlierLocalRequests ++ interaction.result.localRequests
  let records := preflight.recordsAfter calls
  let resolved := interaction.result.plan
  let plan ← finalizeBuildPlanConstraints env
    (appendLocalBuildPlanEdges
      { resolved with
        unresolved := preflight.unresolved.foldl insertNew resolved.unresolved
        cycles := preflight.cycles.foldl insertNew resolved.cycles }
      records.internalEdges metadata.packageBase)
  let classified := classifyLocalCycles
    (aggregateLocalRoles plan records.internalEdges preflight.localUnit.children)
    records.internalEdges metadata.packageBase
  .ok {
    plan := {
      buildPlan := propagateLocalRootIdentities classified.1 classified.2
      localMetadata := metadata
      effectiveArchitecture := effectiveArchitecture
      internalEdges := classified.2
      failures := (interaction.result.identityConflicts.map
        remoteIdentityConflictFailure).foldl addFailure records.failures }
    contexts := preflight.preclassified ++ preflight.classified calls }

def runLocalBuildPlan (env : Nat → MetadataEnvironment) (metadata : LocalPackageMetadata)
    (effectiveArchitecture : Bytes) (selectProvider : Option ProviderSelectionCallback) :
    Except Thrown LocalRun :=
  if effectiveArchitecture = [] then .error emptyArchitecture
  else do
    let preflight := localPreflight (env 0).vercmp metadata effectiveArchitecture
    let interaction ← resolveLocal env preflight.roots [metadata.packageBase]
      (some fun _ context => .ok (preflight.decide context)) selectProvider
    finishLocalBuildPlan (env interaction.pass) metadata effectiveArchitecture preflight
      interaction

/-- `resolve_local_build_plan`. -/
def resolveLocalBuildPlan (env : Nat → MetadataEnvironment)
    (metadata : LocalPackageMetadata) (effectiveArchitecture : Bytes)
    (selectProvider : Option ProviderSelectionCallback) : Except Thrown LocalBuildPlan := do
  let run ← runLocalBuildPlan env metadata effectiveArchitecture selectProvider
  .ok run.plan

end Moguet.Local.Projection
