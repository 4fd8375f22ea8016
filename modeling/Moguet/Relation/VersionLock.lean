import Mathlib.Data.List.Nodup
import Moguet.Relation.Observation

/-!
# Cross-source version locks

`cross_source_version_lock.cpp`: an installed foreign package pins a
repository package with an exact requirement, and the AUR offers a replacement
for the newer repository version. The plan removes the foreign package,
upgrades the system and installs the replacement. It is ready only when the
removal leaves every runtime requirement that names a component of the removed
package with a satisfier.
-/

namespace Moguet.Relation.VersionLock

open Verified.ByteString Plan.Constraint Plan.Metadata Observation

variable {package removed : PackageRelationObservedPackage}
  {requirement : ConsumerDependencyRequirement}

/-! ## Evidence -/

structure RepositoryUpgradeCandidate where
  installedPackage : InstalledExactPackage
  repositoryCandidate : RepositoryPackagePresent

structure InstalledCrossSourceVersionLockConsumer where
  package : PackageRelationObservedPackage
  requirement : ConsumerDependencyRequirement

/-- `AurReplacementCandidateQueryResult`. -/
inductive AurReplacementCandidateQueryResult
  | success (candidates : List AurPackageConstraintMetadata)
  | notFound (packageName : Bytes)
  | metadataUnavailable (packageName : Bytes) (packageBase : Option Bytes)
      (reason : ObservedVersionUnknownReason)
  | queryFailure (packageNames : List Bytes) (diagnostic : Bytes)

structure CrossSourceVersionLockCandidateEvidence where
  repositoryUpgrade : RepositoryUpgradeCandidate
  installedConsumer : InstalledCrossSourceVersionLockConsumer
  aurReplacement : AurReplacementCandidateQueryResult

structure CrossSourceInstalledRuntimeRequirements where
  packageName : Bytes
  requirements : List DependencyRequirement

inductive InstalledPackageReason
  | explicit
  | dependency
  | unknown
  deriving DecidableEq

structure InstalledPackageMetadata where
  name : Bytes
  version : Bytes
  reason : InstalledPackageReason

/-- `source` is the root and the database path of the local database. -/
structure CrossSourceTransitionInstalledSnapshot where
  source : Bytes × Bytes
  completeness : PackageRelationObservationCompleteness
  packages : List PackageRelationObservedPackage
  runtimeRequirements : List CrossSourceInstalledRuntimeRequirements
  foreignPackages : List InstalledPackageMetadata

variable {snapshot : CrossSourceTransitionInstalledSnapshot}

inductive CrossSourceVersionLockStatus
  | compatibleReplacement
  | incompatibleReplacement
  | missingReplacement
  | unknown
  | queryFailure
  | ambiguous
  deriving DecidableEq

structure CrossSourceVersionLockAssessment where
  status : CrossSourceVersionLockStatus
  evidence : CrossSourceVersionLockCandidateEvidence
  installedRequirementAgainstInstalledVersion : Option ConstraintEvaluation := none
  installedRequirementAgainstRepositoryCandidate : Option ConstraintEvaluation := none
  replacementRequirement : Option ConsumerDependencyRequirement := none
  replacementRequirementAgainstRepositoryCandidate : Option ConstraintEvaluation := none

/-! ## The candidate assessment -/

def hasAvailableVersion (version : ObservedVersion) (expectedSource : ObservedVersionSource) :
    Bool :=
  version.source = expectedSource && version.version?.isSome

def isValidRepositoryCandidateIdentity (candidate : RepositoryPackagePresent) : Bool :=
  candidate.repositoryName ≠ [] && isValidPackageName candidate.packageName &&
    isValidPackageName candidate.packageBase

def matchingRuntimeRequirements (candidate : AurPackageConstraintMetadata)
    (repositoryPackageName : Bytes) : List ConsumerDependencyRequirement :=
  candidate.depends.filterMap fun
    | .consumer requirement =>
      if requirement.packageName = repositoryPackageName then some requirement else none
    | .soname _ => none

section Assess

variable (vercmp : Bytes → Bytes → Int)

/-- The one direct requirement of a replacement on the repository package. -/
def assessReplacementRequirement (candidateVersion : ObservedVersion)
    (assessment : CrossSourceVersionLockAssessment) :
    List ConsumerDependencyRequirement → CrossSourceVersionLockAssessment
  | [] => assessment
  | [requirement] =>
    let evaluation :=
      evaluateConsumerDependencyRequirement vercmp requirement candidateVersion
    let status : CrossSourceVersionLockStatus :=
      match evaluation.satisfaction with
      | .unconstrained | .satisfied => .compatibleReplacement
      | .unsatisfied => .incompatibleReplacement
      | .unknown | .invalid | .conflicting => assessment.status
    { assessment with
      status := status
      replacementRequirement := some requirement
      replacementRequirementAgainstRepositoryCandidate := some evaluation }
  | _ :: _ :: _ => { assessment with status := .ambiguous }

def assessReplacementCandidate (evidence : CrossSourceVersionLockCandidateEvidence)
    (candidateVersion : ObservedVersion) (assessment : CrossSourceVersionLockAssessment)
    (replacement : AurPackageConstraintMetadata) : CrossSourceVersionLockAssessment :=
  if !isValidPackageName replacement.packageName ||
      !isValidPackageName replacement.packageBase then assessment
  else if replacement.packageName ≠ evidence.installedConsumer.package.packageName then
    { assessment with status := .ambiguous }
  else if replacement.packageVersion.source ≠ .aurExactPackage then
    { assessment with status := .ambiguous }
  else if !hasAvailableVersion replacement.packageVersion .aurExactPackage then assessment
  else
    assessReplacementRequirement vercmp candidateVersion assessment
      (matchingRuntimeRequirements replacement
        evidence.repositoryUpgrade.repositoryCandidate.packageName)

def assessReplacement (evidence : CrossSourceVersionLockCandidateEvidence)
    (candidateVersion : ObservedVersion) (assessment : CrossSourceVersionLockAssessment) :
    CrossSourceVersionLockAssessment :=
  let consumerName := evidence.installedConsumer.package.packageName
  match evidence.aurReplacement with
  | .queryFailure packageNames _ =>
    { assessment with
      status := if consumerName ∈ packageNames then .queryFailure else .ambiguous }
  | .notFound packageName =>
    { assessment with
      status :=
        if isValidPackageName packageName && packageName = consumerName then
          .missingReplacement
        else .ambiguous }
  | .metadataUnavailable packageName _ _ =>
    { assessment with
      status :=
        if isValidPackageName packageName && packageName = consumerName then .unknown
        else .ambiguous }
  | .success [] => assessment
  | .success [replacement] =>
    assessReplacementCandidate vercmp evidence candidateVersion assessment replacement
  | .success (_ :: _ :: _) => { assessment with status := .ambiguous }

/-- The part after the repository candidate is known to be newer. -/
def assessInstalledRequirement (evidence : CrossSourceVersionLockCandidateEvidence)
    (candidateVersion : ObservedVersion) (assessment : CrossSourceVersionLockAssessment) :
    CrossSourceVersionLockAssessment :=
  let requirement := evidence.installedConsumer.requirement
  let againstInstalled := evaluateConsumerDependencyRequirement vercmp requirement
    evidence.repositoryUpgrade.installedPackage.observedVersion
  let againstCandidate :=
    evaluateConsumerDependencyRequirement vercmp requirement candidateVersion
  let assessment :=
    { assessment with
      installedRequirementAgainstInstalledVersion := some againstInstalled
      installedRequirementAgainstRepositoryCandidate := some againstCandidate }
  if againstInstalled.satisfaction ≠ .satisfied ∨
      againstCandidate.satisfaction ≠ .unsatisfied then assessment
  else assessReplacement vercmp evidence candidateVersion assessment

/-- `assess_cross_source_version_lock_candidate`. -/
def assessCrossSourceVersionLockCandidate
    (evidence : CrossSourceVersionLockCandidateEvidence) : CrossSourceVersionLockAssessment :=
  let assessment : CrossSourceVersionLockAssessment :=
    { status := .unknown, evidence := evidence }
  let installedRepositoryPackage := evidence.repositoryUpgrade.installedPackage
  let repositoryCandidate := evidence.repositoryUpgrade.repositoryCandidate
  let installedConsumer := evidence.installedConsumer
  if !isValidRepositoryCandidateIdentity repositoryCandidate ||
      !isValidPackageName installedRepositoryPackage.packageName ||
      installedRepositoryPackage.packageName ≠ repositoryCandidate.packageName ||
      installedConsumer.requirement.packageName ≠ repositoryCandidate.packageName ||
      installedConsumer.package.packageName = repositoryCandidate.packageName then
    { assessment with status := .ambiguous }
  else if (validatePackageRelationObservation installedConsumer.package).isSome then assessment
  else if installedConsumer.package.role ≠ .installed ||
      !hasAvailableVersion installedConsumer.package.packageVersion .installedExactPackage then
    assessment
  else if installedConsumer.requirement.constraint.isNone then assessment
  else if !hasAvailableVersion installedRepositoryPackage.observedVersion
      .installedExactPackage then assessment
  else
    match repositoryCandidate.packageVersion with
    | none => assessment
    | some candidateVersion =>
      if candidateVersion.source ≠ .repositoryExactPackage then
        { assessment with status := .ambiguous }
      else
        match installedRepositoryPackage.observedVersion.version?,
            candidateVersion.version? with
        | some installedVersion, some repositoryVersion =>
          if compareArchPackageVersions vercmp repositoryVersion installedVersion ≠
              .greater then assessment
          else assessInstalledRequirement vercmp evidence candidateVersion assessment
        | _, _ => assessment

end Assess

/-! ## The bounded removal -/

inductive CrossSourceRemovalSafetyStatus
  | notAssessed
  | preservesRuntimeDependencies
  | blocked
  | incomplete
  | unsupported
  deriving DecidableEq

structure CrossSourceRemovalDependencyEvidence where
  dependentPackageName : Bytes
  requirement : ConsumerDependencyRequirement
  remainingSatisfierIndices : List Nat

structure CrossSourceRemovalSafetyEvidence where
  status : CrossSourceRemovalSafetyStatus := .notAssessed
  affectedRequirements : List CrossSourceRemovalDependencyEvidence := []

def isExactRequirement (requirement : ConsumerDependencyRequirement) : Bool :=
  requirement.constraint.any fun constraint => constraint.relation = .equal

def isSatisfied (evaluation : ConstraintEvaluation) : Bool :=
  evaluation.satisfaction = .satisfied || evaluation.satisfaction = .unconstrained

def hasComponentIdentity (package : PackageRelationObservedPackage) (component : Bytes) :
    Bool :=
  package.packageName = component ||
    package.provides.any fun provided => provided.capability.packageName = component

section Removal

variable (vercmp : Bytes → Bytes → Int)

def installedPackageSatisfies (package : PackageRelationObservedPackage)
    (requirement : ConsumerDependencyRequirement) : Bool :=
  (package.packageName = requirement.packageName &&
    isSatisfied (evaluateConsumerDependencyRequirement vercmp requirement
      package.packageVersion)) ||
  package.provides.any fun provided =>
    provided.capability.packageName = requirement.packageName &&
      isSatisfied (evaluateConsumerDependencyRequirement vercmp requirement
        provided.observedVersion)

/-- The positions of the packages other than the removed one that satisfy a
requirement. -/
def remainingSatisfierIndices (snapshot : CrossSourceTransitionInstalledSnapshot)
    (removed : PackageRelationObservedPackage) (requirement : ConsumerDependencyRequirement) :
    List Nat :=
  snapshot.packages.zipIdx.filterMap fun item =>
    if item.1.packageName ≠ removed.packageName &&
        installedPackageSatisfies vercmp item.1 requirement then some item.2 else none

/-- The requirements of the packages that stay, each with its owner. -/
def remainingRequirements (snapshot : CrossSourceTransitionInstalledSnapshot)
    (removed : PackageRelationObservedPackage) : List (Bytes × DependencyRequirement) :=
  (snapshot.runtimeRequirements.filter fun runtime =>
    runtime.packageName ≠ removed.packageName).flatMap fun runtime =>
      runtime.requirements.map fun requirement => (runtime.packageName, requirement)

/-- The loop of `assess_bounded_removal`. A soname the removed package names
ends it; a requirement without another satisfier blocks, and the loop goes on. -/
def assessRequirements (snapshot : CrossSourceTransitionInstalledSnapshot)
    (removed : PackageRelationObservedPackage) :
    List (Bytes × DependencyRequirement) → CrossSourceRemovalSafetyEvidence →
      CrossSourceRemovalSafetyEvidence
  | [], result => result
  | (_, .soname requirement) :: rest, result =>
    if hasComponentIdentity removed requirement.soname then
      { result with status := .unsupported }
    else assessRequirements snapshot removed rest result
  | (dependent, .consumer requirement) :: rest, result =>
    if !hasComponentIdentity removed requirement.packageName then
      assessRequirements snapshot removed rest result
    else
      let indices := remainingSatisfierIndices vercmp snapshot removed requirement
      assessRequirements snapshot removed rest
        { status := if indices = [] then .blocked else result.status
          affectedRequirements :=
            result.affectedRequirements ++ [⟨dependent, requirement, indices⟩] }

/-- `assess_bounded_removal`. -/
def assessBoundedRemoval (snapshot : CrossSourceTransitionInstalledSnapshot)
    (removed : PackageRelationObservedPackage) : CrossSourceRemovalSafetyEvidence :=
  assessRequirements vercmp snapshot removed (remainingRequirements snapshot removed)
    { status := .preservesRuntimeDependencies }

end Removal

/-- `has_consistent_installed_snapshot`: one complete database, the packages
and their runtime requirements under the same names, and the packages of the
candidate as they were observed. -/
def hasConsistentInstalledSnapshot (snapshot : CrossSourceTransitionInstalledSnapshot)
    (candidate : CrossSourceVersionLockCandidateEvidence) : Bool :=
  let packageNames : List Bytes := snapshot.packages.map (·.packageName)
  let runtimeNames : List Bytes := snapshot.runtimeRequirements.map (·.packageName)
  let consumer := candidate.installedConsumer
  let repository := candidate.repositoryUpgrade.installedPackage
  let foundConsumer := snapshot.packages.foldl (fun found package =>
    if package.packageName = consumer.package.packageName then
      decide (package = consumer.package)
    else found) false
  let foundRepository := snapshot.packages.foldl (fun found package =>
    if package.packageName = repository.packageName then
      decide (package.packageVersion = repository.observedVersion)
    else found) false
  let foundRequirement := snapshot.runtimeRequirements.foldl (fun found runtime =>
    if runtime.packageName = consumer.package.packageName then
      decide (runtime.requirements.count (.consumer consumer.requirement) = 1)
    else found) false
  snapshot.completeness = .complete && decide packageNames.Nodup &&
    (snapshot.packages.all fun package =>
      (validatePackageRelationObservation package).isNone && package.role = .installed &&
        package.source = .installedDatabase snapshot.source.1 snapshot.source.2 &&
        package.packageVersion.version?.isSome) &&
    decide runtimeNames.Nodup &&
    (packageNames.all (· ∈ runtimeNames)) && (runtimeNames.all (· ∈ packageNames)) &&
    foundConsumer && foundRepository && foundRequirement

/-! ## Plans -/

inductive CrossSourceVersionLockObservationStatus
  | complete
  | partialObservation
  | failed
  deriving DecidableEq

inductive CrossSourceVersionLockObservationIssueKind
  | repositoryConfigurationUnavailable
  | foreignInventoryUnavailable
  | installedRelationInventoryUnavailable
  | installedRuntimeDependencyInventoryUnavailable
  | installedConsumerIdentityAmbiguous
  | installedRuntimeDependencyInvalid
  | duplicateInstalledRuntimeDependency
  | repositoryCandidateUnavailable
  | aurReplacementMetadataUnavailable
  | aurReplacementQueryFailure
  deriving DecidableEq

structure CrossSourceVersionLockObservationIssue where
  kind : CrossSourceVersionLockObservationIssueKind
  installedConsumerPackageName : Option Bytes
  dependencyPackageName : Option Bytes
  diagnostic : Bytes

structure CrossSourceVersionLockObservationResult where
  status : CrossSourceVersionLockObservationStatus
  issues : List CrossSourceVersionLockObservationIssue
  transitionInstalledSnapshot : Option CrossSourceTransitionInstalledSnapshot

inductive CrossSourceVersionLockObservationBasis
  | afterRepositoryFailure
  | beforeRepositoryMutation
  deriving DecidableEq

inductive CrossSourceTransitionPlanStatus
  | readOnlyReady
  | blocked
  | incomplete
  | ambiguous
  | unsupported
  deriving DecidableEq

inductive CrossSourceTransitionPlanReason
  | none
  | incompleteObservation
  | replacementMissing
  | replacementQueryFailure
  | incompatibleReplacement
  | ambiguousIdentity
  | exactRequirementUnavailable
  | incompleteInstalledInventory
  | installedReasonUnknown
  | reverseDependency
  | unsupportedRuntimeDependency
  | replacementRelationsRequireAssessment
  | overlappingCandidates
  | multipleCandidatesRequireCoordination
  | unsupportedObservationBasis
  deriving DecidableEq

inductive CrossSourceTransitionPhase
  | removeInstalledForeign
  | repositorySystemUpgrade
  | installAurReplacement
  | verifyPostState
  deriving DecidableEq

structure CrossSourceCoordinatedTransitionPlan where
  status : CrossSourceTransitionPlanStatus
  reason : CrossSourceTransitionPlanReason
  basis : CrossSourceVersionLockObservationBasis
  observationCompleteness : CrossSourceVersionLockObservationStatus
  correlation : CrossSourceVersionLockAssessment
  observationIssues : List CrossSourceVersionLockObservationIssue
  installedSnapshot : Option CrossSourceTransitionInstalledSnapshot
  installedForeign : Option InstalledPackageMetadata := none
  expectedInstallReason : InstalledPackageReason := .unknown
  removalSafety : CrossSourceRemovalSafetyEvidence := {}
  phases : List CrossSourceTransitionPhase := []

variable {plan : CrossSourceCoordinatedTransitionPlan}

inductive CrossSourceVersionLockCorrelationFailureKind
  | resourceExhaustion
  | unexpectedException
  | unknownException
  deriving DecidableEq

structure CrossSourceVersionLockCorrelationFailure where
  kind : CrossSourceVersionLockCorrelationFailureKind
  diagnostic : Option Bytes

structure CrossSourceVersionLockCorrelationResult where
  basis : CrossSourceVersionLockObservationBasis
  observation : Option CrossSourceVersionLockObservationResult
  assessments : List CrossSourceVersionLockAssessment
  possibleBlockerAssessmentIndices : List Nat
  failure : Option CrossSourceVersionLockCorrelationFailure

namespace CrossSourceCoordinatedTransitionPlan

def reject (plan : CrossSourceCoordinatedTransitionPlan)
    (status : CrossSourceTransitionPlanStatus) (reason : CrossSourceTransitionPlanReason) :
    CrossSourceCoordinatedTransitionPlan :=
  { plan with status := status, reason := reason }

end CrossSourceCoordinatedTransitionPlan

/-- The foreign packages with the consumer's name. The first match is kept;
a second one, or another version, is ambiguous. -/
def matchForeign (consumer : PackageRelationObservedPackage) :
    List InstalledPackageMetadata → Option InstalledPackageMetadata →
      Bool × Option InstalledPackageMetadata
  | [], found => (false, found)
  | foreign :: rest, found =>
    if foreign.name ≠ consumer.packageName then matchForeign consumer rest found
    else if found.isSome ∨ some foreign.version ≠ consumer.packageVersion.version? then
      (true, found)
    else matchForeign consumer rest (some foreign)

def repositoryOrderIsKnown (repository : RepositoryPackagePresent) : Bool :=
  repository.configuredRepositoryOrder.any fun order =>
    order[repository.configuredOrder]? = some repository.repositoryName

def readyPhases : List CrossSourceTransitionPhase :=
  [.removeInstalledForeign, .repositorySystemUpgrade, .installAurReplacement, .verifyPostState]

section Plan

variable (vercmp : Bytes → Bytes → Int)

/-- The verdict on the removal itself. -/
def classifyRemoval (snapshot : CrossSourceTransitionInstalledSnapshot)
    (plan : CrossSourceCoordinatedTransitionPlan) : CrossSourceCoordinatedTransitionPlan :=
  let safety :=
    assessBoundedRemoval vercmp snapshot plan.correlation.evidence.installedConsumer.package
  let plan := { plan with removalSafety := safety }
  match safety.status with
  | .preservesRuntimeDependencies =>
    { plan with status := .readOnlyReady, reason := .none, phases := readyPhases }
  | .blocked => plan.reject .blocked .reverseDependency
  | .unsupported => plan.reject .unsupported .unsupportedRuntimeDependency
  | .incomplete | .notAssessed => plan.reject .incomplete .incompleteInstalledInventory

/-- The foreign package, its install reason and the replacement's relations.
An assessed compatible replacement is a query with candidates, so the last
case does not arise. -/
def classifyForeign (snapshot : CrossSourceTransitionInstalledSnapshot)
    (plan : CrossSourceCoordinatedTransitionPlan) : CrossSourceCoordinatedTransitionPlan :=
  let evidence := plan.correlation.evidence
  let matched := matchForeign evidence.installedConsumer.package snapshot.foreignPackages
    plan.installedForeign
  let plan :=
    { plan with
      installedForeign := matched.2
      expectedInstallReason := (matched.2.map (·.reason)).getD plan.expectedInstallReason }
  if matched.1 then plan.reject .ambiguous .ambiguousIdentity
  else if plan.installedForeign.isNone ∨
      (plan.expectedInstallReason ≠ .explicit ∧ plan.expectedInstallReason ≠ .dependency) then
    plan.reject .incomplete .installedReasonUnknown
  else
    match evidence.aurReplacement with
    | .success (replacement :: _) =>
      if replacement.relations ≠ [] then
        plan.reject .unsupported .replacementRelationsRequireAssessment
      else classifyRemoval vercmp snapshot plan
    | _ => plan

/-- The checks on the observation of a compatible replacement. -/
def classifyCompatible (plan : CrossSourceCoordinatedTransitionPlan) :
    CrossSourceCoordinatedTransitionPlan :=
  let evidence := plan.correlation.evidence
  if plan.observationCompleteness ≠ .complete ∨ plan.observationIssues ≠ [] then plan
  else if !isExactRequirement evidence.installedConsumer.requirement ||
      !plan.correlation.replacementRequirement.any isExactRequirement then
    plan.reject .unsupported .exactRequirementUnavailable
  else if !repositoryOrderIsKnown evidence.repositoryUpgrade.repositoryCandidate then
    plan.reject .ambiguous .ambiguousIdentity
  else
    match plan.installedSnapshot with
    | none =>
      { plan with removalSafety := { plan.removalSafety with status := .incomplete } }.reject
        .incomplete .incompleteInstalledInventory
    | some snapshot =>
      if !hasConsistentInstalledSnapshot snapshot evidence then
        { plan with removalSafety := { plan.removalSafety with status := .incomplete } }.reject
          .incomplete .incompleteInstalledInventory
      else classifyForeign vercmp snapshot plan

/-- `classify_transition`. -/
def classifyTransition (plan : CrossSourceCoordinatedTransitionPlan) :
    CrossSourceCoordinatedTransitionPlan :=
  if plan.basis ≠ .beforeRepositoryMutation then
    plan.reject .unsupported .unsupportedObservationBasis
  else
    match plan.correlation.status with
    | .missingReplacement => plan.reject .blocked .replacementMissing
    | .queryFailure => plan.reject .incomplete .replacementQueryFailure
    | .incompatibleReplacement => plan.reject .blocked .incompatibleReplacement
    | .ambiguous => plan.reject .ambiguous .ambiguousIdentity
    | .unknown => plan.reject .incomplete .exactRequirementUnavailable
    | .compatibleReplacement => classifyCompatible vercmp plan

/-- The plan of one candidate, classified unless the correlation failed. -/
def transitionPlan (correlation : CrossSourceVersionLockCorrelationResult)
    (observation : CrossSourceVersionLockObservationResult)
    (evidence : CrossSourceVersionLockCandidateEvidence) :
    CrossSourceCoordinatedTransitionPlan :=
  let plan : CrossSourceCoordinatedTransitionPlan :=
    { status := .incomplete
      reason := .incompleteObservation
      basis := correlation.basis
      observationCompleteness := observation.status
      correlation := assessCrossSourceVersionLockCandidate vercmp evidence
      observationIssues := observation.issues
      installedSnapshot := observation.transitionInstalledSnapshot }
  if correlation.failure.isNone then classifyTransition vercmp plan else plan

/-- Whether a position, a consumer or a repository package occurs twice. -/
def candidatesOverlap (indices : List Nat)
    (evidences : List CrossSourceVersionLockCandidateEvidence) : Bool :=
  !decide indices.Nodup ||
    !decide (evidences.flatMap fun evidence =>
      [evidence.installedConsumer.package.packageName,
        evidence.repositoryUpgrade.repositoryCandidate.packageName]).Nodup

/-- Several plans are never independent. -/
def refuseSeveral (overlaps : Bool) (plans : List CrossSourceCoordinatedTransitionPlan) :
    List CrossSourceCoordinatedTransitionPlan :=
  if 1 < plans.length then
    plans.map fun plan =>
      { plan.reject .unsupported
          (if overlaps then .overlappingCandidates
          else .multipleCandidatesRequireCoordination) with
        phases := [] }
  else plans

/-- `plan_cross_source_coordinated_transitions`. -/
def planCrossSourceCoordinatedTransitions
    (correlation : CrossSourceVersionLockCorrelationResult) :
    List CrossSourceCoordinatedTransitionPlan :=
  match correlation.observation with
  | none => []
  | some observation =>
    let indices := correlation.possibleBlockerAssessmentIndices
    match indices.mapM fun index => correlation.assessments[index]? with
    | none => []
    | some assessments =>
      let evidences := assessments.map (·.evidence)
      refuseSeveral (candidatesOverlap indices evidences)
        (evidences.map (transitionPlan vercmp correlation observation))

end Plan

/-! ## Requirements after the transition -/

section Safety

variable (vercmp : Bytes → Bytes → Int)

/-- Whether an installed package meets a requirement. A soname names a
component and carries no version. -/
def meetsRequirement (package : PackageRelationObservedPackage) :
    DependencyRequirement → Bool
  | .consumer requirement => installedPackageSatisfies vercmp package requirement
  | .soname requirement => hasComponentIdentity package requirement.soname

def SatisfiedBy (packages : List PackageRelationObservedPackage)
    (requirement : DependencyRequirement) : Prop :=
  ∃ package ∈ packages, meetsRequirement vercmp package requirement = true

/-- What is installed once the consumer is removed. -/
def remainingPackages (snapshot : CrossSourceTransitionInstalledSnapshot)
    (removed : PackageRelationObservedPackage) : List PackageRelationObservedPackage :=
  snapshot.packages.filter fun package => package.packageName ≠ removed.packageName

/-- The replacement as an installed package of the snapshot's database. -/
def installedReplacement (snapshot : CrossSourceTransitionInstalledSnapshot)
    (replacement : AurPackageConstraintMetadata) : PackageRelationObservedPackage :=
  { packageName := replacement.packageName
    packageBase := none
    packageVersion := ⟨.installedExactPackage, replacement.packageVersion.outcome⟩
    provides := replacement.provides.map fun provided =>
      ⟨provided.capability, ⟨.installedProviderCapability, provided.providedVersion.outcome⟩⟩
    source := .installedDatabase snapshot.source.1 snapshot.source.2
    role := .installed
    roots := [] }

/-- What is installed once the replacement is in place too. -/
def packagesAfterReplacement (snapshot : CrossSourceTransitionInstalledSnapshot)
    (evidence : CrossSourceVersionLockCandidateEvidence) :
    List PackageRelationObservedPackage :=
  remainingPackages snapshot evidence.installedConsumer.package ++
    match evidence.aurReplacement with
    | .success (replacement :: _) => [installedReplacement snapshot replacement]
    | _ => []

variable {vercmp}

theorem hasComponentIdentity_of_satisfies
    (h : installedPackageSatisfies vercmp package requirement = true) :
    hasComponentIdentity package requirement.packageName = true := by
  unfold installedPackageSatisfies at h
  unfold hasComponentIdentity
  rw [Bool.or_eq_true] at h ⊢
  rcases h with hexact | hprovided
  · rw [Bool.and_eq_true] at hexact
    exact Or.inl hexact.1
  · obtain ⟨provided, hmem, hmeets⟩ := List.any_eq_true.mp hprovided
    rw [Bool.and_eq_true] at hmeets
    exact Or.inr (List.any_eq_true.mpr ⟨provided, hmem, hmeets.1⟩)

theorem mem_remainingPackages : package ∈ remainingPackages snapshot removed ↔
      package ∈ snapshot.packages ∧ package.packageName ≠ removed.packageName := by
  unfold remainingPackages
  rw [List.mem_filter, decide_eq_true_eq]

theorem satisfiedBy_of_remainingSatisfierIndices
    (h : remainingSatisfierIndices vercmp snapshot removed requirement ≠ []) :
    SatisfiedBy vercmp (remainingPackages snapshot removed) (.consumer requirement) := by
  obtain ⟨index, hindex⟩ := List.exists_mem_of_ne_nil _ h
  unfold remainingSatisfierIndices at hindex
  obtain ⟨item, hitem, hsome⟩ := List.mem_filterMap.mp hindex
  split at hsome
  · rename_i hboth
    rw [Bool.and_eq_true, decide_eq_true_eq] at hboth
    have hmem : item.1 ∈ snapshot.packages := List.fst_mem_of_mem_zipIdx hitem
    exact ⟨item.1, mem_remainingPackages.mpr ⟨hmem, hboth.1⟩, hboth.2⟩
  · cases hsome

/-- What the loop has established about one requirement. -/
def RequirementKept (vercmp : Bytes → Bytes → Int)
    (snapshot : CrossSourceTransitionInstalledSnapshot)
    (removed : PackageRelationObservedPackage) : DependencyRequirement → Prop
  | .consumer requirement =>
    hasComponentIdentity removed requirement.packageName = true →
      remainingSatisfierIndices vercmp snapshot removed requirement ≠ []
  | .soname requirement => ¬ hasComponentIdentity removed requirement.soname = true

/-- The status only gets worse along the loop, so the verdict at its end is a
verdict on every requirement. -/
theorem assessRequirements_preserves : ∀ {requirements : List (Bytes × DependencyRequirement)}
      {result : CrossSourceRemovalSafetyEvidence},
      (assessRequirements vercmp snapshot removed requirements result).status =
        .preservesRuntimeDependencies →
      result.status = .preservesRuntimeDependencies ∧
        ∀ item ∈ requirements, RequirementKept vercmp snapshot removed item.2 := by
  intro requirements
  induction requirements with
  | nil =>
    intro result h
    refine ⟨h, ?_⟩
    intro item hitem
    cases hitem
  | cons first rest ih =>
    intro result h
    obtain ⟨dependent, requirement⟩ := first
    cases requirement with
    | soname requirement =>
      unfold assessRequirements at h
      by_cases hnamed : hasComponentIdentity removed requirement.soname = true
      · rw [if_pos hnamed] at h
        cases h
      · rw [if_neg hnamed] at h
        obtain ⟨hstatus, hrest⟩ := ih h
        refine ⟨hstatus, ?_⟩
        intro item hitem
        rcases List.mem_cons.mp hitem with rfl | hlater
        · exact hnamed
        · exact hrest item hlater
    | consumer requirement =>
      unfold assessRequirements at h
      by_cases hnamed : hasComponentIdentity removed requirement.packageName = true
      · rw [hnamed, Bool.not_true, if_neg Bool.false_ne_true] at h
        obtain ⟨hstatus, hrest⟩ := ih h
        have hindices : remainingSatisfierIndices vercmp snapshot removed requirement ≠ [] := by
          intro hnone
          dsimp only at hstatus
          rw [if_pos hnone] at hstatus
          cases hstatus
        dsimp only at hstatus
        rw [if_neg hindices] at hstatus
        refine ⟨hstatus, ?_⟩
        intro item hitem
        rcases List.mem_cons.mp hitem with rfl | hlater
        · exact fun _ => hindices
        · exact hrest item hlater
      · rw [Bool.not_eq_true] at hnamed
        rw [hnamed, Bool.not_false, if_pos rfl] at h
        obtain ⟨hstatus, hrest⟩ := ih h
        refine ⟨hstatus, ?_⟩
        intro item hitem
        rcases List.mem_cons.mp hitem with rfl | hlater
        · intro hcomponent
          rw [hnamed] at hcomponent
          cases hcomponent
        · exact hrest item hlater

/-- A requirement that was met stays met without the removed package. -/
theorem satisfiedBy_remaining {requirement : DependencyRequirement}
    (hunique : ∀ package ∈ snapshot.packages, package.packageName = removed.packageName →
      package = removed) (hkept : RequirementKept vercmp snapshot removed requirement)
    (h : SatisfiedBy vercmp snapshot.packages requirement) :
    SatisfiedBy vercmp (remainingPackages snapshot removed) requirement := by
  obtain ⟨package, hmem, hmeets⟩ := h
  by_cases hname : package.packageName = removed.packageName
  · have hpackage := hunique package hmem hname
    rw [hpackage] at hmeets
    cases requirement with
    | consumer requirement =>
      exact satisfiedBy_of_remainingSatisfierIndices
        (hkept (hasComponentIdentity_of_satisfies hmeets))
    | soname requirement => exact absurd hmeets hkept
  · exact ⟨package, mem_remainingPackages.mpr ⟨hmem, hname⟩, hmeets⟩

/-! ## Ready plans -/

/-- A plan whose snapshot is consistent and whose removal was found safe. -/
def RemovalChecked (vercmp : Bytes → Bytes → Int)
    (plan : CrossSourceCoordinatedTransitionPlan) : Prop :=
  ∃ snapshot, plan.installedSnapshot = some snapshot ∧
    hasConsistentInstalledSnapshot snapshot plan.correlation.evidence = true ∧
    (assessBoundedRemoval vercmp snapshot
      plan.correlation.evidence.installedConsumer.package).status =
        .preservesRuntimeDependencies

theorem reject_status (plan : CrossSourceCoordinatedTransitionPlan)
    (status : CrossSourceTransitionPlanStatus) (reason : CrossSourceTransitionPlanReason) :
    (plan.reject status reason).status = status := rfl

theorem classifyRemoval_ready (hsnapshot : plan.installedSnapshot = some snapshot)
    (hconsistent : hasConsistentInstalledSnapshot snapshot plan.correlation.evidence = true)
    (h : (classifyRemoval vercmp snapshot plan).status = .readOnlyReady) :
    RemovalChecked vercmp (classifyRemoval vercmp snapshot plan) := by
  unfold classifyRemoval at h ⊢
  dsimp only at h ⊢
  split at h
  · rename_i hstatus
    exact ⟨snapshot, hsnapshot, hconsistent, hstatus⟩
  all_goals
    rw [reject_status] at h
    cases h

theorem classifyForeign_ready (hstart : plan.status ≠ .readOnlyReady)
    (hsnapshot : plan.installedSnapshot = some snapshot)
    (hconsistent : hasConsistentInstalledSnapshot snapshot plan.correlation.evidence = true)
    (h : (classifyForeign vercmp snapshot plan).status = .readOnlyReady) :
    RemovalChecked vercmp (classifyForeign vercmp snapshot plan) := by
  unfold classifyForeign at h ⊢
  dsimp only at h ⊢
  split at h
  · rw [reject_status] at h
    cases h
  · rename_i hmatched
    rw [if_neg hmatched]
    split at h
    · rw [reject_status] at h
      cases h
    · rename_i hreason
      rw [if_neg hreason]
      split at h
      · rename_i replacement others hreplacement
        split at h
        · rw [reject_status] at h
          cases h
        · rename_i hrelations
          rw [if_neg hrelations]
          exact classifyRemoval_ready hsnapshot hconsistent h
      · exact absurd h hstart

theorem classifyCompatible_ready (hstart : plan.status ≠ .readOnlyReady)
    (h : (classifyCompatible vercmp plan).status = .readOnlyReady) :
    RemovalChecked vercmp (classifyCompatible vercmp plan) := by
  unfold classifyCompatible at h ⊢
  dsimp only at h ⊢
  split at h
  · exact absurd h hstart
  · rename_i hcomplete
    rw [if_neg hcomplete]
    split at h
    · rw [reject_status] at h
      cases h
    · rename_i hexact
      rw [if_neg hexact]
      split at h
      · rw [reject_status] at h
        cases h
      · rename_i horder
        rw [if_neg horder]
        split at h
        · rw [reject_status] at h
          cases h
        · rename_i snapshot hsnapshot
          split at h
          · rw [reject_status] at h
            cases h
          · rename_i hconsistent
            rw [if_neg hconsistent]
            rw [Bool.not_eq_true, Bool.not_eq_false'] at hconsistent
            exact classifyForeign_ready hstart hsnapshot hconsistent h

theorem classifyTransition_ready (hstart : plan.status ≠ .readOnlyReady)
    (h : (classifyTransition vercmp plan).status = .readOnlyReady) :
    RemovalChecked vercmp (classifyTransition vercmp plan) := by
  unfold classifyTransition at h ⊢
  split at h
  · rw [reject_status] at h
    cases h
  · rename_i hbasis
    rw [if_neg hbasis]
    split at h
    case h_6 =>
      exact classifyCompatible_ready hstart h
    all_goals
      rw [reject_status] at h
      cases h

theorem transitionPlan_ready {correlation : CrossSourceVersionLockCorrelationResult}
    {observation : CrossSourceVersionLockObservationResult}
    {evidence : CrossSourceVersionLockCandidateEvidence}
    (h : (transitionPlan vercmp correlation observation evidence).status = .readOnlyReady) :
    RemovalChecked vercmp (transitionPlan vercmp correlation observation evidence) := by
  unfold transitionPlan at h ⊢
  dsimp only at h ⊢
  split at h
  · rename_i hfailure
    rw [if_pos hfailure]
    apply classifyTransition_ready _ h
    intro hready
    cases hready
  · cases h

/-! ## Consistent snapshots -/

/-- A flag that the last item with a key decides was decided by some item. -/
theorem exists_of_foldl_found {α κ : Type} [DecidableEq κ] {key : α → κ} {k : κ}
    {accepts : α → Bool} :
    ∀ {items : List α} {found : Bool},
      items.foldl (fun found item => if key item = k then accepts item else found) found =
        true →
      found = true ∨ ∃ item ∈ items, key item = k ∧ accepts item = true := by
  intro items
  induction items with
  | nil => intro found h; exact Or.inl h
  | cons first rest ih =>
    intro found h
    rw [List.foldl_cons] at h
    rcases ih h with hfirst | ⟨item, hmem, hitem⟩
    · by_cases hkey : key first = k
      · rw [if_pos hkey] at hfirst
        exact Or.inr ⟨first, List.mem_cons_self, hkey, hfirst⟩
      · rw [if_neg hkey] at hfirst
        exact Or.inl hfirst
    · exact Or.inr ⟨item, List.mem_cons_of_mem _ hmem, hitem⟩

/-- What the removal relies on: one package has the consumer's name, and every
package has its runtime requirements in the snapshot. -/
theorem hasConsistentInstalledSnapshot_spec {candidate : CrossSourceVersionLockCandidateEvidence}
    (h : hasConsistentInstalledSnapshot snapshot candidate = true) :
    (∀ package ∈ snapshot.packages,
      package.packageName = candidate.installedConsumer.package.packageName →
      package = candidate.installedConsumer.package) ∧
    ∀ package ∈ snapshot.packages, ∃ runtime ∈ snapshot.runtimeRequirements,
      runtime.packageName = package.packageName := by
  unfold hasConsistentInstalledSnapshot at h
  simp only [Bool.and_eq_true, decide_eq_true_eq] at h
  obtain ⟨⟨⟨⟨⟨⟨⟨⟨-, hnames⟩, -⟩, -⟩, hcovered⟩, -⟩, hconsumer⟩, -⟩, -⟩ := h
  constructor
  · intro package hmem hname
    rcases exists_of_foldl_found hconsumer with hfalse | ⟨found, hfound, hkey, hsame⟩
    · cases hfalse
    · rw [decide_eq_true_eq] at hsame
      have hpackage : package = found :=
        List.inj_on_of_nodup_map hnames hmem hfound (hname.trans hkey.symm)
      rw [hpackage, hsame]
  · intro package hmem
    have hin := List.all_eq_true.mp hcovered package.packageName (List.mem_map_of_mem hmem)
    rw [decide_eq_true_eq] at hin
    exact List.mem_map.mp hin

/-- The requirements of a package that stays are among those the removal was
checked against. -/
theorem mem_remainingRequirements {runtime : CrossSourceInstalledRuntimeRequirements}
    {requirement : DependencyRequirement} (hruntime : runtime ∈ snapshot.runtimeRequirements)
    (hname : runtime.packageName ≠ removed.packageName)
    (hrequirement : requirement ∈ runtime.requirements) :
    (runtime.packageName, requirement) ∈ remainingRequirements snapshot removed := by
  unfold remainingRequirements
  apply List.mem_flatMap.mpr
  refine ⟨runtime, List.mem_filter.mpr ⟨hruntime, ?_⟩, List.mem_map_of_mem hrequirement⟩
  rw [decide_eq_true_eq]
  exact hname

/-- The requirements a transition of the plan must leave alone: those of the
packages that stay, met by the snapshot. -/
structure TransitionPreserves (vercmp : Bytes → Bytes → Int)
    (snapshot : CrossSourceTransitionInstalledSnapshot)
    (evidence : CrossSourceVersionLockCandidateEvidence)
    (package : PackageRelationObservedPackage) : Prop where
  covered : ∃ runtime ∈ snapshot.runtimeRequirements, runtime.packageName = package.packageName
  afterRemoval : ∀ runtime ∈ snapshot.runtimeRequirements,
    runtime.packageName = package.packageName →
    ∀ requirement ∈ runtime.requirements, SatisfiedBy vercmp snapshot.packages requirement →
      SatisfiedBy vercmp (remainingPackages snapshot evidence.installedConsumer.package)
        requirement
  afterReplacement : ∀ runtime ∈ snapshot.runtimeRequirements,
    runtime.packageName = package.packageName →
    ∀ requirement ∈ runtime.requirements, SatisfiedBy vercmp snapshot.packages requirement →
      SatisfiedBy vercmp (packagesAfterReplacement snapshot evidence) requirement

theorem transitionPreserves_of_checked (h : RemovalChecked vercmp plan) :
    ∃ snapshot, plan.installedSnapshot = some snapshot ∧ ∀ package ∈ snapshot.packages,
        package.packageName ≠ plan.correlation.evidence.installedConsumer.package.packageName →
        TransitionPreserves vercmp snapshot plan.correlation.evidence package := by
  obtain ⟨snapshot, hsnapshot, hconsistent, hsafe⟩ := h
  obtain ⟨hunique, hcovered⟩ := hasConsistentInstalledSnapshot_spec hconsistent
  refine ⟨snapshot, hsnapshot, ?_⟩
  intro package hpackage hstays
  have hremoval : ∀ runtime ∈ snapshot.runtimeRequirements,
      runtime.packageName = package.packageName →
      ∀ requirement ∈ runtime.requirements, SatisfiedBy vercmp snapshot.packages requirement →
        SatisfiedBy vercmp (remainingPackages snapshot
          plan.correlation.evidence.installedConsumer.package) requirement := by
    intro runtime hruntime hname requirement hrequirement hmet
    have hother : runtime.packageName ≠
        plan.correlation.evidence.installedConsumer.package.packageName := by
      rw [hname]
      exact hstays
    have hkept := (assessRequirements_preserves hsafe).2 _
      (mem_remainingRequirements hruntime hother hrequirement)
    exact satisfiedBy_remaining hunique hkept hmet
  refine ⟨hcovered package hpackage, hremoval, ?_⟩
  intro runtime hruntime hname requirement hrequirement hmet
  obtain ⟨satisfier, hsatisfier, hmeets⟩ :=
    hremoval runtime hruntime hname requirement hrequirement hmet
  exact ⟨satisfier, List.mem_append_left _ hsatisfier, hmeets⟩

end Safety

theorem refuseSeveral_ready {overlaps : Bool} {plans : List CrossSourceCoordinatedTransitionPlan}
    (hmem : plan ∈ refuseSeveral overlaps plans) (hready : plan.status = .readOnlyReady) :
    refuseSeveral overlaps plans = plans ∧ plans.length ≤ 1 := by
  unfold refuseSeveral at hmem ⊢
  split at hmem
  · obtain ⟨original, _, rfl⟩ := List.mem_map.mp hmem
    cases hready
  · rename_i hlength
    exact ⟨if_neg hlength, Nat.not_lt.mp hlength⟩

/-- For every correlation: where a plan is ready, every package of its snapshot
that stays keeps each runtime requirement the snapshot met, after the removal
and after the replacement; and no two plans are ready. -/
theorem planCrossSourceCoordinatedTransitions_safe (vercmp : Bytes → Bytes → Int)
    (correlation : CrossSourceVersionLockCorrelationResult) :
    (∀ plan ∈ planCrossSourceCoordinatedTransitions vercmp correlation,
      plan.status = .readOnlyReady →
      ∃ snapshot, plan.installedSnapshot = some snapshot ∧
        ∀ package ∈ snapshot.packages,
          package.packageName ≠
            plan.correlation.evidence.installedConsumer.package.packageName →
          TransitionPreserves vercmp snapshot plan.correlation.evidence package) ∧
    (planCrossSourceCoordinatedTransitions vercmp correlation).countP
      (fun plan => plan.status = .readOnlyReady) ≤ 1 := by
  unfold planCrossSourceCoordinatedTransitions
  cases hobservation : correlation.observation with
  | none => exact ⟨by simp, by simp⟩
  | some observation =>
    dsimp only
    split
    · exact ⟨by simp, by simp⟩
    · rename_i assessments hassessments
      constructor
      · intro plan hplan hready
        obtain ⟨hplans, _⟩ := refuseSeveral_ready hplan hready
        rw [hplans] at hplan
        obtain ⟨evidence, _, rfl⟩ := List.mem_map.mp hplan
        exact transitionPreserves_of_checked (transitionPlan_ready hready)
      · by_contra hseveral
        rw [Nat.not_le] at hseveral
        obtain ⟨plan, hplan, hready⟩ :=
          List.countP_pos_iff.mp (Nat.lt_trans Nat.zero_lt_one hseveral)
        rw [decide_eq_true_eq] at hready
        obtain ⟨hplans, hlength⟩ := refuseSeveral_ready hplan hready
        rw [hplans] at hseveral
        have hcount := List.countP_le_length
          (p := fun plan : CrossSourceCoordinatedTransitionPlan =>
            decide (plan.status = .readOnlyReady))
          (l := assessments.map (·.evidence) |>.map
            (transitionPlan vercmp correlation observation))
        omega

end Moguet.Relation.VersionLock
