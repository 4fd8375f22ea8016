import Moguet.Relation.Observation
import Moguet.Verified.Upsert

/-!
# Relation assessment

`assess_package_relations` (`package_relation_assessment.cpp`): every
declaration of every planned package is assessed against the installed
packages and the other planned packages. Repository candidates are context
only.

The verdict `confirmedNoMatchingCurrentOrPlannedTarget` releases the
relation guard, so it is the one that has to be earned.
-/

namespace Moguet.Relation.Assessment

open Verified.ByteString Verified.Upsert Plan.Constraint Declaration Observation

variable {relation : DeclaredPackageRelation} {package : PackageRelationObservedPackage}
  {result : PackageRelationVersionMatchKind}

inductive PackageRelationAssessmentKind
  | declaredRelation
  | confirmedInstalledConflict
  | confirmedPlannedTargetConflict
  | potentialReplacement
  | confirmedNoMatchingCurrentOrPlannedTarget
  | unknown
  | invalid
  deriving DecidableEq

structure PackageRelationAssessment where
  declaration : DeclaredPackageRelation
  kind : PackageRelationAssessmentKind
  declaringPackage : PackageRelationObservedPackage
  activeEvidence : PackageRelationMatchingEvidence
  repositoryContextEvidence : Option PackageRelationMatchingEvidence
  attributedPackageEvidence : Option PackageRelationMatchEvidence
  attributedObservationFailure : Option PackageRelationObservationFailure
  deriving DecidableEq

/-- The flags of a second record of the same source, joined into the first. -/
def joinFlags (item added : PackageRelationSourceIdentityCoverage) :
    PackageRelationSourceIdentityCoverage :=
  { item with
    exactPackageIdentity :=
      item.exactPackageIdentity || added.exactPackageIdentity
    providedComponentIdentity :=
      item.providedComponentIdentity || added.providedComponentIdentity }

/-- Coverage of one source joined into the first record that names it, or
appended. -/
def joinCoverage (added : PackageRelationSourceIdentityCoverage)
    (coverage : List PackageRelationSourceIdentityCoverage) :
    List PackageRelationSourceIdentityCoverage :=
  upsert (fun item => item.source = added.source) (joinFlags · added) added
    coverage

def retainSource (observations : PackageRelationObservationSet)
    (source : PackageRelationSourceIdentity) : PackageRelationObservationSet :=
  { observations with
    requiredSources := insertNew observations.requiredSources source
    sourceIdentityCoverage :=
      joinCoverage ⟨source, true, true⟩ observations.sourceIdentityCoverage }

def retainUncoveredSource (observations : PackageRelationObservationSet)
    (source : PackageRelationSourceIdentity) : PackageRelationObservationSet :=
  { observations with
    requiredSources := insertNew observations.requiredSources source
    sourceIdentityCoverage :=
      joinCoverage ⟨source, false, false⟩ observations.sourceIdentityCoverage }

/-- A package whose role contradicts the authority it was handed to: the
authority is invalid from here on. -/
def rejectRole (diagnostic : Bytes)
    (observations : PackageRelationObservationSet)
    (package : PackageRelationObservedPackage) :
    PackageRelationObservationSet :=
  let retained :=
    retainUncoveredSource { observations with completeness := .invalid }
      package.source
  { retained with
    failures := retained.failures ++
      [⟨.invalidIdentity, package.role, some package.source,
        some package.packageName, diagnostic⟩] }

def installedRoleDiagnostic : Bytes :=
  ascii "Installed relation authority contains a non-installed observation."

def plannedRoleDiagnostic : Bytes :=
  ascii "Planned relation authority contains a non-planned observation."

def installedAuthorityObservations (installed : PackageRelationObservationSet) :
    PackageRelationObservationSet :=
  let foreign := installed.packages.filter fun package =>
    package.role ≠ .installed
  let normalized := foreign.foldl (rejectRole installedRoleDiagnostic) installed
  { normalized with
    packages := installed.packages.filter fun package =>
      package.role = .installed }

def plannedTargetStep (observations : PackageRelationObservationSet)
    (item : PlannedPackageRelationObservation) :
    PackageRelationObservationSet :=
  if item.package.role ≠ .plannedTarget then
    rejectRole plannedRoleDiagnostic observations item.package
  else
    let retained := retainSource observations item.package.source
    { retained with packages := retained.packages ++ [item.package] }

def plannedTargetObservations
    (planned : List PlannedPackageRelationObservation) :
    PackageRelationObservationSet :=
  planned.foldl plannedTargetStep
    { completeness := if planned = [] then .unavailable else .complete }

def mergeCompleteness
    (installed planned : PackageRelationObservationCompleteness) :
    PackageRelationObservationCompleteness :=
  if installed = .invalid ∨ planned = .invalid then .invalid
  else if installed = .complete ∧ planned = .complete then .complete
  else if installed = .unavailable ∧ planned = .unavailable then .unavailable
  else .partialCoverage

def mergeObservationSet
    (destination source : PackageRelationObservationSet) :
    PackageRelationObservationSet :=
  { completeness := destination.completeness
    requiredSources :=
      source.requiredSources.foldl insertNew destination.requiredSources
    sourceIdentityCoverage :=
      source.sourceIdentityCoverage.foldl
        (fun coverage added => joinCoverage added coverage)
        destination.sourceIdentityCoverage
    packages := destination.packages ++ source.packages
    failures := destination.failures ++ source.failures }

def isSamePlannedChild (declaring candidate : PackageRelationObservedPackage) :
    Bool :=
  candidate.role = .plannedTarget &&
    declaring.packageName = candidate.packageName &&
    declaring.packageBase = candidate.packageBase &&
    declaring.source = candidate.source

/-- The installed package of the same name: the version the planned package
would replace. -/
def isInstalledOldSelf (declaring candidate : PackageRelationObservedPackage) :
    Bool :=
  declaring.role = .plannedTarget && candidate.role = .installed &&
    declaring.packageName = candidate.packageName

/-- The declaring package itself, as planned or as installed. -/
def isSelf (declaring candidate : PackageRelationObservedPackage) : Bool :=
  isSamePlannedChild declaring candidate || isInstalledOldSelf declaring candidate

structure ActivePackageRelationObservations where
  observations : PackageRelationObservationSet
  filteredOldSelfInvalidEvidence : List PackageRelationMatchEvidence

/-- The structural defect of an installed old self, which is otherwise
dropped as a relation target. -/
def oldSelfInvalidEvidence (declaring candidate : PackageRelationObservedPackage) :
    Option PackageRelationMatchEvidence :=
  if isInstalledOldSelf declaring candidate then
    (validatePackageRelationObservation candidate).map
      (invalidEvidence candidate)
  else none

def activeObservationsFor (installed planned : PackageRelationObservationSet)
    (declaring : PackageRelationObservedPackage) :
    ActivePackageRelationObservations :=
  let merged :=
    mergeObservationSet
      (mergeObservationSet
        { completeness :=
            mergeCompleteness installed.completeness planned.completeness }
        installed)
      planned
  { observations :=
      { merged with
        packages := merged.packages.filter fun candidate =>
          !isSelf declaring candidate }
    filteredOldSelfInvalidEvidence :=
      merged.packages.filterMap (oldSelfInvalidEvidence declaring) }

def containsVersionResult (evidence : PackageRelationMatchEvidence)
    (result : PackageRelationVersionMatchKind) : Bool :=
  evidence.versionMatch = result ||
    evidence.providedCapabilityEvidence.any
      (fun provided => provided.versionMatch = result)

def hasInvalidEvidence (evidence : PackageRelationMatchEvidence) : Bool :=
  evidence.invalidReason.isSome || evidence.identityMatch = .invalidInput ||
    containsVersionResult evidence .invalid

def hasUnknownEvidence (evidence : PackageRelationMatchEvidence) : Bool :=
  containsVersionResult evidence .unavailable

def confirmedKind (declaration : DeclaredPackageRelation)
    (evidence : PackageRelationMatchEvidence) : PackageRelationAssessmentKind :=
  if declaration.kind = .replacement then .potentialReplacement
  else if evidence.observedPackage.role = .installed then
    .confirmedInstalledConflict
  else .confirmedPlannedTargetConflict

def failureIsInvalid (kind : PackageRelationObservationFailureKind) : Bool :=
  kind = .invalidIdentity || kind = .malformedMetadata

def installedAuthorityIsUndeclared (installed : PackageRelationObservationSet) :
    Bool :=
  installed.completeness = .unavailable && installed.requiredSources = [] &&
    installed.sourceIdentityCoverage = [] && installed.packages = [] &&
    installed.failures = []

/-- The assessments one package's evidence gives rise to. They coexist
instead of being reduced to one. -/
def assessEvidence
    (make : PackageRelationAssessmentKind →
      Option PackageRelationMatchEvidence →
      Option PackageRelationObservationFailure → PackageRelationAssessment)
    (declaration : DeclaredPackageRelation)
    (evidence : PackageRelationMatchEvidence) :
    List PackageRelationAssessment :=
  (if packageRelationMatchIsConfirmed evidence then
    [make (confirmedKind declaration evidence) (some evidence) none] else []) ++
  (if hasInvalidEvidence evidence then
    [make .invalid (some evidence) none] else []) ++
  (if hasUnknownEvidence evidence then
    [make .unknown (some evidence) none] else [])

def assessFailure
    (make : PackageRelationAssessmentKind →
      Option PackageRelationMatchEvidence →
      Option PackageRelationObservationFailure → PackageRelationAssessment)
    (failure : PackageRelationObservationFailure) :
    PackageRelationAssessment :=
  make (if failureIsInvalid failure.kind then .invalid else .unknown) none
    (some failure)

/-- What the loops of `assess_declaration` have found so far. -/
structure AssessmentFlags where
  hasConfirmed : Bool
  hasUnknown : Bool
  hasInvalid : Bool
  deriving DecidableEq

section Assess

variable (vercmp : Bytes → Bytes → Int)

/-- The flags after the four loops. -/
def declarationFlags (declaring : PlannedPackageRelationObservation)
    (declaration : DeclaredPackageRelation)
    (active : ActivePackageRelationObservations) : AssessmentFlags :=
  let activeEvidence :=
    matchDeclaredPackageRelationSet vercmp declaration active.observations
  { hasConfirmed :=
      activeEvidence.packageEvidence.any packageRelationMatchIsConfirmed
    hasUnknown :=
      activeEvidence.packageEvidence.any hasUnknownEvidence ||
        activeEvidence.observationFailures.any
          (fun failure => !failureIsInvalid failure.kind)
    hasInvalid :=
      hasInvalidEvidence
          (matchDeclaredPackageRelation vercmp declaration declaring.package) ||
        active.filteredOldSelfInvalidEvidence ≠ [] ||
        activeEvidence.packageEvidence.any hasInvalidEvidence ||
        activeEvidence.observationFailures.any
          (fun failure => failureIsInvalid failure.kind) }

/-- The verdict for the completeness of the observation, with the flags it
leaves behind. -/
def assessCompleteness
    (completeness : PackageRelationObservationCompleteness)
    (installedAuthorityMissing : Bool) (flags : AssessmentFlags) :
    Option PackageRelationAssessmentKind × AssessmentFlags :=
  if completeness = .invalid then
    if !flags.hasInvalid then
      (some .invalid, { flags with hasInvalid := true })
    else (none, flags)
  else if completeness ≠ .complete && !flags.hasUnknown &&
      (!installedAuthorityMissing || flags.hasConfirmed) then
    (some .unknown, { flags with hasUnknown := true })
  else (none, flags)

/-- The closing verdict, given only when nothing was found. -/
def closingKind (confirmsNoMatch installedAuthorityMissing : Bool)
    (flags : AssessmentFlags) : Option PackageRelationAssessmentKind :=
  if !flags.hasConfirmed && !flags.hasUnknown && !flags.hasInvalid then
    if confirmsNoMatch then some .confirmedNoMatchingCurrentOrPlannedTarget
    else if installedAuthorityMissing then some .declaredRelation
    else some .unknown
  else none

def assessDeclaration (declaring : PlannedPackageRelationObservation)
    (declaration : DeclaredPackageRelation)
    (active : ActivePackageRelationObservations)
    (repositoryContext : Option PackageRelationObservationSet)
    (installedAuthorityMissing : Bool) : List PackageRelationAssessment :=
  let activeEvidence :=
    matchDeclaredPackageRelationSet vercmp declaration active.observations
  let contextEvidence :=
    repositoryContext.map (matchDeclaredPackageRelationSet vercmp declaration)
  let make := fun kind packageEvidence failure =>
    PackageRelationAssessment.mk declaration kind declaring.package
      activeEvidence contextEvidence packageEvidence failure
  let declaringValidation :=
    matchDeclaredPackageRelation vercmp declaration declaring.package
  let completeness :=
    assessCompleteness activeEvidence.observationCompleteness
      installedAuthorityMissing (declarationFlags vercmp declaring declaration active)
  (if hasInvalidEvidence declaringValidation then
    [make .invalid (some declaringValidation) none] else []) ++
  active.filteredOldSelfInvalidEvidence.map
    (fun evidence => make .invalid (some evidence) none) ++
  activeEvidence.packageEvidence.flatMap (assessEvidence make declaration) ++
  activeEvidence.observationFailures.map (assessFailure make) ++
  (completeness.1.map (make · none none)).toList ++
  ((closingKind (packageRelationConfirmsNoMatch activeEvidence)
    installedAuthorityMissing completeness.2).map (make · none none)).toList

def assessPackageRelations
    (installedObservations : PackageRelationObservationSet)
    (plannedObservations : List PlannedPackageRelationObservation)
    (repositoryContext : Option PackageRelationObservationSet) :
    List PackageRelationAssessment :=
  let installed := installedAuthorityObservations installedObservations
  let planned := plannedTargetObservations plannedObservations
  let installedAuthorityMissing := installedAuthorityIsUndeclared installed
  plannedObservations.flatMap fun declaring =>
    declaring.declarations.flatMap fun declaration =>
      assessDeclaration vercmp declaring declaration
        (activeObservationsFor installed planned declaring.package)
        repositoryContext installedAuthorityMissing

end Assess

section Evidence

variable {vercmp : Bytes → Bytes → Int}

/-- A declared target and an observation that both pass validation. -/
structure WellFormed (relation : DeclaredPackageRelation)
    (package : PackageRelationObservedPackage) : Prop where
  target_valid : isValidPackageName relation.targetComponent = true
  observation_valid : validatePackageRelationObservation package = none

theorem WellFormed.structure_valid (h : WellFormed relation package) :
    validateObservationWithoutCapabilities package = none :=
  (validatePackageRelationObservation_eq_none_iff.mp h.observation_valid).1

theorem WellFormed.capabilities_valid (h : WellFormed relation package) :
    validateCapabilities package = none :=
  (validatePackageRelationObservation_eq_none_iff.mp h.observation_valid).2

theorem ConfirmedMiss.wellFormed (h : ConfirmedMiss vercmp relation package) :
    WellFormed relation package :=
  ⟨h.target_valid, h.observation_valid⟩

theorem match_exactPackage (h : WellFormed relation package)
    (hname : relation.targetComponent = package.packageName) :
    matchDeclaredPackageRelation vercmp relation package =
      { observedPackage := package
        identityMatch := .exactPackage
        versionMatch := evaluateVersion vercmp relation package.packageVersion
        providedCapabilityEvidence := []
        invalidReason := none } := by
  unfold matchDeclaredPackageRelation
  rw [h.structure_valid, h.capabilities_valid]
  simp only [h.target_valid]
  rw [if_neg (by decide), if_pos hname]

theorem match_providedComponent (h : WellFormed relation package)
    (hname : relation.targetComponent ≠ package.packageName) :
    matchDeclaredPackageRelation vercmp relation package =
      matchProvidedComponents vercmp relation package := by
  unfold matchDeclaredPackageRelation
  rw [h.structure_valid]
  simp only [h.target_valid]
  rw [if_neg (by decide), if_neg hname]

/-- The joint verdict of the provided components is unknown or invalid only
when one of them is. -/
theorem aggregate_eq_of_undecided (hresult : result = .invalid ∨ result = .unavailable)
    {evidence : List PackageRelationProvidedCapabilityMatchEvidence}
    (h : aggregateProvidedVersionMatches evidence = result) :
    ∃ item ∈ evidence, item.versionMatch = result := by
  unfold aggregateProvidedVersionMatches at h
  dsimp only at h
  split at h
  · rcases hresult with rfl | rfl <;> cases h
  · split at h
    · rcases hresult with rfl | rfl <;> cases h
    · split at h
      · rename_i hany
        rw [← h]
        simpa using hany
      · split at h
        · rename_i hany
          rw [← h]
          simpa using hany
        · split at h
          · rcases hresult with rfl | rfl <;> cases h
          · rcases hresult with rfl | rfl <;> cases h

/-- An unknown or invalid version verdict in the evidence is the verdict of
a component the code reads. -/
theorem containsVersionResult_iff (h : WellFormed relation package)
    (hresult : result = .invalid ∨ result = .unavailable) :
    containsVersionResult (matchDeclaredPackageRelation vercmp relation package) result = true ↔
      ∃ version ∈ readComponents relation package,
        evaluateVersion vercmp relation version = result := by
  by_cases hname : relation.targetComponent = package.packageName
  · rw [match_exactPackage h hname]
    simp [containsVersionResult, readComponents, hname]
  · rw [match_providedComponent h hname, ← exists_capabilityEvidence_iff
      h.capabilities_valid hname (· = result)]
    unfold matchProvidedComponents
    by_cases hempty : capabilityEvidenceFrom vercmp relation package 0 package.provides = []
    · have hne : PackageRelationVersionMatchKind.notApplicable ≠ result := by
        rcases hresult with rfl | rfl <;> decide
      simp [hempty, h.capabilities_valid, containsVersionResult, hne]
    · constructor
      · intro hcontains
        simp only [hempty, containsVersionResult, ne_eq, not_false_eq_true,
          if_true, Bool.or_eq_true, decide_eq_true_eq, List.any_eq_true]
          at hcontains
        rcases hcontains with haggregate | hitem
        · exact aggregate_eq_of_undecided hresult haggregate
        · exact hitem
      · intro hitem
        simp only [hempty, containsVersionResult, ne_eq, not_false_eq_true,
          if_true, Bool.or_eq_true, decide_eq_true_eq, List.any_eq_true]
        exact Or.inr hitem

/-- A match is confirmed exactly when a component the code reads meets the
declared condition. -/
theorem packageRelationMatchIsConfirmed_iff (h : WellFormed relation package) :
    packageRelationMatchIsConfirmed (matchDeclaredPackageRelation vercmp relation package) = true ↔
      ∃ version ∈ readComponents relation package,
        evaluateVersion vercmp relation version = .unconstrained ∨
          evaluateVersion vercmp relation version = .matched := by
  by_cases hname : relation.targetComponent = package.packageName
  · rw [match_exactPackage h hname]
    simp [packageRelationMatchIsConfirmed, readComponents, hname]
  · rw [match_providedComponent h hname, ← exists_capabilityEvidence_iff h.capabilities_valid hname
      (fun verdict => verdict = .unconstrained ∨ verdict = .matched)]
    unfold matchProvidedComponents
    by_cases hempty : capabilityEvidenceFrom vercmp relation package 0 package.provides = []
    · simp [hempty, h.capabilities_valid, packageRelationMatchIsConfirmed]
    · simp [hempty, packageRelationMatchIsConfirmed]

end Evidence

end Moguet.Relation.Assessment
