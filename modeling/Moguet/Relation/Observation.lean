import Moguet.Plan.Metadata

/-!
# Relation observations

What the planner saw of installed and planned packages, and how one
declared relation is matched against it (`package_relation_observation.cpp`).

Matching has two identity channels: the name of a package and the components
it provides. `PackageMatches` states what a match is without reference to
the code; `matchDeclaredPackageRelation` is the code. The two agree on every
package that does not bear the declared name itself; for one that does, the
code reads the package's own version and never the components it provides,
which is what `isConfirmedNonmatch_iff` and `Shadowed` make precise.
-/

namespace Moguet.Relation.Observation

open Verified.ByteString Plan.Constraint Plan.Metadata Declaration

variable {relation : DeclaredPackageRelation}

/-! ## Observed packages -/

inductive PackageRelationObservationRole
  | installed
  | plannedTarget
  | repositoryCandidate
  deriving DecidableEq

/-- `PackageRelationSourceIdentity`: the database, repository, AUR package or
local tree an observation was read from. -/
inductive PackageRelationSourceIdentity
  | installedDatabase (rootDir databasePath : Bytes)
  | configuredRepository (repository : ConfiguredRepositoryIdentity)
  | aurSource (packageName packageBase : Bytes)
  | localSource (canonicalRoot : Bytes) (device inode : Nat)
  deriving DecidableEq

structure PackageRelationRootAttribution where
  invocationIndex : Nat
  requestedName : Bytes
  deriving DecidableEq

structure PackageRelationObservedCapability where
  capability : ProviderCapability
  observedVersion : ObservedVersion
  deriving DecidableEq

structure PackageRelationObservedPackage where
  packageName : Bytes
  packageBase : Option Bytes
  packageVersion : ObservedVersion
  provides : List PackageRelationObservedCapability
  source : PackageRelationSourceIdentity
  role : PackageRelationObservationRole
  roots : List PackageRelationRootAttribution
  deriving DecidableEq

variable {package : PackageRelationObservedPackage}

structure PlannedPackageRelationObservation where
  package : PackageRelationObservedPackage
  declarations : List DeclaredPackageRelation

inductive PackageRelationObservationCompleteness
  | complete
  | partialCoverage
  | unavailable
  | invalid
  deriving DecidableEq

inductive PackageRelationObservationFailureKind
  | sourceUnavailable
  | partialSourceFailure
  | invalidIdentity
  | malformedMetadata
  deriving DecidableEq

structure PackageRelationObservationFailure where
  kind : PackageRelationObservationFailureKind
  role : PackageRelationObservationRole
  source : Option PackageRelationSourceIdentity
  packageName : Option Bytes
  diagnostic : Bytes
  deriving DecidableEq

structure PackageRelationSourceIdentityCoverage where
  source : PackageRelationSourceIdentity
  exactPackageIdentity : Bool := false
  providedComponentIdentity : Bool := false
  deriving DecidableEq

/-- A complete empty collection proves absence only when every required
source covers both identity channels. -/
structure PackageRelationObservationSet where
  completeness : PackageRelationObservationCompleteness := .unavailable
  requiredSources : List PackageRelationSourceIdentity := []
  sourceIdentityCoverage : List PackageRelationSourceIdentityCoverage := []
  packages : List PackageRelationObservedPackage := []
  failures : List PackageRelationObservationFailure := []

inductive PackageRelationIdentityMatchKind
  | exactPackage
  | providedComponent
  | noIdentityMatch
  | invalidInput
  deriving DecidableEq

inductive PackageRelationVersionMatchKind
  | notApplicable
  | unconstrained
  | matched
  | notMatched
  | unavailable
  | invalid
  deriving DecidableEq

inductive PackageRelationMatchInvalidReason
  | invalidDeclarationTarget
  | invalidPackageIdentity
  | sourceRoleMismatch
  | sourceIdentityMismatch
  | missingPackageBase
  | invalidPackageBase
  | versionSourceMismatch
  | malformedCapability
  | invalidVersionMetadata
  | invalidRootAttribution
  deriving DecidableEq

structure PackageRelationProvidedCapabilityMatchEvidence where
  providedCapabilityIndex : Nat
  versionMatch : PackageRelationVersionMatchKind
  deriving DecidableEq

structure PackageRelationMatchEvidence where
  observedPackage : PackageRelationObservedPackage
  identityMatch : PackageRelationIdentityMatchKind
  versionMatch : PackageRelationVersionMatchKind
  providedCapabilityEvidence :
    List PackageRelationProvidedCapabilityMatchEvidence
  invalidReason : Option PackageRelationMatchInvalidReason
  deriving DecidableEq

structure PackageRelationMatchingEvidence where
  observationCompleteness : PackageRelationObservationCompleteness
  requiredSources : List PackageRelationSourceIdentity
  sourceIdentityCoverage : List PackageRelationSourceIdentityCoverage
  packageEvidence : List PackageRelationMatchEvidence
  observationFailures : List PackageRelationObservationFailure
  deriving DecidableEq

/-! ## Structural validation -/

def exactVersionSource : PackageRelationSourceIdentity → ObservedVersionSource
  | .installedDatabase _ _ => .installedExactPackage
  | .configuredRepository _ => .repositoryExactPackage
  | .aurSource _ _ => .aurExactPackage
  | .localSource _ _ _ => .localExactPackage

def providedVersionSource :
    PackageRelationSourceIdentity → ObservedVersionSource
  | .installedDatabase _ _ => .installedProviderCapability
  | .configuredRepository _ => .repositoryProviderCapability
  | .aurSource _ _ => .aurProviderCapability
  | .localSource _ _ _ => .localProviderCapability

def ObservedVersion.isInvalid (observed : ObservedVersion) : Bool :=
  match observed.outcome with
  | .invalid _ => true
  | _ => false

def validateSourceRole (package : PackageRelationObservedPackage) :
    Option PackageRelationMatchInvalidReason :=
  match package.source with
  | .installedDatabase _ _ =>
    if package.role = .installed then none else some .sourceRoleMismatch
  | .configuredRepository _ =>
    if package.role = .plannedTarget ∨ package.role = .repositoryCandidate
    then none else some .sourceRoleMismatch
  | .aurSource _ _ | .localSource _ _ _ =>
    if package.role = .plannedTarget then none else some .sourceRoleMismatch

/-- A base is required and not empty. -/
def requirePackageBase (package : PackageRelationObservedPackage) :
    Option PackageRelationMatchInvalidReason :=
  match package.packageBase with
  | none => some .missingPackageBase
  | some base => if base = [] then some .missingPackageBase else none

def validateSourceIdentity (package : PackageRelationObservedPackage) :
    Option PackageRelationMatchInvalidReason :=
  match package.source with
  | .installedDatabase rootDir databasePath =>
    if rootDir = [] ∨ databasePath = [] then some .sourceIdentityMismatch
    else if package.packageBase.isSome then some .sourceIdentityMismatch
    else none
  | .configuredRepository repository =>
    if repository.repositoryName = [] then some .sourceIdentityMismatch
    else requirePackageBase package
  | .aurSource name base =>
    (requirePackageBase package).or
      (if name ≠ package.packageName ∨ some base ≠ package.packageBase then
        some .sourceIdentityMismatch
      else none)
  | .localSource canonicalRoot _ _ =>
    if canonicalRoot = [] then some .sourceIdentityMismatch
    else requirePackageBase package

def validateRoots (package : PackageRelationObservedPackage) :
    Option PackageRelationMatchInvalidReason :=
  if package.role = .plannedTarget then
    if package.roots = [] ||
        package.roots.any (fun root => !isValidPackageName root.requestedName)
    then some .invalidRootAttribution else none
  else if package.roots = [] then none
  else some .invalidRootAttribution

def validateCapability (package : PackageRelationObservedPackage)
    (provided : PackageRelationObservedCapability) :
    Option PackageRelationMatchInvalidReason :=
  if !isValidPackageName provided.capability.packageName then
    some .malformedCapability
  else if provided.observedVersion.source ≠
      providedVersionSource package.source then
    some .versionSourceMismatch
  else if ObservedVersion.isInvalid provided.observedVersion then
    some .invalidVersionMetadata
  else
    match provided.capability.version with
    | some version =>
      if provided.observedVersion.version? = some version then none
      else some .malformedCapability
    | none =>
      if provided.observedVersion.unknownReason? =
          some .unversionedProviderCapability then none
      else some .malformedCapability

def validateCapabilities (package : PackageRelationObservedPackage) :
    Option PackageRelationMatchInvalidReason :=
  package.provides.findSome? (validateCapability package)

def validateObservationWithoutCapabilities
    (package : PackageRelationObservedPackage) :
    Option PackageRelationMatchInvalidReason :=
  if !isValidPackageName package.packageName then some .invalidPackageIdentity
  else if package.packageBase.any (fun base => !isValidPackageName base) then
    some .invalidPackageBase
  else if package.packageVersion.source ≠ exactVersionSource package.source then
    some .versionSourceMismatch
  else if ObservedVersion.isInvalid package.packageVersion then
    some .invalidVersionMetadata
  else
    ((validateSourceRole package).or (validateSourceIdentity package)).or
      (validateRoots package)

def validatePackageRelationObservation
    (observedPackage : PackageRelationObservedPackage) :
    Option PackageRelationMatchInvalidReason :=
  (validateObservationWithoutCapabilities observedPackage).or
    (validateCapabilities observedPackage)

/-! ## Matching one package -/

section Match

variable (vercmp : Bytes → Bytes → Int)

def evaluateVersion (relation : DeclaredPackageRelation)
    (observedVersion : ObservedVersion) : PackageRelationVersionMatchKind :=
  if relation.constraint = none then .unconstrained
  else
    match observedVersion.outcome with
    | .invalid _ => .invalid
    | .unknown _ => .unavailable
    | .version version =>
      if declaredPackageRelationVersionMatches vercmp relation (some version)
      then .matched else .notMatched

def aggregateProvidedVersionMatches
    (capabilityEvidence :
      List PackageRelationProvidedCapabilityMatchEvidence) :
    PackageRelationVersionMatchKind :=
  let hasResult (result : PackageRelationVersionMatchKind) : Bool :=
    capabilityEvidence.any fun evidence => evidence.versionMatch = result
  if hasResult .matched then .matched
  else if hasResult .unconstrained then .unconstrained
  else if hasResult .invalid then .invalid
  else if hasResult .unavailable then .unavailable
  else if capabilityEvidence ≠ [] &&
      capabilityEvidence.all (fun evidence => evidence.versionMatch = .notMatched)
  then .notMatched
  else .notApplicable

/-- The evidence of the provided components that bear the declared name,
from index `index` on. -/
def capabilityEvidenceFrom (relation : DeclaredPackageRelation)
    (package : PackageRelationObservedPackage) :
    Nat → List PackageRelationObservedCapability →
      List PackageRelationProvidedCapabilityMatchEvidence
  | _, [] => []
  | index, provided :: rest =>
    let tail := capabilityEvidenceFrom relation package (index + 1) rest
    if provided.capability.packageName ≠ relation.targetComponent then tail
    else
      { providedCapabilityIndex := index
        versionMatch :=
          if (validateCapability package provided).isSome then .invalid
          else evaluateVersion vercmp relation provided.observedVersion } ::
        tail

def invalidEvidence (observedPackage : PackageRelationObservedPackage)
    (reason : PackageRelationMatchInvalidReason) :
    PackageRelationMatchEvidence where
  observedPackage := observedPackage
  identityMatch := .invalidInput
  versionMatch := .invalid
  providedCapabilityEvidence := []
  invalidReason := some reason

/-- The provided-component channel, read when the package does not bear the
declared name. -/
def matchProvidedComponents (relation : DeclaredPackageRelation)
    (observedPackage : PackageRelationObservedPackage) :
    PackageRelationMatchEvidence :=
  let capabilityEvidence :=
    capabilityEvidenceFrom vercmp relation observedPackage 0
      observedPackage.provides
  let capabilityInvalid := validateCapabilities observedPackage
  if capabilityEvidence ≠ [] then
    { observedPackage := observedPackage
      identityMatch := .providedComponent
      versionMatch := aggregateProvidedVersionMatches capabilityEvidence
      providedCapabilityEvidence := capabilityEvidence
      invalidReason := capabilityInvalid }
  else
    match capabilityInvalid with
    | some reason => invalidEvidence observedPackage reason
    | none =>
      { observedPackage := observedPackage
        identityMatch := .noIdentityMatch
        versionMatch := .notApplicable
        providedCapabilityEvidence := []
        invalidReason := none }

def matchDeclaredPackageRelation (relation : DeclaredPackageRelation)
    (observedPackage : PackageRelationObservedPackage) :
    PackageRelationMatchEvidence :=
  if !isValidPackageName relation.targetComponent then
    invalidEvidence observedPackage .invalidDeclarationTarget
  else
    match validateObservationWithoutCapabilities observedPackage with
    | some reason => invalidEvidence observedPackage reason
    | none =>
      if relation.targetComponent = observedPackage.packageName then
        match validateCapabilities observedPackage with
        | some reason => invalidEvidence observedPackage reason
        | none =>
          { observedPackage := observedPackage
            identityMatch := .exactPackage
            versionMatch :=
              evaluateVersion vercmp relation observedPackage.packageVersion
            providedCapabilityEvidence := []
            invalidReason := none }
      else matchProvidedComponents vercmp relation observedPackage

/-- The overload on an observation set. -/
def matchDeclaredPackageRelationSet (relation : DeclaredPackageRelation)
    (observations : PackageRelationObservationSet) :
    PackageRelationMatchingEvidence where
  observationCompleteness := observations.completeness
  requiredSources := observations.requiredSources
  sourceIdentityCoverage := observations.sourceIdentityCoverage
  packageEvidence :=
    observations.packages.map (matchDeclaredPackageRelation vercmp relation)
  observationFailures := observations.failures

end Match

/-! ## Verdicts on evidence -/

def isConfirmedNonmatch (evidence : PackageRelationMatchEvidence) : Bool :=
  if evidence.invalidReason.isSome then false
  else
    match evidence.identityMatch with
    | .noIdentityMatch => true
    | .exactPackage => evidence.versionMatch = .notMatched
    | .providedComponent =>
      evidence.providedCapabilityEvidence ≠ [] &&
        evidence.providedCapabilityEvidence.all
          (fun capability => capability.versionMatch = .notMatched)
    | .invalidInput => false

def packageRelationMatchIsConfirmed
    (evidence : PackageRelationMatchEvidence) : Bool :=
  match evidence.identityMatch with
  | .exactPackage =>
    evidence.versionMatch = .unconstrained || evidence.versionMatch = .matched
  | .providedComponent =>
    evidence.providedCapabilityEvidence.any fun capability =>
      capability.versionMatch = .unconstrained ||
        capability.versionMatch = .matched
  | _ => false

/-- Coverage of one source over all the records that name it. -/
def sourceHasCompleteIdentityCoverage
    (coverage : List PackageRelationSourceIdentityCoverage)
    (source : PackageRelationSourceIdentity) : Bool :=
  (coverage.any fun item => item.source = source && item.exactPackageIdentity) &&
    (coverage.any fun item =>
      item.source = source && item.providedComponentIdentity)

def packageRelationHasCompleteIdentityCoverage
    (evidence : PackageRelationMatchingEvidence) : Bool :=
  evidence.requiredSources ≠ [] &&
    evidence.requiredSources.all
      (sourceHasCompleteIdentityCoverage evidence.sourceIdentityCoverage)

def packageRelationConfirmsNoMatch
    (evidence : PackageRelationMatchingEvidence) : Bool :=
  evidence.observationCompleteness = .complete &&
    packageRelationHasCompleteIdentityCoverage evidence &&
    evidence.observationFailures = [] &&
    evidence.packageEvidence.all isConfirmedNonmatch

/-! ## What a match is -/

section Spec

variable (vercmp : Bytes → Bytes → Int)

/-- A component, a package or something one provides, matches a declaration:
it bears the declared name and its version meets the declared condition. -/
def ComponentMatches (relation : DeclaredPackageRelation) (name : Bytes)
    (version : ObservedVersion) : Prop :=
  name = relation.targetComponent ∧
    declaredPackageRelationVersionMatches vercmp relation version.version? = true

/-- A package matches a declaration through its own name or through a
component it provides. -/
def PackageMatches (relation : DeclaredPackageRelation)
    (package : PackageRelationObservedPackage) : Prop :=
  ComponentMatches vercmp relation package.packageName package.packageVersion ∨
    ∃ provided ∈ package.provides,
      ComponentMatches vercmp relation provided.capability.packageName
        provided.observedVersion

instance (relation : DeclaredPackageRelation) (name : Bytes)
    (version : ObservedVersion) :
    Decidable (ComponentMatches vercmp relation name version) :=
  inferInstanceAs (Decidable (_ ∧ _))

instance (relation : DeclaredPackageRelation)
    (package : PackageRelationObservedPackage) :
    Decidable (PackageMatches vercmp relation package) :=
  inferInstanceAs (Decidable (_ ∨ _))

/-- A version the code can compare with the declared condition: there is no
condition, or the version was read. -/
def VersionReadable (relation : DeclaredPackageRelation)
    (version : ObservedVersion) : Prop :=
  relation.constraint = none ∨ version.version?.isSome = true

/-- The components the code reads of a package: the package itself when it
bears the declared name, otherwise what it provides under that name. -/
def readComponents (relation : DeclaredPackageRelation)
    (package : PackageRelationObservedPackage) : List ObservedVersion :=
  if relation.targetComponent = package.packageName then
    [package.packageVersion]
  else
    (package.provides.filter fun provided =>
      provided.capability.packageName = relation.targetComponent).map
        (·.observedVersion)

/-- A package whose evidence is a confirmed miss: both sides are well formed
and every component the code reads was compared and missed. -/
structure ConfirmedMiss (relation : DeclaredPackageRelation)
    (package : PackageRelationObservedPackage) : Prop where
  target_valid : isValidPackageName relation.targetComponent = true
  observation_valid : validatePackageRelationObservation package = none
  readable : ∀ version ∈ readComponents relation package,
    VersionReadable relation version
  missed : ∀ version ∈ readComponents relation package,
    declaredPackageRelationVersionMatches vercmp relation version.version? =
      false

/-- A package that bears the declared name at a version that misses the
condition, and provides a component of that same name at a version that
meets it. -/
def Shadowed (relation : DeclaredPackageRelation)
    (package : PackageRelationObservedPackage) : Prop :=
  package.packageName = relation.targetComponent ∧
    ¬ ComponentMatches vercmp relation package.packageName
        package.packageVersion ∧
    ∃ provided ∈ package.provides,
      ComponentMatches vercmp relation provided.capability.packageName
        provided.observedVersion

variable {vercmp}

theorem validatePackageRelationObservation_eq_none_iff :
    validatePackageRelationObservation package = none ↔
      validateObservationWithoutCapabilities package = none ∧
        validateCapabilities package = none := by
  simp [validatePackageRelationObservation, Option.or_eq_none_iff]

theorem validateCapabilities_eq_none_iff
    {package : PackageRelationObservedPackage} :
    validateCapabilities package = none ↔
      ∀ provided ∈ package.provides, validateCapability package provided = none := by
  simp [validateCapabilities, List.findSome?_eq_none_iff]

/-- The version verdict is a miss exactly when the version was read and does
not meet the condition. -/
theorem evaluateVersion_eq_notMatched_iff {version : ObservedVersion} :
    evaluateVersion vercmp relation version = .notMatched ↔ VersionReadable relation version ∧
        declaredPackageRelationVersionMatches vercmp relation version.version? =
          false := by
  unfold evaluateVersion VersionReadable
  by_cases hconstraint : relation.constraint = none
  · have hmatches : declaredPackageRelationVersionMatches vercmp relation
        version.version? = true := by
      simp [declaredPackageRelationVersionMatches, hconstraint]
    simp [hconstraint, hmatches]
  · rw [if_neg hconstraint]
    cases houtcome : version.outcome with
    | invalid reason => simp [ObservedVersion.version?, houtcome, hconstraint]
    | unknown reason => simp [ObservedVersion.version?, houtcome, hconstraint]
    | version text =>
      by_cases hmatches : declaredPackageRelationVersionMatches vercmp relation (some text) = true
      · simp [ObservedVersion.version?, houtcome, hconstraint, hmatches]
      · simp [ObservedVersion.version?, houtcome, hconstraint, hmatches]

/-- On well-formed capabilities the evidence list is the list of version
verdicts of the components under the declared name. -/
theorem capabilityEvidenceFrom_versionMatch :
    ∀ (index : Nat) (provides : List PackageRelationObservedCapability),
      (∀ provided ∈ provides, validateCapability package provided = none) →
      (capabilityEvidenceFrom vercmp relation package index provides).map (·.versionMatch) =
        ((provides.filter fun provided =>
          provided.capability.packageName = relation.targetComponent).map
            (·.observedVersion)).map (evaluateVersion vercmp relation) := by
  intro index provides
  induction provides generalizing index with
  | nil => intro _; rfl
  | cons provided rest ih =>
    intro hvalid
    have hrest := ih (index + 1) fun other hother =>
      hvalid other (List.mem_cons_of_mem _ hother)
    have hhead : validateCapability package provided = none :=
      hvalid provided List.mem_cons_self
    by_cases hname : provided.capability.packageName = relation.targetComponent
    · simp [capabilityEvidenceFrom, hname, hhead, hrest]
    · simp [capabilityEvidenceFrom, hname, hrest]

/-- The version verdicts the evidence of a well-formed package rests on. -/
theorem capabilityEvidence_versionMatch_eq (hcapabilities : validateCapabilities package = none)
    (hname : relation.targetComponent ≠ package.packageName) :
    (capabilityEvidenceFrom vercmp relation package 0 package.provides).map (·.versionMatch) =
      (readComponents relation package).map (evaluateVersion vercmp relation) := by
  rw [readComponents, if_neg hname]
  exact capabilityEvidenceFrom_versionMatch 0 package.provides
    (validateCapabilities_eq_none_iff.mp hcapabilities)

theorem forall_capabilityEvidence_iff (hcapabilities : validateCapabilities package = none)
    (hname : relation.targetComponent ≠ package.packageName)
    (verdict : PackageRelationVersionMatchKind → Prop) :
    (∀ evidence ∈ capabilityEvidenceFrom vercmp relation package 0
        package.provides, verdict evidence.versionMatch) ↔
      ∀ version ∈ readComponents relation package,
        verdict (evaluateVersion vercmp relation version) := by
  have hlist : (capabilityEvidenceFrom vercmp relation package 0
        package.provides).map (·.versionMatch) =
      (readComponents relation package).map (evaluateVersion vercmp relation) :=
    capabilityEvidence_versionMatch_eq hcapabilities hname
  calc
    _ ↔ ∀ kind ∈ (capabilityEvidenceFrom vercmp relation package 0
          package.provides).map (·.versionMatch), verdict kind := by simp
    _ ↔ ∀ kind ∈ (readComponents relation package).map
          (evaluateVersion vercmp relation), verdict kind := by rw [hlist]
    _ ↔ _ := by simp

theorem exists_capabilityEvidence_iff (hcapabilities : validateCapabilities package = none)
    (hname : relation.targetComponent ≠ package.packageName)
    (verdict : PackageRelationVersionMatchKind → Prop) :
    (∃ evidence ∈ capabilityEvidenceFrom vercmp relation package 0
        package.provides, verdict evidence.versionMatch) ↔
      ∃ version ∈ readComponents relation package,
        verdict (evaluateVersion vercmp relation version) := by
  have hlist : (capabilityEvidenceFrom vercmp relation package 0
        package.provides).map (·.versionMatch) =
      (readComponents relation package).map (evaluateVersion vercmp relation) :=
    capabilityEvidence_versionMatch_eq hcapabilities hname
  calc
    _ ↔ ∃ kind ∈ (capabilityEvidenceFrom vercmp relation package 0
          package.provides).map (·.versionMatch), verdict kind := by simp
    _ ↔ ∃ kind ∈ (readComponents relation package).map
          (evaluateVersion vercmp relation), verdict kind := by rw [hlist]
    _ ↔ _ := by simp

private theorem forall_readComponents_exact (hname : relation.targetComponent = package.packageName)
    (property : ObservedVersion → Prop) :
    (∀ version ∈ readComponents relation package, property version) ↔
      property package.packageVersion := by
  simp [readComponents, hname]

/-- The two requirements on the read components are one verdict. -/
theorem ConfirmedMiss.iff_verdicts {relation : DeclaredPackageRelation}
    {package : PackageRelationObservedPackage} :
    ConfirmedMiss vercmp relation package ↔ isValidPackageName relation.targetComponent = true ∧
        validatePackageRelationObservation package = none ∧
        ∀ version ∈ readComponents relation package,
          evaluateVersion vercmp relation version = .notMatched := by
  constructor
  · intro h
    refine ⟨h.target_valid, h.observation_valid, ?_⟩
    intro version hversion
    exact evaluateVersion_eq_notMatched_iff.mpr
      ⟨h.readable version hversion, h.missed version hversion⟩
  · rintro ⟨htarget, hvalid, hverdicts⟩
    exact {
      target_valid := htarget
      observation_valid := hvalid
      readable := fun version hversion =>
        (evaluateVersion_eq_notMatched_iff.mp (hverdicts version hversion)).1
      missed := fun version hversion =>
        (evaluateVersion_eq_notMatched_iff.mp (hverdicts version hversion)).2 }

/-- The provided-component channel of a package with well-formed
capabilities. -/
private theorem isConfirmedNonmatch_provided (hcapabilities : validateCapabilities package = none)
    (hname : relation.targetComponent ≠ package.packageName) :
    isConfirmedNonmatch (matchProvidedComponents vercmp relation package) = true ↔
      ∀ version ∈ readComponents relation package,
        evaluateVersion vercmp relation version = .notMatched := by
  rw [← forall_capabilityEvidence_iff hcapabilities hname (· = .notMatched)]
  unfold matchProvidedComponents
  by_cases hempty : capabilityEvidenceFrom vercmp relation package 0 package.provides = []
  · simp [hempty, hcapabilities, isConfirmedNonmatch]
  · simp [hempty, hcapabilities, isConfirmedNonmatch]

/-- **Confirmed miss**: the evidence of a package counts as a miss exactly
when both sides are well formed and every component the code reads was
compared and missed. -/
theorem isConfirmedNonmatch_iff :
    isConfirmedNonmatch (matchDeclaredPackageRelation vercmp relation package) = true ↔
      ConfirmedMiss vercmp relation package := by
  rw [ConfirmedMiss.iff_verdicts, validatePackageRelationObservation_eq_none_iff]
  unfold matchDeclaredPackageRelation
  by_cases htarget : isValidPackageName relation.targetComponent = true
  · cases hstructure : validateObservationWithoutCapabilities package with
    | some reason => simp [htarget, isConfirmedNonmatch, invalidEvidence]
    | none =>
      by_cases hname : relation.targetComponent = package.packageName
      · cases hcapabilities : validateCapabilities package with
        | some reason =>
          simp [htarget, ← hname, isConfirmedNonmatch, invalidEvidence]
        | none =>
          rw [forall_readComponents_exact hname]
          simp [htarget, ← hname, isConfirmedNonmatch]
      · cases hcapabilities : validateCapabilities package with
        | some reason =>
          have hmiss : isConfirmedNonmatch
              (matchProvidedComponents vercmp relation package) = false := by
            unfold matchProvidedComponents
            by_cases hempty : capabilityEvidenceFrom vercmp relation package 0 package.provides = []
            · simp [hempty, hcapabilities, isConfirmedNonmatch, invalidEvidence]
            · simp [hempty, hcapabilities, isConfirmedNonmatch]
          simp [htarget, hname, hmiss]
        | none =>
          simp [htarget, hname, isConfirmedNonmatch_provided hcapabilities hname]
  · simp [htarget, isConfirmedNonmatch, invalidEvidence]

/-- A package the code reads as a miss matches the declaration exactly when
it is shadowed. -/
theorem ConfirmedMiss.packageMatches_iff (h : ConfirmedMiss vercmp relation package) :
    PackageMatches vercmp relation package ↔ Shadowed vercmp relation package := by
  have hmissed := h.missed
  by_cases hname : relation.targetComponent = package.packageName
  · rw [forall_readComponents_exact hname] at hmissed
    have hown : ¬ ComponentMatches vercmp relation package.packageName package.packageVersion := by
      rintro ⟨-, hmatches⟩
      rw [hmissed] at hmatches
      cases hmatches
    constructor
    · rintro (hmatches | hprovided)
      · exact absurd hmatches hown
      · exact ⟨hname.symm, hown, hprovided⟩
    · rintro ⟨-, -, hprovided⟩
      exact Or.inr hprovided
  · constructor
    · rintro (⟨heq, -⟩ | ⟨provided, hmem, heq, hmatches⟩)
      · exact absurd heq.symm hname
      · have hread : provided.observedVersion ∈ readComponents relation package := by
          rw [readComponents, if_neg hname]
          exact List.mem_map_of_mem (List.mem_filter.mpr ⟨hmem, by simpa using heq⟩)
        rw [hmissed _ hread] at hmatches
        cases hmatches
    · rintro ⟨heq, -, -⟩
      exact absurd heq.symm hname

end Spec

end Moguet.Relation.Observation
