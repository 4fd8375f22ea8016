import Moguet.Plan.Model

/-!
# Which packages a cleanup may take

After a build from the AUR, the dependencies that only the build needed may be
removed again. The pure classifier of `invocation_owned_cleanup_model.cpp`
judges one package by its identity, by what was observed before and after the
invocation, and by the correlations that join it to the roots and edges of the
plan. Reasons are collected in three rounds (malformed, protected, unknown); a
package is eligible when no round finds one.
-/

namespace Moguet.Cleanup.Model

open Verified.ByteString Plan.Constraint Plan.Metadata Plan.Model

/-! ## Installed packages -/

inductive InstalledPackageReason
  | explicit
  | dependency
  | unknown
  deriving DecidableEq

/-- `InstalledPackageBaseIdentity` and `InstalledPackageArchitectureIdentity`:
only a known value has a text. -/
inductive InstalledMetadataValue
  | known (value : Bytes)
  | missing
  | malformed
  | unavailable
  | unknown
  deriving DecidableEq

structure InstalledPackageMetadata where
  name : Bytes
  version : Bytes
  reason : InstalledPackageReason := .unknown
  packageBase : InstalledMetadataValue := .unknown
  architecture : InstalledMetadataValue := .unknown
  deriving DecidableEq

variable {metadata : Option InstalledPackageMetadata}

def isVisibleByte (b : UInt8) : Bool := 0x20 < b && b ≠ 0x7f

def hasValidArchitecture (value : Bytes) : Bool := value ≠ [] && value.all isVisibleByte

/-! ## Source-aware identities -/

inductive IdentityUnavailableReason
  | authorityUnavailable
  | observationFailed
  | invalidObservation
  deriving DecidableEq

inductive SourceLocationKind
  | gitRemote
  | localPath
  deriving DecidableEq

inductive SourceLocationIdentity
  | known (kind : SourceLocationKind) (value : Bytes)
  | unknown (kind : SourceLocationKind)
  | unavailable (kind : SourceLocationKind) (reason : IdentityUnavailableReason)
  deriving DecidableEq

inductive PackageSourceIdentity
  | repository (repositoryName : Bytes) (location : SourceLocationIdentity)
  | aur (location : SourceLocationIdentity)
  | «local» (location : SourceLocationIdentity)
  deriving DecidableEq

/-- The factories refuse a malformed name. -/
structure PackageBaseIdentity where
  source : PackageSourceIdentity
  packageBase : Bytes
  valid : isValidPackageName packageBase = true
  deriving DecidableEq

structure PackageChildIdentity where
  packageBase : PackageBaseIdentity
  packageName : Bytes
  valid : isValidPackageName packageName = true
  deriving DecidableEq

inductive SourceRevisionIdentity
  | gitCommit (objectId : Bytes)
  | unknown
  | absent
  | unavailable (reason : IdentityUnavailableReason)
  | inapplicable

inductive PackageVersionIdentity
  | composite (fullVersion : Bytes)
  | pkgverPkgrel (epoch : Option Bytes) (pkgver pkgrel : Bytes)
  | unknown
  | unavailable (reason : IdentityUnavailableReason)

def PackageVersionIdentity.fullVersion? : PackageVersionIdentity → Option Bytes
  | .composite fullVersion => some fullVersion
  | .pkgverPkgrel none pkgver pkgrel => some (pkgver ++ ascii "-" ++ pkgrel)
  | .pkgverPkgrel (some epoch) pkgver pkgrel =>
    some (epoch ++ ascii ":" ++ pkgver ++ ascii "-" ++ pkgrel)
  | .unknown => none
  | .unavailable _ => none

inductive PackageArchitectureIdentity
  | known (architectures : List Bytes)
  | unknown
  | unavailable (reason : IdentityUnavailableReason)

structure SourceAwarePackageIdentity where
  package : PackageChildIdentity
  sourceRevision : SourceRevisionIdentity
  packageVersion : PackageVersionIdentity
  architecture : PackageArchitectureIdentity

def SourceAwarePackageIdentity.packageName (identity : SourceAwarePackageIdentity) : Bytes :=
  identity.package.packageName

/-! ## Evidence -/

inductive BaselineObservation
  | preExisting
  | newlyObserved
  | unknown
  deriving DecidableEq

inductive InstalledState
  | present
  | absent
  | unknown
  deriving DecidableEq

/-- Missing proof of causality is not proof of another owner. -/
inductive CausalOwnership
  | invocationOwned
  | notInvocationOwned
  | unknown
  deriving DecidableEq

inductive SharedRequirementState
  | stillRequired
  | noLongerRequired
  | unknown
  deriving DecidableEq

inductive EvidenceVerification
  | verified
  | unverified
  deriving DecidableEq

inductive CorrelationCoverage
  | complete
  | incomplete
  | unknown
  deriving DecidableEq

inductive PolicyProtection
  | notProtected
  | «protected»
  | unknown
  deriving DecidableEq

structure CurrentPackageEvidence where
  state : InstalledState
  metadata : Option InstalledPackageMetadata
  verification : EvidenceVerification

structure ProviderCorrelation where
  provider : ProvidedDependency
  resolution : ProviderResolutionKind

/-- What is kept of an edge of the plan. -/
structure DependencyEdgeCorrelation where
  buildPlanEdgeIndex : Nat
  requiringPackage : PackageChildIdentity
  requirement : DependencyRequirement
  provider : Option ProviderCorrelation

structure PackageCorrelation where
  requestedRoot : RootTargetIdentity
  package : PackageChildIdentity
  role : Option PackageRole
  dependencyEdge : Option DependencyEdgeCorrelation
  verification : EvidenceVerification

structure CleanupCandidate where
  package : SourceAwarePackageIdentity
  baseline : BaselineObservation
  currentPackage : CurrentPackageEvidence
  causalOwnership : CausalOwnership
  sharedRequirement : SharedRequirementState
  policyProtection : PolicyProtection
  correlationCoverage : CorrelationCoverage
  correlations : List PackageCorrelation

variable {candidate : CleanupCandidate}

inductive Classification
  | eligible
  | «protected»
  | unknown
  | invalid
  deriving DecidableEq

/-- The order of the reasons is the order in which they are reported. -/
inductive ClassificationReason
  | invalidTypedState
  | currentPackageIdentityMismatch
  | currentPackageVersionMismatch
  | malformedRequestedRootIdentity
  | correlationPackageIdentityMismatch
  | correlationShapeMismatch
  | dependencyRequirementIdentityMismatch
  | providerIdentityMismatch
  | providerRequirementIdentityMismatch
  | preExisting
  | currentPackageAbsent
  | explicitInstallReason
  | knownNotInvocationOwned
  | rootTarget
  | runtimeDependency
  | stillRequired
  | policyProtected
  | baselineObservationUnknown
  | currentInstalledStateUnknown
  | installReasonUnknown
  | currentPackageVersionUnknown
  | currentPackageVersionUnavailable
  | currentPackageBaseUnknown
  | currentPackageArchitectureUnknown
  | causalOwnershipUnknown
  | currentPackageEvidenceUnverified
  | correlationCoverageIncomplete
  | correlationCoverageUnknown
  | dependencyCorrelationMissing
  | dependencyRoleUnknown
  | dependencyEdgeCorrelationMissing
  | dependencyCorrelationUnverified
  | buildOrCheckDependencyCorrelationMissing
  | sharedRequirementUnknown
  | policyProtectionUnknown
  | eligibleEvidenceComplete
  deriving DecidableEq

variable {reason : ClassificationReason}

structure ClassificationResult where
  classification : Classification
  reasons : List ClassificationReason

/-! ## Reasons -/

def addReason (reasons : List ClassificationReason) (reason : ClassificationReason) :
    List ClassificationReason :=
  if reason ∈ reasons then reasons else reasons ++ [reason]

/-- `add_reason` for each reason found, then `canonicalize_reasons`. -/
def canonicalReasons (found : List ClassificationReason) : List ClassificationReason :=
  (found.foldl addReason []).mergeSort fun lhs rhs => lhs.ctorIdx ≤ rhs.ctorIdx

/-- One check: the reason if the condition holds. -/
def reasonIf (condition : Bool) (reason : ClassificationReason) : List ClassificationReason :=
  if condition then [reason] else []

def providerMatchesPackage (correlation : ProviderCorrelation)
    (package : PackageChildIdentity) : Bool :=
  let provider := correlation.provider
  if provider.packageName ≠ package.packageName then false
  else
    match provider.origin, package.packageBase.source with
    | .repository repositoryName _, .repository name _ =>
      name = repositoryName &&
        (provider.packageBase = [] ||
          provider.packageBase = package.packageBase.packageBase)
    | .aur, .aur _ => provider.packageBase = package.packageBase.packageBase
    | _, _ => false

def directRequirementMismatchesPackage (edge : DependencyEdgeCorrelation)
    (package : PackageChildIdentity) : Bool :=
  match edge.provider, edge.requirement with
  | none, .consumer requirement => requirement.packageName ≠ package.packageName
  | _, _ => false

/-- The metadata of the provided capability against the requirement. -/
def capabilityMismatches (provider : ProvidedDependency)
    (requirement : ConsumerDependencyRequirement) : Bool :=
  match provider.constraintMetadata with
  | none => false
  | some metadata =>
    let capability := metadata.providedCapability
    capability.packageName ≠ requirement.packageName ||
      (provider.providedDependencyName ≠ [] &&
        provider.providedDependencyName ≠ capability.packageName) ||
      (provider.providedDependencySpecification ≠ [] &&
        provider.providedDependencySpecification ≠ capability.rawSpecification)

def providerRequirementIdentityMismatch (edge : DependencyEdgeCorrelation) : Bool :=
  match edge.provider, edge.requirement with
  | some correlation, .consumer requirement =>
    (correlation.provider.providedDependencyName ≠ [] &&
      correlation.provider.providedDependencyName ≠ requirement.packageName) ||
      capabilityMismatches correlation.provider requirement
  | _, _ => false

def metadataReasons (candidate : CleanupCandidate) (metadata : InstalledPackageMetadata) :
    List ClassificationReason :=
  reasonIf (metadata.name ≠ candidate.package.packageName)
      .currentPackageIdentityMismatch ++
    (match metadata.packageBase with
      | .known packageBase =>
        if isValidPackageName packageBase = false then [.invalidTypedState]
        else reasonIf (packageBase ≠ candidate.package.package.packageBase.packageBase)
          .currentPackageIdentityMismatch
      | _ => []) ++
    (match metadata.architecture with
      | .known architecture =>
        if hasValidArchitecture architecture = false then [.invalidTypedState]
        else
          match candidate.package.architecture with
          | .known architectures =>
            reasonIf (architectures ≠ [architecture]) .currentPackageIdentityMismatch
          | _ => []
      | _ => []) ++
    (match candidate.currentPackage.state, candidate.package.packageVersion.fullVersion? with
      | .present, some fullVersion =>
        reasonIf (fullVersion ≠ metadata.version) .currentPackageVersionMismatch
      | _, _ => [])

def correlationReasons (candidate : CleanupCandidate) (correlation : PackageCorrelation) :
    List ClassificationReason :=
  reasonIf (!isValidPackageName correlation.requestedRoot.requestedName)
      .malformedRequestedRootIdentity ++
    reasonIf (correlation.package ≠ candidate.package.package)
      .correlationPackageIdentityMismatch ++
    reasonIf (correlation.role = some .root && correlation.dependencyEdge.isSome)
      .correlationShapeMismatch ++
    match correlation.dependencyEdge with
    | none => []
    | some edge =>
      reasonIf (directRequirementMismatchesPackage edge correlation.package)
          .dependencyRequirementIdentityMismatch ++
        match edge.provider with
        | none => []
        | some provider =>
          reasonIf (!providerMatchesPackage provider correlation.package)
              .providerIdentityMismatch ++
            reasonIf (providerRequirementIdentityMismatch edge)
              .providerRequirementIdentityMismatch

def structuralReasons (candidate : CleanupCandidate) : List ClassificationReason :=
  canonicalReasons ((match candidate.currentPackage.metadata with
      | none => []
      | some metadata => metadataReasons candidate metadata) ++
    candidate.correlations.flatMap (correlationReasons candidate))

def currentInstallReason (candidate : CleanupCandidate) : InstalledPackageReason :=
  match candidate.currentPackage.metadata with
  | some metadata => metadata.reason
  | none => .unknown

def roleProtection (correlation : PackageCorrelation) : List ClassificationReason :=
  match correlation.role with
  | some .root => [.rootTarget]
  | some .runtimeDependency => [.runtimeDependency]
  | _ => []

def protectionReasons (candidate : CleanupCandidate) : List ClassificationReason :=
  canonicalReasons (
    reasonIf (candidate.baseline = .preExisting) .preExisting ++
    reasonIf (candidate.currentPackage.state = .absent) .currentPackageAbsent ++
    reasonIf (currentInstallReason candidate = .explicit) .explicitInstallReason ++
    reasonIf (candidate.causalOwnership = .notInvocationOwned) .knownNotInvocationOwned ++
    candidate.correlations.flatMap roleProtection ++
    reasonIf (candidate.sharedRequirement = .stillRequired) .stillRequired ++
    reasonIf (candidate.policyProtection = .«protected») .policyProtected)

def isBuildOrCheckRole (role : PackageRole) : Bool :=
  role = .buildDependency || role = .checkDependency

/-- A build or check correlation that names its edge. -/
def isMeaningful (correlation : PackageCorrelation) : Bool :=
  correlation.role.any isBuildOrCheckRole && correlation.dependencyEdge.isSome

def unknownCorrelationReasons (correlation : PackageCorrelation) :
    List ClassificationReason :=
  (match correlation.role with
    | none => [.dependencyRoleUnknown]
    | some role =>
      reasonIf (isBuildOrCheckRole role && correlation.dependencyEdge.isNone)
        .dependencyEdgeCorrelationMissing) ++
    reasonIf (correlation.verification = .unverified) .dependencyCorrelationUnverified

def versionReasons : PackageVersionIdentity → List ClassificationReason
  | .unknown => [.currentPackageVersionUnknown]
  | .unavailable _ => [.currentPackageVersionUnavailable]
  | _ => []

def isKnownBase (metadata : Option InstalledPackageMetadata) : Bool :=
  match metadata with
  | some ⟨_, _, _, .known _, _⟩ => true
  | _ => false

/-- The installed architecture is known and the identity has one only. -/
def isKnownArchitecture (metadata : Option InstalledPackageMetadata)
    (architecture : PackageArchitectureIdentity) : Bool :=
  match metadata, architecture with
  | some ⟨_, _, _, _, .known _⟩, .known [_] => true
  | _, _ => false

def unknownReasons (candidate : CleanupCandidate) : List ClassificationReason :=
  canonicalReasons (
    reasonIf (candidate.baseline = .unknown) .baselineObservationUnknown ++
    reasonIf (candidate.currentPackage.state = .unknown) .currentInstalledStateUnknown ++
    reasonIf (currentInstallReason candidate = .unknown) .installReasonUnknown ++
    versionReasons candidate.package.packageVersion ++
    (if candidate.currentPackage.state = .present then
      reasonIf (!isKnownBase candidate.currentPackage.metadata) .currentPackageBaseUnknown ++
        reasonIf (!isKnownArchitecture candidate.currentPackage.metadata
          candidate.package.architecture) .currentPackageArchitectureUnknown
    else []) ++
    reasonIf (candidate.currentPackage.verification = .unverified)
      .currentPackageEvidenceUnverified ++
    reasonIf (candidate.correlationCoverage = .incomplete) .correlationCoverageIncomplete ++
    reasonIf (candidate.correlationCoverage = .unknown) .correlationCoverageUnknown ++
    reasonIf (candidate.correlations = []) .dependencyCorrelationMissing ++
    candidate.correlations.flatMap unknownCorrelationReasons ++
    reasonIf (!candidate.correlations.any isMeaningful)
      .buildOrCheckDependencyCorrelationMissing ++
    reasonIf (candidate.sharedRequirement = .unknown) .sharedRequirementUnknown ++
    reasonIf (candidate.policyProtection = .unknown) .policyProtectionUnknown)

/-- Malformed first, then protected, then unknown, and eligible when no round
found a reason. -/
def classifyInvocationOwnedCleanup (candidate : CleanupCandidate) : ClassificationResult :=
  if structuralReasons candidate ≠ [] then ⟨.invalid, structuralReasons candidate⟩
  else if protectionReasons candidate ≠ [] then ⟨.«protected», protectionReasons candidate⟩
  else if unknownReasons candidate ≠ [] then ⟨.unknown, unknownReasons candidate⟩
  else ⟨.eligible, [.eligibleEvidenceComplete]⟩

/-! ## Eligible packages -/

theorem mem_foldl_addReason : ∀ {found kept : List ClassificationReason},
      reason ∈ found.foldl addReason kept ↔ reason ∈ kept ∨ reason ∈ found := by
  intro found
  induction found with
  | nil =>
    intro kept
    simp
  | cons first found ih =>
    intro kept
    rw [List.foldl_cons, ih, addReason]
    by_cases hfirst : first ∈ kept
    · rw [if_pos hfirst, List.mem_cons]
      constructor
      · rintro (h | h)
        · exact Or.inl h
        · exact Or.inr (Or.inr h)
      · rintro (h | rfl | h)
        · exact Or.inl h
        · exact Or.inl hfirst
        · exact Or.inr h
    · rw [if_neg hfirst]
      simp only [List.mem_append, List.mem_cons, List.not_mem_nil, or_false]
      exact or_assoc

theorem canonicalReasons_eq_nil_iff {found : List ClassificationReason} :
    canonicalReasons found = [] ↔ found = [] := by
  constructor
  · intro h
    apply List.eq_nil_iff_forall_not_mem.mpr
    intro reason hreason
    have hkept : reason ∈ canonicalReasons found :=
      List.mem_mergeSort.mpr (mem_foldl_addReason.mpr (Or.inr hreason))
    rw [h] at hkept
    exact List.not_mem_nil hkept
  · rintro rfl
    exact List.mergeSort_nil

@[simp] theorem reasonIf_eq_nil_iff {condition : Bool} :
    reasonIf condition reason = [] ↔ condition = false := by
  cases condition with
  | false => simp [reasonIf]
  | true => simp [reasonIf]

theorem classifyInvocationOwnedCleanup_eligible_iff :
    (classifyInvocationOwnedCleanup candidate).classification = .eligible ↔
      structuralReasons candidate = [] ∧ protectionReasons candidate = [] ∧
        unknownReasons candidate = [] := by
  unfold classifyInvocationOwnedCleanup
  by_cases hstructural : structuralReasons candidate = []
  · rw [if_neg (not_not.mpr hstructural)]
    by_cases hprotection : protectionReasons candidate = []
    · rw [if_neg (not_not.mpr hprotection)]
      by_cases hunknown : unknownReasons candidate = []
      · rw [if_neg (not_not.mpr hunknown)]
        simp [hstructural, hprotection, hunknown]
      · rw [if_pos hunknown]
        simp [hunknown]
    · rw [if_pos hprotection]
      simp [hprotection]
  · rw [if_pos hstructural]
    simp [hstructural]

/-- The installed package of an identity: the same name, base, version and
architecture, installed as a dependency. -/
structure InstalledAs (package : SourceAwarePackageIdentity)
    (metadata : InstalledPackageMetadata) : Prop where
  name : metadata.name = package.packageName
  packageBase : metadata.packageBase = .known package.package.packageBase.packageBase
  version : package.packageVersion.fullVersion? = some metadata.version
  architecture : ∃ architecture, metadata.architecture = .known architecture ∧
    package.architecture = .known [architecture]
  reason : metadata.reason = .dependency

/-- What the three rounds leave of an eligible package. -/
structure EligibleEvidence (candidate : CleanupCandidate) : Prop where
  baseline : candidate.baseline = .newlyObserved
  state : candidate.currentPackage.state = .present
  verified : candidate.currentPackage.verification = .verified
  installed : ∃ metadata, candidate.currentPackage.metadata = some metadata ∧
    InstalledAs candidate.package metadata
  notForeign : candidate.causalOwnership ≠ .notInvocationOwned
  requirement : candidate.sharedRequirement = .noLongerRequired
  policy : candidate.policyProtection = .notProtected
  coverage : candidate.correlationCoverage = .complete
  roles : ∀ correlation ∈ candidate.correlations,
    correlation.role ≠ some .root ∧ correlation.role ≠ some .runtimeDependency
  needed : ∃ correlation ∈ candidate.correlations, isMeaningful correlation = true

theorem reason_eq_dependency {reason : InstalledPackageReason} (hexplicit : reason ≠ .explicit)
    (hunknown : reason ≠ .unknown) : reason = .dependency := by
  cases reason with
  | explicit => exact absurd rfl hexplicit
  | dependency => rfl
  | unknown => exact absurd rfl hunknown

theorem isKnownBase_eq_true (h : isKnownBase metadata = true) :
    ∃ installed packageBase, metadata = some installed ∧
      installed.packageBase = .known packageBase := by
  unfold isKnownBase at h
  split at h
  · exact ⟨_, _, rfl, rfl⟩
  · cases h

theorem isKnownArchitecture_eq_true {identity : PackageArchitectureIdentity}
    (h : isKnownArchitecture metadata identity = true) :
    ∃ installed architecture expected, metadata = some installed ∧
      installed.architecture = .known architecture ∧ identity = .known [expected] := by
  unfold isKnownArchitecture at h
  split at h
  · exact ⟨_, _, _, rfl, rfl, rfl⟩
  · cases h

/-- The rounds about the installed package, together. -/
theorem installedAs_of_reasons {metadata : InstalledPackageMetadata}
    (hmetadata : candidate.currentPackage.metadata = some metadata)
    (hstate : candidate.currentPackage.state = .present)
    (hreasons : metadataReasons candidate metadata = []) (hreason : metadata.reason = .dependency)
    (hversion : versionReasons candidate.package.packageVersion = [])
    (hbase : isKnownBase candidate.currentPackage.metadata = true)
    (harchitecture : isKnownArchitecture candidate.currentPackage.metadata
      candidate.package.architecture = true) : InstalledAs candidate.package metadata := by
  obtain ⟨installed, packageBase, hinstalled, hknown⟩ := isKnownBase_eq_true hbase
  obtain ⟨installed', architecture, expected, hinstalled', hactual, hexpected⟩ :=
    isKnownArchitecture_eq_true harchitecture
  rw [hmetadata] at hinstalled hinstalled'
  rw [← Option.some.inj hinstalled] at hknown
  rw [← Option.some.inj hinstalled'] at hactual
  simp only [metadataReasons, hknown, hactual, hexpected, hstate, List.append_eq_nil_iff,
    reasonIf_eq_nil_iff, decide_eq_false_iff_not, not_not] at hreasons
  obtain ⟨⟨⟨hname, hsameBase⟩, hsameArchitecture⟩, hsameVersion⟩ := hreasons
  refine ⟨hname, ?_, ?_, ?_, hreason⟩
  · split at hsameBase
    · cases hsameBase
    · simp only [reasonIf_eq_nil_iff, decide_eq_false_iff_not, not_not] at hsameBase
      rw [hknown, hsameBase]
  · cases hfull : candidate.package.packageVersion.fullVersion? with
    | none =>
      cases hidentity : candidate.package.packageVersion with
      | composite fullVersion =>
        rw [hidentity] at hfull
        cases hfull
      | pkgverPkgrel epoch pkgver pkgrel =>
        rw [hidentity] at hfull
        cases epoch with
        | none => cases hfull
        | some epoch => cases hfull
      | unknown =>
        rw [hidentity] at hversion
        cases hversion
      | unavailable reason =>
        rw [hidentity] at hversion
        cases hversion
    | some fullVersion =>
      simp only [hfull, reasonIf_eq_nil_iff, decide_eq_false_iff_not, not_not] at hsameVersion
      rw [hsameVersion]
  · split at hsameArchitecture
    · cases hsameArchitecture
    · simp only [reasonIf_eq_nil_iff, decide_eq_false_iff_not, not_not] at hsameArchitecture
      exact ⟨architecture, hactual, by rw [hexpected, hsameArchitecture]⟩

/-- An eligible package has all the evidence. -/
theorem classifyInvocationOwnedCleanup_eligible
    (h : (classifyInvocationOwnedCleanup candidate).classification = .eligible) :
    EligibleEvidence candidate := by
  obtain ⟨hstructural, hprotection, hunknown⟩ :=
    classifyInvocationOwnedCleanup_eligible_iff.mp h
  simp only [structuralReasons, canonicalReasons_eq_nil_iff, List.append_eq_nil_iff] at hstructural
  simp only [protectionReasons, canonicalReasons_eq_nil_iff, List.append_eq_nil_iff,
    reasonIf_eq_nil_iff, decide_eq_false_iff_not, List.flatMap_eq_nil_iff] at hprotection
  simp only [unknownReasons, canonicalReasons_eq_nil_iff, List.append_eq_nil_iff,
    reasonIf_eq_nil_iff, decide_eq_false_iff_not, Bool.not_eq_eq_eq_not,
    Bool.not_false] at hunknown
  obtain ⟨⟨⟨⟨⟨⟨hpreExisting, habsent⟩, hexplicit⟩, hforeign⟩, hroles⟩, hrequired⟩,
    hprotected⟩ := hprotection
  obtain ⟨⟨⟨⟨⟨⟨⟨⟨⟨⟨⟨⟨hbaseline, hstate⟩, hreason⟩, hversion⟩, hpresent⟩, hverified⟩,
    hincomplete⟩, hcoverage⟩, -⟩, -⟩, hneeded⟩, hrequirement⟩, hpolicy⟩ := hunknown
  have hinstalledState : candidate.currentPackage.state = .present := by
    cases hvalue : candidate.currentPackage.state with
    | present => rfl
    | absent => exact absurd hvalue habsent
    | unknown => exact absurd hvalue hstate
  rw [if_pos hinstalledState] at hpresent
  simp only [List.append_eq_nil_iff, reasonIf_eq_nil_iff, Bool.not_eq_eq_eq_not,
    Bool.not_false] at hpresent
  obtain ⟨metadata, packageBase, hmetadata, -⟩ := isKnownBase_eq_true hpresent.1
  rw [hmetadata] at hstructural
  have hdependency : metadata.reason = .dependency := by
    simp only [currentInstallReason, hmetadata] at hexplicit hreason
    exact reason_eq_dependency hexplicit hreason
  refine ⟨?_, hinstalledState, ?_, ⟨metadata, hmetadata, ?_⟩, hforeign, ?_, ?_, ?_, ?_, ?_⟩
  · cases hvalue : candidate.baseline with
    | preExisting => exact absurd hvalue hpreExisting
    | newlyObserved => rfl
    | unknown => exact absurd hvalue hbaseline
  · cases hvalue : candidate.currentPackage.verification with
    | verified => rfl
    | unverified => exact absurd hvalue hverified
  · exact installedAs_of_reasons hmetadata hinstalledState hstructural.1 hdependency
      hversion hpresent.1 hpresent.2
  · cases hvalue : candidate.sharedRequirement with
    | stillRequired => exact absurd hvalue hrequired
    | noLongerRequired => rfl
    | unknown => exact absurd hvalue hrequirement
  · cases hvalue : candidate.policyProtection with
    | notProtected => rfl
    | «protected» => exact absurd hvalue hprotected
    | unknown => exact absurd hvalue hpolicy
  · cases hvalue : candidate.correlationCoverage with
    | complete => rfl
    | incomplete => exact absurd hvalue hincomplete
    | unknown => exact absurd hvalue hcoverage
  · intro correlation hcorrelation
    have hrole := hroles correlation hcorrelation
    constructor
    · intro hroot
      rw [roleProtection, hroot] at hrole
      cases hrole
    · intro hruntime
      rw [roleProtection, hruntime] at hrole
      cases hrole
  · exact List.any_eq_true.mp hneeded

end Moguet.Cleanup.Model
