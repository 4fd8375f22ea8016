import Moguet.Verified.ByteString

/-!
# Dependency constraints

The consumer and provider grammars of `dependency_constraint.cpp`, the
observed versions they are evaluated against, and the package identifier
grammar of `package_identifier.cpp`.

A consumer requirement and a provider capability are different values: a
provider publishes an unversioned capability or an equality-qualified one
and never inherits the consumer's operators. The ordering of Arch versions
belongs to libalpm, so `alpm_pkg_vercmp` stays a parameter `vercmp` of
everything that compares two versions.
-/

namespace Moguet.Plan.Constraint

open Verified.ByteString

variable {name : Bytes}

/-- The bytes both identifier grammars admit. -/
def isIdentifierByte (b : UInt8) : Bool :=
  isAsciiAlphanumeric b || b = byte '@' || b = byte '.' || b = byte '_' ||
    b = byte '+' || b = byte '-'

/-- A package name is also a path component, so `.` and `..` are never
one. -/
def isValidPackageName (name : Bytes) : Bool :=
  if name = [] || name = ascii "." || name = ascii ".." ||
      name.head? = some (byte '-') then false
  else name.all isIdentifierByte

def isValidPackageIdentity (identity : Bytes) : Bool :=
  if identity = [] || identity.head? = some (byte '-') ||
      identity.head? = some (byte '.') then false
  else identity.all isIdentifierByte

theorem isIdentifierByte_not_blank {b : UInt8} (h : isIdentifierByte b = true) :
    isBlank b = false := by
  cases hb : isBlank b with
  | false => rfl
  | true =>
    simp only [isBlank, Bool.or_eq_true, decide_eq_true_eq] at hb
    rcases hb with ((rfl | rfl) | rfl) | rfl <;> exact absurd h (by decide)

/-- A package name is non-empty and made of identifier bytes. -/
theorem isValidPackageName_bytes (h : isValidPackageName name = true) :
    name ≠ [] ∧ ∀ b ∈ name, isIdentifierByte b = true := by
  unfold isValidPackageName at h
  split at h
  · cases h
  · rename_i hforbidden
    simp only [Bool.or_eq_true, decide_eq_true_eq, not_or] at hforbidden
    exact ⟨hforbidden.1.1.1, by simpa [List.all_eq_true] using h⟩

theorem isValidPackageName_ne_nil (h : isValidPackageName name = true) : name ≠ [] :=
  (isValidPackageName_bytes h).1

/-- A package name has no blanks, so the value sets of a plan, which trim
what they are given, keep it as it is. -/
theorem trim_of_isValidPackageName (h : isValidPackageName name = true) : trim name = name := by
  apply trim_eq_self
  intro b hb
  exact isIdentifierByte_not_blank ((isValidPackageName_bytes h).2 b hb)

def isValidPkgver (value : Bytes) : Bool :=
  if value = [] then false
  else value.all fun b =>
    0x21 ≤ b && b ≤ 0x7e && b != byte ':' && b != byte '/' && b != byte '-' &&
      b != byte '<' && b != byte '>' && b != byte '='

def containsOnlyAsciiDigits (value : Bytes) : Bool :=
  value != [] && value.all isAsciiDigit

def isValidPkgrel (value : Bytes) : Bool :=
  match splitAtFirst (· = byte '.') value with
  | none => containsOnlyAsciiDigits value
  | some (major, rest) =>
    containsOnlyAsciiDigits major && containsOnlyAsciiDigits rest.tail &&
      !rest.tail.contains (byte '.')

/-- The part of a version after its epoch, when the epoch is well formed. -/
def versionAfterEpoch (value : Bytes) : Option Bytes :=
  match splitAtFirst (· = byte ':') value with
  | none => some value
  | some (epoch, rest) =>
    if !containsOnlyAsciiDigits epoch then none
    else if rest.tail.contains (byte ':') then none
    else some rest.tail

def isValidPackageVersion (value : Bytes) : Bool :=
  if value = [] then false
  else
    match versionAfterEpoch value with
    | none => false
    | some version =>
      match splitAtFirst (· = byte '-') version with
      | none => isValidPkgver version
      | some (pkgver, rest) => isValidPkgver pkgver && isValidPkgrel rest.tail

/-- `libfoo.so=libfoo.so-64`: the legacy soname form of a provide. -/
def isValidLegacySonameV1UnversionedProvide
    (capabilityName version : Bytes) : Bool :=
  if !(ascii ".so").isSuffixOf capabilityName ||
      version.length != capabilityName.length + 3 ||
      !capabilityName.isPrefixOf version ||
      version[capabilityName.length]? != some (byte '-') then false
  else
    let architecture := version.drop (capabilityName.length + 1)
    architecture = ascii "32" || architecture = ascii "64"

/-- A provision that is not a confirmed soname form may still be an
ordinary component version. -/
def isValidProviderCapabilityVersion (capabilityName version : Bytes) : Bool :=
  if isValidLegacySonameV1UnversionedProvide capabilityName version then true
  else isValidPackageVersion version

def isValidSonamePayload (payload : Bytes) : Bool :=
  if payload = [] then false
  else payload.all fun b =>
    0x21 ≤ b && b ≤ 0x7e && b != byte '/' && b != byte ':' && b != byte '<' &&
      b != byte '>' && b != byte '='

inductive DependencyVersionRelation
  | lessThan
  | lessThanOrEqual
  | equal
  | greaterThanOrEqual
  | greaterThan
  deriving DecidableEq

structure DependencyVersionConstraint where
  relation : DependencyVersionRelation
  version : Bytes
  deriving DecidableEq

structure ConsumerDependencyRequirement where
  rawSpecification : Bytes
  packageName : Bytes
  constraint : Option DependencyVersionConstraint
  deriving DecidableEq

structure ProviderCapability where
  rawSpecification : Bytes
  packageName : Bytes
  version : Option Bytes
  deriving DecidableEq

structure SonameDependencyRequirement where
  rawSpecification : Bytes
  soname : Bytes
  deriving DecidableEq

inductive DependencyRequirement
  | consumer (requirement : ConsumerDependencyRequirement)
  | soname (requirement : SonameDependencyRequirement)
  deriving DecidableEq

inductive DependencyConstraintParseFailureKind
  | emptySpecification
  | invalidPackageIdentity
  | invalidSonameIdentity
  | unsupportedConsumerOperator
  | unsupportedProviderOperator
  | missingVersion
  | invalidVersion
  deriving DecidableEq

structure DependencyConstraintParseFailure where
  kind : DependencyConstraintParseFailureKind
  rawSpecification : Bytes
  deriving DecidableEq

/-- The operator class of `find_first_of("<>=")`. -/
def isOperatorByte (b : UInt8) : Bool :=
  b = byte '<' || b = byte '>' || b = byte '='

/-- The relation an operator text starts with, and the text after it. -/
def parseConsumerRelation (operator : Bytes) :
    Option (DependencyVersionRelation × Bytes) :=
  match operator with
  | [] => none
  | b :: rest =>
    if b = byte '<' then
      if rest.head? = some (byte '=') then some (.lessThanOrEqual, rest.tail)
      else some (.lessThan, rest)
    else if b = byte '=' then some (.equal, rest)
    else if b = byte '>' then
      if rest.head? = some (byte '=') then
        some (.greaterThanOrEqual, rest.tail)
      else some (.greaterThan, rest)
    else none

/-- The version after an operator: present, without a second operator and
well formed. -/
def requireVersion (raw version : Bytes) :
    Except DependencyConstraintParseFailure Bytes :=
  if version = [] then .error ⟨.missingVersion, raw⟩
  else if version.any isOperatorByte || !isValidPackageVersion version then
    .error ⟨.invalidVersion, raw⟩
  else .ok version

def parseDependencyRequirement (specification : Bytes) :
    Except DependencyConstraintParseFailure DependencyRequirement :=
  let raw := trim specification
  if raw = [] then .error ⟨.emptySpecification, raw⟩
  else
    match splitAtFirst isOperatorByte raw with
    | none =>
      match splitAtFirst (· = byte ':') raw with
      | some (library, rest) =>
        if rest.tail.contains (byte ':') ||
            !isValidPackageIdentity library ||
            !isValidSonamePayload rest.tail then
          .error ⟨.invalidSonameIdentity, raw⟩
        else .ok (.soname ⟨raw, raw⟩)
      | none =>
        if !isValidPackageIdentity raw then
          .error ⟨.invalidPackageIdentity, raw⟩
        else .ok (.consumer ⟨raw, raw, none⟩)
    | some (front, operator) =>
      let packageName := trim front
      if !isValidPackageIdentity packageName then
        .error ⟨.invalidPackageIdentity, raw⟩
      else
        match parseConsumerRelation operator with
        | none => .error ⟨.unsupportedConsumerOperator, raw⟩
        | some (relation, rest) => do
            let version ← requireVersion raw (trim rest)
            .ok (.consumer ⟨raw, packageName, some ⟨relation, version⟩⟩)

def parseProviderCapability (specification : Bytes) :
    Except DependencyConstraintParseFailure ProviderCapability :=
  let raw := trim specification
  if raw = [] then .error ⟨.emptySpecification, raw⟩
  else
    match splitAtFirst isOperatorByte raw with
    | none =>
      if !isValidPackageIdentity raw then
        .error ⟨.invalidPackageIdentity, raw⟩
      else .ok ⟨raw, raw, none⟩
    | some (front, operator) =>
      if operator.head? ≠ some (byte '=') then
        .error ⟨.unsupportedProviderOperator, raw⟩
      else
        let packageName := trim front
        if !isValidPackageIdentity packageName then
          .error ⟨.invalidPackageIdentity, raw⟩
        else do
          let version ← requireVersion raw (trim operator.tail)
          .ok ⟨raw, packageName, some version⟩

inductive ObservedVersionSource
  | installedExactPackage
  | installedProviderCapability
  | repositoryExactPackage
  | aurExactPackage
  | localExactPackage
  | repositoryProviderCapability
  | aurProviderCapability
  | localProviderCapability
  deriving DecidableEq

inductive ObservedVersionUnknownReason
  | missingVersionMetadata
  | unversionedProviderCapability
  | metadataQueryFailure
  | partialSourceFailure
  | comparisonAuthorityUnavailable
  | candidateVersionUnavailable
  | relationKindNotComparable
  deriving DecidableEq

inductive ConstraintInvalidReason
  | malformedRequirement
  | unsupportedConsumerOperator
  | unsupportedProviderOperator
  | invalidPackageIdentity
  | invalidVersionIdentity
  | internalInvariantViolation
  deriving DecidableEq

inductive ObservedVersionOutcome
  | version (text : Bytes)
  | unknown (reason : ObservedVersionUnknownReason)
  | invalid (reason : ConstraintInvalidReason)
  deriving DecidableEq

structure ObservedVersion where
  source : ObservedVersionSource
  outcome : ObservedVersionOutcome
  deriving DecidableEq

namespace ObservedVersion

def unknown (source : ObservedVersionSource)
    (reason : ObservedVersionUnknownReason) : ObservedVersion :=
  ⟨source, .unknown reason⟩

def invalid (source : ObservedVersionSource)
    (reason : ConstraintInvalidReason) : ObservedVersion :=
  ⟨source, .invalid reason⟩

def available (source : ObservedVersionSource) (version : Bytes) :
    ObservedVersion :=
  if !isValidPackageVersion version then
    invalid source .invalidVersionIdentity
  else ⟨source, .version version⟩

def version? (observed : ObservedVersion) : Option Bytes :=
  match observed.outcome with
  | .version text => some text
  | _ => none

def unknownReason? (observed : ObservedVersion) :
    Option ObservedVersionUnknownReason :=
  match observed.outcome with
  | .unknown reason => some reason
  | _ => none

end ObservedVersion

inductive ArchVersionOrdering
  | less
  | equal
  | greater
  deriving DecidableEq

/-- The only version comparison: the sign of `alpm_pkg_vercmp`. -/
def compareArchPackageVersions (vercmp : Bytes → Bytes → Int)
    (observedVersion requiredVersion : Bytes) : ArchVersionOrdering :=
  let comparison := vercmp observedVersion requiredVersion
  if comparison < 0 then .less
  else if comparison > 0 then .greater
  else .equal

def relationIsSatisfied (relation : DependencyVersionRelation)
    (ordering : ArchVersionOrdering) : Bool :=
  match relation with
  | .lessThan => ordering = .less
  | .lessThanOrEqual => ordering ≠ .greater
  | .equal => ordering = .equal
  | .greaterThanOrEqual => ordering ≠ .less
  | .greaterThan => ordering = .greater

inductive ConstraintConflictReason
  | incompatibleRequirements
  | incompatibleProviderIdentity
  deriving DecidableEq

/-- `ConstraintEvaluation`: every satisfaction with the reason it carries,
so a reason without its satisfaction cannot be built. -/
inductive ConstraintEvaluation
  | unconstrained
  | satisfied
  | unsatisfied
  | unknown (reason : ObservedVersionUnknownReason)
  | invalid (reason : ConstraintInvalidReason)
  | conflicting (reason : ConstraintConflictReason)
  deriving DecidableEq

inductive ConstraintSatisfaction
  | unconstrained
  | satisfied
  | unsatisfied
  | unknown
  | invalid
  | conflicting
  deriving DecidableEq

def ConstraintEvaluation.satisfaction :
    ConstraintEvaluation → ConstraintSatisfaction
  | .unconstrained => .unconstrained
  | .satisfied => .satisfied
  | .unsatisfied => .unsatisfied
  | .unknown _ => .unknown
  | .invalid _ => .invalid
  | .conflicting _ => .conflicting

/-- Byte order on versions. It orders single-digit numeric versions as libalpm
does, which is all the concrete cases of the development compare. -/
def bytewiseVercmp (lhs rhs : Bytes) : Int :=
  if lhs = rhs then 0 else if lhs < rhs then -1 else 1

section Evaluate

variable (vercmp : Bytes → Bytes → Int)

def evaluateConsumerDependencyRequirement
    (requirement : ConsumerDependencyRequirement)
    (observedVersion : ObservedVersion) : ConstraintEvaluation :=
  match requirement.constraint with
  | none => .unconstrained
  | some constraint =>
    match observedVersion.outcome with
    | .unknown reason => .unknown reason
    | .invalid reason => .invalid reason
    | .version observed =>
      if relationIsSatisfied constraint.relation
          (compareArchPackageVersions vercmp observed constraint.version)
      then .satisfied
      else .unsatisfied

def isStrictLowerBound (relation : DependencyVersionRelation) : Bool :=
  relation = .greaterThan

def isStrictUpperBound (relation : DependencyVersionRelation) : Bool :=
  relation = .lessThan

def isStricterLowerBound (candidate current : DependencyVersionConstraint) :
    Bool :=
  let ordering :=
    compareArchPackageVersions vercmp candidate.version current.version
  ordering = .greater ||
    (ordering = .equal && isStrictLowerBound candidate.relation &&
      !isStrictLowerBound current.relation)

def isStricterUpperBound (candidate current : DependencyVersionConstraint) :
    Bool :=
  let ordering :=
    compareArchPackageVersions vercmp candidate.version current.version
  ordering = .less ||
    (ordering = .equal && isStrictUpperBound candidate.relation &&
      !isStrictUpperBound current.relation)

/-- The bounds the scan of an invocation's requirements has met so far. -/
structure ConstraintBounds where
  equality : Option DependencyVersionConstraint := none
  lowerBound : Option DependencyVersionConstraint := none
  upperBound : Option DependencyVersionConstraint := none

/-- One requirement of the scan. Nothing is returned when it meets an
equality that the versions compared so far rule out. -/
def ConstraintBounds.scan (bounds : ConstraintBounds)
    (constraint : DependencyVersionConstraint) : Option ConstraintBounds :=
  match constraint.relation with
  | .equal =>
    match bounds.equality with
    | some equality =>
      if compareArchPackageVersions vercmp equality.version
          constraint.version ≠ .equal then none
      else some { bounds with equality := some constraint }
    | none => some { bounds with equality := some constraint }
  | .lessThan | .lessThanOrEqual =>
    match bounds.upperBound with
    | some upper =>
      if isStricterUpperBound vercmp constraint upper then
        some { bounds with upperBound := some constraint }
      else some bounds
    | none => some { bounds with upperBound := some constraint }
  | .greaterThanOrEqual | .greaterThan =>
    match bounds.lowerBound with
    | some lower =>
      if isStricterLowerBound vercmp constraint lower then
        some { bounds with lowerBound := some constraint }
      else some bounds
    | none => some { bounds with lowerBound := some constraint }

/-- Whether the bounds of the whole scan leave no version. -/
def ConstraintBounds.isConflicting (bounds : ConstraintBounds)
    (constraints : List DependencyVersionConstraint) : Bool :=
  match bounds.equality with
  | some equality =>
    constraints.any fun constraint =>
      !relationIsSatisfied constraint.relation
        (compareArchPackageVersions vercmp equality.version constraint.version)
  | none =>
    match bounds.lowerBound, bounds.upperBound with
    | some lower, some upper =>
      let ordering :=
        compareArchPackageVersions vercmp lower.version upper.version
      ordering = .greater ||
        (ordering = .equal &&
          (isStrictLowerBound lower.relation ||
            isStrictUpperBound upper.relation))
    | _, _ => false

/-- The requirements one invocation places on one package. The outer error
is the source's logic error for requirements on different packages. -/
def projectConflictingConstraintInvocation
    (requirements : List ConsumerDependencyRequirement) :
    Except Bytes (Option ConstraintEvaluation) :=
  match requirements with
  | [] => .ok none
  | [_] => .ok none
  | first :: rest =>
    if rest.any fun candidate => candidate.packageName ≠ first.packageName then
      .error (ascii
        "Conflicting constraint projection requires one package identity.")
    else
      let constraints := requirements.filterMap (·.constraint)
      match constraints.foldlM (·.scan vercmp) ({} : ConstraintBounds) with
      | none => .ok (some (.conflicting .incompatibleRequirements))
      | some bounds =>
        if bounds.isConflicting vercmp constraints then
          .ok (some (.conflicting .incompatibleRequirements))
        else .ok none

end Evaluate

end Moguet.Plan.Constraint
