import Moguet.Relation.Declaration
import Moguet.Verified.Checked

/-!
# Package metadata

What the resolver reads: the AUR package record with its typed constraint
projection (`aur_rpc.hpp`, `aur_constraint_metadata.cpp`), the repository
and installed observations (`package_constraint_metadata.hpp`,
`repository_query.hpp`) and the provider candidates built from them
(`dependency_provider.hpp`).

`AurPackageInfo` carries what the AUR RPC parser and the recipe projection
establish before a record reaches the planner: both identifiers are package
names, and a typed projection that is present is the projection of this very
record.
-/

namespace Moguet.Plan.Metadata

open Verified.ByteString Verified.Checked Constraint Relation.Declaration

/-- The exception classes the planner throws and tells apart. -/
inductive ThrownKind
  | runtimeError
  | logicError
  | invalidArgument
  | outOfRange
  | badOptionalAccess
  | aurRpcResponseError
  | aurConstraintMetadataProjectionError
  deriving DecidableEq

/-- An exception in flight: its class and its `what()`. -/
structure Thrown where
  kind : ThrownKind
  what : Bytes
  deriving DecidableEq

/-- The resolver rethrows schema violations and malformed projections; every
other exception of a lookup is an ordinary metadata failure. -/
def Thrown.isOrdinary (thrown : Thrown) : Bool :=
  thrown.kind ≠ .aurRpcResponseError &&
    thrown.kind ≠ .aurConstraintMetadataProjectionError

structure ConfiguredRepositoryIdentity where
  repositoryName : Bytes
  configuredOrder : Nat
  deriving DecidableEq

structure RepositoryProviderCapability where
  capability : ProviderCapability
  providedVersion : ObservedVersion
  deriving DecidableEq

structure RepositoryExactPackage where
  repository : ConfiguredRepositoryIdentity
  packageName : Bytes
  packageBase : Bytes
  packageVersion : ObservedVersion
  provides : List RepositoryProviderCapability
  architecture : Option Bytes := none
  deriving DecidableEq

structure InstalledExactPackage where
  packageName : Bytes
  observedVersion : ObservedVersion
  deriving DecidableEq

/-- `InstalledExactPackageObservationResult`. -/
inductive InstalledExactPackageObservationResult
  | present (package : InstalledExactPackage)
  | absent (packageName : Bytes)
  | queryFailure (packageName : Bytes) (diagnostic : Bytes)

structure RepositoryMetadataFailure where
  diagnostic : Bytes
  configuredRepositoryOrder : Option (List Bytes) := none

structure RepositoryPackagePresent where
  repositoryName : Bytes
  configuredOrder : Nat := 0
  packageName : Bytes
  packageBase : Bytes
  packageVersion : Option ObservedVersion := none
  configuredRepositoryOrder : Option (List Bytes) := none
  provides : List RepositoryProviderCapability := []
  architecture : Option Bytes := none

/-- `StrictRepositoryPackageQueryResult`: confirmed absence and a failed
read are different values. -/
inductive StrictRepositoryPackageQueryResult
  | present (package : RepositoryPackagePresent)
  | notFound (configuredRepositoryOrder : Option (List Bytes))
  | failure (failure : RepositoryMetadataFailure)

inductive ProviderOrigin
  | repository (repositoryName : Bytes) (configuredOrder : Option Nat)
  | aur
  deriving DecidableEq

/-- Resolution metadata of a provider, not its identity: an unversioned
capability never inherits the version of its package. -/
structure ProviderConstraintMetadata where
  providedCapability : ProviderCapability
  packageVersion : ObservedVersion
  providedVersion : ObservedVersion
  deriving DecidableEq

structure ProvidedDependency where
  origin : ProviderOrigin
  packageName : Bytes
  packageBase : Bytes
  packageArchitecture : Option Bytes
  providedDependencyName : Bytes
  providedDependencySpecification : Bytes
  packageVersion : Option Bytes
  constraintMetadata : Option ProviderConstraintMetadata
  deriving DecidableEq

/-- Identity of a provider choice, independent of presentation and of the
metadata read at one moment. -/
def sameProviderIdentity (lhs rhs : ProvidedDependency) : Bool :=
  lhs.origin = rhs.origin && lhs.packageName = rhs.packageName &&
    lhs.packageBase = rhs.packageBase

def hasIncompatibleProviderPackageIdentity (lhs rhs : ProvidedDependency) :
    Bool :=
  lhs.packageName = rhs.packageName && !sameProviderIdentity lhs rhs

def providerPackageIdentityDisplay (provider : ProvidedDependency) : Bytes :=
  match provider.origin with
  | .repository repositoryName _ =>
    repositoryName ++ ascii "/" ++ provider.packageName
  | .aur =>
    ascii "aur/" ++ provider.packageName ++ ascii " (PackageBase: " ++
      provider.packageBase ++ ascii ")"

theorem sameProviderIdentity_refl (provider : ProvidedDependency) :
    sameProviderIdentity provider provider = true := by
  simp [sameProviderIdentity]

theorem sameProviderIdentity_symm {lhs rhs : ProvidedDependency}
    (h : sameProviderIdentity lhs rhs = true) :
    sameProviderIdentity rhs lhs = true := by
  simp only [sameProviderIdentity, Bool.and_eq_true, decide_eq_true_eq] at h ⊢
  exact ⟨⟨h.1.1.symm, h.1.2.symm⟩, h.2.symm⟩

theorem sameProviderIdentity_trans {a b c : ProvidedDependency}
    (hab : sameProviderIdentity a b = true)
    (hbc : sameProviderIdentity b c = true) :
    sameProviderIdentity a c = true := by
  simp only [sameProviderIdentity, Bool.and_eq_true, decide_eq_true_eq] at hab hbc ⊢
  exact ⟨⟨hab.1.1.trans hbc.1.1, hab.1.2.trans hbc.1.2⟩, hab.2.trans hbc.2⟩

/-- `ProvidedDependency::from_aur_constraint_metadata`. -/
def ProvidedDependency.fromAurConstraintMetadata
    (packageName packageBase : Bytes)
    (constraintMetadata : ProviderConstraintMetadata) :
    Except Thrown ProvidedDependency :=
  let capability := constraintMetadata.providedCapability
  if constraintMetadata.packageVersion.source ≠ .aurExactPackage ∨
      constraintMetadata.providedVersion.source ≠ .aurProviderCapability then
    .error ⟨.invalidArgument, ascii
      "AUR provider constraint metadata has incompatible version sources."⟩
  else if capability.version.isSome ∧
      constraintMetadata.providedVersion.version? ≠ capability.version then
    .error ⟨.invalidArgument, ascii
      "AUR provided capability version metadata is inconsistent."⟩
  else if capability.version = none ∧
      constraintMetadata.providedVersion.unknownReason? ≠
        some .unversionedProviderCapability then
    .error ⟨.invalidArgument, ascii
      "Unversioned AUR capability has version metadata."⟩
  else
    .ok {
      origin := .aur
      packageName := packageName
      packageBase := packageBase
      packageArchitecture := none
      providedDependencyName := capability.packageName
      providedDependencySpecification := capability.rawSpecification
      packageVersion := constraintMetadata.packageVersion.version?
      constraintMetadata := some constraintMetadata }

/-- The fields of a provider the factory accepts, read back. -/
theorem ProvidedDependency.fromAurConstraintMetadata_ok
    {name base : Bytes} {metadata : ProviderConstraintMetadata}
    {provider : ProvidedDependency}
    (h : ProvidedDependency.fromAurConstraintMetadata name base metadata = .ok provider) :
    provider = {
      origin := .aur
      packageName := name
      packageBase := base
      packageArchitecture := none
      providedDependencyName := metadata.providedCapability.packageName
      providedDependencySpecification :=
        metadata.providedCapability.rawSpecification
      packageVersion := metadata.packageVersion.version?
      constraintMetadata := some metadata } := by
  dsimp only [fromAurConstraintMetadata] at h
  split at h
  · cases h
  · split at h
    · cases h
    · split at h
      · cases h
      · injection h with h
        exact h.symm

structure RepositoryProviderQuerySnapshot where
  candidates : List ProvidedDependency
  sourceFailures : List RepositoryMetadataFailure
  configuredRepositoryOrder : Option (List Bytes) := none
  observedPackages : List RepositoryExactPackage := []

/-- `StrictRepositoryProvidersQueryResult`. -/
inductive StrictRepositoryProvidersQueryResult
  | snapshot (snapshot : RepositoryProviderQuerySnapshot)
  | failure (failure : RepositoryMetadataFailure)

structure AurProviderCapabilityMetadata where
  capability : ProviderCapability
  providedVersion : ObservedVersion

structure AurPackageConstraintMetadata where
  packageName : Bytes
  packageBase : Bytes
  packageVersion : ObservedVersion
  depends : List DependencyRequirement
  makeDepends : List DependencyRequirement
  checkDepends : List DependencyRequirement
  provides : List AurProviderCapabilityMetadata
  relations : List DeclaredPackageRelation

variable {metadata : AurPackageConstraintMetadata}

inductive AurConstraintMetadataField
  | depends
  | makeDepends
  | checkDepends
  | provides
  | conflicts
  | replaces
  deriving DecidableEq

structure AurConstraintMetadataProjectionFailure where
  packageName : Bytes
  packageBase : Bytes
  field : AurConstraintMetadataField
  itemIndex : Nat
  reason : DependencyConstraintParseFailure

/-- The raw record of one AUR package: the JSON members the planner reads. -/
structure AurPackageRecord where
  name : Bytes
  packageBase : Bytes
  version : Bytes
  depends : List Bytes := []
  makeDepends : List Bytes := []
  checkDepends : List Bytes := []
  provides : List Bytes := []
  conflicts : List Bytes := []
  replaces : List Bytes := []

variable {package : AurPackageRecord}

def aurExactPackageVersion (version : Bytes) : ObservedVersion :=
  if version = [] then
    ObservedVersion.unknown .aurExactPackage .missingVersionMetadata
  else ObservedVersion.available .aurExactPackage version

/-- The loop the three array projections share: parse in order, and stop at
the first item that fails with the item's index. -/
def projectArray {α : Type} (package : AurPackageRecord)
    (field : AurConstraintMetadataField)
    (parse : Bytes → Except DependencyConstraintParseFailure α) :
    Nat → List Bytes →
      Except AurConstraintMetadataProjectionFailure (List α)
  | _, [] => .ok []
  | index, specification :: rest =>
    match parse specification with
    | .error reason =>
      .error ⟨package.name, package.packageBase, field, index, reason⟩
    | .ok item =>
      match projectArray package field parse (index + 1) rest with
      | .error failure => .error failure
      | .ok items => .ok (item :: items)

/-- Every projected item is the parse of the specification it stands at. -/
theorem projectArray_parsed {α : Type} {field : AurConstraintMetadataField}
    {parse : Bytes → Except DependencyConstraintParseFailure α} :
    ∀ {index : Nat} {specifications : List Bytes} {items : List α},
      projectArray package field parse index specifications = .ok items →
        ∀ pair ∈ specifications.zip items, parse pair.1 = .ok pair.2 := by
  intro index specifications
  induction specifications generalizing index with
  | nil =>
    intro items _ pair hmem
    simp at hmem
  | cons specification rest ih =>
    intro items h
    simp only [projectArray] at h
    split at h
    · cases h
    · rename_i item hitem
      split at h
      · cases h
      · rename_i tail htail
        injection h with h
        rw [← h, List.zip_cons_cons]
        intro pair hmem
        rcases List.mem_cons.mp hmem with rfl | hmem
        · exact hitem
        · exact ih htail pair hmem

def projectDependencyArray (package : AurPackageRecord)
    (specifications : List Bytes) (field : AurConstraintMetadataField) :
    Except AurConstraintMetadataProjectionFailure
      (List DependencyRequirement) :=
  projectArray package field parseDependencyRequirement 0 specifications

/-- One `Provides` item with the version it publishes. -/
def projectProvidedCapability (specification : Bytes) :
    Except DependencyConstraintParseFailure AurProviderCapabilityMetadata :=
  match parseProviderCapability specification with
  | .error reason => .error reason
  | .ok capability =>
    .ok {
      capability := capability
      providedVersion :=
        match capability.version with
        | some version =>
          ObservedVersion.available .aurProviderCapability version
        | none =>
          ObservedVersion.unknown .aurProviderCapability
            .unversionedProviderCapability }

def projectProvides (package : AurPackageRecord) :
    Except AurConstraintMetadataProjectionFailure
      (List AurProviderCapabilityMetadata) :=
  projectArray package .provides projectProvidedCapability 0 package.provides

def projectRelationArray (package : AurPackageRecord)
    (specifications : List Bytes) (field : AurConstraintMetadataField)
    (kind : PackageRelationKind) :
    Except AurConstraintMetadataProjectionFailure
      (List DeclaredPackageRelation) :=
  projectArray package field
    (parseDeclaredPackageRelation package.name package.packageBase kind) 0
    specifications

def projectAurConstraintMetadata (package : AurPackageRecord) :
    Except AurConstraintMetadataProjectionFailure
      AurPackageConstraintMetadata := do
  let depends ← projectDependencyArray package package.depends .depends
  let makeDepends ←
    projectDependencyArray package package.makeDepends .makeDepends
  let checkDepends ←
    projectDependencyArray package package.checkDepends .checkDepends
  let provides ← projectProvides package
  let conflicts ←
    projectRelationArray package package.conflicts .conflicts .conflict
  let replaces ←
    projectRelationArray package package.replaces .replaces .replacement
  return {
    packageName := package.name
    packageBase := package.packageBase
    packageVersion := aurExactPackageVersion package.version
    depends := depends
    makeDepends := makeDepends
    checkDepends := checkDepends
    provides := provides
    relations := conflicts ++ replaces }

/-- A package record as the planner receives it. -/
structure AurPackageInfo extends AurPackageRecord where
  constraintMetadata : Option AurPackageConstraintMetadata := none
  recipeArchitectureSupported : Bool := true
  name_valid : isValidPackageName name = true
  packageBase_valid : isValidPackageName packageBase = true
  constraintMetadata_projected :
    ∀ metadata, constraintMetadata = some metadata →
      projectAurConstraintMetadata toAurPackageRecord = .ok metadata

/-- The planner view of a record: both identifiers checked and the typed
projection attached. -/
def AurPackageInfo.ofRecord? (package : AurPackageRecord) :
    Option AurPackageInfo :=
  if hname : isValidPackageName package.name = true then
    if hbase : isValidPackageName package.packageBase = true then
      match hprojection : projectAurConstraintMetadata package with
      | .error _ => none
      | .ok metadata =>
        some {
          toAurPackageRecord := package
          constraintMetadata := some metadata
          name_valid := hname
          packageBase_valid := hbase
          constraintMetadata_projected := by
            intro other hother
            injection hother with hother
            rw [hprojection, hother] }
    else none
  else none

/-- The projection keeps both identifiers of its record. -/
theorem projectAurConstraintMetadata_identity
    (h : projectAurConstraintMetadata package = .ok metadata) :
    metadata.packageName = package.name ∧ metadata.packageBase = package.packageBase := by
  unfold projectAurConstraintMetadata at h
  simp only [bind_eq_ok] at h
  obtain ⟨_, -, _, -, _, -, _, -, _, -, _, -, h⟩ := h
  injection h with h
  rw [← h]
  exact ⟨rfl, rfl⟩

/-- The typed dependencies of a projection stand next to the specifications
they were parsed from. -/
theorem projectAurConstraintMetadata_parsed
    (h : projectAurConstraintMetadata package = .ok metadata) :
    ∀ pair ∈ package.depends.zip metadata.depends ++ package.makeDepends.zip metadata.makeDepends ++
        package.checkDepends.zip metadata.checkDepends,
      parseDependencyRequirement pair.1 = .ok pair.2 := by
  unfold projectAurConstraintMetadata at h
  simp only [bind_eq_ok] at h
  obtain ⟨depends, hdepends, makeDepends, hmake, checkDepends, hcheck, _, -, _, -, _, -, h⟩ := h
  injection h with h
  rw [← h]
  intro pair hmem
  rcases List.mem_append.mp hmem with hmem | hmem
  · rcases List.mem_append.mp hmem with hmem | hmem
    · exact projectArray_parsed hdepends pair hmem
    · exact projectArray_parsed hmake pair hmem
  · exact projectArray_parsed hcheck pair hmem

end Moguet.Plan.Metadata
