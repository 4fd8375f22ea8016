import Moguet.Plan.Model

/-!
# Repository provider queries

`query_repository_providers_strict`: what the configured repositories reported
about a dependency name becomes one snapshot, in repository order. A candidate
is built for each capability of the name, one for each provider identity, and
a source that could not be read stays in the snapshot as a failure.
-/

namespace Moguet.Plan.RepositoryQuery

open Verified.ByteString Verified.Checked Constraint Metadata Model

variable {name architecture dependencyName : Bytes} {candidates : List ProvidedDependency}
  {package : RepositoryExactPackage} {snapshot : RepositoryProviderQuerySnapshot}

/-- What one configured repository reported. -/
inductive RepositoryProviderSourceResult
  | observation (packages : List RepositoryExactPackage)
  | failure (failure : RepositoryMetadataFailure)

structure RepositoryProviderObservation where
  configuredRepositoryOrder : List Bytes
  sourceResults : List RepositoryProviderSourceResult

/-- `RepositoryProviderObservationResult`, with an unreadable configuration
among its failures. -/
inductive RepositoryProviderObservationResult
  | observation (observation : RepositoryProviderObservation)
  | failure (failure : RepositoryMetadataFailure)

/-- The check of a package architecture: visible ASCII or beyond. -/
def requireProviderArchitecture (architecture : Bytes) : Except Thrown Unit :=
  if architecture = [] then
    .error ⟨.invalidArgument, ascii "Repository provider architecture is empty."⟩
  else if architecture.any fun b => b ≤ 32 || b = 127 then
    .error ⟨.invalidArgument, ascii "Repository provider architecture is malformed."⟩
  else .ok ()

/-- `ProvidedDependency::from_repository_constraint_metadata`. -/
def fromRepositoryConstraintMetadata (repository : ConfiguredRepositoryIdentity)
    (packageName packageBase packageArchitecture : Bytes)
    (constraintMetadata : ProviderConstraintMetadata) :
    Except Thrown ProvidedDependency :=
  let capability := constraintMetadata.providedCapability
  if constraintMetadata.packageVersion.source ≠ .repositoryExactPackage ∨
      constraintMetadata.providedVersion.source ≠ .repositoryProviderCapability then
    .error ⟨.invalidArgument, ascii
      "Repository provider constraint metadata has incompatible version sources."⟩
  else if capability.version.isSome ∧
      constraintMetadata.providedVersion.version? ≠ capability.version then
    .error ⟨.invalidArgument, ascii
      "Repository provided capability version metadata is inconsistent."⟩
  else if capability.version = none ∧
      constraintMetadata.providedVersion.unknownReason? ≠
        some .unversionedProviderCapability then
    .error ⟨.invalidArgument, ascii
      "Unversioned repository capability has version metadata."⟩
  else do
    requireProviderArchitecture packageArchitecture
    .ok {
      origin := .repository repository.repositoryName (some repository.configuredOrder)
      packageName := packageName
      packageBase := packageBase
      packageArchitecture := some packageArchitecture
      providedDependencyName := capability.packageName
      providedDependencySpecification := capability.rawSpecification
      packageVersion := constraintMetadata.packageVersion.version?
      constraintMetadata := some constraintMetadata }

/-- One capability of a package: a candidate when it is the name asked for. -/
def addRepositoryProviderCandidate (package : RepositoryExactPackage)
    (architecture dependencyName : Bytes) (candidates : List ProvidedDependency)
    (provided : RepositoryProviderCapability) :
    Except Thrown (List ProvidedDependency) :=
  if provided.capability.packageName ≠ dependencyName then .ok candidates
  else do
    let candidate ← fromRepositoryConstraintMetadata package.repository
      package.packageName package.packageBase architecture
      ⟨provided.capability, package.packageVersion, provided.providedVersion⟩
    .ok (addProviderCandidate candidates candidate)

/-- A package enters the snapshot; without an architecture it is a failure of
its repository. -/
def addObservedPackage (dependencyName : Bytes)
    (snapshot : RepositoryProviderQuerySnapshot) (package : RepositoryExactPackage) :
    Except Thrown RepositoryProviderQuerySnapshot :=
  let observed := { snapshot with
    observedPackages := snapshot.observedPackages ++ [package] }
  match package.architecture with
  | none =>
    .ok { observed with
      sourceFailures := observed.sourceFailures ++
        [{ diagnostic := ascii
            "Repository provider package architecture is unavailable." }] }
  | some architecture => do
      let candidates ← package.provides.foldlM
        (addRepositoryProviderCandidate package architecture dependencyName)
        observed.candidates
      .ok { observed with candidates := candidates }

def addSourceResult (dependencyName : Bytes)
    (snapshot : RepositoryProviderQuerySnapshot) :
    RepositoryProviderSourceResult → Except Thrown RepositoryProviderQuerySnapshot
  | .observation packages =>
    packages.foldlM (addObservedPackage dependencyName) snapshot
  | .failure failure =>
    .ok { snapshot with sourceFailures := snapshot.sourceFailures ++ [failure] }

def providerQuerySnapshot (dependencyName : Bytes)
    (observation : RepositoryProviderObservation) :
    Except Thrown RepositoryProviderQuerySnapshot :=
  observation.sourceResults.foldlM (addSourceResult dependencyName)
    { candidates := []
      sourceFailures := []
      configuredRepositoryOrder := some observation.configuredRepositoryOrder }

def requireValidPackageName (name : Bytes) : Except Thrown Unit :=
  if isValidPackageName name then .ok ()
  else .error ⟨.runtimeError, ascii "Invalid package name: " ++ name⟩

/-- `query_repository_providers_strict` over what `observe` reports. -/
def queryProvidersStrict
    (observe : Bytes → Except Thrown RepositoryProviderObservationResult)
    (dependencyName : Bytes) : Except Thrown StrictRepositoryProvidersQueryResult := do
  requireValidPackageName dependencyName
  match ← observe dependencyName with
  | .failure failure => .ok (.failure failure)
  | .observation observation => do
      let snapshot ← providerQuerySnapshot dependencyName observation
      .ok (.snapshot snapshot)

theorem requireValidPackageName_ok (h : requireValidPackageName name = .ok ()) :
    isValidPackageName name = true := by
  unfold requireValidPackageName at h
  split at h
  · assumption
  · cases h

theorem fromRepositoryConstraintMetadata_name {repository : ConfiguredRepositoryIdentity}
    {base : Bytes} {metadata : ProviderConstraintMetadata} {provider : ProvidedDependency}
    (h : fromRepositoryConstraintMetadata repository name base architecture metadata =
      .ok provider) :
    provider.providedDependencyName = metadata.providedCapability.packageName := by
  dsimp only [fromRepositoryConstraintMetadata] at h
  split at h
  · cases h
  · split at h
    · cases h
    · split at h
      · cases h
      · rw [bind_eq_ok] at h
        obtain ⟨_, -, h⟩ := h
        injection h with h
        rw [← h]

/-- Candidates of one dependency name. -/
def CandidatesFor (dependencyName : Bytes) (candidates : List ProvidedDependency) :
    Prop :=
  ∀ candidate ∈ candidates, candidate.providedDependencyName = dependencyName

theorem CandidatesFor.add (h : CandidatesFor dependencyName candidates)
    {candidate : ProvidedDependency} (hname : candidate.providedDependencyName = dependencyName) :
    CandidatesFor dependencyName (addProviderCandidate candidates candidate) := by
  unfold addProviderCandidate
  split
  · exact h
  · intro other hmem
    rcases List.mem_append.mp hmem with hmem | hmem
    · exact h other hmem
    · rw [List.mem_singleton.mp hmem]
      exact hname

theorem addRepositoryProviderCandidate_for {after : List ProvidedDependency}
    {provided : RepositoryProviderCapability} (h : CandidatesFor dependencyName candidates)
    (hadd : addRepositoryProviderCandidate package architecture dependencyName candidates
      provided = .ok after) : CandidatesFor dependencyName after := by
  unfold addRepositoryProviderCandidate at hadd
  split at hadd
  · injection hadd with hadd
    rw [← hadd]
    exact h
  · rename_i hname
    rw [bind_eq_ok] at hadd
    obtain ⟨candidate, hcandidate, hadd⟩ := hadd
    injection hadd with hadd
    rw [← hadd]
    apply h.add
    rw [fromRepositoryConstraintMetadata_name hcandidate]
    exact not_not.mp hname

theorem addObservedPackage_for {after : RepositoryProviderQuerySnapshot}
    (h : CandidatesFor dependencyName snapshot.candidates)
    (hadd : addObservedPackage dependencyName snapshot package = .ok after) :
    CandidatesFor dependencyName after.candidates := by
  unfold addObservedPackage at hadd
  dsimp only at hadd
  split at hadd
  · injection hadd with hadd
    rw [← hadd]
    exact h
  · rw [bind_eq_ok] at hadd
    obtain ⟨candidates, hcandidates, hadd⟩ := hadd
    injection hadd with hadd
    rw [← hadd]
    exact foldlM_inv (fun _ _ _ _ hbefore => addRepositoryProviderCandidate_for hbefore)
      h hcandidates

/-- A snapshot offers candidates of the name that was asked for. -/
theorem providerQuerySnapshot_candidates {observation : RepositoryProviderObservation}
    (h : providerQuerySnapshot dependencyName observation = .ok snapshot) :
    CandidatesFor dependencyName snapshot.candidates := by
  refine foldlM_inv (P := fun snapshot =>
    CandidatesFor dependencyName snapshot.candidates) ?_ ?_ h
  · intro result _ before after hbefore hstep
    cases result with
    | failure failure =>
      injection hstep with hstep
      rw [← hstep]
      exact hbefore
    | observation packages =>
      exact foldlM_inv (P := fun snapshot =>
        CandidatesFor dependencyName snapshot.candidates)
        (fun _ _ _ _ hat => addObservedPackage_for hat) hbefore hstep
  · intro candidate hmem
    cases hmem

theorem queryProvidersStrict_candidates
    {observe : Bytes → Except Thrown RepositoryProviderObservationResult}
    (h : queryProvidersStrict observe dependencyName = .ok (.snapshot snapshot)) :
    CandidatesFor dependencyName snapshot.candidates := by
  unfold queryProvidersStrict at h
  rw [bind_eq_ok] at h
  obtain ⟨_, -, h⟩ := h
  rw [bind_eq_ok] at h
  obtain ⟨result, -, h⟩ := h
  cases result with
  | failure failure => cases h
  | observation observation =>
    rw [bind_eq_ok] at h
    obtain ⟨built, hbuilt, h⟩ := h
    injection h with h
    injection h with h
    rw [← h]
    exact providerQuerySnapshot_candidates hbuilt

end Moguet.Plan.RepositoryQuery
