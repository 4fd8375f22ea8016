import Moguet.Plan.Discovery

/-!
# Dependencies of one package

What the resolver derives from one AUR record: its declared dependencies, in
the spelling they are walked in and with the roles they were declared under;
the observations the relation assessment reads; and the contract a selected
provider is checked against each time its metadata is read again.
-/

namespace Moguet.Plan.Dependency

open Verified.ByteString Verified.Checked Verified.Upsert Constraint Metadata Model Discovery
open Relation.Observation

variable {typed : List TypedPackageDependency}

variable {role : PackageRole} {package : AurPackageInfo} {specification : Bytes}

/-- `add_dependency`: the trimmed specification, once. -/
def addDependency (dependencies : List Bytes) (dependency : Bytes) :
    List Bytes :=
  if trim dependency = [] then dependencies
  else insertNew dependencies (trim dependency)

/-- The specifications of a package in the order they are resolved. -/
def collectBuildDependencies (package : AurPackageInfo) : List Bytes :=
  (package.depends ++ package.makeDepends ++ package.checkDepends).foldl
    addDependency []

def addTypedDependency (dependencies : List TypedPackageDependency)
    (specification : Bytes) (role : PackageRole)
    (requirement : DependencyRequirement) : List TypedPackageDependency :=
  if trim specification = [] then dependencies
  else if dependencies.any fun existing =>
      existing.specification = specification && existing.role = role then
    dependencies
  else dependencies ++ [⟨specification, role, some requirement⟩]

/-- One array of the record next to its typed projection. -/
def addTypedDependencies (role : PackageRole)
    (declared : List (Bytes × DependencyRequirement))
    (dependencies : List TypedPackageDependency) :
    List TypedPackageDependency :=
  declared.foldl
    (fun dependencies item =>
      addTypedDependency dependencies item.1 role item.2)
    dependencies

def typedProjectionInconsistent (packageName : Bytes) : Thrown :=
  ⟨.logicError, ascii
    "AUR package metadata constraint projection is inconsistent: " ++ packageName⟩

/-- The projection of a record: the attached one, or a new one for a record
that carries none. -/
def typedConstraintMetadata (package : AurPackageInfo) :
    Except Thrown AurPackageConstraintMetadata :=
  match package.constraintMetadata with
  | some metadata => .ok metadata
  | none =>
    match projectAurConstraintMetadata package.toAurPackageRecord with
    | .ok metadata => .ok metadata
    | .error _ =>
      .error ⟨.logicError, ascii
        "AUR package metadata constraint projection failed: " ++
          package.name⟩

def collectTypedBuildDependencies (package : AurPackageInfo) :
    Except Thrown (List TypedPackageDependency) := do
  let metadata ← typedConstraintMetadata package
  if package.depends.length ≠ metadata.depends.length ∨
      package.makeDepends.length ≠ metadata.makeDepends.length ∨
      package.checkDepends.length ≠ metadata.checkDepends.length then
    .error (typedProjectionInconsistent package.name)
  else
    let runtime := addTypedDependencies .runtimeDependency
      (package.depends.zip metadata.depends) []
    let build := addTypedDependencies .buildDependency
      (package.makeDepends.zip metadata.makeDepends) runtime
    .ok (addTypedDependencies .checkDependency
      (package.checkDepends.zip metadata.checkDepends) build)

theorem mem_addTypedDependencies {typed : TypedPackageDependency} :
    ∀ {declared : List (Bytes × DependencyRequirement)}
      {dependencies : List TypedPackageDependency},
      typed ∈ addTypedDependencies role declared dependencies → typed ∈ dependencies ∨
          ∃ item ∈ declared, typed = ⟨item.1, role, some item.2⟩ := by
  intro declared
  induction declared with
  | nil => exact fun h => Or.inl h
  | cons item rest ih =>
    intro dependencies h
    have hadded := @ih (addTypedDependency dependencies item.1 role item.2) h
    rcases hadded with hadded | ⟨other, hother, htyped⟩
    · unfold addTypedDependency at hadded
      split at hadded
      · exact Or.inl hadded
      · split at hadded
        · exact Or.inl hadded
        · rcases List.mem_append.mp hadded with hadded | hadded
          · exact Or.inl hadded
          · exact Or.inr ⟨item, List.mem_cons_self, by simpa using hadded⟩
    · exact Or.inr ⟨other, List.mem_cons_of_mem _ hother, htyped⟩

/-- Nothing is taken back from the typed dependencies. -/
theorem subset_addTypedDependencies : ∀ (declared : List (Bytes × DependencyRequirement))
      (dependencies : List TypedPackageDependency),
      dependencies ⊆ addTypedDependencies role declared dependencies := by
  intro declared
  induction declared with
  | nil => exact fun dependencies => List.Subset.refl _
  | cons item rest ih =>
    intro dependencies
    refine List.Subset.trans ?_ (ih (addTypedDependency dependencies item.1 role item.2))
    unfold addTypedDependency
    split
    · exact List.Subset.refl _
    · split
      · exact List.Subset.refl _
      · exact List.subset_append_left _ _

/-- A visible specification has a typed dependency of its own spelling. -/
theorem addTypedDependencies_covers {role : PackageRole} :
    ∀ (declared : List (Bytes × DependencyRequirement))
      (dependencies : List TypedPackageDependency), ∀ item ∈ declared,
      trim item.1 ≠ [] → ∃ typed ∈ addTypedDependencies role declared dependencies,
          typed.specification = item.1 ∧ typed.role = role := by
  intro declared
  induction declared with
  | nil => exact fun dependencies item hitem => by cases hitem
  | cons own rest ih =>
    intro dependencies item hitem hvisible
    rcases List.mem_cons.mp hitem with rfl | hitem
    · have hadded : ∃ typed ∈ addTypedDependency dependencies item.1 role item.2,
          typed.specification = item.1 ∧ typed.role = role := by
        unfold addTypedDependency
        rw [if_neg hvisible]
        split
        · rename_i hknown
          obtain ⟨typed, hmem, hsame⟩ := List.any_eq_true.mp hknown
          exact ⟨typed, hmem, by simpa using hsame⟩
        · exact ⟨_, List.mem_append.mpr (Or.inr (List.mem_singleton.mpr rfl)), rfl, rfl⟩
      obtain ⟨typed, hmem, hsame⟩ := hadded
      exact ⟨typed, subset_addTypedDependencies rest _ hmem, hsame⟩
    · exact ih _ item hitem hvisible

/-- The specifications a record declares, each in its role. -/
def declaredDependencies (package : AurPackageRecord) : List (Bytes × PackageRole) :=
  package.depends.map (·, .runtimeDependency) ++
    package.makeDepends.map (·, .buildDependency) ++
    package.checkDepends.map (·, .checkDependency)

/-- The typed dependencies of a package next to the arrays they come from. -/
theorem collectTypedBuildDependencies_ok (h : collectTypedBuildDependencies package = .ok typed) :
    ∃ metadata, projectAurConstraintMetadata package.toAurPackageRecord = .ok metadata ∧
      package.depends.length = metadata.depends.length ∧
      package.makeDepends.length = metadata.makeDepends.length ∧
      package.checkDepends.length = metadata.checkDepends.length ∧
      typed = addTypedDependencies .checkDependency (package.checkDepends.zip metadata.checkDepends)
        (addTypedDependencies .buildDependency (package.makeDepends.zip metadata.makeDepends)
          (addTypedDependencies .runtimeDependency (package.depends.zip metadata.depends) [])) := by
  unfold collectTypedBuildDependencies at h
  rw [bind_eq_ok] at h
  obtain ⟨metadata, hmetadata, h⟩ := h
  have hprojected : projectAurConstraintMetadata package.toAurPackageRecord = .ok metadata := by
    unfold typedConstraintMetadata at hmetadata
    split at hmetadata
    · rename_i attached hattached
      injection hmetadata with hmetadata
      rw [← hmetadata]
      exact package.constraintMetadata_projected attached hattached
    · split at hmetadata
      · rename_i projected hprojected
        injection hmetadata with hmetadata
        rw [← hmetadata]
        exact hprojected
      · cases hmetadata
  split at h
  · cases h
  · rename_i hlengths
    injection h with h
    push Not at hlengths
    exact ⟨metadata, hprojected, hlengths.1, hlengths.2.1, hlengths.2.2, h.symm⟩

/-- A typed dependency is an entry of one of the arrays, with its parse. -/
theorem collectTypedBuildDependencies_source (h : collectTypedBuildDependencies package = .ok typed)
    :
    ∀ declaration ∈ typed, ∃ requirement, declaration.requirement = some requirement ∧
        parseDependencyRequirement declaration.specification = .ok requirement ∧
        (declaration.specification, declaration.role) ∈
          declaredDependencies package.toAurPackageRecord := by
  obtain ⟨metadata, hprojected, -, -, -, rfl⟩ := collectTypedBuildDependencies_ok h
  have hparsed := projectAurConstraintMetadata_parsed hprojected
  intro declaration hmem
  unfold declaredDependencies
  rcases mem_addTypedDependencies hmem with hmem | ⟨item, hitem, rfl⟩
  · rcases mem_addTypedDependencies hmem with hmem | ⟨item, hitem, rfl⟩
    · rcases mem_addTypedDependencies hmem with hmem | ⟨item, hitem, rfl⟩
      · cases hmem
      · have hdeclared := (List.of_mem_zip hitem).1
        exact ⟨item.2, rfl, hparsed item (by simp [hitem]), by simp [hdeclared]⟩
    · have hdeclared := (List.of_mem_zip hitem).1
      exact ⟨item.2, rfl, hparsed item (by simp [hitem]), by simp [hdeclared]⟩
  · have hdeclared := (List.of_mem_zip hitem).1
    exact ⟨item.2, rfl, hparsed item (by simp [hitem]), by simp [hdeclared]⟩

/-- Every typed dependency of a package carries the parse of its own
specification. -/
theorem collectTypedBuildDependencies_parsed (h : collectTypedBuildDependencies package = .ok typed)
    :
    ∀ declaration ∈ typed, ∃ requirement, declaration.requirement = some requirement ∧
        parseDependencyRequirement declaration.specification = .ok requirement := by
  intro declaration hmem
  obtain ⟨requirement, hrequirement, hparsed, -⟩ :=
    collectTypedBuildDependencies_source h declaration hmem
  exact ⟨requirement, hrequirement, hparsed⟩

/-- Only a visible text is a specification. -/
theorem visible_of_parseDependencyRequirement {requirement : DependencyRequirement}
    (h : parseDependencyRequirement specification = .ok requirement) : trim specification ≠ [] := by
  intro hblank
  unfold parseDependencyRequirement at h
  dsimp only at h
  rw [if_pos hblank] at h
  cases h

/-- An entry of an array stands next to its parse. -/
theorem exists_mem_zip {α β : Type} :
    ∀ {values : List α} {others : List β}, values.length = others.length →
      ∀ value ∈ values, ∃ other, (value, other) ∈ values.zip others := by
  intro values others hlength value hmem
  obtain ⟨index, hindex, rfl⟩ := List.mem_iff_getElem.mp hmem
  have hother : index < others.length := by omega
  refine ⟨others[index], ?_⟩
  rw [List.mem_iff_getElem]
  exact ⟨index, by rw [List.length_zip]; omega, List.getElem_zip⟩

/-- Every declared dependency has its typed one. -/
theorem collectTypedBuildDependencies_covers (h : collectTypedBuildDependencies package = .ok typed)
    :
    ∀ declared ∈ declaredDependencies package.toAurPackageRecord,
      ∃ declaration ∈ typed, declaration.specification = declared.1 ∧
        declaration.role = declared.2 := by
  obtain ⟨metadata, hprojected, hdepends, hmake, hcheck, rfl⟩ :=
    collectTypedBuildDependencies_ok h
  have hparsed := projectAurConstraintMetadata_parsed hprojected
  have hvisible : ∀ pair, pair ∈ package.depends.zip metadata.depends ++
      package.makeDepends.zip metadata.makeDepends ++
      package.checkDepends.zip metadata.checkDepends → trim pair.1 ≠ [] :=
    fun pair hpair => visible_of_parseDependencyRequirement (hparsed pair hpair)
  intro declared hdeclared
  unfold declaredDependencies at hdeclared
  rcases List.mem_append.mp hdeclared with hdeclared | hdeclared
  · rcases List.mem_append.mp hdeclared with hdeclared | hdeclared
    · obtain ⟨specification, hmem, rfl⟩ := List.mem_map.mp hdeclared
      obtain ⟨requirement, hzip⟩ := exists_mem_zip hdepends specification hmem
      obtain ⟨declaration, hadded, hsame⟩ := addTypedDependencies_covers _ []
        (specification, requirement) hzip (hvisible _ (by simp [hzip]))
      exact ⟨declaration, subset_addTypedDependencies _ _
        (subset_addTypedDependencies _ _ hadded), hsame⟩
    · obtain ⟨specification, hmem, rfl⟩ := List.mem_map.mp hdeclared
      obtain ⟨requirement, hzip⟩ := exists_mem_zip hmake specification hmem
      obtain ⟨declaration, hadded, hsame⟩ := addTypedDependencies_covers _ _
        (specification, requirement) hzip (hvisible _ (by simp [hzip]))
      exact ⟨declaration, subset_addTypedDependencies _ _ hadded, hsame⟩
  · obtain ⟨specification, hmem, rfl⟩ := List.mem_map.mp hdeclared
    obtain ⟨requirement, hzip⟩ := exists_mem_zip hcheck specification hmem
    exact addTypedDependencies_covers _ _ (specification, requirement) hzip
      (hvisible _ (by simp [hzip]))

/-- A visible specification of an array is walked. -/
theorem mem_foldl_addDependency (hvisible : trim specification ≠ []) :
    ∀ {added dependencies : List Bytes}, specification ∈ added ∨ trim specification ∈ dependencies →
        trim specification ∈ added.foldl addDependency dependencies := by
  intro added
  induction added with
  | nil =>
    intro dependencies h
    rcases h with h | h
    · cases h
    · exact h
  | cons own rest ih =>
    intro dependencies h
    refine ih ?_
    unfold addDependency
    rcases h with h | h
    · rcases List.mem_cons.mp h with rfl | h
      · rw [if_neg hvisible]
        exact Or.inr (mem_insertNew.mpr (Or.inr rfl))
      · exact Or.inl h
    · refine Or.inr ?_
      split
      · exact h
      · exact mem_insertNew.mpr (Or.inl h)

/-- The declarations of a package are spellings of the specifications that
are walked. -/
theorem collectTypedBuildDependencies_walked (h : collectTypedBuildDependencies package = .ok typed)
    :
    ∀ declaration ∈ typed, trim declaration.specification ∈ collectBuildDependencies package := by
  intro declaration hmem
  obtain ⟨requirement, -, hparsed, hdeclared⟩ :=
    collectTypedBuildDependencies_source h declaration hmem
  refine mem_foldl_addDependency (visible_of_parseDependencyRequirement hparsed) (Or.inl ?_)
  unfold declaredDependencies at hdeclared
  simp only [List.mem_append, List.mem_map, Prod.mk.injEq] at hdeclared ⊢
  rcases hdeclared with (⟨own, hown, rfl, -⟩ | ⟨own, hown, rfl, -⟩) | ⟨own, hown, rfl, -⟩
  · exact Or.inl (Or.inl hown)
  · exact Or.inl (Or.inr hown)
  · exact Or.inr hown

/-- The specifications that are walked are trimmed and visible. -/
theorem collectBuildDependencies_trimmed {package : AurPackageInfo} :
    ∀ dependency ∈ collectBuildDependencies package,
      dependency ≠ [] ∧ trim dependency = dependency := by
  have hstep : ∀ (added dependencies : List Bytes),
      (∀ dependency ∈ dependencies, dependency ≠ [] ∧ trim dependency = dependency) →
      ∀ dependency ∈ added.foldl addDependency dependencies,
        dependency ≠ [] ∧ trim dependency = dependency := by
    intro added
    induction added with
    | nil => exact fun dependencies h => h
    | cons specification rest ih =>
      intro dependencies h
      refine ih _ ?_
      intro dependency hmem
      unfold addDependency at hmem
      split at hmem
      · exact h dependency hmem
      · rename_i hvisible
        rcases mem_insertNew.mp hmem with hmem | rfl
        · exact h dependency hmem
        · exact ⟨hvisible, trim_trim specification⟩
  exact hstep _ [] (by simp)

def typedDependenciesForSpecification
    (dependencies : List TypedPackageDependency) (specification : Bytes) :
    List TypedPackageDependency :=
  dependencies.filter fun dependency =>
    trim dependency.specification = specification

def packageRolesForDependencies (dependencies : List TypedPackageDependency) :
    List PackageRole :=
  dependencies.foldl (fun roles dependency => addPackageRole roles dependency.role) []

theorem mem_packageRolesForDependencies {dependencies : List TypedPackageDependency} :
    role ∈ packageRolesForDependencies dependencies ↔
      ∃ dependency ∈ dependencies, dependency.role = role := by
  have hfold : packageRolesForDependencies dependencies =
      (dependencies.map (·.role)).foldl addPackageRole [] := by
    unfold packageRolesForDependencies
    rw [List.foldl_map]
  rw [hfold, mem_foldl_addPackageRole]
  simp

/-- No dependency is declared in the role of a root. -/
theorem declaredDependencies_role_ne {package : AurPackageRecord} :
    ∀ declared ∈ declaredDependencies package, declared.2 ≠ .root := by
  intro declared hmem
  unfold declaredDependencies at hmem
  simp only [List.mem_append, List.mem_map] at hmem
  rcases hmem with (⟨own, -, rfl⟩ | ⟨own, -, rfl⟩) | ⟨own, -, rfl⟩ <;>
    exact PackageRole.noConfusion

def projectAurRelationObservation (metadata : AurPackageConstraintMetadata)
    (roots : List PackageRelationRootAttribution) :
    PlannedPackageRelationObservation where
  package := {
    packageName := metadata.packageName
    packageBase := some metadata.packageBase
    packageVersion := metadata.packageVersion
    provides := metadata.provides.map fun provided =>
      ⟨provided.capability, provided.providedVersion⟩
    source := .aurSource metadata.packageName metadata.packageBase
    role := .plannedTarget
    roots := roots }
  declarations := metadata.relations

def projectRepositoryRelationObservation (package : RepositoryExactPackage)
    (role : PackageRelationObservationRole)
    (roots : List PackageRelationRootAttribution) :
    PackageRelationObservedPackage where
  packageName := package.packageName
  packageBase := some package.packageBase
  packageVersion := package.packageVersion
  provides := package.provides.map fun provided =>
    ⟨provided.capability, provided.providedVersion⟩
  source := .configuredRepository package.repository
  role := role
  roots := roots

def projectRepositoryPlannedRelationObservation
    (package : RepositoryExactPackage)
    (roots : List PackageRelationRootAttribution) :
    PlannedPackageRelationObservation where
  package := projectRepositoryRelationObservation package .plannedTarget roots
  declarations := []

def selectedAurProviderRevalidationFailureDiagnostic
    (provider : ProvidedDependency) : Bytes :=
  ascii "AUR provider candidate changed during dependency resolution: " ++
    provider.packageName

/-- The record still bears the selected identity, and its first capability
of the provided name is the selected one. -/
def matchesSelectedAurProviderContract (info : AurPackageInfo)
    (selected : ProvidedDependency) : Bool :=
  if selected.origin ≠ .aur ∨ info.name ≠ selected.packageName ∨
      info.packageBase ≠ selected.packageBase then false
  else
    match info.constraintMetadata, selected.constraintMetadata with
    | some metadata, some contract =>
      match findProvidedCapability metadata selected.providedDependencyName with
      | none => false
      | some provided =>
        selected.providedDependencySpecification =
            provided.capability.rawSpecification &&
          contract.providedCapability = provided.capability &&
          contract.providedVersion = provided.providedVersion
    | _, _ => false

structure AurProviderDependencyProjection where
  requirement : ConsumerDependencyRequirement
  provider : ProvidedDependency
  evaluation : ConstraintEvaluation

/-- `AurProviderCandidateMetadata` as the resolver passes it: what was read,
or that nothing could be. -/
inductive AurProviderCandidateMetadata
  | metadata (metadata : AurPackageConstraintMetadata)
  | unavailable (packageName : Bytes) (packageBase : Option Bytes)
      (reason : ObservedVersionUnknownReason)

inductive AurProviderProjectionFailureKind
  | invalidCandidateMetadata
  | matchingCapabilityMissing
  | providerIdentityChanged
  deriving DecidableEq

/-- `AurProviderDependencyProjectionResult`. -/
inductive AurProviderDependencyProjectionResult
  | projection (projection : AurProviderDependencyProjection)
  | unknown (reason : ObservedVersionUnknownReason)
  | failure (kind : AurProviderProjectionFailureKind)

def projectAvailableAurProvider (env : MetadataEnvironment)
    (requirement : ConsumerDependencyRequirement)
    (metadata : AurPackageConstraintMetadata) :
    Except Thrown AurProviderDependencyProjectionResult :=
  match findProvidedCapability metadata requirement.packageName with
  | none => .ok (.failure .matchingCapabilityMissing)
  | some provided => do
      let provider ← ProvidedDependency.fromAurConstraintMetadata
        metadata.packageName metadata.packageBase
        ⟨provided.capability, metadata.packageVersion, provided.providedVersion⟩
      .ok (.projection ⟨requirement, provider,
        evaluateConsumerDependencyRequirement env.vercmp requirement
          provided.providedVersion⟩)

/-- Two readings of one provider agree on everything a selection was made
by: its identity and the capability with its version. -/
def sameProviderContract (selected current : ProvidedDependency) : Bool :=
  selected.providedDependencyName = current.providedDependencyName &&
    selected.providedDependencySpecification =
      current.providedDependencySpecification &&
    match selected.constraintMetadata, current.constraintMetadata with
    | some lhs, some rhs =>
      lhs.providedCapability = rhs.providedCapability &&
        lhs.providedVersion = rhs.providedVersion
    | _, _ => false

/-- `refresh_aur_provider_dependency`: the projection is run again on the
current capabilities, and a changed identity or contract is a failure. -/
def refreshAurProviderDependency (env : MetadataEnvironment)
    (selected : AurProviderDependencyProjection)
    (current : AurProviderCandidateMetadata) :
    Except Thrown AurProviderDependencyProjectionResult :=
  if selected.provider.origin ≠ .aur then
    .ok (.failure .providerIdentityChanged)
  else
    match current with
    | .unavailable packageName packageBase reason =>
      if (packageName ≠ [] ∧ selected.provider.packageName ≠ packageName) ∨
          (packageBase.isSome ∧
            some selected.provider.packageBase ≠ packageBase) then
        .ok (.failure .providerIdentityChanged)
      else .ok (.unknown reason)
    | .metadata metadata =>
      if selected.provider.packageName ≠ metadata.packageName ∨
          selected.provider.packageBase ≠ metadata.packageBase then
        .ok (.failure .providerIdentityChanged)
      else do
        match ← projectAvailableAurProvider env selected.requirement metadata with
        | .projection projection =>
          if sameProviderContract selected.provider projection.provider then
            .ok (.projection projection)
          else .ok (.failure .providerIdentityChanged)
        | result => .ok result

end Moguet.Plan.Dependency
