import Moguet.Verified.ByteString
import Moguet.Verified.Grouping
import Moguet.Verified.Upsert

/-!
# The plan of an upgrade of everything

`upgrade-all` updates the packages the user builds from explicit sources and
the packages of the AUR in one run. Before anything runs, a pure plan decides
who owns what: a package that an explicit source produces is never built from
the AUR as well. The first phase judges the targets, the second the build units
they expand to; both read one index of the explicit sources by package name and
by package base.
-/

namespace Moguet.Upgrade.Plan

open Verified.ByteString Verified.Grouping Verified.Upsert

/-! ## Input -/

/-- `UpgradeAllPackageBaseIdentity` and `UpgradeAllSourceIdentity`: an absent
value is not a failed resolution. -/
inductive ObservedIdentity
  | absent
  | resolved (value : Bytes)
  | resolutionFailed (diagnostic : Bytes)

structure ExplicitSourceIdentity where
  preferencePackageName : Bytes
  packageBase : ObservedIdentity
  producedPackageNames : List Bytes
  sourceIdentity : ObservedIdentity

inductive AurTargetStatus
  | candidate
  | unsupported
  | incomplete
  deriving DecidableEq

structure AurTarget where
  packageName : Bytes
  packageBase : ObservedIdentity
  status : AurTargetStatus := .candidate
  statusDetail : Bytes := []

inductive BuildUnitRole
  | root
  | runtimeDependency
  | buildDependency
  | checkDependency
  deriving DecidableEq

structure BuildUnitRootAttribution where
  originalTargetIndex : Nat := 0
  role : BuildUnitRole := .root

structure AurBuildUnit where
  packageBase : ObservedIdentity
  packageNames : List Bytes
  rootAttributions : List BuildUnitRootAttribution

structure PlanInput where
  explicitSources : List ExplicitSourceIdentity
  aurTargets : List AurTarget
  buildUnits : List AurBuildUnit

/-! ## Output -/

inductive TargetDisposition
  | selected
  | excludedByExplicitPackageName
  | excludedByExplicitPackageBase
  | unsupported
  | identityIncomplete
  | conflictingExplicitSourceIdentity
  | conflictingSelectedPackageBase
  deriving DecidableEq

inductive BuildUnitDisposition
  | selectedForAurExecution
  | externallySatisfiedByExplicitSourcePackageBase
  | notRequiredBySelectedTarget
  | identityIncomplete
  | conflictingExplicitSourceIdentity
  | conflictingSelectedPackageBase
  deriving DecidableEq

inductive PlanningIssueKind
  | explicitPreferencePackageNameMissing
  | explicitProducedPackageNameMissing
  | explicitPackageBaseAbsent
  | explicitPackageBaseResolutionFailed
  | explicitPackageBaseEmpty
  | explicitSourceIdentityAbsent
  | explicitSourceIdentityResolutionFailed
  | explicitSourceIdentityEmpty
  | conflictingExplicitSourceIdentityDefinition
  | conflictingExplicitPackageName
  | conflictingExplicitPackageBase
  | aurTargetPackageNameMissing
  | aurTargetPackageBaseAbsent
  | aurTargetPackageBaseResolutionFailed
  | aurTargetPackageBaseEmpty
  | unsupportedAurTarget
  | incompleteAurTarget
  | buildUnitPackageBaseAbsent
  | buildUnitPackageBaseResolutionFailed
  | buildUnitPackageBaseEmpty
  | buildUnitHasNoRootAttribution
  | buildUnitTargetIndexOutOfRange
  | duplicateSelectedTargetPackageBase
  | duplicateSelectedBuildUnitPackageBase
  deriving DecidableEq

structure PlanningIssue where
  kind : PlanningIssueKind
  explicitSourceIndexes : List Nat := []
  originalTargetIndexes : List Nat := []
  buildUnitIndexes : List Nat := []
  packageName : Option Bytes := none
  packageBase : Option Bytes := none

structure ExplicitSourceAttribution where
  explicitSourceIndexes : List Nat
  sourceIdentityKeys : List Bytes
  matchedPackageName : Option Bytes
  matchedPackageBase : Option Bytes

structure TargetPlanEntry where
  originalTargetIndex : Nat
  target : AurTarget
  disposition : TargetDisposition := .identityIncomplete
  selectedIndex : Option Nat := none
  explicitSource : Option ExplicitSourceAttribution := none

structure SelectedAurTarget where
  selectedIndex : Nat
  originalTargetIndex : Nat
  packageName : Bytes
  packageBase : Bytes

structure BuildUnitPlanEntry where
  originalBuildPlanIndex : Nat
  buildUnit : AurBuildUnit
  disposition : BuildUnitDisposition := .identityIncomplete
  selectedExecutionIndex : Option Nat := none
  explicitSource : Option ExplicitSourceAttribution := none

structure SelectedBuildUnit where
  selectedExecutionIndex : Nat
  originalBuildPlanIndex : Nat
  packageBase : Bytes

structure UpgradeAllPlan where
  explicitSources : List ExplicitSourceIdentity := []
  targetDispositions : List TargetPlanEntry := []
  selectedTargets : List SelectedAurTarget := []
  originalToSelectedIndex : List (Option Nat) := []
  excludedDuplicateTargetIndexes : List Nat := []
  buildUnitDispositions : List BuildUnitPlanEntry := []
  selectedBuildUnits : List SelectedBuildUnit := []
  externallySatisfiedBuildUnitIndexes : List Nat := []
  externallySatisfiedPackageBases : List Bytes := []
  issues : List PlanningIssue := []

/-- The `std::logic_error`s of the planner. -/
inductive PlanLogicError
  | selectedTargetLostPackageBase
  | targetPlanContainsBuildUnits
  | targetIndexMappingSize
  | originalTargetOrder
  | selectedTargetMapping
  | nonSelectedTargetHasIndex
  | selectedTargetList
  | selectedBuildUnitHasNoPackageBase
  | selectedBuildUnitLostPackageBase
  deriving DecidableEq

/-! ## Identities -/

/-- `PackageBaseView` and `SourceIdentityView`: only a resolved identity has a
value, and the value is not empty. -/
inductive IdentityView
  | resolved (value : Bytes)
  | absent
  | resolutionFailed
  | emptyResolvedValue
  deriving DecidableEq

/-- `inspect_package_base`, `inspect_source_identity`. -/
def inspectIdentity : ObservedIdentity → IdentityView
  | .resolved value => if value = [] then .emptyResolvedValue else .resolved value
  | .absent => .absent
  | .resolutionFailed _ => .resolutionFailed

def IdentityView.value : IdentityView → Option Bytes
  | .resolved value => some value
  | _ => none

/-- The issue of an identity that has no value; each caller has its own kinds. -/
def identityIssues (absent failed empty : PlanningIssueKind)
    (report : PlanningIssueKind → PlanningIssue) : IdentityView → List PlanningIssue
  | .resolved _ => []
  | .absent => [report absent]
  | .resolutionFailed => [report failed]
  | .emptyResolvedValue => [report empty]

/-- `add_explicit_package_base_issue`. -/
def explicitPackageBaseIssues (sourceIndex : Nat) : IdentityView → List PlanningIssue :=
  identityIssues .explicitPackageBaseAbsent .explicitPackageBaseResolutionFailed
    .explicitPackageBaseEmpty fun kind => { kind := kind, explicitSourceIndexes := [sourceIndex] }

/-- `add_explicit_source_identity_issue`. -/
def explicitSourceIdentityIssues (sourceIndex : Nat) : IdentityView → List PlanningIssue :=
  identityIssues .explicitSourceIdentityAbsent .explicitSourceIdentityResolutionFailed
    .explicitSourceIdentityEmpty
    fun kind => { kind := kind, explicitSourceIndexes := [sourceIndex] }

/-- `inspect_target_package_base`. -/
def targetPackageBaseIssues (targetIndex : Nat) : IdentityView → List PlanningIssue :=
  identityIssues .aurTargetPackageBaseAbsent .aurTargetPackageBaseResolutionFailed
    .aurTargetPackageBaseEmpty fun kind => { kind := kind, originalTargetIndexes := [targetIndex] }

/-- `inspect_build_unit_package_base`. -/
def buildUnitPackageBaseIssues (buildUnitIndex : Nat) : IdentityView → List PlanningIssue :=
  identityIssues .buildUnitPackageBaseAbsent .buildUnitPackageBaseResolutionFailed
    .buildUnitPackageBaseEmpty fun kind => { kind := kind, buildUnitIndexes := [buildUnitIndex] }

/-! ## The index of the explicit sources -/

/-- Sources with one key are one owner. -/
structure NormalizedExplicitIdentity where
  key : Option Bytes := none
  explicitSourceIndexes : List Nat := []
  packageNames : List Bytes := []
  claimedPackageBases : List Bytes := []
  packageBaseSignature : IdentityView
  definitionConflict : Bool := false
  identityIncomplete : Bool := false

/-- The names a source gives; an empty one is missing. -/
def explicitPackageNames (source : ExplicitSourceIdentity) : List Bytes :=
  (source.preferencePackageName :: source.producedPackageNames).filter (· ≠ [])

/-- What a source adds to its owner. -/
def claimSource (sourceIndex : Nat) (source : ExplicitSourceIdentity)
    (identity : NormalizedExplicitIdentity) : NormalizedExplicitIdentity :=
  let packageBase := inspectIdentity source.packageBase
  { identity with
    explicitSourceIndexes := identity.explicitSourceIndexes ++ [sourceIndex]
    packageNames := (explicitPackageNames source).foldl insertNew identity.packageNames
    claimedPackageBases :=
      packageBase.value.toList.foldl insertNew identity.claimedPackageBases
    definitionConflict :=
      identity.definitionConflict || identity.packageBaseSignature ≠ packageBase }

/-- One source: it joins the owner with its key; without a key it is an owner of
its own, and incomplete. -/
def addExplicitSource (identities : List NormalizedExplicitIdentity)
    (entry : ExplicitSourceIdentity × Nat) : List NormalizedExplicitIdentity :=
  let packageBase := inspectIdentity entry.1.packageBase
  match inspectIdentity entry.1.sourceIdentity with
  | .resolved key =>
    upsert (fun identity => identity.key = some key) (claimSource entry.2 entry.1)
      (claimSource entry.2 entry.1 { key := some key, packageBaseSignature := packageBase })
      identities
  | _ =>
    identities ++ [claimSource entry.2 entry.1
      { packageBaseSignature := packageBase, identityIncomplete := true }]

def normalizedIdentities (sources : List ExplicitSourceIdentity) :
    List NormalizedExplicitIdentity :=
  sources.zipIdx.foldl addExplicitSource []

/-- The order of `std::map<std::string, ...>`. -/
def keyLe (lhs rhs : Bytes) : Bool := lhs ≤ rhs

/-- The positions of owners are within the list by their type. -/
structure ExplicitIdentityIndex where
  identities : List NormalizedExplicitIdentity
  byPackageName : List (Bytes × List (Fin identities.length))
  byPackageBase : List (Bytes × List (Fin identities.length))

abbrev ExplicitIdentityIndex.Position (index : ExplicitIdentityIndex) : Type :=
  Fin index.identities.length

/-- The owners under each of the texts they list. -/
def indexBy (identities : List NormalizedExplicitIdentity)
    (texts : NormalizedExplicitIdentity → List Bytes) :
    List (Bytes × List (Fin identities.length)) :=
  group keyLe ((List.finRange identities.length).flatMap fun position =>
    (texts (identities.get position)).map fun text => (text, position))

def buildExplicitIdentityIndex (sources : List ExplicitSourceIdentity) :
    ExplicitIdentityIndex where
  identities := normalizedIdentities sources
  byPackageName := indexBy (normalizedIdentities sources) (·.packageNames)
  byPackageBase := indexBy (normalizedIdentities sources) (·.claimedPackageBases)

section

variable (index : ExplicitIdentityIndex)

def collectExplicitSourceIndexes (positions : List index.Position) : List Nat :=
  ((positions.flatMap fun position =>
    (index.identities.get position).explicitSourceIndexes).foldl insertNew []).mergeSort
      fun lhs rhs => lhs ≤ rhs

def makeAttribution (positions : List index.Position)
    (matchedPackageName matchedPackageBase : Option Bytes) : ExplicitSourceAttribution where
  explicitSourceIndexes := collectExplicitSourceIndexes index positions
  sourceIdentityKeys :=
    (positions.filterMap fun position => (index.identities.get position).key).foldl insertNew []
  matchedPackageName := matchedPackageName
  matchedPackageBase := matchedPackageBase

def isConflictingMatch : List index.Position → Bool
  | [position] =>
    (index.identities.get position).definitionConflict ||
      (index.identities.get position).identityIncomplete
  | _ => true

inductive ExplicitMatchStatus
  | none
  | unique
  | conflicting
  deriving DecidableEq

structure ExplicitMatch where
  status : ExplicitMatchStatus := .none
  identityIndexes : List index.Position := []

def matchStatus (positions : List index.Position) : ExplicitMatchStatus :=
  if isConflictingMatch index positions then .conflicting else .unique

def findExplicitMatch (groups : List (Bytes × List index.Position)) (value : Bytes) :
    ExplicitMatch index :=
  match findGroup groups value with
  | none => {}
  | some positions => ⟨matchStatus index positions, positions⟩

structure ExplicitPackageNameMatches where
  status : ExplicitMatchStatus := .none
  identityIndexes : List index.Position := []
  packageNames : List Bytes := []

/-- One name of a build unit. -/
def addPackageNameMatch (found : List index.Position × List Bytes) (packageName : Bytes) :
    List index.Position × List Bytes :=
  if packageName = [] then found
  else
    match findGroup index.byPackageName packageName with
    | none => found
    | some positions =>
      (positions.foldl insertNew found.1, insertNew found.2 packageName)

def findExplicitPackageNameMatches (packageNames : List Bytes) :
    ExplicitPackageNameMatches index :=
  let found := packageNames.foldl (addPackageNameMatch index) ([], [])
  if found.1 = [] then ⟨.none, found.1, found.2⟩
  else
    let positions := found.1.mergeSort fun lhs rhs => lhs ≤ rhs
    ⟨matchStatus index positions, positions, found.2⟩

def combineIdentityIndexes (lhs rhs : List index.Position) : List index.Position :=
  (rhs.foldl insertNew lhs).mergeSort fun lhs rhs => lhs ≤ rhs

/-- `add_build_unit_package_name_conflict_issues`. -/
def buildUnitPackageNameConflictIssues (kind : PlanningIssueKind)
    (matched : ExplicitPackageNameMatches index) (conflicting : List index.Position)
    (affectedTargetIndexes : List Nat) (buildUnitIndex : Nat) (packageBase : Option Bytes) :
    List PlanningIssue :=
  matched.packageNames.map fun packageName =>
    { kind := kind
      explicitSourceIndexes := collectExplicitSourceIndexes index conflicting
      originalTargetIndexes := affectedTargetIndexes
      buildUnitIndexes := [buildUnitIndex]
      packageName := some packageName
      packageBase := packageBase }

end

/-- The issues of one source. -/
def explicitSourceIssues (entry : ExplicitSourceIdentity × Nat) : List PlanningIssue :=
  let source := entry.1
  (if source.preferencePackageName = [] then
    [{ kind := .explicitPreferencePackageNameMissing, explicitSourceIndexes := [entry.2] }]
  else []) ++
  ((source.producedPackageNames.filter (· = [])).map fun _ =>
    { kind := .explicitProducedPackageNameMissing, explicitSourceIndexes := [entry.2] }) ++
  explicitPackageBaseIssues entry.2 (inspectIdentity source.packageBase) ++
  explicitSourceIdentityIssues entry.2 (inspectIdentity source.sourceIdentity)

/-- The issues `build_explicit_identity_index` adds for a plan. -/
def explicitIdentityIssues (sources : List ExplicitSourceIdentity)
    (index : ExplicitIdentityIndex) : List PlanningIssue :=
  sources.zipIdx.flatMap explicitSourceIssues ++
  ((index.identities.filter (·.definitionConflict)).map fun identity =>
    { kind := .conflictingExplicitSourceIdentityDefinition
      explicitSourceIndexes := identity.explicitSourceIndexes }) ++
  ((index.byPackageName.filter fun entry => isConflictingMatch index entry.2).map fun entry =>
    { kind := .conflictingExplicitPackageName
      explicitSourceIndexes := collectExplicitSourceIndexes index entry.2
      packageName := some entry.1 }) ++
  ((index.byPackageBase.filter fun entry => isConflictingMatch index entry.2).map fun entry =>
    { kind := .conflictingExplicitPackageBase
      explicitSourceIndexes := collectExplicitSourceIndexes index entry.2
      packageBase := some entry.1 })

/-! ## Targets -/

/-- What is decided about a target or a build unit, with the issues of the
decision. -/
structure Judgement (Disposition : Type) where
  disposition : Disposition
  explicitSource : Option ExplicitSourceAttribution := none
  issues : List PlanningIssue := []

def reportedName (packageName : Bytes) : Option Bytes :=
  if packageName = [] then none else some packageName

/-- The issues of a target by itself. -/
def targetIssues (targetIndex : Nat) (target : AurTarget) : List PlanningIssue :=
  let packageBase := inspectIdentity target.packageBase
  (if target.packageName = [] then
    [{ kind := .aurTargetPackageNameMissing, originalTargetIndexes := [targetIndex] }]
  else []) ++
  targetPackageBaseIssues targetIndex packageBase ++
  match target.status with
  | .candidate => []
  | .unsupported =>
    [{ kind := .unsupportedAurTarget
       originalTargetIndexes := [targetIndex]
       packageName := reportedName target.packageName
       packageBase := packageBase.value }]
  | .incomplete =>
    [{ kind := .incompleteAurTarget
       originalTargetIndexes := [targetIndex]
       packageName := reportedName target.packageName
       packageBase := packageBase.value }]

section

variable (index : ExplicitIdentityIndex)

def packageNameMatch (packageName : Bytes) : ExplicitMatch index :=
  if packageName = [] then {}
  else findExplicitMatch index index.byPackageName packageName

def packageBaseMatch : Option Bytes → ExplicitMatch index
  | none => {}
  | some packageBase => findExplicitMatch index index.byPackageBase packageBase

/-- A name match wins, but another owner of the package base is an issue. -/
def nameExclusionIssues (targetIndex : Nat) (target : AurTarget)
    (nameMatch baseMatch : ExplicitMatch index) (packageBase : Option Bytes) :
    List PlanningIssue :=
  if baseMatch.status ≠ .none ∧ baseMatch.identityIndexes ≠ nameMatch.identityIndexes then
    [{ kind := .conflictingExplicitPackageBase
       explicitSourceIndexes := collectExplicitSourceIndexes index
        (baseMatch.identityIndexes.foldl insertNew nameMatch.identityIndexes)
       originalTargetIndexes := [targetIndex]
       packageName := some target.packageName
       packageBase := packageBase }]
  else []

/-- A reliable explicit match goes before the status of the target. -/
def judgeTarget (targetIndex : Nat) (target : AurTarget) : Judgement TargetDisposition :=
  let packageBase := (inspectIdentity target.packageBase).value
  let nameMatch := packageNameMatch index target.packageName
  let baseMatch := packageBaseMatch index packageBase
  match nameMatch.status with
  | .conflicting =>
    { disposition := .conflictingExplicitSourceIdentity
      explicitSource := some (makeAttribution index nameMatch.identityIndexes
        (some target.packageName) packageBase) }
  | .unique =>
    { disposition := .excludedByExplicitPackageName
      explicitSource := some (makeAttribution index nameMatch.identityIndexes
        (some target.packageName) packageBase)
      issues := nameExclusionIssues index targetIndex target nameMatch baseMatch packageBase }
  | .none =>
    match baseMatch.status with
    | .conflicting =>
      { disposition := .conflictingExplicitSourceIdentity
        explicitSource := some (makeAttribution index baseMatch.identityIndexes none
          packageBase) }
    | .unique =>
      { disposition := .excludedByExplicitPackageBase
        explicitSource := some (makeAttribution index baseMatch.identityIndexes none
          packageBase) }
    | .none =>
      if target.status = .unsupported then { disposition := .unsupported }
      else if target.status = .incomplete ∨ target.packageName = [] ∨
          packageBase = none then
        { disposition := .identityIncomplete }
      else { disposition := .selected }

def isExcluded (disposition : TargetDisposition) : Bool :=
  disposition = .excludedByExplicitPackageName ||
    disposition = .excludedByExplicitPackageBase

def targetEntry (entry : AurTarget × Nat) : TargetPlanEntry :=
  let judged := judgeTarget index entry.2 entry.1
  { originalTargetIndex := entry.2
    target := entry.1
    disposition := judged.disposition
    explicitSource := judged.explicitSource }

/-- One round of the loop over the targets. -/
def planTarget (plan : UpgradeAllPlan) (entry : AurTarget × Nat) : UpgradeAllPlan :=
  let judged := judgeTarget index entry.2 entry.1
  { plan with
    targetDispositions := plan.targetDispositions ++ [targetEntry index entry]
    excludedDuplicateTargetIndexes := plan.excludedDuplicateTargetIndexes ++
      (if isExcluded judged.disposition then [entry.2] else [])
    issues := plan.issues ++ (targetIssues entry.2 entry.1 ++ judged.issues) }

end

def targetEntryIsSelected (entry : TargetPlanEntry) : Bool := entry.disposition = .selected

/-- The resolved package base, or the error of the caller. -/
def requirePackageBase (error : PlanLogicError) (identity : ObservedIdentity) :
    Except PlanLogicError Bytes :=
  match (inspectIdentity identity).value with
  | none => .error error
  | some packageBase => .ok packageBase

def populateSelectedTargets (plan : UpgradeAllPlan) : Except PlanLogicError UpgradeAllPlan := do
  let (entries, selected) ← numberPicked targetEntryIsSelected
    (fun entry => requirePackageBase .selectedTargetLostPackageBase entry.target.packageBase)
    (fun entry number => { entry with selectedIndex := number })
    (fun number entry packageBase =>
      ⟨number, entry.originalTargetIndex, entry.target.packageName, packageBase⟩)
    0 plan.targetDispositions
  .ok { plan with
    targetDispositions := entries
    selectedTargets := selected
    originalToSelectedIndex := selected.foldl
      (fun mapping (target : SelectedAurTarget) =>
        mapping.set target.originalTargetIndex (some target.selectedIndex))
      (List.replicate plan.targetDispositions.length none) }

def makeUpgradeAllTargetPlan (explicitSources : List ExplicitSourceIdentity)
    (aurTargets : List AurTarget) : Except PlanLogicError UpgradeAllPlan :=
  let index := buildExplicitIdentityIndex explicitSources
  populateSelectedTargets (aurTargets.zipIdx.foldl (planTarget index)
    { explicitSources := explicitSources
      issues := explicitIdentityIssues explicitSources index })

/-! ## Build units -/

/-- One position of `validate_target_plan_for_completion`; the state is the
next selected index. -/
def checkTargetEntry (plan : UpgradeAllPlan) (expected : Nat)
    (entry : TargetPlanEntry × Nat) : Except PlanLogicError Nat :=
  if entry.1.originalTargetIndex ≠ entry.2 then .error .originalTargetOrder
  else if targetEntryIsSelected entry.1 then
    if entry.1.selectedIndex ≠ some expected ∨
        plan.originalToSelectedIndex[entry.2]? ≠ some (some expected) then
      .error .selectedTargetMapping
    else .ok (expected + 1)
  else if entry.1.selectedIndex ≠ none ∨
      plan.originalToSelectedIndex[entry.2]? ≠ some none then
    .error .nonSelectedTargetHasIndex
  else .ok expected

def validateTargetPlanForCompletion (plan : UpgradeAllPlan) : Except PlanLogicError Unit := do
  if plan.buildUnitDispositions ≠ [] ∨ plan.selectedBuildUnits ≠ [] ∨
      plan.externallySatisfiedBuildUnitIndexes ≠ [] ∨
      plan.externallySatisfiedPackageBases ≠ [] then
    .error .targetPlanContainsBuildUnits
  else if plan.targetDispositions.length ≠ plan.originalToSelectedIndex.length then
    .error .targetIndexMappingSize
  else
    let expected ← plan.targetDispositions.zipIdx.foldlM (checkTargetEntry plan) 0
    if expected ≠ plan.selectedTargets.length then .error .selectedTargetList else .ok ()

/-- What the attributions of a build unit say about the targets. -/
structure RootCorrelation where
  issues : List PlanningIssue
  hasCorrelationIssue : Bool
  hasSelectedRoot : Bool
  affectedTargetIndexes : List Nat

def correlateRoots (plan : UpgradeAllPlan) (buildUnitIndex : Nat)
    (attributions : List BuildUnitRootAttribution) : RootCorrelation :=
  let count := plan.targetDispositions.length
  { issues :=
      (if attributions = [] then
        [{ kind := .buildUnitHasNoRootAttribution, buildUnitIndexes := [buildUnitIndex] }]
      else []) ++
      (attributions.filter fun attribution => count ≤ attribution.originalTargetIndex).map
        fun attribution =>
          { kind := .buildUnitTargetIndexOutOfRange
            originalTargetIndexes := [attribution.originalTargetIndex]
            buildUnitIndexes := [buildUnitIndex] }
    hasCorrelationIssue := attributions = [] ||
      attributions.any fun attribution => count ≤ attribution.originalTargetIndex
    hasSelectedRoot := attributions.any fun attribution =>
      attribution.originalTargetIndex < count &&
        (plan.originalToSelectedIndex[attribution.originalTargetIndex]?.join).isSome
    affectedTargetIndexes :=
      ((attributions.filter fun attribution => attribution.originalTargetIndex < count).map
        (·.originalTargetIndex)).foldl insertNew [] }

section

variable (index : ExplicitIdentityIndex)

def conflictKind (matched : ExplicitPackageNameMatches index) : PlanningIssueKind :=
  if matched.status = .conflicting then .conflictingExplicitPackageName
  else .conflictingExplicitPackageBase

def singleName (matched : ExplicitPackageNameMatches index) : Option Bytes :=
  if matched.packageNames.length = 1 then matched.packageNames.head? else none

/-- The names and the base of a build unit have one owner, or the names none. -/
def namesMatchSameIdentity (nameMatches : ExplicitPackageNameMatches index)
    (baseMatch : ExplicitMatch index) : Bool :=
  nameMatches.status = .none ||
    (nameMatches.status = .unique && nameMatches.identityIndexes = baseMatch.identityIndexes)

/-- A conflict of the names of a build unit with `conflicting` owners. -/
def nameConflict (nameMatches : ExplicitPackageNameMatches index)
    (conflicting : List index.Position) (affectedTargetIndexes : List Nat)
    (buildUnitIndex : Nat) (packageBase : Option Bytes) : Judgement BuildUnitDisposition where
  disposition := .conflictingExplicitSourceIdentity
  explicitSource := some (makeAttribution index conflicting (singleName index nameMatches)
    packageBase)
  issues := buildUnitPackageNameConflictIssues index (conflictKind index nameMatches)
    nameMatches conflicting affectedTargetIndexes buildUnitIndex packageBase

def judgeBuildUnit (correlation : RootCorrelation) (buildUnitIndex : Nat)
    (buildUnit : AurBuildUnit) : Judgement BuildUnitDisposition :=
  let packageBase := (inspectIdentity buildUnit.packageBase).value
  let baseMatch := packageBaseMatch index packageBase
  let nameMatches := findExplicitPackageNameMatches index buildUnit.packageNames
  match baseMatch.status with
  | .conflicting =>
    { disposition := .conflictingExplicitSourceIdentity
      explicitSource := some (makeAttribution index baseMatch.identityIndexes none
        packageBase) }
  | .unique =>
    if namesMatchSameIdentity index nameMatches baseMatch = false then
      nameConflict index nameMatches
        (combineIdentityIndexes index nameMatches.identityIndexes baseMatch.identityIndexes)
        correlation.affectedTargetIndexes buildUnitIndex packageBase
    else
      { disposition := .externallySatisfiedByExplicitSourcePackageBase
        explicitSource := some (makeAttribution index baseMatch.identityIndexes none
          packageBase) }
  | .none =>
    if correlation.hasCorrelationIssue then { disposition := .identityIncomplete }
    -- a name alone cannot satisfy a build unit: another output may be needed
    else if correlation.hasSelectedRoot ∧ nameMatches.status ≠ .none then
      nameConflict index nameMatches nameMatches.identityIndexes
        correlation.affectedTargetIndexes buildUnitIndex packageBase
    else if packageBase = none then { disposition := .identityIncomplete }
    else if correlation.hasSelectedRoot = false then
      { disposition := .notRequiredBySelectedTarget }
    else { disposition := .selectedForAurExecution }

def buildUnitEntry (correlation : RootCorrelation) (entry : AurBuildUnit × Nat) :
    BuildUnitPlanEntry :=
  let judged := judgeBuildUnit index correlation entry.2 entry.1
  { originalBuildPlanIndex := entry.2
    buildUnit := entry.1
    disposition := judged.disposition
    explicitSource := judged.explicitSource }

/-- One round of the loop over the build units. -/
def planBuildUnit (plan : UpgradeAllPlan) (entry : AurBuildUnit × Nat) : UpgradeAllPlan :=
  let correlation := correlateRoots plan entry.2 entry.1.rootAttributions
  let packageBase := inspectIdentity entry.1.packageBase
  let judged := judgeBuildUnit index correlation entry.2 entry.1
  let satisfied :=
    judged.disposition = .externallySatisfiedByExplicitSourcePackageBase
  { plan with
    buildUnitDispositions := plan.buildUnitDispositions ++
      [buildUnitEntry index correlation entry]
    externallySatisfiedBuildUnitIndexes := plan.externallySatisfiedBuildUnitIndexes ++
      (if satisfied then [entry.2] else [])
    externallySatisfiedPackageBases :=
      (if satisfied then packageBase.value.toList else []).foldl insertNew
        plan.externallySatisfiedPackageBases
    issues := plan.issues ++ (correlation.issues ++
      buildUnitPackageBaseIssues entry.2 packageBase ++ judged.issues) }

end

def buildUnitEntryIsSelected (entry : BuildUnitPlanEntry) : Bool :=
  entry.disposition = .selectedForAurExecution

/-- The selected build units by package base; a selected one without a base is
an error. -/
def selectedByPackageBase (entries : List BuildUnitPlanEntry) :
    Except PlanLogicError (List (Bytes × List Nat)) := do
  let pairs ← (entries.zipIdx.filter fun entry => buildUnitEntryIsSelected entry.1).mapM
    fun entry => do
      let packageBase ← requirePackageBase .selectedBuildUnitHasNoPackageBase
        entry.1.buildUnit.packageBase
      .ok (packageBase, entry.2)
  .ok (group keyLe pairs)

def revokeEntry (entry : BuildUnitPlanEntry) : BuildUnitPlanEntry :=
  { entry with disposition := .conflictingSelectedPackageBase }

/-- One package base that more than one selected build unit has. -/
def rejectGroup (plan : UpgradeAllPlan) (entry : Bytes × List Nat) : UpgradeAllPlan :=
  if entry.2.length < 2 then plan
  else
    { plan with
      buildUnitDispositions := entry.2.foldl
        (fun entries position => entries.modify position revokeEntry)
        plan.buildUnitDispositions
      issues := plan.issues ++
        [{ kind := .duplicateSelectedBuildUnitPackageBase
           buildUnitIndexes := entry.2.filterMap fun position =>
            plan.buildUnitDispositions[position]?.map (·.originalBuildPlanIndex)
           packageBase := some entry.1 }] }

def rejectDuplicateSelectedBuildUnitPackageBases (plan : UpgradeAllPlan) :
    Except PlanLogicError UpgradeAllPlan := do
  let groups ← selectedByPackageBase plan.buildUnitDispositions
  .ok (groups.foldl rejectGroup plan)

def populateSelectedBuildUnits (plan : UpgradeAllPlan) :
    Except PlanLogicError UpgradeAllPlan := do
  let (entries, selected) ← numberPicked buildUnitEntryIsSelected
    (fun entry => requirePackageBase .selectedBuildUnitLostPackageBase
      entry.buildUnit.packageBase)
    (fun entry number => { entry with selectedExecutionIndex := number })
    (fun number entry packageBase => ⟨number, entry.originalBuildPlanIndex, packageBase⟩)
    0 plan.buildUnitDispositions
  .ok { plan with buildUnitDispositions := entries, selectedBuildUnits := selected }

def completeUpgradeAllBuildUnitPlan (targetPlan : UpgradeAllPlan)
    (buildUnits : List AurBuildUnit) : Except PlanLogicError UpgradeAllPlan := do
  validateTargetPlanForCompletion targetPlan
  let index := buildExplicitIdentityIndex targetPlan.explicitSources
  let plan := buildUnits.zipIdx.foldl (planBuildUnit index) targetPlan
  let plan ← rejectDuplicateSelectedBuildUnitPackageBases plan
  populateSelectedBuildUnits plan

def makeUpgradeAllPlan (input : PlanInput) : Except PlanLogicError UpgradeAllPlan := do
  let targetPlan ← makeUpgradeAllTargetPlan input.explicitSources input.aurTargets
  completeUpgradeAllBuildUnitPlan targetPlan input.buildUnits

end Moguet.Upgrade.Plan
