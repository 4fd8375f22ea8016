import Moguet.Plan.ArtifactTargets
import Moguet.Verified.Positions

/-!
# The artifacts of a package base

`select_package_base_artifacts` (`artifact_install_plan.cpp`) matches what a build
has to deliver against what it produced. It goes on after a failure, so that all of
them are reported, and selects only where there is none.
-/

namespace Moguet.Install.ArtifactSelection

open Verified.ByteString Verified.Positions Plan.Constraint

/-! ## Requests -/

export Moguet.Plan.ArtifactTargets (DesiredInstallReason)

/-- A value of the enumeration `DesiredInstallReason`: one that it names, or another,
such as the −1 of a target whose reason was never set. -/
inductive InstallReasonValue
  | named (reason : DesiredInstallReason)
  | unknown (value : Int)
  deriving DecidableEq

/-- `RequiredPackageArtifactTarget`. -/
structure RequiredTarget where
  packageBase : Bytes
  packageName : Bytes
  desiredReason : InstallReasonValue := .unknown (-1)

variable {item : RequiredTarget × Nat} {target : RequiredTarget}

structure ProducedPackageArtifact where
  packageName : Bytes
  deriving DecidableEq

/-- `PackageBaseArtifactSelectionRequest`. -/
structure SelectionRequest where
  packageBase : Bytes
  requiredTargets : List RequiredTarget
  producedArtifacts : List ProducedPackageArtifact

/-! ## Results -/

structure SelectedPackageArtifact where
  artifact : ProducedPackageArtifact
  desiredReason : InstallReasonValue

structure DiagnosticPackageArtifactMatch where
  requiredTargetIndex : Nat
  producedArtifactIndex : Nat
  artifact : ProducedPackageArtifact
  desiredReason : InstallReasonValue

structure MissingRequiredArtifact where
  requiredTargetIndex : Nat
  target : RequiredTarget

structure DuplicateProducedPackageIdentity where
  firstArtifactIndex : Nat
  duplicateArtifactIndex : Nat
  packageName : Bytes

structure DuplicateRequiredArtifactTarget where
  packageName : Bytes
  desiredReason : InstallReasonValue
  requiredTargetIndices : List Nat

/-- `RequiredArtifactReasonConflict`, with its occurrences. -/
structure RequiredArtifactReasonConflict where
  packageName : Bytes
  occurrences : List (Nat × InstallReasonValue)

structure RequiredArtifactAttributionMismatch where
  requiredTargetIndex : Nat
  expectedPackageBase : Bytes
  actualPackageBase : Bytes
  packageName : Bytes

/-- `ArtifactSelectionIdentityInput`. -/
inductive IdentityInput
  | packageBase
  | requiredPackageBase
  | requiredPackage
  | producedPackage
  deriving DecidableEq

/-- `ArtifactSelectionIdentityInconsistency`. -/
structure IdentityInconsistency where
  input : IdentityInput
  inputIndex : Option Nat
  identity : Bytes

structure UnknownArtifactInstallReason where
  requiredTargetIndex : Nat
  target : RequiredTarget

/-- `PackageBaseArtifactSelectionSuccess`. -/
structure SelectionSuccess where
  packageBase : Bytes
  selectedArtifacts : List SelectedPackageArtifact
  unselectedArtifacts : List ProducedPackageArtifact

/-- `PackageBaseArtifactSelectionFailure`. -/
structure SelectionFailure where
  packageBase : Bytes
  diagnosticPartialMatches : List DiagnosticPackageArtifactMatch
  diagnosticUnselectedArtifacts : List ProducedPackageArtifact
  missingRequiredArtifacts : List MissingRequiredArtifact
  duplicateProducedIdentities : List DuplicateProducedPackageIdentity
  duplicateRequiredTargets : List DuplicateRequiredArtifactTarget
  requiredReasonConflicts : List RequiredArtifactReasonConflict
  attributionMismatches : List RequiredArtifactAttributionMismatch
  identityInconsistencies : List IdentityInconsistency
  unknownInstallReasons : List UnknownArtifactInstallReason

/-- `has_artifact_selection_failures`. -/
def hasArtifactSelectionFailures (failure : SelectionFailure) : Bool :=
  !failure.missingRequiredArtifacts.isEmpty || !failure.duplicateProducedIdentities.isEmpty ||
    !failure.duplicateRequiredTargets.isEmpty || !failure.requiredReasonConflicts.isEmpty ||
    !failure.attributionMismatches.isEmpty || !failure.identityInconsistencies.isEmpty ||
    !failure.unknownInstallReasons.isEmpty

inductive SelectionResult
  | success (success : SelectionSuccess)
  | failure (failure : SelectionFailure)

/-! ## Required targets one by one -/

def isKnownDesiredInstallReason : InstallReasonValue → Bool
  | .named _ => true
  | .unknown _ => false

/-- The bit of `consistent_required_targets`. -/
def isConsistent (request : SelectionRequest) (target : RequiredTarget) : Bool :=
  isValidPackageName target.packageBase && target.packageBase = request.packageBase &&
    isValidPackageName target.packageName && isKnownDesiredInstallReason target.desiredReason

def targetInconsistencies (item : RequiredTarget × Nat) : List IdentityInconsistency :=
  (if isValidPackageName item.1.packageBase then []
    else [⟨.requiredPackageBase, some item.2, item.1.packageBase⟩]) ++
  (if isValidPackageName item.1.packageName then []
    else [⟨.requiredPackage, some item.2, item.1.packageName⟩])

def targetMismatches (request : SelectionRequest) (item : RequiredTarget × Nat) :
    List RequiredArtifactAttributionMismatch :=
  if item.1.packageBase = request.packageBase then []
  else [⟨item.2, request.packageBase, item.1.packageBase, item.1.packageName⟩]

def targetUnknownReasons (item : RequiredTarget × Nat) : List UnknownArtifactInstallReason :=
  if isKnownDesiredInstallReason item.1.desiredReason then [] else [⟨item.2, item.1⟩]

/-! ## Required targets of one name -/

/-- The bits `classified_required_targets` that are set and the bits
`selectable_required_targets` that are cleared for a name, with what is reported. -/
structure Groups where
  classified : List Nat := []
  unselectable : List Nat := []
  conflicts : List RequiredArtifactReasonConflict := []
  duplicates : List DuplicateRequiredArtifactTarget := []

/-- The consistent targets of a name from an index on. -/
def groupFrom (request : SelectionRequest) (index : Nat) (packageName : Bytes) :
    List (RequiredTarget × Nat) :=
  (request.requiredTargets.zipIdx.drop index).filter fun other =>
    isConsistent request other.1 && other.1.packageName = packageName

def classifyGroup (request : SelectionRequest) (groups : Groups) (item : RequiredTarget × Nat) :
    Groups :=
  if !isConsistent request item.1 || item.2 ∈ groups.classified then groups
  else
    let group := groupFrom request item.2 item.1.packageName
    let indices := group.map Prod.snd
    let classified := groups.classified ++ indices
    if group.length = 1 then { groups with classified := classified }
    else
      let unselectable := groups.unselectable ++ indices
      -- the first occurrence is the target at this index
      if group.any fun other => other.1.desiredReason ≠ item.1.desiredReason then
        { groups with
          classified := classified
          unselectable := unselectable
          conflicts := groups.conflicts ++ [⟨item.1.packageName,
            group.map fun other => (other.2, other.1.desiredReason)⟩] }
      else
        { groups with
          classified := classified
          unselectable := unselectable
          duplicates := groups.duplicates ++
            [⟨item.1.packageName, item.1.desiredReason, indices⟩] }

def classifyGroups (request : SelectionRequest) : Groups :=
  request.requiredTargets.zipIdx.foldl (classifyGroup request) {}

/-! ## Produced artifacts -/

def producedInconsistencies (item : ProducedPackageArtifact × Nat) : List IdentityInconsistency :=
  if isValidPackageName item.1.packageName then []
  else [⟨.producedPackage, some item.2, item.1.packageName⟩]

/-- The first artifact before an index that has the same name. -/
def producedDuplicates (request : SelectionRequest) (item : ProducedPackageArtifact × Nat) :
    List DuplicateProducedPackageIdentity :=
  if isValidPackageName item.1.packageName then
    match (request.producedArtifacts.take item.2).zipIdx.find? fun prior =>
        prior.1.packageName = item.1.packageName with
    | some prior => [⟨prior.2, item.2, item.1.packageName⟩]
    | none => []
  else []

def duplicateProducedIdentities (request : SelectionRequest) :
    List DuplicateProducedPackageIdentity :=
  request.producedArtifacts.zipIdx.flatMap (producedDuplicates request)

/-- The bit of `unique_produced_artifacts`: no duplicate names the artifact. -/
def isUniqueProduced (request : SelectionRequest) (item : ProducedPackageArtifact × Nat) : Bool :=
  isValidPackageName item.1.packageName &&
    (duplicateProducedIdentities request).all fun duplicate =>
      duplicate.firstArtifactIndex ≠ item.2 && duplicate.duplicateArtifactIndex ≠ item.2

/-! ## Matching -/

/-- The artifacts that have a name. -/
def matchingArtifacts (request : SelectionRequest) (packageName : Bytes) :
    List (ProducedPackageArtifact × Nat) :=
  request.producedArtifacts.zipIdx.filter fun item => item.1.packageName = packageName

/-- The bit of `selectable_required_targets`, where the package base is valid. -/
def isSelectableTarget (request : SelectionRequest) (item : RequiredTarget × Nat) : Bool :=
  isValidPackageName request.packageBase && isConsistent request item.1 &&
    item.2 ∉ (classifyGroups request).unselectable

def targetMissing (request : SelectionRequest) (item : RequiredTarget × Nat) :
    List MissingRequiredArtifact :=
  if isSelectableTarget request item then
    match matchingArtifacts request item.1.packageName with
    | [] => [⟨item.2, item.1⟩]
    | _ => []
  else []

def targetMatches (request : SelectionRequest) (item : RequiredTarget × Nat) :
    List DiagnosticPackageArtifactMatch :=
  if isSelectableTarget request item then
    match matchingArtifacts request item.1.packageName with
    | [found] =>
      if isUniqueProduced request found then
        [⟨item.2, found.2, found.1, item.1.desiredReason⟩]
      else []
    | _ => []
  else []

def partialMatches (request : SelectionRequest) : List DiagnosticPackageArtifactMatch :=
  request.requiredTargets.zipIdx.flatMap (targetMatches request)

/-- The produced artifacts that no match selected. -/
def unselectedArtifacts (request : SelectionRequest) : List ProducedPackageArtifact :=
  (request.producedArtifacts.zipIdx.filter fun item =>
    item.2 ∉ (partialMatches request).map (·.producedArtifactIndex)).map Prod.fst

/-- What the selection has found once its loops are done. -/
def collectSelection (request : SelectionRequest) : SelectionFailure where
  packageBase := request.packageBase
  diagnosticPartialMatches := partialMatches request
  diagnosticUnselectedArtifacts := unselectedArtifacts request
  missingRequiredArtifacts := request.requiredTargets.zipIdx.flatMap (targetMissing request)
  duplicateProducedIdentities := duplicateProducedIdentities request
  duplicateRequiredTargets := (classifyGroups request).duplicates
  requiredReasonConflicts := (classifyGroups request).conflicts
  attributionMismatches := request.requiredTargets.zipIdx.flatMap (targetMismatches request)
  identityInconsistencies :=
    (if isValidPackageName request.packageBase then []
      else [⟨.packageBase, none, request.packageBase⟩]) ++
    request.requiredTargets.zipIdx.flatMap targetInconsistencies ++
    request.producedArtifacts.zipIdx.flatMap producedInconsistencies
  unknownInstallReasons := request.requiredTargets.zipIdx.flatMap targetUnknownReasons

def selectPackageBaseArtifacts (request : SelectionRequest) : SelectionResult :=
  let failure := collectSelection request
  if hasArtifactSelectionFailures failure then .failure failure
  else .success {
    packageBase := failure.packageBase
    selectedArtifacts := failure.diagnosticPartialMatches.map fun found =>
      ⟨found.artifact, found.desiredReason⟩
    unselectedArtifacts := failure.diagnosticUnselectedArtifacts }

/-! ## Requests that can be selected -/

/-- What the names of a request have to be. -/
structure NamesSelectable (request : SelectionRequest) : Prop where
  base_valid : isValidPackageName request.packageBase = true
  required_valid : ∀ target ∈ request.requiredTargets,
    isValidPackageName target.packageName = true
  required_base : ∀ target ∈ request.requiredTargets, target.packageBase = request.packageBase
  required_distinct : (request.requiredTargets.map RequiredTarget.packageName).Nodup
  produced_valid : ∀ artifact ∈ request.producedArtifacts,
    isValidPackageName artifact.packageName = true
  produced_distinct : (request.producedArtifacts.map ProducedPackageArtifact.packageName).Nodup
  required_produced : ∀ target ∈ request.requiredTargets,
    ⟨target.packageName⟩ ∈ request.producedArtifacts

/-- Names that can be selected, each required for a known reason. -/
structure Selectable (request : SelectionRequest) : Prop extends NamesSelectable request where
  reasons : ∀ target ∈ request.requiredTargets, ∃ reason, target.desiredReason = .named reason

/-- What is selected of such a request. -/
def selectionOf (request : SelectionRequest) : SelectionSuccess where
  packageBase := request.packageBase
  selectedArtifacts := request.requiredTargets.map fun target =>
    ⟨⟨target.packageName⟩, target.desiredReason⟩
  unselectedArtifacts := request.producedArtifacts.filter fun artifact =>
    artifact.packageName ∉ request.requiredTargets.map RequiredTarget.packageName

section Selection

variable {request : SelectionRequest}

theorem isKnown_iff {reason : InstallReasonValue} :
    isKnownDesiredInstallReason reason = true ↔ ∃ named, reason = .named named := by
  cases reason with
  | named named => simp [isKnownDesiredInstallReason]
  | unknown value => simp [isKnownDesiredInstallReason]

/-- Every target has passed the checks made of it alone. -/
def AllConsistent (request : SelectionRequest) : Prop :=
  ∀ target ∈ request.requiredTargets, isConsistent request target = true

theorem allConsistent_iff (hbase : isValidPackageName request.packageBase = true) :
    AllConsistent request ↔ ∀ target ∈ request.requiredTargets,
      target.packageBase = request.packageBase ∧ isValidPackageName target.packageName = true ∧
        ∃ reason, target.desiredReason = .named reason := by
  unfold AllConsistent isConsistent
  constructor
  · intro h target htarget
    have hall := h target htarget
    simp only [Bool.and_eq_true, decide_eq_true_eq] at hall
    exact ⟨hall.1.1.2, hall.1.2, isKnown_iff.mp hall.2⟩
  · intro h target htarget
    obtain ⟨hsame, hname, hreason⟩ := h target htarget
    rw [hsame, hbase, hname, isKnown_iff.mpr hreason]
    simp

/-! ### Groups -/

theorem mem_groupFrom_self (hconsistent : AllConsistent request)
    (hitem : item ∈ request.requiredTargets.zipIdx) :
    groupFrom request item.2 item.1.packageName =
      item :: (request.requiredTargets.zipIdx.drop (item.2 + 1)).filter (fun other =>
        isConsistent request other.1 && other.1.packageName = item.1.packageName) := by
  unfold groupFrom
  have hmem : item.1 ∈ request.requiredTargets :=
    List.mem_of_getElem? (mem_zipIdx_iff.mp hitem)
  rw [drop_zipIdx hitem, List.filter_cons_of_pos (by simp [hconsistent _ hmem])]

/-- Where names are distinct every group is one target. -/
theorem groupFrom_of_distinct (hconsistent : AllConsistent request)
    (hdistinct : (request.requiredTargets.map RequiredTarget.packageName).Nodup)
    (hitem : item ∈ request.requiredTargets.zipIdx) :
    groupFrom request item.2 item.1.packageName = [item] := by
  rw [mem_groupFrom_self hconsistent hitem]
  congr 1
  apply List.filter_eq_nil_iff.mpr
  intro other hother
  have hne := nodup_map_iff_after.mp hdistinct item hitem _ (fst_mem_drop hother)
  simp [hne]

/-- A group of one target is not reported. -/
theorem classifyGroup_of_single (groups : Groups)
    (hgroup : (groupFrom request item.2 item.1.packageName).length = 1) :
    (classifyGroup request groups item).unselectable = groups.unselectable ∧
      (classifyGroup request groups item).conflicts = groups.conflicts ∧
      (classifyGroup request groups item).duplicates = groups.duplicates := by
  unfold classifyGroup
  split
  · exact ⟨rfl, rfl, rfl⟩
  · rw [if_pos hgroup]
    exact ⟨rfl, rfl, rfl⟩

theorem classifyGroups_of_distinct (hconsistent : AllConsistent request)
    (hdistinct : (request.requiredTargets.map RequiredTarget.packageName).Nodup) :
    (classifyGroups request).unselectable = [] ∧ (classifyGroups request).conflicts = [] ∧
      (classifyGroups request).duplicates = [] := by
  have hall : ∀ (items : List (RequiredTarget × Nat)) (groups : Groups),
      (∀ item ∈ items, item ∈ request.requiredTargets.zipIdx) →
      groups.unselectable = [] ∧ groups.conflicts = [] ∧ groups.duplicates = [] →
      (items.foldl (classifyGroup request) groups).unselectable = [] ∧
        (items.foldl (classifyGroup request) groups).conflicts = [] ∧
        (items.foldl (classifyGroup request) groups).duplicates = [] := by
    intro items
    induction items with
    | nil =>
      intro groups _ h
      exact h
    | cons item items ih =>
      intro groups hitems h
      rw [List.foldl_cons]
      apply ih _ (fun other hother => hitems other (List.mem_cons_of_mem _ hother))
      have hgroup : (groupFrom request item.2 item.1.packageName).length = 1 := by
        rw [groupFrom_of_distinct hconsistent hdistinct (hitems item List.mem_cons_self)]
        rfl
      obtain ⟨h₁, h₂, h₃⟩ := classifyGroup_of_single groups hgroup
      rw [h₁, h₂, h₃]
      exact h
  exact hall _ _ (fun _ h => h) ⟨rfl, rfl, rfl⟩

/-- Nothing has been reported of the groups. -/
def Silent (groups : Groups) : Prop := groups.conflicts = [] ∧ groups.duplicates = []

theorem silent_of_classifyGroup {groups : Groups} (h : Silent (classifyGroup request groups item)) :
    Silent groups := by
  unfold classifyGroup at h
  split at h
  · exact h
  · dsimp only at h
    split at h
    · exact h
    · split at h
      · exact absurd h.1 (by simp)
      · exact absurd h.2 (by simp)

theorem silent_of_foldl {items : List (RequiredTarget × Nat)} :
    ∀ {groups : Groups}, Silent (items.foldl (classifyGroup request) groups) → Silent groups := by
  induction items with
  | nil =>
    intro groups h
    exact h
  | cons item items ih =>
    intro groups h
    exact silent_of_classifyGroup (ih h)

/-- Where nothing is reported every group from a position on is one target: the bits set
so far are those of the targets before it. -/
theorem single_of_silent (hconsistent : AllConsistent request) :
    ∀ {items : List (RequiredTarget × Nat)} (position : Nat) {groups : Groups},
      request.requiredTargets.zipIdx.drop position = items →
      (∀ index ∈ groups.classified, index < position) →
      Silent (items.foldl (classifyGroup request) groups) →
      ∀ item ∈ items, (groupFrom request item.2 item.1.packageName).length = 1 := by
  intro items
  induction items with
  | nil =>
    intro position groups _ _ _ item hitem
    cases hitem
  | cons first items ih =>
    intro position groups hdrop hclassified hsilent
    have hlt : position < request.requiredTargets.zipIdx.length := by
      by_contra hge
      rw [List.drop_eq_nil_of_le (by omega)] at hdrop
      cases hdrop
    rw [List.drop_eq_getElem_cons hlt] at hdrop
    injection hdrop with hfirst hrest
    have hmem : first ∈ request.requiredTargets.zipIdx := by
      rw [← hfirst]
      exact List.getElem_mem hlt
    have hposition : first.2 = position := by
      rw [← hfirst, List.getElem_zipIdx, Nat.zero_add]
    have hself := mem_groupFrom_self hconsistent hmem
    rw [List.foldl_cons] at hsilent
    have hstep := silent_of_foldl hsilent
    have hcons : isConsistent request first.1 = true :=
      hconsistent _ (List.mem_of_getElem? (mem_zipIdx_iff.mp hmem))
    have hnew : first.2 ∉ groups.classified := by
      intro hold
      have hless := hclassified _ hold
      omega
    have hguard : (!isConsistent request first.1 || decide (first.2 ∈ groups.classified)) =
        false := by simp [hcons, hnew]
    have hsingle : (groupFrom request first.2 first.1.packageName).length = 1 := by
      by_contra hlength
      unfold classifyGroup at hstep
      simp only [hguard, Bool.false_eq_true, if_false, if_neg hlength] at hstep
      split at hstep
      · exact absurd hstep.1 (by simp)
      · exact absurd hstep.2 (by simp)
    have hnext : ∀ index ∈ (classifyGroup request groups first).classified,
        index < position + 1 := by
      intro index hindex
      unfold classifyGroup at hindex
      simp only [hguard, Bool.false_eq_true, if_false, if_pos hsingle] at hindex
      rcases List.mem_append.mp hindex with hold | hgroup
      · have hless := hclassified _ hold
        omega
      · rw [hself] at hsingle hgroup
        have htail := List.length_eq_zero_iff.mp (Nat.succ.inj hsingle)
        rw [htail, List.map_singleton, List.mem_singleton] at hgroup
        omega
    intro item hitem
    rcases List.mem_cons.mp hitem with hhead | htail
    · rw [hhead]
      exact hsingle
    · exact ih (position + 1) hrest hnext hsilent item htail

theorem distinct_of_silent (hconsistent : AllConsistent request)
    (h : Silent (classifyGroups request)) :
    (request.requiredTargets.map RequiredTarget.packageName).Nodup := by
  rw [nodup_map_iff_after]
  intro item hitem later hlater hsame
  have hstart : ∀ index ∈ ({} : Groups).classified, index < 0 := by
    intro index hindex
    cases hindex
  have hsingle := single_of_silent hconsistent 0 rfl hstart h item hitem
  rw [mem_groupFrom_self hconsistent hitem] at hsingle
  have htail := List.length_eq_zero_iff.mp (Nat.succ.inj hsingle)
  have hmap : (request.requiredTargets.zipIdx.drop (item.2 + 1)).map Prod.fst =
      request.requiredTargets.drop (item.2 + 1) := by
    rw [List.map_drop, List.zipIdx_map_fst]
  rw [← hmap] at hlater
  obtain ⟨other, hother, hfst⟩ := List.mem_map.mp hlater
  have hmem : other.1 ∈ request.requiredTargets :=
    List.mem_of_mem_drop (fst_mem_drop hother)
  have hfilter := List.filter_eq_nil_iff.mp htail other hother
  rw [hconsistent _ hmem] at hfilter
  rw [← hfst] at hsame
  simp [hsame] at hfilter

/-! ### Matching -/

theorem priorArtifact_none_iff {item : ProducedPackageArtifact × Nat}
    (hvalid : isValidPackageName item.1.packageName = true) :
    producedDuplicates request item = [] ↔ ∀ prior ∈ request.producedArtifacts.take item.2,
        prior.packageName ≠ item.1.packageName := by
  unfold producedDuplicates
  rw [if_pos hvalid]
  constructor
  · intro h prior hprior hsame
    split at h
    · cases h
    · rename_i hnone
      rw [← List.zipIdx_map_fst 0 (request.producedArtifacts.take item.2)] at hprior
      obtain ⟨found, hfound, hfst⟩ := List.mem_map.mp hprior
      have hne := List.find?_eq_none.mp hnone found hfound
      rw [hfst, hsame] at hne
      simp at hne
  · intro h
    have hnone : (request.producedArtifacts.take item.2).zipIdx.find? (fun prior =>
        prior.1.packageName = item.1.packageName) = none := by
      apply List.find?_eq_none.mpr
      intro found hfound
      have hmem : found.1 ∈ request.producedArtifacts.take item.2 :=
        List.mem_of_getElem? (mem_zipIdx_iff.mp hfound)
      simpa using h found.1 hmem
    rw [hnone]

/-- No duplicate is reported exactly where the names produced are distinct. -/
theorem duplicateProducedIdentities_nil_iff (hvalid : ∀ artifact ∈ request.producedArtifacts,
      isValidPackageName artifact.packageName = true) :
    duplicateProducedIdentities request = [] ↔
      (request.producedArtifacts.map ProducedPackageArtifact.packageName).Nodup := by
  unfold duplicateProducedIdentities
  rw [List.flatMap_eq_nil_iff, nodup_map_iff_before]
  constructor
  · intro h item hitem
    have hmem : item.1 ∈ request.producedArtifacts :=
      List.mem_of_getElem? (mem_zipIdx_iff.mp hitem)
    exact (priorArtifact_none_iff (hvalid _ hmem)).mp (h item hitem)
  · intro h item hitem
    have hmem : item.1 ∈ request.producedArtifacts :=
      List.mem_of_getElem? (mem_zipIdx_iff.mp hitem)
    exact (priorArtifact_none_iff (hvalid _ hmem)).mpr (h item hitem)

/-- The position of a name among what was produced. -/
def positionOf (request : SelectionRequest) (target : RequiredTarget) : Nat :=
  request.producedArtifacts.idxOf ⟨target.packageName⟩

theorem positionOf_mem (h : ⟨target.packageName⟩ ∈ request.producedArtifacts) :
    (⟨target.packageName⟩, positionOf request target) ∈ request.producedArtifacts.zipIdx := by
  rw [mem_zipIdx_iff]
  exact List.getElem?_idxOf h

theorem matchingArtifacts_eq
    (hdistinct : (request.producedArtifacts.map ProducedPackageArtifact.packageName).Nodup)
    (h : ⟨target.packageName⟩ ∈ request.producedArtifacts) :
    matchingArtifacts request target.packageName =
      [(⟨target.packageName⟩, positionOf request target)] :=
  filter_zipIdx_eq hdistinct (positionOf_mem h)

theorem isSelectableTarget_of (hbase : isValidPackageName request.packageBase = true)
    (hconsistent : AllConsistent request)
    (hdistinct : (request.requiredTargets.map RequiredTarget.packageName).Nodup)
    (hitem : item ∈ request.requiredTargets.zipIdx) : isSelectableTarget request item = true := by
  have hmem : item.1 ∈ request.requiredTargets :=
    List.mem_of_getElem? (mem_zipIdx_iff.mp hitem)
  unfold isSelectableTarget
  rw [hbase, hconsistent _ hmem, (classifyGroups_of_distinct hconsistent hdistinct).1]
  simp

/-- Nothing is missing exactly where every name required is produced. -/
theorem missing_nil_iff (hbase : isValidPackageName request.packageBase = true)
    (hconsistent : AllConsistent request)
    (hdistinct : (request.requiredTargets.map RequiredTarget.packageName).Nodup) :
    request.requiredTargets.zipIdx.flatMap (targetMissing request) = [] ↔
      ∀ target ∈ request.requiredTargets, ⟨target.packageName⟩ ∈ request.producedArtifacts := by
  rw [List.flatMap_eq_nil_iff]
  constructor
  · intro h target htarget
    obtain ⟨position, hlt, hget⟩ := List.getElem_of_mem htarget
    have hitem : (target, position) ∈ request.requiredTargets.zipIdx :=
      mem_zipIdx_iff.mpr (List.getElem?_eq_some_iff.mpr ⟨hlt, hget⟩)
    have hnone := h _ hitem
    unfold targetMissing at hnone
    rw [if_pos (isSelectableTarget_of hbase hconsistent hdistinct hitem)] at hnone
    split at hnone
    · cases hnone
    · rename_i hsome
      obtain ⟨found, hfound⟩ := List.exists_mem_of_ne_nil _ hsome
      unfold matchingArtifacts at hfound
      obtain ⟨hproduced, hname⟩ := List.mem_filter.mp hfound
      have hmem : found.1 ∈ request.producedArtifacts :=
        List.mem_of_getElem? (mem_zipIdx_iff.mp hproduced)
      have hsame : found.1 = ⟨target.packageName⟩ := by
        cases hfst : found.1
        rw [hfst] at hname
        simpa using hname
      rw [hsame] at hmem
      exact hmem
  · intro h item hitem
    have hmem : item.1 ∈ request.requiredTargets :=
      List.mem_of_getElem? (mem_zipIdx_iff.mp hitem)
    unfold targetMissing
    split
    · split
      · rename_i hnil
        have hfound : (⟨item.1.packageName⟩, positionOf request item.1) ∈
            matchingArtifacts request item.1.packageName :=
          List.mem_filter.mpr ⟨positionOf_mem (h _ hmem), by simp⟩
        rw [hnil] at hfound
        cases hfound
      · rfl
    · rfl

/-- What is required is matched in order. -/
theorem partialMatches_eq (h : Selectable request) : partialMatches request =
    request.requiredTargets.zipIdx.map fun item =>
      ⟨item.2, positionOf request item.1, ⟨item.1.packageName⟩, item.1.desiredReason⟩ := by
  have hconsistent : AllConsistent request := (allConsistent_iff h.base_valid).mpr
    fun target htarget => ⟨h.required_base target htarget, h.required_valid target htarget,
      h.reasons target htarget⟩
  have hnone := (duplicateProducedIdentities_nil_iff h.produced_valid).mpr h.produced_distinct
  unfold partialMatches
  rw [← List.flatMap_singleton' (request.requiredTargets.zipIdx.map _), List.flatMap_map]
  apply List.flatMap_congr
  intro item hitem
  have hmem : item.1 ∈ request.requiredTargets :=
    List.mem_of_getElem? (mem_zipIdx_iff.mp hitem)
  have hunique : isUniqueProduced request (⟨item.1.packageName⟩, positionOf request item.1) =
      true := by
    unfold isUniqueProduced
    rw [hnone, h.required_valid _ hmem]
    rfl
  unfold targetMatches
  rw [if_pos (isSelectableTarget_of h.base_valid hconsistent h.required_distinct hitem),
    matchingArtifacts_eq h.produced_distinct (h.required_produced _ hmem)]
  simp only [hunique, if_true]

/-- The other artifacts are those whose names nothing requires. -/
theorem unselectedArtifacts_eq (h : Selectable request) : unselectedArtifacts request =
    request.producedArtifacts.filter fun artifact =>
      artifact.packageName ∉ request.requiredTargets.map RequiredTarget.packageName := by
  unfold unselectedArtifacts
  apply filter_zipIdx_map_fst
  intro item hitem
  rw [partialMatches_eq h, List.map_map]
  apply decide_eq_decide.mpr
  apply not_congr
  constructor
  · intro hmatched
    obtain ⟨required, hrequired, hposition⟩ := List.mem_map.mp hmatched
    have hmem : required.1 ∈ request.requiredTargets :=
      List.mem_of_getElem? (mem_zipIdx_iff.mp hrequired)
    have hat := mem_zipIdx_iff.mp (positionOf_mem (h.required_produced _ hmem))
    have hsame : positionOf request required.1 = item.2 := hposition
    dsimp only at hat
    rw [hsame, mem_zipIdx_iff.mp hitem] at hat
    rw [Option.some.inj hat]
    exact List.mem_map_of_mem hmem
  · intro hrequired
    obtain ⟨target, htarget, hname⟩ := List.mem_map.mp hrequired
    obtain ⟨position, hlt, hget⟩ := List.getElem_of_mem htarget
    have hpos : (target, position) ∈ request.requiredTargets.zipIdx :=
      mem_zipIdx_iff.mpr (List.getElem?_eq_some_iff.mpr ⟨hlt, hget⟩)
    apply List.mem_map.mpr
    refine ⟨(target, position), hpos, ?_⟩
    have hone := matchingArtifacts_eq h.produced_distinct (h.required_produced _ htarget)
    have hfound : item ∈ matchingArtifacts request target.packageName :=
      List.mem_filter.mpr ⟨hitem, by simp [hname]⟩
    rw [hone, List.mem_singleton] at hfound
    rw [hfound]
    rfl

/-! ### The selection -/

theorem hasFailures_eq_false_iff {failure : SelectionFailure} :
    hasArtifactSelectionFailures failure = false ↔
      failure.missingRequiredArtifacts = [] ∧ failure.duplicateProducedIdentities = [] ∧
        failure.duplicateRequiredTargets = [] ∧ failure.requiredReasonConflicts = [] ∧
        failure.attributionMismatches = [] ∧ failure.identityInconsistencies = [] ∧
        failure.unknownInstallReasons = [] := by
  simp [hasArtifactSelectionFailures, and_assoc]

theorem inconsistencies_nil_iff : (collectSelection request).identityInconsistencies = [] ↔
    isValidPackageName request.packageBase = true ∧
      (∀ target ∈ request.requiredTargets, isValidPackageName target.packageBase = true ∧
        isValidPackageName target.packageName = true) ∧
      ∀ artifact ∈ request.producedArtifacts, isValidPackageName artifact.packageName = true := by
  have hrequired : request.requiredTargets.zipIdx.flatMap targetInconsistencies = [] ↔
      ∀ target ∈ request.requiredTargets, isValidPackageName target.packageBase = true ∧
        isValidPackageName target.packageName = true := by
    rw [List.flatMap_eq_nil_iff, forall_mem_zipIdx_iff (p := fun target =>
      isValidPackageName target.packageBase = true ∧ isValidPackageName target.packageName = true)]
    intro item
    unfold targetInconsistencies
    simp
  have hproduced : request.producedArtifacts.zipIdx.flatMap producedInconsistencies = [] ↔
      ∀ artifact ∈ request.producedArtifacts, isValidPackageName artifact.packageName = true := by
    rw [List.flatMap_eq_nil_iff, forall_mem_zipIdx_iff (p := fun artifact =>
      isValidPackageName artifact.packageName = true)]
    intro item
    unfold producedInconsistencies
    simp
  unfold collectSelection
  simp only [List.append_eq_nil_iff, hrequired, hproduced]
  rw [and_assoc]
  apply and_congr_left
  intro _
  simp

/-- The selection reports nothing exactly of requests that can be selected. -/
theorem hasFailures_iff :
    hasArtifactSelectionFailures (collectSelection request) = false ↔ Selectable request := by
  rw [hasFailures_eq_false_iff, inconsistencies_nil_iff]
  have hmismatch : (collectSelection request).attributionMismatches = [] ↔
      ∀ target ∈ request.requiredTargets, target.packageBase = request.packageBase := by
    unfold collectSelection
    dsimp only
    rw [List.flatMap_eq_nil_iff, forall_mem_zipIdx_iff (p := fun target =>
      target.packageBase = request.packageBase)]
    intro item
    unfold targetMismatches
    simp
  have hunknown : (collectSelection request).unknownInstallReasons = [] ↔
      ∀ target ∈ request.requiredTargets, ∃ reason, target.desiredReason = .named reason := by
    unfold collectSelection
    dsimp only
    rw [List.flatMap_eq_nil_iff, forall_mem_zipIdx_iff (p := fun target =>
      ∃ reason, target.desiredReason = .named reason)]
    intro item
    unfold targetUnknownReasons
    rw [← isKnown_iff]
    simp
  rw [hmismatch, hunknown]
  constructor
  · intro h
    obtain ⟨hmissing, hduplicates, hrequired, hconflicts, hbases, ⟨hbase, hnames, hproduced⟩,
      hreasons⟩ := h
    have hconsistent : AllConsistent request := (allConsistent_iff hbase).mpr
      fun target htarget => ⟨hbases target htarget, (hnames target htarget).2,
        hreasons target htarget⟩
    have hdistinct := distinct_of_silent hconsistent ⟨hconflicts, hrequired⟩
    exact ⟨⟨hbase, fun target htarget => (hnames target htarget).2, hbases, hdistinct, hproduced,
      (duplicateProducedIdentities_nil_iff hproduced).mp hduplicates,
      (missing_nil_iff hbase hconsistent hdistinct).mp hmissing⟩, hreasons⟩
  · intro h
    have hconsistent : AllConsistent request := (allConsistent_iff h.base_valid).mpr
      fun target htarget => ⟨h.required_base target htarget, h.required_valid target htarget,
        h.reasons target htarget⟩
    have hgroups := classifyGroups_of_distinct hconsistent h.required_distinct
    refine ⟨(missing_nil_iff h.base_valid hconsistent h.required_distinct).mpr
      h.required_produced, (duplicateProducedIdentities_nil_iff h.produced_valid).mpr
      h.produced_distinct, hgroups.2.2, hgroups.2.1, h.required_base,
      ⟨h.base_valid, ?_, h.produced_valid⟩, h.reasons⟩
    intro target htarget
    rw [h.required_base target htarget]
    exact ⟨h.base_valid, h.required_valid target htarget⟩

theorem selectPackageBaseArtifacts_of_selectable (h : Selectable request) :
    selectPackageBaseArtifacts request = .success (selectionOf request) := by
  unfold selectPackageBaseArtifacts
  rw [if_neg (by rw [hasFailures_iff.mpr h]; exact Bool.false_ne_true)]
  congr 1
  have hselected : (partialMatches request).map (fun found =>
      (⟨found.artifact, found.desiredReason⟩ : SelectedPackageArtifact)) =
      (selectionOf request).selectedArtifacts := by
    rw [partialMatches_eq h, List.map_map]
    unfold selectionOf
    conv_rhs => rw [← List.zipIdx_map_fst 0 request.requiredTargets, List.map_map]
    rfl
  unfold collectSelection
  dsimp only
  rw [hselected, unselectedArtifacts_eq h]
  rfl

theorem selectPackageBaseArtifacts_of_not_selectable (h : ¬ Selectable request) :
    selectPackageBaseArtifacts request = .failure (collectSelection request) := by
  unfold selectPackageBaseArtifacts
  have hfailures : hasArtifactSelectionFailures (collectSelection request) = true := by
    by_contra hnone
    exact h (hasFailures_iff.mp (by simpa using hnone))
  exact if_pos hfailures

end Selection

end Moguet.Install.ArtifactSelection
