import Mathlib.Data.List.Perm.Basic
import Moguet.Install.ArtifactSelection
import Moguet.Verified.Checked

/-!
# The identities of the artifacts

`correlate_package_base_artifact_identities` (`artifact_identity_selection.cpp`) runs
the selection on the identities read from the archives, and finds in its result the
positions again. It checks on the way that the two agree, and throws where they do not.
-/

namespace Moguet.Install.ArtifactCorrelation

open Verified.ByteString Verified.Checked Verified.Positions ArtifactSelection

variable {selectedPositions : List Nat}

variable {inconsistency : IdentityInconsistency} {targets : List RequiredTarget}
  {packageBase : Bytes}

/-! ## Identities -/

/-- `ArtifactPackageBaseIdentity` and `ArtifactPackageArchitectureIdentity`. -/
inductive ArtifactMetadataValue
  | known (value : Bytes)
  | missing
  | malformed
  | unavailable
  deriving DecidableEq

structure ArtifactPackageIdentity where
  packageName : Bytes
  fullVersion : Bytes
  packageBase : ArtifactMetadataValue := .unavailable
  architecture : ArtifactMetadataValue := .unavailable
  deriving DecidableEq

structure IndexedArtifactPackageIdentity where
  artifactIndex : Nat
  identity : ArtifactPackageIdentity

variable {item : IndexedArtifactPackageIdentity × Nat}

/-- The set is not empty and indexes its entries by their positions. -/
structure ArtifactPackageIdentitySet where
  entries : List IndexedArtifactPackageIdentity
  nonempty : entries ≠ []
  indexed : ∀ (position : Nat) (entry : IndexedArtifactPackageIdentity),
    entries[position]? = some entry → entry.artifactIndex = position

/-- The constructor of the set; an empty one throws. -/
def ArtifactPackageIdentitySet.make (identities : List ArtifactPackageIdentity) :
    Option ArtifactPackageIdentitySet :=
  if h : identities = [] then none
  else some {
    entries := identities.zipIdx.map fun item => ⟨item.2, item.1⟩
    nonempty := by
      intro hnil
      exact h (List.zipIdx_eq_nil_iff.mp (List.map_eq_nil_iff.mp hnil))
    indexed := by
      intro position entry hentry
      rw [List.getElem?_map, List.getElem?_zipIdx] at hentry
      cases hat : identities[position]? with
      | none => simp [hat] at hentry
      | some identity =>
        simp only [hat, Option.map_some, Option.some.injEq] at hentry
        rw [← hentry]
        exact Nat.zero_add position }

structure CorrelatedSelectedPackageArtifact where
  artifactIndex : Nat
  identity : ArtifactPackageIdentity
  desiredReason : InstallReasonValue

variable {selected : List CorrelatedSelectedPackageArtifact}

structure CorrelatedUnselectedPackageArtifact where
  artifactIndex : Nat
  identity : ArtifactPackageIdentity

/-- `PackageBaseArtifactIdentitySelectionSuccess`. -/
structure IdentitySelectionSuccess where
  packageBase : Bytes
  selectedArtifacts : List CorrelatedSelectedPackageArtifact
  unselectedArtifacts : List CorrelatedUnselectedPackageArtifact

structure DiagnosticPackageArtifactIdentityMatch where
  requiredTargetIndex : Nat
  artifact : ProducedPackageArtifact
  desiredReason : InstallReasonValue

/-- `ArtifactIdentitySelectionIdentityInconsistency`: only the positions of required
targets are shown. -/
structure IdentitySelectionInconsistency where
  input : IdentityInput
  requiredTargetIndex : Option Nat
  identity : Bytes

/-- `PackageBaseArtifactIdentitySelectionFailure`. A duplicate of what was produced is
its name. -/
structure IdentitySelectionFailure where
  packageBase : Bytes
  diagnosticPartialMatches : List DiagnosticPackageArtifactIdentityMatch
  diagnosticUnselectedArtifacts : List ProducedPackageArtifact
  missingRequiredArtifacts : List MissingRequiredArtifact
  duplicateProducedIdentities : List Bytes
  duplicateRequiredTargets : List DuplicateRequiredArtifactTarget
  requiredReasonConflicts : List RequiredArtifactReasonConflict
  attributionMismatches : List RequiredArtifactAttributionMismatch
  identityInconsistencies : List IdentitySelectionInconsistency
  unknownInstallReasons : List UnknownArtifactInstallReason

inductive IdentitySelectionResult
  | success (success : IdentitySelectionSuccess)
  | failure (failure : IdentitySelectionFailure)

/-- `throw_incoherent_selection_result`. -/
inductive Incoherent
  | selectionResult
  deriving DecidableEq

def requireCoherent (coherent : Bool) : Except Incoherent Unit :=
  if coherent then .ok () else .error .selectionResult

/-- The loop keeps the bits `seen_indices` that are set. -/
def requireIndexCoherence (count : Nat) (seen : List Nat)
    (item : IndexedArtifactPackageIdentity × Nat) : Except Incoherent (List Nat) := do
  requireCoherent (item.1.artifactIndex < count && item.1.artifactIndex ∉ seen &&
    item.1.artifactIndex = item.2)
  .ok (seen ++ [item.1.artifactIndex])

def requireIdentitySetIndexCoherence (identities : ArtifactPackageIdentitySet) :
    Except Incoherent Unit := do
  requireCoherent (identities.entries.length ≠ 0)
  discard (identities.entries.zipIdx.foldlM (requireIndexCoherence identities.entries.length) [])

def findUniqueIdentityPosition (identities : ArtifactPackageIdentitySet) (packageName : Bytes) :
    Except Incoherent Nat :=
  match identities.entries.zipIdx.filter fun item =>
      item.1.identity.packageName = packageName with
  | [found] => .ok found.2
  | _ => .error .selectionResult

/-- The index that is shown of an inconsistency. -/
def projectInconsistency (inconsistency : IdentityInconsistency) :
    Except Incoherent IdentitySelectionInconsistency := do
  match inconsistency.input with
  | .packageBase => do
      requireCoherent inconsistency.inputIndex.isNone
      .ok ⟨.packageBase, none, inconsistency.identity⟩
  | .producedPackage => do
      requireCoherent inconsistency.inputIndex.isSome
      .ok ⟨.producedPackage, none, inconsistency.identity⟩
  | input => do
      requireCoherent inconsistency.inputIndex.isSome
      .ok ⟨input, inconsistency.inputIndex, inconsistency.identity⟩

def projectSelectionFailure (failure : SelectionFailure) :
    Except Incoherent IdentitySelectionFailure := do
  let inconsistencies ← failure.identityInconsistencies.mapM projectInconsistency
  .ok {
    packageBase := failure.packageBase
    diagnosticPartialMatches := failure.diagnosticPartialMatches.map fun found =>
      ⟨found.requiredTargetIndex, found.artifact, found.desiredReason⟩
    diagnosticUnselectedArtifacts := failure.diagnosticUnselectedArtifacts
    missingRequiredArtifacts := failure.missingRequiredArtifacts
    duplicateProducedIdentities := failure.duplicateProducedIdentities.map (·.packageName)
    duplicateRequiredTargets := failure.duplicateRequiredTargets
    requiredReasonConflicts := failure.requiredReasonConflicts
    attributionMismatches := failure.attributionMismatches
    identityInconsistencies := inconsistencies
    unknownInstallReasons := failure.unknownInstallReasons }

/-! ## Correlation -/

/-- The bits `selected_positions` that are set, and what has been correlated. -/
structure Correlation where
  selectedPositions : List Nat := []
  selected : List CorrelatedSelectedPackageArtifact := []

/-- One selected artifact, next to the target that required it. -/
def correlateSelected (identities : ArtifactPackageIdentitySet) (correlation : Correlation)
    (item : SelectedPackageArtifact × RequiredTarget) : Except Incoherent Correlation := do
  requireCoherent (item.1.artifact.packageName = item.2.packageName &&
    item.1.desiredReason = item.2.desiredReason)
  let position ← findUniqueIdentityPosition identities item.1.artifact.packageName
  requireCoherent (position ∉ correlation.selectedPositions)
  match identities.entries[position]? with
  | none => .error .selectionResult
  | some entry => .ok {
      selectedPositions := correlation.selectedPositions ++ [position]
      selected := correlation.selected ++
        [⟨entry.artifactIndex, entry.identity, item.1.desiredReason⟩] }

/-- The unselected artifacts that the walk over the identities has used up, and what
has been correlated. -/
def correlateUnselected (selectedPositions : List Nat)
    (unselected : List ProducedPackageArtifact)
    (state : Nat × List CorrelatedUnselectedPackageArtifact)
    (item : IndexedArtifactPackageIdentity × Nat) :
    Except Incoherent (Nat × List CorrelatedUnselectedPackageArtifact) :=
  if item.2 ∈ selectedPositions then .ok state
  else match unselected[state.1]? with
    | none => .error .selectionResult
    | some artifact => do
        requireCoherent (artifact.packageName = item.1.identity.packageName)
        .ok (state.1 + 1, state.2 ++ [⟨item.1.artifactIndex, item.1.identity⟩])

/-- The request whose artifacts are the names of the identities. -/
def requestOf (packageBase : Bytes) (requiredTargets : List RequiredTarget)
    (identities : ArtifactPackageIdentitySet) : SelectionRequest where
  packageBase := packageBase
  requiredTargets := requiredTargets
  producedArtifacts := identities.entries.map fun entry => ⟨entry.identity.packageName⟩

def correlatePackageBaseArtifactIdentities (packageBase : Bytes)
    (requiredTargets : List RequiredTarget) (identities : ArtifactPackageIdentitySet) :
    Except Incoherent IdentitySelectionResult := do
  requireIdentitySetIndexCoherence identities
  match selectPackageBaseArtifacts (requestOf packageBase requiredTargets identities) with
  | .failure failure => do
      let projected ← projectSelectionFailure failure
      .ok (.failure projected)
  | .success selected => do
      requireCoherent (selected.packageBase = packageBase &&
        selected.selectedArtifacts.length = requiredTargets.length)
      let correlation ← (selected.selectedArtifacts.zip requiredTargets).foldlM
        (correlateSelected identities) {}
      requireCoherent (selected.unselectedArtifacts.length =
        identities.entries.length - correlation.selected.length)
      let (used, unselected) ← identities.entries.zipIdx.foldlM
        (correlateUnselected correlation.selectedPositions selected.unselectedArtifacts) (0, [])
      requireCoherent (used = selected.unselectedArtifacts.length &&
        correlation.selected.length + unselected.length = identities.entries.length)
      .ok (.success ⟨packageBase, correlation.selected, unselected⟩)

/-! ## The correlation is coherent -/

section Correlating

variable {identities : ArtifactPackageIdentitySet}

theorem requireCoherent_of {coherent : Bool} (h : coherent = true) :
    requireCoherent coherent = .ok () := by
  rw [h]
  rfl

theorem entries_pos (identities : ArtifactPackageIdentitySet) : 0 < identities.entries.length :=
  List.length_pos_of_ne_nil identities.nonempty

theorem index_of_mem (h : item ∈ identities.entries.zipIdx) : item.1.artifactIndex = item.2 :=
  identities.indexed _ _ (mem_zipIdx_iff.mp h)

/-- The indexes of a set are those of its positions, each seen once. -/
theorem requireIndexCoherence_loop : ∀ {items : List (IndexedArtifactPackageIdentity × Nat)}
    (position : Nat) (seen : List Nat), identities.entries.zipIdx.drop position = items →
      (∀ index ∈ seen, index < position) →
      ∃ after, items.foldlM (requireIndexCoherence identities.entries.length) seen = .ok after := by
  intro items
  induction items with
  | nil =>
    intro position seen _ _
    exact ⟨seen, rfl⟩
  | cons item items ih =>
    intro position seen hdrop hseen
    have hlt : position < identities.entries.zipIdx.length := by
      by_contra hge
      rw [List.drop_eq_nil_of_le (by omega)] at hdrop
      cases hdrop
    rw [List.drop_eq_getElem_cons hlt] at hdrop
    injection hdrop with hitem hrest
    have hmem : item ∈ identities.entries.zipIdx := by
      rw [← hitem]
      exact List.getElem_mem hlt
    have hposition : item.2 = position := by
      rw [← hitem, List.getElem_zipIdx, Nat.zero_add]
    have hindex := index_of_mem hmem
    have hbound : position < identities.entries.length := by simpa using hlt
    have hnew : item.1.artifactIndex ∉ seen := by
      intro hold
      have hless := hseen _ hold
      omega
    have hstep : requireIndexCoherence identities.entries.length seen item =
        .ok (seen ++ [item.1.artifactIndex]) := by
      unfold requireIndexCoherence
      rw [bind_of_ok (requireCoherent_of _)]
      rw [hindex, hposition] at hnew
      simp [hnew, hindex, hposition, hbound]
    rw [List.foldlM_cons, bind_of_ok hstep]
    apply ih (position + 1) _ hrest
    intro index hold
    rcases List.mem_append.mp hold with hold | hlast
    · have hless := hseen _ hold
      omega
    · rw [List.mem_singleton.mp hlast]
      omega

theorem requireIdentitySetIndexCoherence_ok (identities : ArtifactPackageIdentitySet) :
    requireIdentitySetIndexCoherence identities = .ok () := by
  have hloop : ∃ after, identities.entries.zipIdx.foldlM
      (requireIndexCoherence identities.entries.length) [] = .ok after :=
    requireIndexCoherence_loop 0 [] rfl nofun
  obtain ⟨after, hloop⟩ := hloop
  have hpos : identities.entries.length ≠ 0 := by
    have hlength := entries_pos identities
    omega
  unfold requireIdentitySetIndexCoherence
  rw [bind_of_ok (requireCoherent_of (decide_eq_true hpos)), hloop]
  rfl

/-- An inconsistency has an index unless it is that of the package base. -/
def Indexed (inconsistency : IdentityInconsistency) : Prop :=
  inconsistency.inputIndex.isSome = true ↔ inconsistency.input ≠ .packageBase

theorem projectInconsistency_ok (h : Indexed inconsistency) :
    ∃ projected, projectInconsistency inconsistency = .ok projected := by
  unfold Indexed at h
  cases hinput : inconsistency.input with
  | packageBase =>
    rw [hinput] at h
    have hnone : inconsistency.inputIndex.isNone = true := by
      cases hindex : inconsistency.inputIndex with
      | none => rfl
      | some index =>
        rw [hindex] at h
        exact absurd rfl (h.mp rfl)
    unfold projectInconsistency
    rw [hinput]
    exact ⟨_, bind_of_ok (requireCoherent_of hnone)⟩
  | _ =>
    rw [hinput] at h
    unfold projectInconsistency
    rw [hinput]
    exact ⟨_, bind_of_ok (requireCoherent_of (h.mpr (by decide)))⟩

theorem indexed_of_collect {request : SelectionRequest}
    (h : inconsistency ∈ (collectSelection request).identityInconsistencies) :
    Indexed inconsistency := by
  unfold collectSelection at h
  simp only [List.mem_append, List.mem_flatMap] at h
  unfold Indexed
  rcases h with (hbase | ⟨item, -, hitem⟩) | ⟨item, -, hitem⟩
  · split at hbase
    · cases hbase
    · rw [List.mem_singleton.mp hbase]
      simp
  · unfold targetInconsistencies at hitem
    rcases List.mem_append.mp hitem with hbase | hname
    · split at hbase
      · cases hbase
      · rw [List.mem_singleton.mp hbase]
        simp
    · split at hname
      · cases hname
      · rw [List.mem_singleton.mp hname]
        simp
  · unfold producedInconsistencies at hitem
    split at hitem
    · cases hitem
    · rw [List.mem_singleton.mp hitem]
      simp

theorem mapM_projectInconsistency_ok {inconsistencies : List IdentityInconsistency}
    (h : ∀ inconsistency ∈ inconsistencies, Indexed inconsistency) :
    ∃ projected, inconsistencies.mapM projectInconsistency = .ok projected := by
  induction inconsistencies with
  | nil => exact ⟨[], rfl⟩
  | cons first rest ih =>
    obtain ⟨one, hone⟩ := projectInconsistency_ok (h first List.mem_cons_self)
    obtain ⟨more, hmore⟩ := ih fun other hother => h other (List.mem_cons_of_mem _ hother)
    refine ⟨one :: more, ?_⟩
    rw [List.mapM_cons, bind_of_ok hone, bind_of_ok hmore]
    rfl

theorem projectSelectionFailure_ok (request : SelectionRequest) :
    ∃ projected, projectSelectionFailure (collectSelection request) = .ok projected := by
  have hindexed : ∀ inconsistency ∈ (collectSelection request).identityInconsistencies,
      Indexed inconsistency := fun _ hmem => indexed_of_collect hmem
  obtain ⟨inconsistencies, h⟩ := mapM_projectInconsistency_ok hindexed
  unfold projectSelectionFailure
  rw [bind_of_ok h]
  exact ⟨_, rfl⟩

/-! ### Selected artifacts -/

/-- A correlated artifact is the identity at its index, with the name and the reason of
the target. -/
structure Correlates (identities : ArtifactPackageIdentitySet) (target : RequiredTarget)
    (correlated : CorrelatedSelectedPackageArtifact) : Prop where
  entry : identities.entries[correlated.artifactIndex]? =
    some ⟨correlated.artifactIndex, correlated.identity⟩
  name : correlated.identity.packageName = target.packageName
  reason : correlated.desiredReason = target.desiredReason

def identityNames (identities : ArtifactPackageIdentitySet) : List Bytes :=
  identities.entries.map (·.identity.packageName)

/-- The state of the loop over the selected artifacts. -/
structure CorrelatedSoFar (identities : ArtifactPackageIdentitySet) (targets : List RequiredTarget)
    (correlation : Correlation) : Prop where
  positions : correlation.selectedPositions = correlation.selected.map (·.artifactIndex)
  selected : List.Forall₂ (Correlates identities) targets correlation.selected

theorem name_of_position (h : List.Forall₂ (Correlates identities) targets selected)
    {position : Nat} {entry : IndexedArtifactPackageIdentity}
    (hentry : identities.entries[position]? = some entry)
    (hposition : position ∈ selected.map (·.artifactIndex)) :
    entry.identity.packageName ∈ targets.map RequiredTarget.packageName := by
  induction h with
  | nil => cases hposition
  | @cons target correlated _ _ hfirst _ ih =>
    rcases List.mem_cons.mp hposition with hsame | hrest
    · rw [hsame, hfirst.entry] at hentry
      rw [← Option.some.inj hentry, List.map_cons]
      exact List.mem_cons.mpr (Or.inl hfirst.name)
    · exact List.mem_cons_of_mem _ (ih hrest)

theorem correlateSelected_ok (hdistinct : (identityNames identities).Nodup)
    {done : List RequiredTarget} {correlation : Correlation} {target : RequiredTarget}
    (h : CorrelatedSoFar identities done correlation)
    (hproduced : target.packageName ∈ identityNames identities)
    (hnew : target.packageName ∉ done.map RequiredTarget.packageName) :
    ∃ after, correlateSelected identities correlation
        (⟨⟨target.packageName⟩, target.desiredReason⟩, target) = .ok after ∧
      CorrelatedSoFar identities (done ++ [target]) after := by
  obtain ⟨entry, hentry, hname⟩ := List.mem_map.mp hproduced
  obtain ⟨position, hlt, hget⟩ := List.getElem_of_mem hentry
  have hat : identities.entries[position]? = some entry :=
    List.getElem?_eq_some_iff.mpr ⟨hlt, hget⟩
  have hitem : (entry, position) ∈ identities.entries.zipIdx := mem_zipIdx_iff.mpr hat
  have hfind : findUniqueIdentityPosition identities target.packageName = .ok position := by
    unfold findUniqueIdentityPosition
    have hone := filter_zipIdx_eq hdistinct hitem
    rw [hname] at hone
    rw [hone]
  have hfree : position ∉ correlation.selectedPositions := by
    intro hold
    rw [h.positions] at hold
    apply hnew
    rw [← hname]
    exact name_of_position h.selected hat hold
  have hindex : entry.artifactIndex = position := index_of_mem hitem
  refine ⟨⟨correlation.selectedPositions ++ [position], correlation.selected ++
    [⟨entry.artifactIndex, entry.identity, target.desiredReason⟩]⟩, ?_, ?_, ?_⟩
  · unfold correlateSelected
    rw [bind_of_ok (requireCoherent_of (by simp)), bind_of_ok hfind,
      bind_of_ok (requireCoherent_of (by simpa using hfree)), hat]
  · dsimp only
    rw [h.positions, List.map_append, List.map_singleton, hindex]
  · apply List.rel_append h.selected
    refine List.Forall₂.cons ⟨?_, hname, rfl⟩ List.Forall₂.nil
    dsimp only
    rw [hindex, hat, ← hindex]

theorem correlateSelected_loop (hdistinct : (identityNames identities).Nodup) :
    ∀ {targets done : List RequiredTarget} {correlation : Correlation},
      CorrelatedSoFar identities done correlation →
      (∀ target ∈ targets, target.packageName ∈ identityNames identities) →
      ((done ++ targets).map RequiredTarget.packageName).Nodup →
      ∃ after, ((targets.map fun target =>
          (⟨⟨target.packageName⟩, target.desiredReason⟩ : SelectedPackageArtifact)).zip
            targets).foldlM (correlateSelected identities) correlation = .ok after ∧
        CorrelatedSoFar identities (done ++ targets) after := by
  intro targets
  induction targets with
  | nil =>
    intro done correlation h _ _
    rw [List.append_nil]
    exact ⟨correlation, rfl, h⟩
  | cons target targets ih =>
    intro done correlation h hproduced hnames
    have hnew : target.packageName ∉ done.map RequiredTarget.packageName := by
      rw [List.map_append, List.map_cons] at hnames
      intro hmem
      exact (List.nodup_append.mp hnames).2.2 _ hmem _ List.mem_cons_self rfl
    obtain ⟨next, hstep, hnext⟩ :=
      correlateSelected_ok hdistinct h (hproduced target List.mem_cons_self) hnew
    have hsplit : done ++ target :: targets = (done ++ [target]) ++ targets := by
      rw [List.append_assoc]
      rfl
    rw [hsplit] at hnames ⊢
    obtain ⟨after, hrest, hafter⟩ :=
      ih hnext (fun other hother => hproduced other (List.mem_cons_of_mem _ hother)) hnames
    refine ⟨after, ?_, hafter⟩
    rw [List.map_cons, List.zip_cons_cons, List.foldlM_cons, bind_of_ok hstep, hrest]

/-- What the walk keeps of the identities that are left. -/
def unselectedOf (selectedPositions : List Nat)
    (items : List (IndexedArtifactPackageIdentity × Nat)) :
    List CorrelatedUnselectedPackageArtifact :=
  (items.filter fun item => item.2 ∉ selectedPositions).map fun item =>
    ⟨item.1.artifactIndex, item.1.identity⟩

theorem correlateUnselected_loop {unselected : List ProducedPackageArtifact} :
    ∀ {items : List (IndexedArtifactPackageIdentity × Nat)} {used : Nat}
      {correlated : List CorrelatedUnselectedPackageArtifact}, used ≤ unselected.length →
      unselected.drop used = (unselectedOf selectedPositions items).map
        (fun other => ⟨other.identity.packageName⟩) →
      items.foldlM (correlateUnselected selectedPositions unselected) (used, correlated) =
        .ok (unselected.length, correlated ++ unselectedOf selectedPositions items) := by
  intro items
  induction items with
  | nil =>
    intro used correlated hused hdrop
    have hlength : used = unselected.length := by
      have hnil := List.drop_eq_nil_iff.mp hdrop
      omega
    rw [hlength]
    unfold unselectedOf
    simp only [List.filter_nil, List.map_nil, List.append_nil]
    rfl
  | cons item items ih =>
    intro used correlated hused hdrop
    rw [List.foldlM_cons]
    by_cases hselected : item.2 ∈ selectedPositions
    · have hsame : unselectedOf selectedPositions (item :: items) =
          unselectedOf selectedPositions items := by
        unfold unselectedOf
        rw [List.filter_cons_of_neg (by simpa using hselected)]
      have hstep : correlateUnselected selectedPositions unselected (used, correlated) item =
          .ok (used, correlated) := if_pos hselected
      rw [hsame] at hdrop ⊢
      rw [bind_of_ok hstep]
      exact ih hused hdrop
    · have hcons : unselectedOf selectedPositions (item :: items) =
          ⟨item.1.artifactIndex, item.1.identity⟩ :: unselectedOf selectedPositions items := by
        unfold unselectedOf
        rw [List.filter_cons_of_pos (by simpa using hselected), List.map_cons]
      rw [hcons] at hdrop ⊢
      have hlt : used < unselected.length := by
        by_contra hge
        rw [List.drop_eq_nil_of_le (by omega)] at hdrop
        cases hdrop
      rw [List.drop_eq_getElem_cons hlt, List.map_cons] at hdrop
      injection hdrop with hfirst hrest
      have hstep : correlateUnselected selectedPositions unselected (used, correlated) item =
          .ok (used + 1, correlated ++ [⟨item.1.artifactIndex, item.1.identity⟩]) := by
        unfold correlateUnselected
        rw [if_neg hselected]
        dsimp only
        rw [List.getElem?_eq_getElem hlt]
        dsimp only
        rw [bind_of_ok (requireCoherent_of (by rw [hfirst]; simp))]
      rw [bind_of_ok hstep, ih hlt hrest, List.append_assoc]
      rfl

/-! ### The partition -/

/-- A correlation has the artifacts of a selection, each at its index. -/
structure SamePartition (identities : ArtifactPackageIdentitySet) (selection : SelectionSuccess)
    (correlated : IdentitySelectionSuccess) : Prop where
  packageBase : correlated.packageBase = selection.packageBase
  selected : correlated.selectedArtifacts.map (fun artifact =>
    (⟨⟨artifact.identity.packageName⟩, artifact.desiredReason⟩ : SelectedPackageArtifact)) =
      selection.selectedArtifacts
  unselected : correlated.unselectedArtifacts.map (fun artifact =>
    (⟨artifact.identity.packageName⟩ : ProducedPackageArtifact)) = selection.unselectedArtifacts
  selectedIndex : ∀ artifact ∈ correlated.selectedArtifacts,
    identities.entries[artifact.artifactIndex]? = some ⟨artifact.artifactIndex, artifact.identity⟩
  unselectedIndex : ∀ artifact ∈ correlated.unselectedArtifacts,
    identities.entries[artifact.artifactIndex]? = some ⟨artifact.artifactIndex, artifact.identity⟩
  covered : (correlated.selectedArtifacts.map (·.artifactIndex) ++
    correlated.unselectedArtifacts.map (·.artifactIndex)).Perm
      (List.range identities.entries.length)

theorem names_of_correlates (h : List.Forall₂ (Correlates identities) targets selected) :
    selected.map (·.identity.packageName) = targets.map RequiredTarget.packageName := by
  induction h with
  | nil => rfl
  | cons hfirst _ ih => rw [List.map_cons, List.map_cons, hfirst.name, ih]

theorem selection_of_correlates (h : List.Forall₂ (Correlates identities) targets selected) :
    selected.map (fun artifact =>
      (⟨⟨artifact.identity.packageName⟩, artifact.desiredReason⟩ : SelectedPackageArtifact)) =
      targets.map fun target => ⟨⟨target.packageName⟩, target.desiredReason⟩ := by
  induction h with
  | nil => rfl
  | cons hfirst _ ih => rw [List.map_cons, List.map_cons, hfirst.name, hfirst.reason, ih]

theorem entry_of_correlates (h : List.Forall₂ (Correlates identities) targets selected)
    {artifact : CorrelatedSelectedPackageArtifact} (hmem : artifact ∈ selected) :
    identities.entries[artifact.artifactIndex]? =
      some ⟨artifact.artifactIndex, artifact.identity⟩ := by
  induction h with
  | nil => cases hmem
  | cons hfirst _ ih =>
    rcases List.mem_cons.mp hmem with hsame | hrest
    · rw [hsame]
      exact hfirst.entry
    · exact ih hrest

/-- Selected artifacts of distinct names have distinct indexes. -/
theorem indexes_distinct (h : List.Forall₂ (Correlates identities) targets selected)
    (hdistinct : (targets.map RequiredTarget.packageName).Nodup) :
    (selected.map (·.artifactIndex)).Nodup := by
  rw [← names_of_correlates h, List.Nodup, List.pairwise_map] at hdistinct
  rw [List.Nodup, List.pairwise_map]
  apply hdistinct.imp_of_mem
  intro first second hfirst hsecond hnames hindex
  have hentry := entry_of_correlates h hfirst
  rw [hindex, entry_of_correlates h hsecond] at hentry
  injection Option.some.inj hentry with _ hidentity
  exact hnames (by rw [hidentity])

/-- The positions that are not selected are those whose names nothing requires. -/
theorem selectedPosition_iff (hidentities : (identityNames identities).Nodup)
    (h : List.Forall₂ (Correlates identities) targets selected)
    (hitem : item ∈ identities.entries.zipIdx) :
    item.2 ∈ selected.map (·.artifactIndex) ↔
      item.1.identity.packageName ∈ targets.map RequiredTarget.packageName := by
  constructor
  · exact name_of_position h (mem_zipIdx_iff.mp hitem)
  · intro hname
    rw [← names_of_correlates h] at hname
    obtain ⟨artifact, hartifact, hsame⟩ := List.mem_map.mp hname
    have hother : ((⟨artifact.artifactIndex, artifact.identity⟩, artifact.artifactIndex) :
        IndexedArtifactPackageIdentity × Nat) ∈ identities.entries.zipIdx :=
      mem_zipIdx_iff.mpr (entry_of_correlates h hartifact)
    have hone := filter_zipIdx_eq hidentities hitem
    have hfound : ((⟨artifact.artifactIndex, artifact.identity⟩, artifact.artifactIndex) :
        IndexedArtifactPackageIdentity × Nat) ∈ identities.entries.zipIdx.filter (fun other =>
          other.1.identity.packageName = item.1.identity.packageName) :=
      List.mem_filter.mpr ⟨hother, decide_eq_true hsame⟩
    rw [hone, List.mem_singleton] at hfound
    rw [← hfound]
    exact List.mem_map_of_mem hartifact

theorem unselectedOf_names (hidentities : (identityNames identities).Nodup)
    (h : List.Forall₂ (Correlates identities) targets selected) (packageBase : Bytes) :
    (unselectedOf (selected.map (·.artifactIndex)) identities.entries.zipIdx).map
        (fun other => (⟨other.identity.packageName⟩ : ProducedPackageArtifact)) =
      (selectionOf (requestOf packageBase targets identities)).unselectedArtifacts := by
  have hfilter : (identities.entries.zipIdx.filter fun item =>
      item.2 ∉ selected.map (·.artifactIndex)).map Prod.fst =
      identities.entries.filter fun entry =>
        entry.identity.packageName ∉ targets.map RequiredTarget.packageName := by
    apply filter_zipIdx_map_fst
    intro item hitem
    apply decide_eq_decide.mpr
    exact not_congr (selectedPosition_iff hidentities h hitem)
  unfold selectionOf requestOf unselectedOf
  rw [List.filter_map, List.map_map]
  calc List.map _ (identities.entries.zipIdx.filter fun item =>
          item.2 ∉ selected.map (·.artifactIndex))
      = ((identities.entries.zipIdx.filter fun item =>
          item.2 ∉ selected.map (·.artifactIndex)).map Prod.fst).map fun entry =>
            (⟨entry.identity.packageName⟩ : ProducedPackageArtifact) := by
        rw [List.map_map]
        rfl
    _ = _ := by
        rw [hfilter]
        rfl

theorem unselectedOf_indexes (selectedPositions : List Nat) :
    (unselectedOf selectedPositions identities.entries.zipIdx).map (·.artifactIndex) =
      (List.range identities.entries.length).filter fun position =>
        position ∉ selectedPositions := by
  have hrange : identities.entries.zipIdx.map Prod.snd = List.range identities.entries.length := by
    rw [List.zipIdx_map_snd, List.range_eq_range']
  unfold unselectedOf
  rw [← hrange, List.filter_map, List.map_map]
  apply List.map_congr_left
  intro item hitem
  exact index_of_mem (List.mem_filter.mp hitem).1

theorem covered_perm (hdistinct : selectedPositions.Nodup)
    (hbound : ∀ position ∈ selectedPositions, position < identities.entries.length) :
    (selectedPositions ++
      (unselectedOf selectedPositions identities.entries.zipIdx).map (·.artifactIndex)).Perm
      (List.range identities.entries.length) := by
  rw [unselectedOf_indexes]
  have hall : (selectedPositions ++ (List.range identities.entries.length).filter fun position =>
      position ∉ selectedPositions).Nodup := by
    apply List.nodup_append.mpr
    refine ⟨hdistinct, List.nodup_range.filter _, ?_⟩
    intro position hposition other hother hsame
    rw [hsame] at hposition
    have hnot := (List.mem_filter.mp hother).2
    simp [hposition] at hnot
  apply (List.perm_ext_iff_of_nodup hall List.nodup_range).mpr
  intro position
  rw [List.mem_append, List.mem_filter, List.mem_range]
  constructor
  · rintro (hselected | ⟨hlt, -⟩)
    · exact hbound position hselected
    · exact hlt
  · intro hlt
    by_cases hselected : position ∈ selectedPositions
    · exact Or.inl hselected
    · exact Or.inr ⟨hlt, by simpa using hselected⟩

theorem correlate_of_selectable (h : Selectable (requestOf packageBase targets identities)) :
    ∃ correlated, correlatePackageBaseArtifactIdentities packageBase targets identities =
        .ok (.success correlated) ∧
      SamePartition identities (selectionOf (requestOf packageBase targets identities))
        correlated := by
  have hnames : (requestOf packageBase targets identities).producedArtifacts.map
      ProducedPackageArtifact.packageName = identityNames identities := by
    unfold requestOf identityNames
    rw [List.map_map]
    rfl
  have hidentities := h.produced_distinct
  rw [hnames] at hidentities
  have hproduced : ∀ target ∈ targets, target.packageName ∈ identityNames identities := by
    intro target htarget
    rw [← hnames]
    exact List.mem_map_of_mem (f := ProducedPackageArtifact.packageName)
      (h.required_produced target htarget)
  have hstart : CorrelatedSoFar identities [] {} := ⟨rfl, List.Forall₂.nil⟩
  obtain ⟨correlation, hloop, hcorrelation⟩ := correlateSelected_loop hidentities hstart hproduced
    h.required_distinct
  have hselected := hcorrelation.selected
  rw [List.nil_append] at hselected
  have hdistinct := indexes_distinct hselected h.required_distinct
  have hbound : ∀ position ∈ correlation.selected.map (·.artifactIndex),
      position < identities.entries.length := by
    intro position hposition
    obtain ⟨artifact, hartifact, hindex⟩ := List.mem_map.mp hposition
    rw [← hindex]
    exact (List.getElem?_eq_some_iff.mp (entry_of_correlates hselected hartifact)).1
  have hcovered := covered_perm hdistinct hbound
  have hunselected := unselectedOf_names hidentities hselected packageBase
  have hwalk : identities.entries.zipIdx.foldlM (correlateUnselected
      (correlation.selected.map (·.artifactIndex))
      (selectionOf (requestOf packageBase targets identities)).unselectedArtifacts) (0, []) = _ :=
    correlateUnselected_loop (Nat.zero_le _) hunselected.symm
  have hcount : correlation.selected.length +
      (unselectedOf (correlation.selected.map (·.artifactIndex))
        identities.entries.zipIdx).length = identities.entries.length := by
    have hlength := hcovered.length_eq
    simpa using hlength
  have hsame : (selectionOf (requestOf packageBase targets identities)).unselectedArtifacts.length =
      (unselectedOf (correlation.selected.map (·.artifactIndex))
        identities.entries.zipIdx).length := by
    rw [← hunselected, List.length_map]
  refine ⟨⟨packageBase, correlation.selected, unselectedOf
    (correlation.selected.map (·.artifactIndex)) identities.entries.zipIdx⟩, ?_, ?_⟩
  · unfold correlatePackageBaseArtifactIdentities
    rw [bind_of_ok (requireIdentitySetIndexCoherence_ok identities),
      selectPackageBaseArtifacts_of_selectable h]
    dsimp only
    have hlengths : (selectionOf (requestOf packageBase targets identities)).packageBase =
        packageBase ∧ (selectionOf (requestOf packageBase targets
          identities)).selectedArtifacts.length = targets.length := by
      refine ⟨rfl, ?_⟩
      unfold selectionOf requestOf
      rw [List.length_map]
    rw [bind_of_ok (requireCoherent_of (by simp [hlengths]))]
    have hfold : ((selectionOf (requestOf packageBase targets identities)).selectedArtifacts.zip
        targets).foldlM (correlateSelected identities) {} = .ok correlation := hloop
    rw [bind_of_ok hfold, bind_of_ok (requireCoherent_of (by rw [hsame]; simp; omega)),
      hcorrelation.positions]
    rw [bind_of_ok hwalk]
    dsimp only
    rw [List.nil_append, bind_of_ok (requireCoherent_of (by simp [hcount]))]
  · refine ⟨rfl, selection_of_correlates hselected, hunselected, ?_, ?_, hcovered⟩
    · intro artifact hartifact
      exact entry_of_correlates hselected hartifact
    · intro artifact hartifact
      unfold unselectedOf at hartifact
      obtain ⟨item, hitem, hsame⟩ := List.mem_map.mp hartifact
      have hmem := (List.mem_filter.mp hitem).1
      rw [← hsame]
      dsimp only
      rw [index_of_mem hmem, mem_zipIdx_iff.mp hmem]
      congr 1
      rw [← index_of_mem hmem]

theorem correlate_of_not_selectable (h : ¬ Selectable (requestOf packageBase targets identities)) :
    ∃ projected, correlatePackageBaseArtifactIdentities packageBase targets identities =
        .ok (.failure projected) ∧
      projectSelectionFailure (collectSelection (requestOf packageBase targets identities)) =
        .ok projected := by
  obtain ⟨projected, hprojected⟩ :=
    projectSelectionFailure_ok (requestOf packageBase targets identities)
  refine ⟨projected, ?_, hprojected⟩
  unfold correlatePackageBaseArtifactIdentities
  rw [bind_of_ok (requireIdentitySetIndexCoherence_ok identities),
    selectPackageBaseArtifacts_of_not_selectable h]
  exact bind_of_ok hprojected

end Correlating

/-- A correlation says what the selection says. -/
def Agrees (identities : ArtifactPackageIdentitySet) :
    SelectionResult → IdentitySelectionResult → Prop
  | .success selection, .success correlated => SamePartition identities selection correlated
  | .failure failure, .failure projected => projectSelectionFailure failure = .ok projected
  | _, _ => False

/-- The selection succeeds exactly on requests that can be selected, with what they
require; the correlation of an identity set finds the same partition, or the same failure. -/
theorem artifactSelection_exact (packageBase : Bytes) (requiredTargets : List RequiredTarget)
    (producedArtifacts : List ProducedPackageArtifact) (identities : ArtifactPackageIdentitySet) :
    (match selectPackageBaseArtifacts ⟨packageBase, requiredTargets, producedArtifacts⟩ with
      | .success selection => Selectable ⟨packageBase, requiredTargets, producedArtifacts⟩ ∧
          selection = selectionOf ⟨packageBase, requiredTargets, producedArtifacts⟩
      | .failure _ => ¬ Selectable ⟨packageBase, requiredTargets, producedArtifacts⟩) ∧
    ∃ result, correlatePackageBaseArtifactIdentities packageBase requiredTargets identities =
        .ok result ∧
      Agrees identities
        (selectPackageBaseArtifacts (requestOf packageBase requiredTargets identities)) result := by
  constructor
  · by_cases h : Selectable ⟨packageBase, requiredTargets, producedArtifacts⟩
    · rw [selectPackageBaseArtifacts_of_selectable h]
      exact ⟨h, rfl⟩
    · rw [selectPackageBaseArtifacts_of_not_selectable h]
      exact h
  · by_cases h : Selectable (requestOf packageBase requiredTargets identities)
    · obtain ⟨correlated, hcorrelated, hsame⟩ := correlate_of_selectable h
      refine ⟨.success correlated, hcorrelated, ?_⟩
      rw [selectPackageBaseArtifacts_of_selectable h]
      exact hsame
    · obtain ⟨projected, hcorrelated, hprojected⟩ := correlate_of_not_selectable h
      refine ⟨.failure projected, hcorrelated, ?_⟩
      rw [selectPackageBaseArtifacts_of_not_selectable h]
      exact hprojected

/-- A target whose reason was never set is refused, whatever its names are. -/
theorem artifactSelection_unset_reason :
    ¬ ∀ request : SelectionRequest,
      (∃ selection, selectPackageBaseArtifacts request = .success selection) ↔
        NamesSelectable request := by
  intro h
  have hnames : NamesSelectable ⟨ascii "p", [{ packageBase := ascii "p", packageName := ascii "p" }],
      [⟨ascii "p"⟩]⟩ :=
    ⟨by decide, by decide, by decide, by decide, by decide, by decide, by decide⟩
  obtain ⟨selection, hselection⟩ := (h _).mpr hnames
  by_cases hselectable : Selectable ⟨ascii "p",
      [{ packageBase := ascii "p", packageName := ascii "p" }], [⟨ascii "p"⟩]⟩
  · obtain ⟨reason, hreason⟩ := hselectable.reasons _ List.mem_cons_self
    cases hreason
  · rw [selectPackageBaseArtifacts_of_not_selectable hselectable] at hselection
    cases hselection

end Moguet.Install.ArtifactCorrelation
