import Moguet.Upgrade.Plan
import Moguet.Verified.Checked

/-!
# Who owns what in an upgrade of everything

Nothing that an explicit source owns is built from the AUR, nothing is built
twice, and nothing is left out without an issue. The index holds every name and
base of every explicit source, so a build unit that matches nothing there
belongs to none; the second pass revokes the build units that share a base.
-/

namespace Moguet.Upgrade.Plan

open Verified ByteString Checked Grouping Upsert

variable {index : ExplicitIdentityIndex} {attributions : List BuildUnitRootAttribution}

variable {identities : List NormalizedExplicitIdentity} {sources : List ExplicitSourceIdentity}
  {value : Bytes} {packageNames : List Bytes} {targets : List AurTarget} {units : List AurBuildUnit}
  {rejected : List BuildUnitPlanEntry} {identity : ObservedIdentity}
  {targetIndex buildUnitIndex i : Nat} {target : AurTarget} {correlation : RootCorrelation}
  {buildUnit : AurBuildUnit} {first plan targetPlan : UpgradeAllPlan} {entry : BuildUnitPlanEntry}

/-! ## The index misses no source -/

section

variable {texts : NormalizedExplicitIdentity → List Bytes}
  {given : ExplicitSourceIdentity → List Bytes} {text : Bytes}

/-- Owners list what they have and what a source that joins them gives. -/
def ListsGiven (texts : NormalizedExplicitIdentity → List Bytes)
    (given : ExplicitSourceIdentity → List Bytes) : Prop :=
  ∀ sourceIndex source identity text,
    text ∈ texts (claimSource sourceIndex source identity) ↔
      text ∈ texts identity ∨ text ∈ given source

theorem listsGiven_packageNames : ListsGiven (·.packageNames) explicitPackageNames := by
  intro sourceIndex source identity text
  exact mem_foldl_insertNew

theorem listsGiven_claimedPackageBases : ListsGiven (·.claimedPackageBases)
    fun source => (inspectIdentity source.packageBase).value.toList := by
  intro sourceIndex source identity text
  exact mem_foldl_insertNew

def Listed (texts : NormalizedExplicitIdentity → List Bytes)
    (identities : List NormalizedExplicitIdentity) (text : Bytes) : Prop :=
  ∃ identity ∈ identities, text ∈ texts identity

/-- One source adds what it gives and drops nothing. -/
theorem listed_addExplicitSource (hlists : ListsGiven texts given)
    {entry : ExplicitSourceIdentity × Nat} (h : Listed texts identities text ∨ text ∈ given entry.1)
    : Listed texts (addExplicitSource identities entry) text := by
  unfold addExplicitSource
  dsimp only
  split
  · rename_i key hkey
    rcases h with ⟨identity, hidentity, htext⟩ | hgiven
    · rcases mem_upsert_of_mem hidentity with hkept | hjoined
      · exact ⟨identity, hkept, htext⟩
      · exact ⟨_, hjoined, (hlists _ _ _ _).mpr (Or.inl htext)⟩
    · rcases exists_mem_upsert identities with hfresh | ⟨identity, -, -, hjoined⟩
      · exact ⟨_, hfresh, (hlists _ _ _ _).mpr (Or.inr hgiven)⟩
      · exact ⟨_, hjoined, (hlists _ _ _ _).mpr (Or.inr hgiven)⟩
  · rcases h with ⟨identity, hidentity, htext⟩ | hgiven
    · exact ⟨identity, List.mem_append_left _ hidentity, htext⟩
    · exact ⟨_, List.mem_append_right _ List.mem_cons_self, (hlists _ _ _ _).mpr (Or.inr hgiven)⟩

theorem listed_foldl_addExplicitSource (hlists : ListsGiven texts given) :
    ∀ {entries : List (ExplicitSourceIdentity × Nat)}
      {identities : List NormalizedExplicitIdentity},
      (Listed texts identities text ∨ ∃ entry ∈ entries, text ∈ given entry.1) →
        Listed texts (entries.foldl addExplicitSource identities) text := by
  intro entries
  induction entries with
  | nil =>
    rintro identities (h | ⟨entry, hentry, -⟩)
    · exact h
    · cases hentry
  | cons first entries ih =>
    rintro identities (h | ⟨entry, hentry, htext⟩)
    · exact ih (Or.inl (listed_addExplicitSource hlists (Or.inl h)))
    · rcases List.mem_cons.mp hentry with rfl | hrest
      · exact ih (Or.inl (listed_addExplicitSource hlists (Or.inr htext)))
      · exact ih (Or.inr ⟨entry, hrest, htext⟩)

/-- Every text a source gives is listed by an owner. -/
theorem listed_of_source (hlists : ListsGiven texts given) {source : ExplicitSourceIdentity}
    (hsource : source ∈ sources) (htext : text ∈ given source) :
    Listed texts (normalizedIdentities sources) text := by
  obtain ⟨position, hposition, hget⟩ := List.mem_iff_getElem.mp hsource
  apply listed_foldl_addExplicitSource hlists
  refine Or.inr ⟨(source, position), ?_, htext⟩
  rw [List.mem_zipIdx_iff_getElem?, ← hget]
  exact List.getElem?_eq_getElem hposition

theorem not_listed_of_findGroup (h : findGroup (indexBy identities texts) text = none) :
    ¬ Listed texts identities text := by
  rintro ⟨identity, hidentity, htext⟩
  obtain ⟨position, hposition⟩ := List.mem_iff_get.mp hidentity
  apply findGroup_eq_none h position
  apply List.mem_flatMap.mpr
  refine ⟨position, List.mem_finRange position, ?_⟩
  rw [hposition]
  exact List.mem_map.mpr ⟨text, htext, rfl⟩

/-- A text that is not found is given by no source. -/
theorem not_given_of_findGroup (hlists : ListsGiven texts given)
    (h : findGroup (indexBy (normalizedIdentities sources) texts) text = none) :
    ∀ source ∈ sources, text ∉ given source := fun _ hsource htext =>
  not_listed_of_findGroup h (listed_of_source hlists hsource htext)

end

/-! ## Matches -/

section

variable {index : ExplicitIdentityIndex}

theorem matchStatus_ne_none (positions : List index.Position) :
    matchStatus index positions ≠ .none := by
  unfold matchStatus
  split
  · exact ExplicitMatchStatus.noConfusion
  · exact ExplicitMatchStatus.noConfusion

theorem findExplicitMatch_status_none {groups : List (Bytes × List index.Position)}
    (h : (findExplicitMatch index groups value).status = .none) :
    findGroup groups value = none := by
  unfold findExplicitMatch at h
  split at h
  · assumption
  · exact absurd h (matchStatus_ne_none _)

/-- A conflicting match is one of the groups the index reports. -/
theorem findExplicitMatch_conflicting {groups : List (Bytes × List index.Position)}
    (h : (findExplicitMatch index groups value).status = .conflicting) :
    ∃ positions, findGroup groups value = some positions ∧
      isConflictingMatch index positions = true := by
  unfold findExplicitMatch at h
  split at h
  · cases h
  · rename_i positions hpositions
    unfold matchStatus at h
    split at h
    · exact ⟨positions, hpositions, by assumption⟩
    · cases h

/-- Positions that were found stay, and those of every name are found. -/
theorem mem_foldl_addPackageNameMatch : ∀ {packageNames : List Bytes}
    {found : List index.Position × List Bytes} {position : index.Position},
    (position ∈ found.1 ∨ ∃ packageName ∈ packageNames, packageName ≠ [] ∧
      ∃ positions, findGroup index.byPackageName packageName = some positions ∧
        position ∈ positions) →
    position ∈ (packageNames.foldl (addPackageNameMatch index) found).1 := by
  intro packageNames
  induction packageNames with
  | nil =>
    rintro found position (h | ⟨packageName, hmem, -⟩)
    · exact h
    · cases hmem
  | cons first packageNames ih =>
    intro found position h
    rw [List.foldl_cons]
    apply ih
    have hkept : position ∈ found.1 → position ∈ (addPackageNameMatch index found first).1 := by
      intro hfound
      unfold addPackageNameMatch
      split
      · exact hfound
      · split
        · exact hfound
        · exact mem_foldl_insertNew.mpr (Or.inl hfound)
    rcases h with h | ⟨packageName, hmem, hname, positions, hpositions, hposition⟩
    · exact Or.inl (hkept h)
    · rcases List.mem_cons.mp hmem with rfl | hrest
      · left
        unfold addPackageNameMatch
        rw [if_neg hname, hpositions]
        exact mem_foldl_insertNew.mpr (Or.inr hposition)
      · exact Or.inr ⟨packageName, hrest, hname, positions, hpositions, hposition⟩

/-- Found positions come with the names they were found under. -/
theorem foldl_addPackageNameMatch_names : ∀ {packageNames : List Bytes}
    {found : List index.Position × List Bytes}, (found.1 ≠ [] → found.2 ≠ []) →
    (packageNames.foldl (addPackageNameMatch index) found).1 ≠ [] →
      (packageNames.foldl (addPackageNameMatch index) found).2 ≠ [] := by
  intro packageNames
  induction packageNames with
  | nil =>
    intro found h
    exact h
  | cons first packageNames ih =>
    intro found h
    rw [List.foldl_cons]
    apply ih
    unfold addPackageNameMatch
    split
    · exact h
    · split
      · exact h
      · intro _
        exact List.ne_nil_of_mem (mem_insertNew.mpr (Or.inr rfl))

theorem findExplicitPackageNameMatches_names
    (h : (findExplicitPackageNameMatches index packageNames).status ≠ .none) :
    (findExplicitPackageNameMatches index packageNames).packageNames ≠ [] := by
  unfold findExplicitPackageNameMatches at h ⊢
  dsimp only at h ⊢
  split at h
  · exact absurd rfl h
  · rename_i hfound
    rw [if_neg hfound]
    exact foldl_addPackageNameMatch_names (fun hempty => absurd rfl hempty) hfound

end

/-- Names without a match are in no group. -/
theorem findExplicitPackageNameMatches_none
    (h : (findExplicitPackageNameMatches (buildExplicitIdentityIndex sources)
      packageNames).status = .none) {packageName : Bytes} (hmem : packageName ∈ packageNames)
    (hname : packageName ≠ []) :
    findGroup (buildExplicitIdentityIndex sources).byPackageName packageName = none := by
  cases hgroup : findGroup (buildExplicitIdentityIndex sources).byPackageName packageName with
  | none => rfl
  | some positions =>
    exfalso
    obtain ⟨position, hposition⟩ := List.exists_mem_of_ne_nil _ (findGroup_ne_nil hgroup)
    have hfound : position ∈ (packageNames.foldl
        (addPackageNameMatch (buildExplicitIdentityIndex sources)) ([], [])).1 :=
      mem_foldl_addPackageNameMatch
        (Or.inr ⟨packageName, hmem, hname, positions, hgroup, hposition⟩)
    unfold findExplicitPackageNameMatches at h
    dsimp only at h
    rw [if_neg (List.ne_nil_of_mem hfound)] at h
    exact matchStatus_ne_none _ h

/-! ## Decisions -/

theorem value_of_identityIssues {absent failed empty : PlanningIssueKind}
    {report : PlanningIssueKind → PlanningIssue} {view : IdentityView}
    (h : identityIssues absent failed empty report view = []) : view.value ≠ none := by
  cases view with
  | resolved value => exact Option.some_ne_none value
  | absent => cases h
  | resolutionFailed => cases h
  | emptyResolvedValue => cases h

/-- A resolved identity is one that was observed, and not empty. -/
theorem inspectIdentity_value (h : (inspectIdentity identity).value = some value) :
    identity = .resolved value ∧ value ≠ [] := by
  cases identity with
  | absent => cases h
  | resolutionFailed diagnostic => cases h
  | resolved observed =>
    dsimp only [inspectIdentity] at h
    split at h
    · cases h
    · rename_i hobserved
      injection h with h
      rw [← h]
      exact ⟨rfl, hobserved⟩

/-- Without an issue, no group of the index has more than one owner. -/
theorem not_conflicting_of_issues (h : explicitIdentityIssues sources index = []) :
    (∀ entry ∈ index.byPackageName, isConflictingMatch index entry.2 = false) ∧
      ∀ entry ∈ index.byPackageBase, isConflictingMatch index entry.2 = false := by
  unfold explicitIdentityIssues at h
  simp only [List.append_eq_nil_iff, List.map_eq_nil_iff, List.filter_eq_nil_iff,
    Bool.not_eq_true] at h
  exact ⟨h.1.2, h.2⟩

theorem packageBaseMatch_not_conflicting
    (hissues : explicitIdentityIssues sources (buildExplicitIdentityIndex sources) = [])
    (packageBase : Option Bytes) :
    (packageBaseMatch (buildExplicitIdentityIndex sources) packageBase).status ≠ .conflicting := by
  intro h
  cases packageBase with
  | none => cases h
  | some packageBase =>
    obtain ⟨positions, hgroup, hconflict⟩ := findExplicitMatch_conflicting h
    rw [(not_conflicting_of_issues hissues).2 _ (findGroup_eq_some hgroup)] at hconflict
    cases hconflict

theorem packageNameMatch_not_conflicting
    (hissues : explicitIdentityIssues sources (buildExplicitIdentityIndex sources) = [])
    (packageName : Bytes) :
    (packageNameMatch (buildExplicitIdentityIndex sources) packageName).status ≠ .conflicting := by
  intro h
  unfold packageNameMatch at h
  split at h
  · cases h
  · obtain ⟨positions, hgroup, hconflict⟩ := findExplicitMatch_conflicting h
    rw [(not_conflicting_of_issues hissues).1 _ (findGroup_eq_some hgroup)] at hconflict
    cases hconflict

/-- Selected, or owned by an explicit source. -/
def TargetSettled (disposition : TargetDisposition) : Prop :=
  disposition = .selected ∨ disposition = .excludedByExplicitPackageName ∨
    disposition = .excludedByExplicitPackageBase

def BuildUnitSettled (disposition : BuildUnitDisposition) : Prop :=
  disposition = .selectedForAurExecution ∨
    disposition = .externallySatisfiedByExplicitSourcePackageBase ∨
    disposition = .notRequiredBySelectedTarget

/-- A target without an issue, under an index without one. -/
theorem judgeTarget_settled
    (hexplicit : explicitIdentityIssues sources (buildExplicitIdentityIndex sources) = [])
    (hissues : targetIssues targetIndex target = []) :
    TargetSettled
      (judgeTarget (buildExplicitIdentityIndex sources) targetIndex target).disposition := by
  unfold targetIssues at hissues
  simp only [List.append_eq_nil_iff] at hissues
  obtain ⟨⟨hname, hbase⟩, hstatus⟩ := hissues
  have hresolved := value_of_identityIssues hbase
  have hnamed : target.packageName ≠ [] := by
    intro hempty
    rw [if_pos hempty] at hname
    cases hname
  have hcandidate : target.status = .candidate := by
    cases hvalue : target.status with
    | candidate => rfl
    | unsupported =>
      rw [hvalue] at hstatus
      cases hstatus
    | incomplete =>
      rw [hvalue] at hstatus
      cases hstatus
  unfold judgeTarget
  dsimp only
  split
  · rename_i hconflict
    exact absurd hconflict (packageNameMatch_not_conflicting hexplicit _)
  · exact Or.inr (Or.inl rfl)
  · split
    · rename_i hconflict
      exact absurd hconflict (packageBaseMatch_not_conflicting hexplicit _)
    · exact Or.inr (Or.inr rfl)
    · rw [if_neg (by rw [hcandidate]; exact AurTargetStatus.noConfusion), if_neg]
      · exact Or.inl rfl
      · rintro (hincomplete | hempty | hnone)
        · rw [hcandidate] at hincomplete
          cases hincomplete
        · exact hnamed hempty
        · exact hresolved hnone

theorem judgeTarget_selected (h : (judgeTarget index targetIndex target).disposition = .selected) :
    (inspectIdentity target.packageBase).value ≠ none := by
  unfold judgeTarget at h
  dsimp only at h
  split at h
  · cases h
  · cases h
  · split at h
    · cases h
    · cases h
    · split at h
      · cases h
      · split at h
        · cases h
        · rename_i hcomplete
          intro hnone
          exact hcomplete (Or.inr (Or.inr hnone))

/-- What a selected build unit was seen to be. -/
theorem judgeBuildUnit_selected
    (h : (judgeBuildUnit index correlation buildUnitIndex buildUnit).disposition =
      .selectedForAurExecution) :
    correlation.hasSelectedRoot = true ∧ (inspectIdentity buildUnit.packageBase).value ≠ none ∧
      (packageBaseMatch index (inspectIdentity buildUnit.packageBase).value).status = .none ∧
      (findExplicitPackageNameMatches index buildUnit.packageNames).status = .none := by
  unfold judgeBuildUnit at h
  dsimp only at h
  split at h
  · cases h
  · split at h
    · cases h
    · cases h
  · rename_i hbase
    split at h
    · cases h
    · split at h
      · cases h
      · rename_i hnames
        split at h
        · cases h
        · rename_i hresolved
          split at h
          · cases h
          · rename_i hroot
            have hselected := Bool.of_not_eq_false hroot
            refine ⟨hselected, hresolved, hbase, ?_⟩
            by_contra hmatch
            exact hnames ⟨hselected, hmatch⟩

/-- A name conflict always leaves an issue. -/
theorem nameConflict_issues {matched : ExplicitPackageNameMatches index}
    {conflicting : List index.Position} {affected : List Nat} {packageBase : Option Bytes}
    (h : matched.packageNames ≠ []) :
    (nameConflict index matched conflicting affected buildUnitIndex packageBase).issues ≠ [] := by
  unfold nameConflict buildUnitPackageNameConflictIssues
  rw [ne_eq, List.map_eq_nil_iff]
  exact h

theorem judgeBuildUnit_settled
    (hexplicit : explicitIdentityIssues sources (buildExplicitIdentityIndex sources) = [])
    (hcorrelated : correlation.hasCorrelationIssue = false)
    (hresolved : (inspectIdentity buildUnit.packageBase).value ≠ none)
    (hissues : (judgeBuildUnit (buildExplicitIdentityIndex sources) correlation
      buildUnitIndex buildUnit).issues = []) :
    BuildUnitSettled (judgeBuildUnit (buildExplicitIdentityIndex sources) correlation
      buildUnitIndex buildUnit).disposition := by
  unfold judgeBuildUnit at hissues ⊢
  dsimp only at hissues ⊢
  split at hissues
  · rename_i hconflict
    exact absurd hconflict (packageBaseMatch_not_conflicting hexplicit _)
  · split at hissues
    · rename_i hnames
      have hmatched : (findExplicitPackageNameMatches (buildExplicitIdentityIndex sources)
          buildUnit.packageNames).status ≠ .none := by
        intro hnone
        simp [namesMatchSameIdentity, hnone] at hnames
      exact absurd hissues (nameConflict_issues (findExplicitPackageNameMatches_names hmatched))
    · rename_i hnames
      rw [if_neg hnames]
      exact Or.inr (Or.inl rfl)
  · rw [if_neg (by rw [hcorrelated]; exact Bool.noConfusion)] at hissues ⊢
    split at hissues
    · rename_i hmatched
      exact absurd hissues (nameConflict_issues (findExplicitPackageNameMatches_names hmatched.2))
    · rename_i hnames
      rw [if_neg hnames, if_neg hresolved]
      split
      · exact Or.inr (Or.inr rfl)
      · exact Or.inl rfl

/-! ## The loops -/

/-- The loop over the targets appends one entry and its issues for each. -/
theorem foldl_planTarget (index : ExplicitIdentityIndex) :
    ∀ (entries : List (AurTarget × Nat)) (plan : UpgradeAllPlan),
      entries.foldl (planTarget index) plan =
        { plan with
          targetDispositions := plan.targetDispositions ++ entries.map (targetEntry index)
          excludedDuplicateTargetIndexes := plan.excludedDuplicateTargetIndexes ++
            entries.flatMap fun entry =>
              if isExcluded (judgeTarget index entry.2 entry.1).disposition then [entry.2] else []
          issues := plan.issues ++ entries.flatMap fun entry =>
            targetIssues entry.2 entry.1 ++ (judgeTarget index entry.2 entry.1).issues } := by
  intro entries
  induction entries with
  | nil =>
    intro plan
    simp
  | cons entry entries ih =>
    intro plan
    rw [List.foldl_cons, ih]
    simp [planTarget]

/-- The part of a plan that the second phase only reads. -/
structure SameTargets (plan plan' : UpgradeAllPlan) : Prop where
  explicitSources : plan'.explicitSources = plan.explicitSources
  targetDispositions : plan'.targetDispositions = plan.targetDispositions
  selectedTargets : plan'.selectedTargets = plan.selectedTargets
  originalToSelectedIndex : plan'.originalToSelectedIndex = plan.originalToSelectedIndex

theorem SameTargets.refl (plan : UpgradeAllPlan) : SameTargets plan plan :=
  ⟨rfl, rfl, rfl, rfl⟩

theorem SameTargets.trans {second third : UpgradeAllPlan} (h : SameTargets first second)
    (h' : SameTargets second third) : SameTargets first third :=
  ⟨h'.1.trans h.1, h'.2.trans h.2, h'.3.trans h.3, h'.4.trans h.4⟩

theorem correlateRoots_congr {plan' : UpgradeAllPlan} (h : SameTargets plan plan')
    (buildUnitIndex : Nat) (attributions : List BuildUnitRootAttribution) :
    correlateRoots plan' buildUnitIndex attributions =
      correlateRoots plan buildUnitIndex attributions := by
  unfold correlateRoots
  rw [h.targetDispositions, h.originalToSelectedIndex]

/-- The issues of one build unit. -/
def buildUnitIssues (index : ExplicitIdentityIndex) (plan : UpgradeAllPlan)
    (entry : AurBuildUnit × Nat) : List PlanningIssue :=
  let correlation := correlateRoots plan entry.2 entry.1.rootAttributions
  correlation.issues ++
    buildUnitPackageBaseIssues entry.2 (inspectIdentity entry.1.packageBase) ++
    (judgeBuildUnit index correlation entry.2 entry.1).issues

/-- The entry of a build unit over the targets of the plan. -/
def plannedUnit (index : ExplicitIdentityIndex) (plan : UpgradeAllPlan)
    (entry : AurBuildUnit × Nat) : BuildUnitPlanEntry :=
  buildUnitEntry index (correlateRoots plan entry.2 entry.1.rootAttributions) entry

theorem foldl_planBuildUnit (index : ExplicitIdentityIndex) :
    ∀ (entries : List (AurBuildUnit × Nat)) {plan : UpgradeAllPlan}, SameTargets first plan →
      SameTargets first (entries.foldl (planBuildUnit index) plan) ∧
      (entries.foldl (planBuildUnit index) plan).buildUnitDispositions =
        plan.buildUnitDispositions ++ entries.map (plannedUnit index first) ∧
      (entries.foldl (planBuildUnit index) plan).issues =
        plan.issues ++ entries.flatMap (buildUnitIssues index first) := by
  intro entries
  induction entries with
  | nil =>
    intro plan hsame
    simp [hsame]
  | cons entry entries ih =>
    intro plan hsame
    have hstep : SameTargets first (planBuildUnit index plan entry) :=
      hsame.trans ⟨rfl, rfl, rfl, rfl⟩
    obtain ⟨hkept, hentries, hissues⟩ := ih hstep
    have hcorrelation := correlateRoots_congr hsame entry.2 entry.1.rootAttributions
    rw [List.foldl_cons]
    refine ⟨hkept, ?_, ?_⟩
    · rw [hentries]
      simp only [planBuildUnit, hcorrelation, List.map_cons, List.append_assoc,
        List.singleton_append]
      rfl
    · rw [hissues]
      simp only [planBuildUnit, hcorrelation, List.flatMap_cons, List.append_assoc]
      simp [buildUnitIssues]

/-! ## The second pass -/

theorem getElem?_foldl_modify : ∀ {positions : List Nat} {entries : List BuildUnitPlanEntry}
    {i : Nat}, (positions.foldl
        (fun entries position => entries.modify position revokeEntry) entries)[i]? =
      entries[i]?.map fun entry => if i ∈ positions then revokeEntry entry else entry := by
  intro positions
  induction positions with
  | nil =>
    intro entries i
    simp
  | cons position positions ih =>
    intro entries i
    rw [List.foldl_cons, ih, List.getElem?_modify]
    cases entries[i]? with
    | none => rfl
    | some entry =>
      by_cases hsame : position = i
      · by_cases hrest : i ∈ positions
        · simp [hsame, hrest, revokeEntry]
        · simp [hsame, hrest]
      · have hne : i ≠ position := fun h => hsame h.symm
        simp [hsame, hne]

/-- A group of two or more holds the position. -/
def Rejected (groups : List (Bytes × List Nat)) (i : Nat) : Prop :=
  ∃ found ∈ groups, 2 ≤ found.2.length ∧ i ∈ found.2

instance (groups : List (Bytes × List Nat)) (i : Nat) : Decidable (Rejected groups i) :=
  inferInstanceAs (Decidable (∃ found ∈ groups, 2 ≤ found.2.length ∧ i ∈ found.2))

theorem rejected_cons {first : Bytes × List Nat} {groups : List (Bytes × List Nat)} :
    Rejected (first :: groups) i ↔ (2 ≤ first.2.length ∧ i ∈ first.2) ∨ Rejected groups i := by
  constructor
  · rintro ⟨found, hfound, hlarge⟩
    rcases List.mem_cons.mp hfound with rfl | hrest
    · exact Or.inl hlarge
    · exact Or.inr ⟨found, hrest, hlarge⟩
  · rintro (hlarge | ⟨found, hfound, hlarge⟩)
    · exact ⟨first, List.mem_cons_self, hlarge⟩
    · exact ⟨found, List.mem_cons_of_mem _ hfound, hlarge⟩

/-- The rejected positions are revoked, and no others. -/
theorem getElem?_foldl_rejectGroup : ∀ {groups : List (Bytes × List Nat)}
    {plan : UpgradeAllPlan} {i : Nat},
    (groups.foldl rejectGroup plan).buildUnitDispositions[i]? =
      plan.buildUnitDispositions[i]?.map fun entry =>
        if Rejected groups i then revokeEntry entry else entry := by
  intro groups
  induction groups with
  | nil =>
    intro plan i
    simp [Rejected]
  | cons first groups ih =>
    intro plan i
    rw [List.foldl_cons, ih, rejectGroup]
    by_cases hsmall : first.2.length < 2
    · rw [if_pos hsmall]
      have hnot : ¬ 2 ≤ first.2.length := by omega
      simp [rejected_cons, hnot]
    · rw [if_neg hsmall]
      dsimp only
      rw [getElem?_foldl_modify, Option.map_map]
      have hlarge : 2 ≤ first.2.length := by omega
      congr 1
      funext entry
      by_cases hfirst : i ∈ first.2
      · by_cases hrest : Rejected groups i
        · simp [rejected_cons, hfirst, hlarge, hrest, revokeEntry]
        · simp [rejected_cons, hfirst, hlarge, hrest]
      · simp [rejected_cons, hfirst]

theorem foldl_rejectGroup_sameTargets : ∀ (groups : List (Bytes × List Nat))
    (plan : UpgradeAllPlan), SameTargets plan (groups.foldl rejectGroup plan) := by
  intro groups
  induction groups with
  | nil =>
    intro plan
    exact SameTargets.refl plan
  | cons first groups ih =>
    intro plan
    have hstep : SameTargets plan (rejectGroup plan first) := by
      unfold rejectGroup
      split
      · exact SameTargets.refl plan
      · exact ⟨rfl, rfl, rfl, rfl⟩
    exact hstep.trans (ih _)

/-- Issues stay, and a group that is rejected leaves one. -/
theorem foldl_rejectGroup_issues : ∀ (groups : List (Bytes × List Nat))
    (plan : UpgradeAllPlan), (groups.foldl rejectGroup plan).issues = [] →
      plan.issues = [] ∧ ∀ found ∈ groups, ¬ 2 ≤ found.2.length := by
  intro groups
  induction groups with
  | nil =>
    intro plan h
    refine ⟨h, ?_⟩
    intro found hfound
    cases hfound
  | cons first groups ih =>
    intro plan h
    obtain ⟨hissues, hgroups⟩ := ih _ h
    unfold rejectGroup at hissues
    by_cases hsmall : first.2.length < 2
    · rw [if_pos hsmall] at hissues
      refine ⟨hissues, ?_⟩
      intro found hfound
      rcases List.mem_cons.mp hfound with rfl | hrest
      · omega
      · exact hgroups found hrest
    · rw [if_neg hsmall] at hissues
      simp at hissues

/-- Groups of one leave the plan as it is. -/
theorem foldl_rejectGroup_small : ∀ {groups : List (Bytes × List Nat)}
    {plan : UpgradeAllPlan}, (∀ found ∈ groups, ¬ 2 ≤ found.2.length) →
      groups.foldl rejectGroup plan = plan := by
  intro groups
  induction groups with
  | nil =>
    intro plan _
    rfl
  | cons first groups ih =>
    intro plan h
    have hfirst : rejectGroup plan first = plan := by
      have hsmall := h first List.mem_cons_self
      unfold rejectGroup
      rw [if_pos (by omega)]
    rw [List.foldl_cons, hfirst]
    exact ih fun found hfound => h found (List.mem_cons_of_mem _ hfound)

/-- The package base, where there is one. -/
def baseOf (identity : ObservedIdentity) : Bytes :=
  (inspectIdentity identity).value.getD []

theorem requirePackageBase_ok {error : PlanLogicError} (h : (inspectIdentity identity).value ≠ none)
    : requirePackageBase error identity = .ok (baseOf identity) := by
  unfold requirePackageBase baseOf
  cases hvalue : (inspectIdentity identity).value with
  | none => exact absurd hvalue h
  | some value => rfl

theorem inspectIdentity_of_resolved (h : (inspectIdentity identity).value ≠ none) :
    (inspectIdentity identity).value = some (baseOf identity) := by
  unfold baseOf
  cases hvalue : (inspectIdentity identity).value with
  | none => exact absurd hvalue h
  | some value => rfl

/-- The base and position of every selected build unit. -/
def selectedPairs (entries : List BuildUnitPlanEntry) : List (Bytes × Nat) :=
  (entries.zipIdx.filter fun entry => buildUnitEntryIsSelected entry.1).map fun entry =>
    (baseOf entry.1.buildUnit.packageBase, entry.2)

theorem selectedByPackageBase_ok {entries : List BuildUnitPlanEntry}
    (h : ∀ entry ∈ entries, buildUnitEntryIsSelected entry = true →
      (inspectIdentity entry.buildUnit.packageBase).value ≠ none) :
    selectedByPackageBase entries = .ok (group keyLe (selectedPairs entries)) := by
  unfold selectedByPackageBase
  rw [mapM_eq_ok (g := fun entry => (baseOf entry.1.buildUnit.packageBase, entry.2))]
  · rfl
  · intro entry hentry
    obtain ⟨hmem, hselected⟩ := List.mem_filter.mp hentry
    rw [requirePackageBase_ok (h entry.1 (List.fst_mem_of_mem_zipIdx hmem) hselected)]
    rfl

theorem mem_selectedPairs {entries : List BuildUnitPlanEntry} (hentry : entries[i]? = some entry)
    (hselected : buildUnitEntryIsSelected entry = true) :
    (baseOf entry.buildUnit.packageBase, i) ∈ selectedPairs entries := by
  apply List.mem_map.mpr
  refine ⟨(entry, i), List.mem_filter.mpr ⟨?_, hselected⟩, rfl⟩
  exact List.mem_zipIdx_iff_getElem?.mpr hentry

theorem two_le_length_of_mem {values : List Nat} {j : Nat} (hi : i ∈ values) (hj : j ∈ values)
    (hne : i ≠ j) : 2 ≤ values.length := by
  cases values with
  | nil => cases hi
  | cons first rest =>
    cases rest with
    | nil =>
      rw [List.mem_singleton] at hi hj
      exact absurd (hi.trans hj.symm) hne
    | cons second rest =>
      rw [List.length_cons, List.length_cons]
      omega

/-- An entry that is selected after the second pass was selected before it, and
is the only one with its base. -/
theorem rejectGroups_selected (plan : UpgradeAllPlan) {i : Nat} {entry : BuildUnitPlanEntry}
    (hentry : ((group keyLe (selectedPairs plan.buildUnitDispositions)).foldl rejectGroup
      plan).buildUnitDispositions[i]? = some entry)
    (hselected : buildUnitEntryIsSelected entry = true) :
    plan.buildUnitDispositions[i]? = some entry ∧
      ∀ j other, plan.buildUnitDispositions[j]? = some other →
        buildUnitEntryIsSelected other = true →
        baseOf other.buildUnit.packageBase = baseOf entry.buildUnit.packageBase → j = i := by
  rw [getElem?_foldl_rejectGroup] at hentry
  obtain ⟨before, hbefore, hmark⟩ := Option.map_eq_some_iff.mp hentry
  by_cases hrejected : Rejected (group keyLe (selectedPairs plan.buildUnitDispositions)) i
  · rw [if_pos hrejected] at hmark
    rw [← hmark] at hselected
    cases hselected
  · rw [if_neg hrejected] at hmark
    rw [hmark] at hbefore
    refine ⟨hbefore, ?_⟩
    intro j other hother hotherSelected hbase
    by_contra hne
    -- both positions are in the group of the base
    have hown := mem_selectedPairs hbefore hselected
    have hpair := mem_selectedPairs hother hotherSelected
    rw [hbase] at hpair
    apply hrejected
    refine ⟨(baseOf entry.buildUnit.packageBase, valuesOf (selectedPairs
      plan.buildUnitDispositions) (baseOf entry.buildUnit.packageBase)), ?_, ?_, ?_⟩
    · exact mem_group.mpr ⟨List.mem_map.mpr ⟨_, hown, rfl⟩, rfl⟩
    · exact two_le_length_of_mem (mem_valuesOf.mpr hpair) (mem_valuesOf.mpr hown) hne
    · exact mem_valuesOf.mpr hown

/-! ## Numbering -/

/-- The entries of a numbering, each at its own position. -/
theorem foldlM_checkTargetEntry : ∀ {items : List TargetPlanEntry} {next offset : Nat},
      items.map (·.originalTargetIndex) = List.range' offset items.length →
      (∀ i, i < items.length → plan.originalToSelectedIndex[offset + i]? =
        (numbers targetEntryIsSelected next items)[i]?) →
      ((marked targetEntryIsSelected
          (fun entry number => { entry with selectedIndex := number }) next items).zipIdx
            offset).foldlM (checkTargetEntry plan) next =
        .ok (next + (items.filter targetEntryIsSelected).length) := by
  intro items
  induction items with
  | nil =>
    intro next offset _ _
    rfl
  | cons item items ih =>
    intro next offset hpositions hmapping
    rw [List.map_cons, List.length_cons, List.range'_succ, List.cons.injEq] at hpositions
    obtain ⟨hposition, hrest⟩ := hpositions
    have hcell := hmapping 0 (Nat.zero_lt_succ _)
    have hcells : ∀ rest : List (Option Nat), ∀ cell : Option Nat,
        numbers targetEntryIsSelected next (item :: items) = cell :: rest →
        ∀ i, i < items.length → plan.originalToSelectedIndex[offset + 1 + i]? = rest[i]? := by
      intro rest cell hnumbers i hi
      have hshift := hmapping (i + 1) (Nat.succ_lt_succ hi)
      rw [hnumbers, List.getElem?_cons_succ] at hshift
      rw [← hshift]
      congr 1
      omega
    by_cases hselected : targetEntryIsSelected item = true
    · have hnumbers : numbers targetEntryIsSelected next (item :: items) =
          some next :: numbers targetEntryIsSelected (next + 1) items := by
        rw [numbers, if_pos hselected]
      rw [hnumbers] at hcell
      have hlater := ih hrest (hcells _ _ hnumbers)
      unfold marked at hlater ⊢
      rw [hnumbers, List.zipWith_cons_cons, List.zipIdx_cons, List.foldlM_cons]
      have hstep : checkTargetEntry plan next
          ({ item with selectedIndex := some next }, offset) = .ok (next + 1) := by
        simp [checkTargetEntry, hposition, targetEntryIsSelected] at hselected hcell ⊢
        simp [hselected, hcell]
      rw [hstep, bind_of_ok rfl, hlater, List.filter_cons_of_pos hselected, List.length_cons]
      congr 1
      omega
    · have hnumbers : numbers targetEntryIsSelected next (item :: items) =
          none :: numbers targetEntryIsSelected next items := by
        rw [numbers, if_neg hselected]
      rw [hnumbers] at hcell
      have hlater := ih hrest (hcells _ _ hnumbers)
      unfold marked at hlater ⊢
      rw [hnumbers, List.zipWith_cons_cons, List.zipIdx_cons, List.foldlM_cons]
      have hstep : checkTargetEntry plan next
          ({ item with selectedIndex := none }, offset) = .ok next := by
        simp [checkTargetEntry, hposition, targetEntryIsSelected] at hselected hcell ⊢
        simp [hselected, hcell]
      rw [hstep, bind_of_ok rfl, hlater, List.filter_cons_of_neg hselected]

/-- The entries of the targets before they are numbered. -/
def targetEntries (sources : List ExplicitSourceIdentity) (targets : List AurTarget) :
    List TargetPlanEntry :=
  targets.zipIdx.map (targetEntry (buildExplicitIdentityIndex sources))

def numberTarget (entry : TargetPlanEntry) (number : Option Nat) : TargetPlanEntry :=
  { entry with selectedIndex := number }

@[simp] theorem numberTarget_target (entry : TargetPlanEntry) (number : Option Nat) :
    (numberTarget entry number).target = entry.target := rfl

@[simp] theorem numberTarget_originalTargetIndex (entry : TargetPlanEntry) (number : Option Nat) :
    (numberTarget entry number).originalTargetIndex = entry.originalTargetIndex := rfl

@[simp] theorem numberTarget_selectedIndex (entry : TargetPlanEntry) (number : Option Nat) :
    (numberTarget entry number).selectedIndex = number := rfl

/-- The first phase in closed form. -/
structure TargetsPlanned (sources : List ExplicitSourceIdentity) (targets : List AurTarget)
    (plan : UpgradeAllPlan) : Prop where
  explicitSources : plan.explicitSources = sources
  targetDispositions : plan.targetDispositions =
    marked targetEntryIsSelected numberTarget 0 (targetEntries sources targets)
  selectedTargets : plan.selectedTargets =
    (((targetEntries sources targets).filter targetEntryIsSelected).zipIdx 0).map fun entry =>
      ⟨entry.2, entry.1.originalTargetIndex, entry.1.target.packageName,
        baseOf entry.1.target.packageBase⟩
  originalToSelectedIndex : plan.originalToSelectedIndex =
    numbers targetEntryIsSelected 0 (targetEntries sources targets)
  issues : plan.issues =
    explicitIdentityIssues sources (buildExplicitIdentityIndex sources) ++
      targets.zipIdx.flatMap fun entry => targetIssues entry.2 entry.1 ++
        (judgeTarget (buildExplicitIdentityIndex sources) entry.2 entry.1).issues
  noBuildUnits : plan.buildUnitDispositions = [] ∧ plan.selectedBuildUnits = [] ∧
    plan.externallySatisfiedBuildUnitIndexes = [] ∧
    plan.externallySatisfiedPackageBases = []

theorem targetEntries_positions (sources : List ExplicitSourceIdentity) (targets : List AurTarget) :
    (targetEntries sources targets).map (·.originalTargetIndex) =
      List.range' 0 (targetEntries sources targets).length := by
  unfold targetEntries
  rw [List.map_map, List.length_map, List.length_zipIdx]
  exact List.zipIdx_map_snd 0 targets

theorem targetEntries_resolved {entry : TargetPlanEntry}
    (hentry : entry ∈ targetEntries sources targets)
    (hselected : targetEntryIsSelected entry = true) :
    (inspectIdentity entry.target.packageBase).value ≠ none := by
  obtain ⟨target, -, rfl⟩ := List.mem_map.mp hentry
  exact judgeTarget_selected (of_decide_eq_true hselected)

theorem makeUpgradeAllTargetPlan_ok (sources : List ExplicitSourceIdentity)
    (targets : List AurTarget) :
    ∃ plan, makeUpgradeAllTargetPlan sources targets = .ok plan ∧
      TargetsPlanned sources targets plan := by
  unfold makeUpgradeAllTargetPlan
  dsimp only
  rw [foldl_planTarget]
  unfold populateSelectedTargets
  rw [List.nil_append, ← targetEntries, numberPicked_ok fun entry hentry hselected =>
    requirePackageBase_ok (targetEntries_resolved hentry hselected)]
  refine ⟨_, rfl, rfl, rfl, rfl, ?_, rfl, rfl, rfl, rfl, rfl⟩
  have hcells : ((targetEntries sources targets).filter targetEntryIsSelected).zipIdx.foldl
      (fun cells entry => cells.set entry.1.originalTargetIndex (some entry.2))
      ([] ++ List.replicate (targetEntries sources targets).length none) =
        [] ++ numbers targetEntryIsSelected 0 (targetEntries sources targets) :=
    foldl_set_numbers (targetEntries_positions sources targets)
  rw [List.nil_append, List.nil_append] at hcells
  rw [← hcells]
  dsimp only
  rw [List.foldl_map]

theorem validateTargetPlanForCompletion_ok (hplan : TargetsPlanned sources targets plan) :
    validateTargetPlanForCompletion plan = .ok () := by
  obtain ⟨hentries, hselected, hsatisfied, hbases⟩ := hplan.noBuildUnits
  have hlength : plan.targetDispositions.length = plan.originalToSelectedIndex.length := by
    rw [hplan.targetDispositions, hplan.originalToSelectedIndex, marked, List.length_zipWith,
      length_numbers, Nat.min_self]
  have hchecked : plan.targetDispositions.zipIdx.foldlM (checkTargetEntry plan) 0 =
      .ok plan.selectedTargets.length := by
    rw [hplan.targetDispositions, hplan.selectedTargets, List.length_map, List.length_zipIdx]
    have hmapping : ∀ i, i < (targetEntries sources targets).length →
        plan.originalToSelectedIndex[0 + i]? =
          (numbers targetEntryIsSelected 0 (targetEntries sources targets))[i]? := by
      intro i _
      rw [hplan.originalToSelectedIndex, Nat.zero_add]
    have hrun := foldlM_checkTargetEntry (targetEntries_positions sources targets) hmapping
    rw [Nat.zero_add] at hrun
    exact hrun
  unfold validateTargetPlanForCompletion
  rw [if_neg (by simp [hentries, hselected, hsatisfied, hbases]),
    if_neg (not_not.mpr hlength), hchecked, bind_of_ok rfl, if_neg (not_not.mpr rfl)]

/-! ## The returned plan -/

/-- The package base of an explicit source. -/
def OwnsBase (source : ExplicitSourceIdentity) (packageBase : Bytes) : Prop :=
  source.packageBase = .resolved packageBase

/-- A package name of an explicit source; an empty name is a missing one. -/
def OwnsName (source : ExplicitSourceIdentity) (packageName : Bytes) : Prop :=
  packageName ≠ [] ∧ (packageName = source.preferencePackageName ∨
    packageName ∈ source.producedPackageNames)

/-- A build unit that is built from the AUR: it has a base and a selected root,
and no explicit source owns any of it. -/
structure BuiltFromAur (input : PlanInput) (plan : UpgradeAllPlan) (buildUnit : AurBuildUnit)
    (packageBase : Bytes) : Prop where
  resolved : buildUnit.packageBase = .resolved packageBase
  nonempty : packageBase ≠ []
  root : ∃ attribution ∈ buildUnit.rootAttributions, ∃ target,
    plan.targetDispositions[attribution.originalTargetIndex]? = some target ∧
      target.disposition = .selected
  base : ∀ source ∈ input.explicitSources, ¬ OwnsBase source packageBase
  names : ∀ source ∈ input.explicitSources, ∀ packageName ∈ buildUnit.packageNames,
    ¬ OwnsName source packageName

structure UpgradeOwnership (input : PlanInput) (plan : UpgradeAllPlan) : Prop where
  targets : plan.targetDispositions.map (·.target) = input.aurTargets
  targetIndexes : plan.targetDispositions.map (·.originalTargetIndex) =
    List.range input.aurTargets.length
  buildUnits : plan.buildUnitDispositions.map (·.buildUnit) = input.buildUnits
  buildUnitIndexes : plan.buildUnitDispositions.map (·.originalBuildPlanIndex) =
    List.range input.buildUnits.length
  built : ∀ entry ∈ plan.buildUnitDispositions,
    entry.disposition = .selectedForAurExecution →
      ∃ packageBase, BuiltFromAur input plan entry.buildUnit packageBase
  distinctBases : (plan.selectedBuildUnits.map (·.packageBase)).Nodup
  targetSelected : ∀ entry ∈ plan.targetDispositions,
    entry.selectedIndex.isSome = true ↔ entry.disposition = .selected
  targetNumbers : plan.targetDispositions.filterMap (·.selectedIndex) =
    List.range plan.selectedTargets.length
  selectedTargets : plan.selectedTargets = plan.targetDispositions.filterMap fun entry =>
    entry.selectedIndex.map fun number =>
      ⟨number, entry.originalTargetIndex, entry.target.packageName,
        baseOf entry.target.packageBase⟩
  mapping : plan.originalToSelectedIndex = plan.targetDispositions.map (·.selectedIndex)
  buildUnitSelected : ∀ entry ∈ plan.buildUnitDispositions,
    entry.selectedExecutionIndex.isSome = true ↔
      entry.disposition = .selectedForAurExecution
  buildUnitNumbers : plan.buildUnitDispositions.filterMap (·.selectedExecutionIndex) =
    List.range plan.selectedBuildUnits.length
  selectedBuildUnits : plan.selectedBuildUnits =
    plan.buildUnitDispositions.filterMap fun entry =>
      entry.selectedExecutionIndex.map fun number =>
        ⟨number, entry.originalBuildPlanIndex, baseOf entry.buildUnit.packageBase⟩
  settled : plan.issues = [] →
    (∀ entry ∈ plan.targetDispositions, TargetSettled entry.disposition) ∧
      ∀ entry ∈ plan.buildUnitDispositions, BuildUnitSettled entry.disposition

theorem hasCorrelationIssue_of_issues
    (h : (correlateRoots plan buildUnitIndex attributions).issues = []) :
    (correlateRoots plan buildUnitIndex attributions).hasCorrelationIssue = false := by
  simp only [correlateRoots, List.append_eq_nil_iff, List.map_eq_nil_iff,
    List.filter_eq_nil_iff] at h
  simp only [correlateRoots, Bool.or_eq_false_iff, decide_eq_false_iff_not, List.any_eq_false]
  refine ⟨?_, h.2⟩
  intro hempty
  rw [if_pos hempty] at h
  cases h.1

theorem exists_selected_root
    (h : (correlateRoots plan buildUnitIndex attributions).hasSelectedRoot = true) :
    ∃ attribution ∈ attributions, ∃ number,
      plan.originalToSelectedIndex[attribution.originalTargetIndex]? = some (some number) := by
  simp only [correlateRoots, List.any_eq_true, Bool.and_eq_true] at h
  obtain ⟨attribution, hattribution, -, hselected⟩ := h
  obtain ⟨number, hnumber⟩ := Option.isSome_iff_exists.mp hselected
  exact ⟨attribution, hattribution, number, Option.join_eq_some_iff.mp hnumber⟩

/-- No explicit source owns what matches nothing in the index. -/
theorem not_owned_of_no_match {packageBase : Bytes}
    (hvalue : (inspectIdentity buildUnit.packageBase).value = some packageBase)
    (hbase : (packageBaseMatch (buildExplicitIdentityIndex sources)
      (inspectIdentity buildUnit.packageBase).value).status = .none)
    (hnames : (findExplicitPackageNameMatches (buildExplicitIdentityIndex sources)
      buildUnit.packageNames).status = .none) :
    (∀ source ∈ sources, ¬ OwnsBase source packageBase) ∧
      ∀ source ∈ sources, ∀ packageName ∈ buildUnit.packageNames,
        ¬ OwnsName source packageName := by
  constructor
  · intro source hsource howns
    rw [hvalue] at hbase
    have hnone := findExplicitMatch_status_none hbase
    apply not_given_of_findGroup listsGiven_claimedPackageBases hnone source hsource
    have hnonempty := (inspectIdentity_value hvalue).2
    rw [howns, inspectIdentity, if_neg hnonempty]
    exact List.mem_singleton.mpr rfl
  · rintro source hsource packageName hmem ⟨hname, howns⟩
    have hnone := findExplicitPackageNameMatches_none hnames hmem hname
    apply not_given_of_findGroup listsGiven_packageNames hnone source hsource
    exact List.mem_filter.mpr ⟨List.mem_cons.mpr howns, decide_eq_true hname⟩

theorem map_foldl_rejectGroup {δ : Type} (field : BuildUnitPlanEntry → δ)
    (hfield : ∀ entry, field (revokeEntry entry) = field entry)
    (groups : List (Bytes × List Nat)) (plan : UpgradeAllPlan) :
    (groups.foldl rejectGroup plan).buildUnitDispositions.map field =
      plan.buildUnitDispositions.map field := by
  apply List.ext_getElem?
  intro i
  rw [List.getElem?_map, List.getElem?_map, getElem?_foldl_rejectGroup, Option.map_map]
  congr 1
  funext entry
  by_cases hrejected : Rejected groups i
  · simp [hrejected, hfield]
  · simp [hrejected]

/-- Without a group to reject, the entries stay as they are. -/
theorem foldl_rejectGroup_eq (groups : List (Bytes × List Nat)) (plan : UpgradeAllPlan)
    (h : ∀ found ∈ groups, ¬ 2 ≤ found.2.length) :
    (groups.foldl rejectGroup plan).buildUnitDispositions = plan.buildUnitDispositions := by
  apply List.ext_getElem?
  intro i
  have hkept : ¬ Rejected groups i := by
    rintro ⟨found, hfound, hlarge, -⟩
    exact h found hfound hlarge
  rw [getElem?_foldl_rejectGroup]
  simp [hkept]

/-- The entries of the build units before the second pass. -/
def unitEntries (targetPlan : UpgradeAllPlan) (units : List AurBuildUnit) :
    List BuildUnitPlanEntry :=
  units.zipIdx.map
    (plannedUnit (buildExplicitIdentityIndex targetPlan.explicitSources) targetPlan)

def numberUnit (entry : BuildUnitPlanEntry) (number : Option Nat) : BuildUnitPlanEntry :=
  { entry with selectedExecutionIndex := number }

@[simp] theorem numberUnit_buildUnit (entry : BuildUnitPlanEntry) (number : Option Nat) :
    (numberUnit entry number).buildUnit = entry.buildUnit := rfl

@[simp] theorem numberUnit_originalBuildPlanIndex (entry : BuildUnitPlanEntry)
    (number : Option Nat) :
    (numberUnit entry number).originalBuildPlanIndex = entry.originalBuildPlanIndex := rfl

@[simp] theorem numberUnit_selectedExecutionIndex (entry : BuildUnitPlanEntry)
    (number : Option Nat) : (numberUnit entry number).selectedExecutionIndex = number := rfl

/-- The second phase: `rejected` are the entries after the second pass. -/
structure UnitsPlanned (targetPlan : UpgradeAllPlan) (units : List AurBuildUnit)
    (plan : UpgradeAllPlan) (rejected : List BuildUnitPlanEntry) : Prop where
  sameTargets : SameTargets targetPlan plan
  entries : plan.buildUnitDispositions = marked buildUnitEntryIsSelected numberUnit 0 rejected
  selected : plan.selectedBuildUnits =
    ((rejected.filter buildUnitEntryIsSelected).zipIdx 0).map fun entry =>
      ⟨entry.2, entry.1.originalBuildPlanIndex, baseOf entry.1.buildUnit.packageBase⟩
  inOrder : rejected.map (·.buildUnit) = units
  positions : rejected.map (·.originalBuildPlanIndex) = List.range units.length
  kept : ∀ (i : Nat) entry, rejected[i]? = some entry → buildUnitEntryIsSelected entry = true →
    (unitEntries targetPlan units)[i]? = some entry ∧
      ∀ (j : Nat) other, rejected[j]? = some other → buildUnitEntryIsSelected other = true →
        baseOf other.buildUnit.packageBase = baseOf entry.buildUnit.packageBase → j = i
  quiet : plan.issues = [] → targetPlan.issues = [] ∧
    units.zipIdx.flatMap (buildUnitIssues
      (buildExplicitIdentityIndex targetPlan.explicitSources) targetPlan) = [] ∧
    rejected = unitEntries targetPlan units

theorem unitEntries_resolved (hentry : entry ∈ unitEntries targetPlan units)
    (hselected : buildUnitEntryIsSelected entry = true) :
    (inspectIdentity entry.buildUnit.packageBase).value ≠ none := by
  obtain ⟨unit, -, rfl⟩ := List.mem_map.mp hentry
  exact (judgeBuildUnit_selected (of_decide_eq_true hselected)).2.1

/-- The groups of the second pass. -/
def selectedGroups (targetPlan : UpgradeAllPlan) (units : List AurBuildUnit) :
    List (Bytes × List Nat) :=
  group keyLe (selectedPairs (unitEntries targetPlan units))

/-- What the second pass did, and when nothing is an issue. -/
structure UnitsJudged (targetPlan : UpgradeAllPlan) (units : List AurBuildUnit)
    (plan : UpgradeAllPlan) (rejected : List BuildUnitPlanEntry) : Prop where
  revoked : ∀ i : Nat, rejected[i]? = (unitEntries targetPlan units)[i]?.map fun entry =>
    if Rejected (selectedGroups targetPlan units) i then revokeEntry entry else entry
  issues : plan.issues = [] ↔ (targetPlan.issues = [] ∧
    units.zipIdx.flatMap (buildUnitIssues
      (buildExplicitIdentityIndex targetPlan.explicitSources) targetPlan) = []) ∧
    ∀ found ∈ selectedGroups targetPlan units, ¬ 2 ≤ found.2.length

theorem completeUpgradeAllBuildUnitPlan_run (hplan : TargetsPlanned sources targets targetPlan)
    (units : List AurBuildUnit) :
    ∃ plan rejected, completeUpgradeAllBuildUnitPlan targetPlan units = .ok plan ∧
      UnitsPlanned targetPlan units plan rejected ∧
      UnitsJudged targetPlan units plan rejected := by
  obtain ⟨hsame, hentries, hissues⟩ := foldl_planBuildUnit
    (buildExplicitIdentityIndex targetPlan.explicitSources) units.zipIdx
    (SameTargets.refl targetPlan)
  rw [hplan.noBuildUnits.1, List.nil_append, ← unitEntries] at hentries
  unfold completeUpgradeAllBuildUnitPlan
  rw [validateTargetPlanForCompletion_ok hplan, bind_of_ok rfl]
  dsimp only
  generalize units.zipIdx.foldl (planBuildUnit
    (buildExplicitIdentityIndex targetPlan.explicitSources)) targetPlan = planned at *
  have hresolved : ∀ entry ∈ planned.buildUnitDispositions, buildUnitEntryIsSelected entry = true →
        (inspectIdentity entry.buildUnit.packageBase).value ≠ none := by
    rw [hentries]
    intro entry hentry
    exact unitEntries_resolved hentry
  unfold rejectDuplicateSelectedBuildUnitPackageBases
  rw [selectedByPackageBase_ok hresolved, bind_of_ok rfl, bind_of_ok rfl]
  have hkept := @rejectGroups_selected planned
  have hgroups : group keyLe (selectedPairs planned.buildUnitDispositions) =
      selectedGroups targetPlan units := by
    rw [hentries, selectedGroups]
  generalize group keyLe (selectedPairs planned.buildUnitDispositions) = groups at *
  have hsecond := foldl_rejectGroup_sameTargets groups planned
  have hquiet := foldl_rejectGroup_issues groups planned
  have hsmall := @foldl_rejectGroup_small groups planned
  have hrevoked := @getElem?_foldl_rejectGroup groups planned
  have hstays := foldl_rejectGroup_eq groups planned
  have hunits := map_foldl_rejectGroup (·.buildUnit) (fun _ => rfl) groups planned
  have hpositions := map_foldl_rejectGroup (·.originalBuildPlanIndex) (fun _ => rfl) groups planned
  generalize groups.foldl rejectGroup planned = after at *
  have hlater : ∀ entry ∈ after.buildUnitDispositions, buildUnitEntryIsSelected entry = true →
        (inspectIdentity entry.buildUnit.packageBase).value ≠ none := by
    intro entry hentry hselected
    obtain ⟨i, hi⟩ := List.mem_iff_getElem?.mp hentry
    exact hresolved entry (List.mem_of_getElem? (hkept hi hselected).1) hselected
  unfold populateSelectedBuildUnits
  rw [numberPicked_ok fun entry hentry hselected =>
    requirePackageBase_ok (hlater entry hentry hselected)]
  refine ⟨_, after.buildUnitDispositions, rfl, ?_, ?_, ?_⟩
  rotate_left
  · intro i
    rw [hrevoked, hentries, hgroups]
  · rw [← hgroups, ← List.append_eq_nil_iff, ← hissues]
    constructor
    · exact hquiet
    · rintro ⟨hbefore, hgroups⟩
      rw [← hbefore, hsmall hgroups]
  refine ⟨hsame.trans (hsecond.trans ⟨rfl, rfl, rfl, rfl⟩), rfl, rfl, ?_, ?_, ?_, ?_⟩
  · rw [hunits, hentries, unitEntries, List.map_map]
    exact List.zipIdx_map_fst 0 units
  · rw [hpositions, hentries, unitEntries, List.map_map, List.range_eq_range']
    exact List.zipIdx_map_snd 0 units
  · intro i entry hentry hselected
    obtain ⟨hbefore, hunique⟩ := hkept hentry hselected
    rw [hentries] at hbefore
    refine ⟨hbefore, ?_⟩
    intro j other hother hotherSelected hbase
    exact hunique j other (hkept hother hotherSelected).1 hotherSelected hbase
  · intro hempty
    obtain ⟨hbefore, hgroups⟩ := hquiet hempty
    rw [hissues, List.append_eq_nil_iff] at hbefore
    exact ⟨hbefore.1, hbefore.2, (hstays hgroups).trans hentries⟩

theorem completeUpgradeAllBuildUnitPlan_ok (hplan : TargetsPlanned sources targets targetPlan)
    (units : List AurBuildUnit) :
    ∃ plan rejected, completeUpgradeAllBuildUnitPlan targetPlan units = .ok plan ∧
      UnitsPlanned targetPlan units plan rejected := by
  obtain ⟨plan, rejected, hrun, hunits, -⟩ := completeUpgradeAllBuildUnitPlan_run hplan units
  exact ⟨plan, rejected, hrun, hunits⟩

theorem TargetsPlanned.selected_iff (hplan : TargetsPlanned sources targets plan)
    {entry : TargetPlanEntry} (hentry : entry ∈ plan.targetDispositions) :
    entry.selectedIndex.isSome = true ↔ entry.disposition = .selected := by
  rw [hplan.targetDispositions] at hentry
  obtain ⟨item, -, number, rfl, hnumber⟩ := mem_marked hentry
  rw [numberTarget]
  dsimp only
  rw [hnumber, targetEntryIsSelected, decide_eq_true_iff]

theorem TargetsPlanned.mapping (hplan : TargetsPlanned sources targets plan) :
    plan.originalToSelectedIndex = plan.targetDispositions.map (·.selectedIndex) := by
  rw [hplan.originalToSelectedIndex, hplan.targetDispositions]
  exact (map_marked_number numberTarget_selectedIndex 0 _).symm

/-- The targets of the first phase, settled when nothing is an issue. -/
theorem TargetsPlanned.settled (hplan : TargetsPlanned sources targets plan)
    (hissues : plan.issues = []) {entry : TargetPlanEntry}
    (hentry : entry ∈ plan.targetDispositions) : TargetSettled entry.disposition := by
  rw [hplan.issues, List.append_eq_nil_iff, List.flatMap_eq_nil_iff] at hissues
  rw [hplan.targetDispositions] at hentry
  obtain ⟨item, hitem, number, rfl, -⟩ := mem_marked hentry
  obtain ⟨target, htarget, rfl⟩ := List.mem_map.mp hitem
  exact judgeTarget_settled hissues.1 (List.append_eq_nil_iff.mp (hissues.2 target htarget)).1

theorem UnitsPlanned.settled (htargets : TargetsPlanned sources targets targetPlan)
    (hplan : UnitsPlanned targetPlan units plan rejected) (hissues : plan.issues = [])
    (hentry : entry ∈ plan.buildUnitDispositions) : BuildUnitSettled entry.disposition := by
  obtain ⟨hquiet, hunits, hrejected⟩ := hplan.quiet hissues
  rw [htargets.issues, List.append_eq_nil_iff] at hquiet
  rw [hplan.entries, hrejected] at hentry
  obtain ⟨item, hitem, number, rfl, -⟩ := mem_marked hentry
  obtain ⟨unit, hunit, rfl⟩ := List.mem_map.mp hitem
  have hunitIssues := List.flatMap_eq_nil_iff.mp hunits unit hunit
  unfold buildUnitIssues at hunitIssues
  dsimp only at hunitIssues
  rw [List.append_eq_nil_iff, List.append_eq_nil_iff] at hunitIssues
  obtain ⟨⟨hcorrelation, hbase⟩, hjudged⟩ := hunitIssues
  rw [htargets.explicitSources] at hjudged
  have hsettled := judgeBuildUnit_settled hquiet.1 (hasCorrelationIssue_of_issues hcorrelation)
    (value_of_identityIssues hbase) hjudged
  rw [← htargets.explicitSources] at hsettled
  exact hsettled

/-- A selected build unit of the returned plan. -/
theorem UnitsPlanned.built {input : PlanInput}
    (htargets : TargetsPlanned input.explicitSources input.aurTargets targetPlan)
    (hplan : UnitsPlanned targetPlan input.buildUnits plan rejected)
    (hentry : entry ∈ plan.buildUnitDispositions)
    (hselected : entry.disposition = .selectedForAurExecution) :
    ∃ packageBase, BuiltFromAur input plan entry.buildUnit packageBase := by
  rw [hplan.entries] at hentry
  obtain ⟨item, hitem, number, rfl, -⟩ := mem_marked hentry
  obtain ⟨i, hi⟩ := List.mem_iff_getElem?.mp hitem
  have hbefore := (hplan.kept i item hi (decide_eq_true hselected)).1
  obtain ⟨unit, -, rfl⟩ := List.mem_map.mp (List.mem_of_getElem? hbefore)
  obtain ⟨hroot, hvalue, hbase, hnames⟩ := judgeBuildUnit_selected hselected
  rw [htargets.explicitSources] at hbase hnames
  have hresolved := inspectIdentity_of_resolved hvalue
  obtain ⟨hidentity, hnonempty⟩ := inspectIdentity_value hresolved
  obtain ⟨hnoBase, hnoNames⟩ := not_owned_of_no_match hresolved hbase hnames
  refine ⟨baseOf unit.1.packageBase, hidentity, hnonempty, ?_, hnoBase, hnoNames⟩
  obtain ⟨attribution, hattribution, found, hfound⟩ := exists_selected_root hroot
  rw [htargets.mapping, List.getElem?_map] at hfound
  obtain ⟨target, htarget, hindex⟩ := Option.map_eq_some_iff.mp hfound
  refine ⟨attribution, hattribution, target, ?_, ?_⟩
  · rw [hplan.sameTargets.targetDispositions]
    exact htarget
  · apply (htargets.selected_iff (List.mem_of_getElem? htarget)).mp
    rw [hindex]
    rfl

theorem UnitsPlanned.distinctBases (hplan : UnitsPlanned targetPlan units plan rejected) :
    (plan.selectedBuildUnits.map (·.packageBase)).Nodup := by
  have hbases : plan.selectedBuildUnits.map (·.packageBase) =
      (rejected.filter buildUnitEntryIsSelected).map fun entry =>
        baseOf entry.buildUnit.packageBase := by
    rw [hplan.selected, List.map_map]
    conv_rhs => rw [← List.zipIdx_map_fst 0 (rejected.filter buildUnitEntryIsSelected),
      List.map_map]
    rfl
  rw [hbases]
  unfold List.Nodup
  rw [List.pairwise_map, List.pairwise_filter, List.pairwise_iff_getElem]
  intro i j hi hj hlt hselected hother hsame
  have heq := (hplan.kept j _ (List.getElem?_eq_getElem hj) hother).2 i _
    (List.getElem?_eq_getElem hi) hselected hsame
  omega

/-- Every plan that is made keeps the sources apart: each target and each build
unit has one disposition, what is built from the AUR belongs to no explicit
source and to one build unit only, the numbers count the selected entries, and
without an issue nothing is left undecided. -/
theorem makeUpgradeAllPlan_ownership (input : PlanInput) :
    ∃ plan, makeUpgradeAllPlan input = .ok plan ∧ UpgradeOwnership input plan := by
  obtain ⟨targetPlan, htargetPlan, htargets⟩ :=
    makeUpgradeAllTargetPlan_ok input.explicitSources input.aurTargets
  obtain ⟨plan, rejected, hplan, hunits⟩ :=
    completeUpgradeAllBuildUnitPlan_ok htargets input.buildUnits
  have hdispositions : plan.targetDispositions = marked targetEntryIsSelected numberTarget 0
      (targetEntries input.explicitSources input.aurTargets) :=
    hunits.sameTargets.targetDispositions.trans htargets.targetDispositions
  have hselectedTargets := hunits.sameTargets.selectedTargets.trans htargets.selectedTargets
  refine ⟨plan, ?_, ?_⟩
  · unfold makeUpgradeAllPlan
    rw [htargetPlan, bind_of_ok rfl]
    exact hplan
  · constructor
    case targets =>
      rw [hdispositions, map_marked numberTarget_target, targetEntries, List.map_map]
      exact List.zipIdx_map_fst 0 input.aurTargets
    case targetIndexes =>
      rw [hdispositions, map_marked numberTarget_originalTargetIndex, targetEntries,
        List.map_map, List.range_eq_range']
      exact List.zipIdx_map_snd 0 input.aurTargets
    case buildUnits =>
      rw [hunits.entries, map_marked numberUnit_buildUnit]
      exact hunits.inOrder
    case buildUnitIndexes =>
      rw [hunits.entries, map_marked numberUnit_originalBuildPlanIndex]
      exact hunits.positions
    case built =>
      intro entry hentry hselected
      exact hunits.built htargets hentry hselected
    case distinctBases => exact hunits.distinctBases
    case targetSelected =>
      intro entry hentry
      rw [hunits.sameTargets.targetDispositions] at hentry
      exact htargets.selected_iff hentry
    case targetNumbers =>
      rw [hdispositions, hselectedTargets, List.length_map, List.length_zipIdx]
      exact filterMap_number numberTarget_selectedIndex _
    case selectedTargets =>
      rw [hdispositions, hselectedTargets]
      symm
      apply filterMap_marked numberTarget_selectedIndex
      intro entry number
      rfl
    case mapping =>
      rw [hunits.sameTargets.originalToSelectedIndex, hunits.sameTargets.targetDispositions]
      exact htargets.mapping
    case buildUnitSelected =>
      intro entry hentry
      rw [hunits.entries] at hentry
      obtain ⟨item, -, number, rfl, hnumber⟩ := mem_marked hentry
      rw [numberUnit]
      dsimp only
      rw [hnumber, buildUnitEntryIsSelected, decide_eq_true_iff]
    case buildUnitNumbers =>
      rw [hunits.entries, hunits.selected, List.length_map, List.length_zipIdx]
      exact filterMap_number numberUnit_selectedExecutionIndex _
    case selectedBuildUnits =>
      rw [hunits.entries, hunits.selected]
      symm
      apply filterMap_marked numberUnit_selectedExecutionIndex
      intro entry number
      rfl
    case settled =>
      intro hissues
      refine ⟨?_, ?_⟩
      · intro entry hentry
        rw [hunits.sameTargets.targetDispositions] at hentry
        exact htargets.settled (hunits.quiet hissues).1 hentry
      · intro entry hentry
        exact hunits.settled htargets hissues hentry

end Moguet.Upgrade.Plan
