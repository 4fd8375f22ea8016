import Moguet.Relation.Assessment

/-!
# When a declaration is cleared

The relation guard is released for a declaration by the verdict
`confirmedNoMatchingCurrentOrPlannedTarget`. This module says exactly when
the code gives that verdict, in terms of the observations it was handed.
-/

namespace Moguet.Relation.NoMatch

open Verified.ByteString Verified.Upsert Plan.Constraint Declaration Observation Assessment

variable {active : ActivePackageRelationObservations}
  {planned : List PlannedPackageRelationObservation}

variable {confirms missing : Bool} {relation declaration : DeclaredPackageRelation}
  {version : ObservedVersion} {package : PackageRelationObservedPackage} {flags : AssessmentFlags}
  {completeness : PackageRelationObservationCompleteness}
  {declaring : PlannedPackageRelationObservation} {vercmp : Bytes → Bytes → Int}

/-! ## Verdicts a clear evidence does not raise -/

private theorem evaluateVersion_ne_invalid (h : ObservedVersion.isInvalid version = false) :
    evaluateVersion vercmp relation version ≠ .invalid := by
  unfold evaluateVersion
  split
  · decide
  · split
    · rename_i houtcome
      simp [ObservedVersion.isInvalid, houtcome] at h
    · decide
    · split <;> decide

/-- No component the code reads of a well-formed package has an invalid
version. -/
private theorem readComponents_not_invalid (h : WellFormed relation package)
    (hread : version ∈ readComponents relation package) :
    ObservedVersion.isInvalid version = false := by
  unfold readComponents at hread
  split at hread
  · rw [List.mem_singleton.mp hread]
    have hvalid := h.structure_valid
    unfold validateObservationWithoutCapabilities at hvalid
    by_cases hinvalid : ObservedVersion.isInvalid package.packageVersion = true
    · simp only [hinvalid, if_true] at hvalid
      repeat' split at hvalid
      all_goals cases hvalid
    · simpa using hinvalid
  · obtain ⟨provided, hprovided, rfl⟩ := List.mem_map.mp hread
    have hvalid := validateCapabilities_eq_none_iff.mp h.capabilities_valid
      provided (List.mem_of_mem_filter hprovided)
    unfold validateCapability at hvalid
    by_cases hinvalid : ObservedVersion.isInvalid provided.observedVersion = true
    · simp only [hinvalid, if_true] at hvalid
      repeat' split at hvalid
      all_goals cases hvalid
    · simpa using hinvalid

private theorem match_invalidReason_of_wellFormed (h : WellFormed relation package) :
    (matchDeclaredPackageRelation vercmp relation package).invalidReason = none ∧
      (matchDeclaredPackageRelation vercmp relation package).identityMatch ≠ .invalidInput := by
  by_cases hname : relation.targetComponent = package.packageName
  · rw [match_exactPackage h hname]
    exact ⟨rfl, fun hinput => by cases hinput⟩
  · rw [match_providedComponent h hname]
    unfold matchProvidedComponents
    by_cases hempty : capabilityEvidenceFrom vercmp relation package 0 package.provides = []
    · simp [hempty, h.capabilities_valid]
    · simp [hempty, h.capabilities_valid]

/-- A pair that is not well formed leaves invalid evidence. -/
private theorem match_invalidReason_of_not_wellFormed (h : ¬ WellFormed relation package) :
    (matchDeclaredPackageRelation vercmp relation package).invalidReason.isSome =
      true := by
  unfold matchDeclaredPackageRelation
  by_cases htarget : isValidPackageName relation.targetComponent = true
  · cases hstructure : validateObservationWithoutCapabilities package with
    | some reason => simp [htarget, invalidEvidence]
    | none =>
      cases hcapabilities : validateCapabilities package with
      | none =>
        refine absurd ?_ h
        exact ⟨htarget, validatePackageRelationObservation_eq_none_iff.mpr
          ⟨hstructure, hcapabilities⟩⟩
      | some reason =>
        by_cases hname : relation.targetComponent = package.packageName
        · simp [htarget, ← hname, invalidEvidence]
        · unfold matchProvidedComponents
          by_cases hempty : capabilityEvidenceFrom vercmp relation package 0 package.provides = []
          · simp [htarget, hname, hempty, hcapabilities, invalidEvidence]
          · simp [htarget, hname, hempty, hcapabilities]
  · simp [htarget, invalidEvidence]

/-- Evidence is invalid exactly when one of its sides is not well formed. -/
theorem hasInvalidEvidence_eq_false_iff :
    hasInvalidEvidence (matchDeclaredPackageRelation vercmp relation package) = false ↔
      WellFormed relation package := by
  constructor
  · intro h
    by_contra hform
    have hreason : (matchDeclaredPackageRelation vercmp relation
        package).invalidReason.isSome = true :=
      match_invalidReason_of_not_wellFormed hform
    simp [hasInvalidEvidence, hreason] at h
  · intro hform
    obtain ⟨hreason, hidentity⟩ :
        (matchDeclaredPackageRelation vercmp relation package).invalidReason = none ∧
          (matchDeclaredPackageRelation vercmp relation package).identityMatch ≠
            .invalidInput := match_invalidReason_of_wellFormed hform
    have hversion : containsVersionResult
        (matchDeclaredPackageRelation vercmp relation package) .invalid = false := by
      rw [Bool.eq_false_iff, Ne, containsVersionResult_iff hform (Or.inl rfl)]
      rintro ⟨version, hread, hinvalid⟩
      exact evaluateVersion_ne_invalid (readComponents_not_invalid hform hread) hinvalid
    simp [hasInvalidEvidence, hreason, hidentity, hversion]

/-- A confirmed miss raises no other verdict. -/
theorem ConfirmedMiss.quiet (h : ConfirmedMiss vercmp relation package) :
    packageRelationMatchIsConfirmed (matchDeclaredPackageRelation vercmp relation package) = false ∧
      hasInvalidEvidence (matchDeclaredPackageRelation vercmp relation package) = false ∧
      hasUnknownEvidence (matchDeclaredPackageRelation vercmp relation package) =
        false := by
  have hform := ConfirmedMiss.wellFormed h
  have hverdicts := (ConfirmedMiss.iff_verdicts.mp h).2.2
  refine ⟨?_, hasInvalidEvidence_eq_false_iff.mpr hform, ?_⟩
  · rw [Bool.eq_false_iff, Ne, packageRelationMatchIsConfirmed_iff hform]
    rintro ⟨version, hread, hverdict⟩
    rw [hverdicts version hread] at hverdict
    rcases hverdict with hverdict | hverdict <;> cases hverdict
  · rw [hasUnknownEvidence, Bool.eq_false_iff, Ne, containsVersionResult_iff hform (Or.inr rfl)]
    rintro ⟨version, hread, hverdict⟩
    rw [hverdicts version hread] at hverdict
    cases hverdict

/-! ## The closing verdict -/

private theorem closingKind_eq_noMatch_iff : closingKind confirms missing flags =
        some .confirmedNoMatchingCurrentOrPlannedTarget ↔
      confirms = true ∧ flags = ⟨false, false, false⟩ := by
  obtain ⟨hasConfirmed, hasUnknown, hasInvalid⟩ := flags
  cases confirms <;> cases missing <;> cases hasConfirmed <;>
    cases hasUnknown <;> cases hasInvalid <;> decide

private theorem confirmedKind_ne_noMatch {evidence : PackageRelationMatchEvidence} :
    confirmedKind declaration evidence ≠ .confirmedNoMatchingCurrentOrPlannedTarget := by
  unfold confirmedKind
  split
  · decide
  · split <;> decide

private theorem assessCompleteness_ne_noMatch : (assessCompleteness completeness missing flags).1 ≠
      some .confirmedNoMatchingCurrentOrPlannedTarget := by
  unfold assessCompleteness
  repeat' split
  all_goals simp

private theorem assessCompleteness_complete :
    assessCompleteness .complete missing flags = (none, flags) := by
  simp [assessCompleteness]

/-- The evidence of an observation set confirms that nothing matches exactly
when the set is complete, covered, without failures and every package in it
is a confirmed miss. -/
theorem packageRelationConfirmsNoMatch_iff {observations : PackageRelationObservationSet} :
    packageRelationConfirmsNoMatch
        (matchDeclaredPackageRelationSet vercmp declaration observations) = true ↔
      observations.completeness = .complete ∧ (observations.requiredSources ≠ [] ∧
          ∀ source ∈ observations.requiredSources, sourceHasCompleteIdentityCoverage
              observations.sourceIdentityCoverage source = true) ∧
        observations.failures = [] ∧
        ∀ package ∈ observations.packages, ConfirmedMiss vercmp declaration package := by
  unfold packageRelationConfirmsNoMatch packageRelationHasCompleteIdentityCoverage
  simp only [Bool.and_eq_true, decide_eq_true_eq, List.all_eq_true]
  simp only [matchDeclaredPackageRelationSet, List.forall_mem_map,
    isConfirmedNonmatch_iff, and_assoc]

/-- The flags of an observation whose evidence confirms that nothing
matches. -/
private theorem declarationFlags_of_confirms (hfailures : active.observations.failures = [])
    (hmisses : ∀ package ∈ active.observations.packages, ConfirmedMiss vercmp declaration package) :
    declarationFlags vercmp declaring declaration active = ⟨false, false, hasInvalidEvidence
            (matchDeclaredPackageRelation vercmp declaration declaring.package) ||
          decide (active.filteredOldSelfInvalidEvidence ≠ [])⟩ := by
  have hnone : ∀ verdict : PackageRelationMatchEvidence → Bool,
      (∀ package ∈ active.observations.packages,
        verdict (matchDeclaredPackageRelation vercmp declaration package) = false) →
      (active.observations.packages.map
        (matchDeclaredPackageRelation vercmp declaration)).any verdict =
          false := by
    intro verdict hverdict
    simpa [List.any_eq_false] using hverdict
  have hconfirmed := hnone packageRelationMatchIsConfirmed fun package hmem =>
    (ConfirmedMiss.quiet (hmisses package hmem)).1
  have hinvalid := hnone hasInvalidEvidence fun package hmem =>
    (ConfirmedMiss.quiet (hmisses package hmem)).2.1
  have hunknown := hnone hasUnknownEvidence fun package hmem =>
    (ConfirmedMiss.quiet (hmisses package hmem)).2.2
  simp only [declarationFlags, matchDeclaredPackageRelationSet, hfailures,
    hconfirmed, hinvalid, hunknown, List.any_nil, Bool.or_false]

/-- The verdict is given exactly when the evidence confirms it and neither
the declaring package nor its installed version is malformed. -/
theorem exists_noMatch_assessDeclaration_iff
    {declaring : PlannedPackageRelationObservation}
    {declaration : DeclaredPackageRelation}
    {active : ActivePackageRelationObservations}
    {repositoryContext : Option PackageRelationObservationSet} {missing : Bool} :
    (∃ assessment ∈ assessDeclaration vercmp declaring declaration active repositoryContext missing,
      assessment.kind = .confirmedNoMatchingCurrentOrPlannedTarget) ↔
      packageRelationConfirmsNoMatch (matchDeclaredPackageRelationSet vercmp declaration
            active.observations) = true ∧
        WellFormed declaration declaring.package ∧
        active.filteredOldSelfInvalidEvidence = [] := by
  have hwellFormed : hasInvalidEvidence
      (matchDeclaredPackageRelation vercmp declaration declaring.package) = false ↔
        WellFormed declaration declaring.package := hasInvalidEvidence_eq_false_iff
  rw [← hwellFormed]
  constructor
  · rintro ⟨assessment, hmem, hkind⟩
    -- Only the closing verdict can be the one asked for.
    have hclosing : closingKind (packageRelationConfirmsNoMatch
          (matchDeclaredPackageRelationSet vercmp declaration active.observations)) missing
        (assessCompleteness (matchDeclaredPackageRelationSet vercmp declaration
            active.observations).observationCompleteness missing
          (declarationFlags vercmp declaring declaration active)).2 =
          some .confirmedNoMatchingCurrentOrPlannedTarget := by
      simp only [assessDeclaration, List.mem_append, List.mem_map,
        List.mem_flatMap, Option.mem_toList, Option.map_eq_some_iff] at hmem
      rcases hmem with ((((hmem | hmem) | hmem) | hmem) | hmem) | hmem
      · split at hmem
        · rw [List.mem_singleton.mp hmem] at hkind
          cases hkind
        · cases hmem
      · obtain ⟨evidence, -, rfl⟩ := hmem
        cases hkind
      · obtain ⟨evidence, -, hmem⟩ := hmem
        simp only [assessEvidence, List.mem_append] at hmem
        rcases hmem with (hmem | hmem) | hmem
        · split at hmem
          · rw [List.mem_singleton.mp hmem] at hkind
            exact absurd hkind confirmedKind_ne_noMatch
          · cases hmem
        · split at hmem
          · rw [List.mem_singleton.mp hmem] at hkind
            cases hkind
          · cases hmem
        · split at hmem
          · rw [List.mem_singleton.mp hmem] at hkind
            cases hkind
          · cases hmem
      · obtain ⟨failure, -, rfl⟩ := hmem
        simp only [assessFailure] at hkind
        split at hkind <;> cases hkind
      · obtain ⟨kind, hsome, rfl⟩ := hmem
        simp only at hkind
        rw [hkind] at hsome
        exact absurd hsome assessCompleteness_ne_noMatch
      · obtain ⟨kind, hsome, rfl⟩ := hmem
        simp only at hkind
        rw [hkind] at hsome
        exact hsome
    obtain ⟨hconfirms, hflags⟩ := closingKind_eq_noMatch_iff.mp hclosing
    obtain ⟨hcomplete, -, hfailures, hmisses⟩ :=
      packageRelationConfirmsNoMatch_iff.mp hconfirms
    rw [show (matchDeclaredPackageRelationSet vercmp declaration
        active.observations).observationCompleteness = .complete from hcomplete,
      assessCompleteness_complete,
      declarationFlags_of_confirms hfailures hmisses] at hflags
    injection hflags with _ _ hinvalid
    rw [Bool.or_eq_false_iff, decide_eq_false_iff_not, not_not] at hinvalid
    exact ⟨hconfirms, hinvalid.1, hinvalid.2⟩
  · rintro ⟨hconfirms, hdeclaring, hold⟩
    obtain ⟨hcomplete, -, hfailures, hmisses⟩ :=
      packageRelationConfirmsNoMatch_iff.mp hconfirms
    have hflags : declarationFlags vercmp declaring declaration active = ⟨false, false, false⟩ := by
      rw [declarationFlags_of_confirms hfailures hmisses, hdeclaring, hold]
      rfl
    refine ⟨{
      declaration := declaration
      kind := .confirmedNoMatchingCurrentOrPlannedTarget
      declaringPackage := declaring.package
      activeEvidence :=
        matchDeclaredPackageRelationSet vercmp declaration active.observations
      repositoryContextEvidence :=
        repositoryContext.map (matchDeclaredPackageRelationSet vercmp declaration)
      attributedPackageEvidence := none
      attributedObservationFailure := none }, ?_, rfl⟩
    simp only [assessDeclaration, List.mem_append, Option.mem_toList, Option.map_eq_some_iff]
    refine Or.inr ⟨.confirmedNoMatchingCurrentOrPlannedTarget, ?_, rfl⟩
    rw [closingKind_eq_noMatch_iff, hflags,
      show (matchDeclaredPackageRelationSet vercmp declaration
        active.observations).observationCompleteness = .complete from hcomplete,
      assessCompleteness_complete]
    exact ⟨hconfirms, rfl⟩

/-! ## Every declaration is assessed -/

private theorem assessCompleteness_silent
    (h : (assessCompleteness completeness missing flags).1 = none) :
    (assessCompleteness completeness missing flags).2 = flags := by
  unfold assessCompleteness at h ⊢
  by_cases hinvalid : completeness = .invalid
  · rw [if_pos hinvalid] at h ⊢
    split at h
    · cases h
    · rename_i hflag
      rw [if_neg hflag]
  · rw [if_neg hinvalid] at h ⊢
    split at h
    · cases h
    · rename_i hflag
      rw [if_neg hflag]

private theorem closingKind_of_quiet :
    closingKind confirms missing ⟨false, false, false⟩ ≠ none := by
  cases confirms <;> cases missing <;> decide

/-- Every declaration gets at least one assessment: when no loop finds
anything, the closing verdict is given. -/
theorem assessDeclaration_ne_nil (declaring : PlannedPackageRelationObservation)
    (declaration : DeclaredPackageRelation)
    (active : ActivePackageRelationObservations)
    (repositoryContext : Option PackageRelationObservationSet) (missing : Bool) :
    assessDeclaration vercmp declaring declaration active repositoryContext missing ≠ [] := by
  intro hempty
  simp only [assessDeclaration, List.append_eq_nil_iff, List.map_eq_nil_iff,
    List.flatMap_eq_nil_iff, Option.toList_eq_nil_iff, Option.map_eq_none_iff]
    at hempty
  obtain ⟨⟨⟨⟨⟨hdeclaring, hold⟩, hevidence⟩, hfailures⟩, hcompleteness⟩, hclosing⟩ :=
    hempty
  have hdeclaringFlag : hasInvalidEvidence
      (matchDeclaredPackageRelation vercmp declaration declaring.package) =
        false := by
    by_contra hflag
    rw [Bool.not_eq_false] at hflag
    rw [hflag] at hdeclaring
    cases hdeclaring
  have hquiet : ∀ evidence ∈ (matchDeclaredPackageRelationSet vercmp declaration
      active.observations).packageEvidence,
      packageRelationMatchIsConfirmed evidence = false ∧ hasInvalidEvidence evidence = false ∧
        hasUnknownEvidence evidence = false := by
    intro evidence hmem
    have hnone := hevidence evidence hmem
    simp only [assessEvidence, List.append_eq_nil_iff] at hnone
    obtain ⟨⟨hconfirmed, hinvalid⟩, hunknown⟩ := hnone
    refine ⟨?_, ?_, ?_⟩
    · by_contra hflag
      rw [Bool.not_eq_false] at hflag
      simp [hflag] at hconfirmed
    · by_contra hflag
      rw [Bool.not_eq_false] at hflag
      simp [hflag] at hinvalid
    · by_contra hflag
      rw [Bool.not_eq_false] at hflag
      simp [hflag] at hunknown
  have hflags : declarationFlags vercmp declaring declaration active = ⟨false, false, false⟩ := by
    have hany : ∀ verdict : PackageRelationMatchEvidence → Bool,
        (∀ evidence ∈ (matchDeclaredPackageRelationSet vercmp declaration
          active.observations).packageEvidence, verdict evidence = false) →
        (matchDeclaredPackageRelationSet vercmp declaration
          active.observations).packageEvidence.any verdict = false := by
      intro verdict hverdict
      simpa [List.any_eq_false] using hverdict
    simp only [declarationFlags, hdeclaringFlag, hold, hfailures,
      hany _ fun evidence hmem => (hquiet evidence hmem).1,
      hany _ fun evidence hmem => (hquiet evidence hmem).2.1,
      hany _ fun evidence hmem => (hquiet evidence hmem).2.2]
    rfl
  rw [assessCompleteness_silent hcompleteness, hflags] at hclosing
  exact closingKind_of_quiet hclosing

/-! ## The active observations of a declaring package -/

section Coverage

/-- One of the two identity channels of a coverage record: joining two
records joins the channel, and a record of full coverage has it. -/
structure IsChannel (channel : PackageRelationSourceIdentityCoverage → Bool) :
    Prop where
  joins : ∀ item added,
    channel (joinFlags item added) = (channel item || channel added)
  full : ∀ source, channel ⟨source, true, true⟩ = true

private theorem isChannel_exact : IsChannel (·.exactPackageIdentity) :=
  ⟨fun _ _ => rfl, fun _ => rfl⟩

private theorem isChannel_provided : IsChannel (·.providedComponentIdentity) :=
  ⟨fun _ _ => rfl, fun _ => rfl⟩

/-- Whether some record covers one channel of the source. -/
def covers (channel : PackageRelationSourceIdentityCoverage → Bool)
    (source : PackageRelationSourceIdentity)
    (coverage : List PackageRelationSourceIdentityCoverage) : Bool :=
  coverage.any fun item => item.source = source && channel item

variable {channel : PackageRelationSourceIdentityCoverage → Bool}

private theorem covers_joinCoverage (hchannel : IsChannel channel)
    (source : PackageRelationSourceIdentity)
    (added : PackageRelationSourceIdentityCoverage) :
    ∀ coverage : List PackageRelationSourceIdentityCoverage,
      covers channel source (joinCoverage added coverage) = (covers channel source coverage ||
          (added.source = source && channel added)) := by
  intro coverage
  induction coverage with
  | nil => simp [covers, joinCoverage, upsert]
  | cons item rest ih =>
    unfold covers joinCoverage at ih ⊢
    by_cases hsame : item.source = added.source
    · have hsource : (joinFlags item added).source = added.source := hsame
      simp only [upsert, hsame, decide_true, if_true, List.any_cons, hsource, hchannel.joins]
      cases decide (added.source = source) <;> cases channel item <;>
        cases channel added <;> simp
    · simp only [upsert, hsame, decide_false, Bool.false_eq_true, if_false,
        List.any_cons, ih, Bool.or_assoc]

private theorem covers_foldl_joinCoverage (hchannel : IsChannel channel)
    (source : PackageRelationSourceIdentity) :
    ∀ added coverage : List PackageRelationSourceIdentityCoverage, covers channel source
          (added.foldl (fun coverage item => joinCoverage item coverage) coverage) =
        (covers channel source coverage || covers channel source added) := by
  intro added
  induction added with
  | nil => intro coverage; simp [covers]
  | cons item rest ih =>
    intro coverage
    rw [List.foldl_cons, ih, covers_joinCoverage hchannel]
    simp [covers, Bool.or_assoc]

private theorem sourceHasCompleteIdentityCoverage_eq
    (coverage : List PackageRelationSourceIdentityCoverage)
    (source : PackageRelationSourceIdentity) :
    sourceHasCompleteIdentityCoverage coverage source =
      (covers (·.exactPackageIdentity) source coverage &&
        covers (·.providedComponentIdentity) source coverage) := rfl

end Coverage

/-! ### The installed authority -/

private theorem foldl_rejectRole_completeness {diagnostic : Bytes} :
    ∀ {packages : List PackageRelationObservedPackage}
      {observations : PackageRelationObservationSet},
      observations.completeness = .invalid →
      (packages.foldl (rejectRole diagnostic) observations).completeness = .invalid := by
  intro packages
  induction packages with
  | nil => intro observations h; exact h
  | cons package rest ih => intro observations _; exact ih rfl

/-- An installed authority that is complete holds installed packages only,
and normalising it changes nothing. -/
theorem installedAuthorityObservations_complete_iff
    {installed : PackageRelationObservationSet} :
    (installedAuthorityObservations installed).completeness = .complete ↔
      installed.completeness = .complete ∧
        ∀ package ∈ installed.packages, package.role = .installed := by
  cases hforeign : installed.packages.filter fun package =>
      package.role ≠ .installed with
  | nil =>
    have hroles : ∀ package ∈ installed.packages, package.role = .installed := by
      intro package hmem
      simpa using List.filter_eq_nil_iff.mp hforeign package hmem
    simp only [installedAuthorityObservations, hforeign, List.foldl_nil]
    constructor
    · intro h; exact ⟨h, hroles⟩
    · intro h; exact h.1
  | cons package rest =>
    have hmem : package ∈ installed.packages.filter fun package =>
        package.role ≠ .installed := by
      rw [hforeign]
      exact List.mem_cons_self
    have hrole : package.role ≠ .installed := by
      simpa using (List.mem_filter.mp hmem).2
    have hinvalid : (installedAuthorityObservations installed).completeness = .invalid := by
      simp only [installedAuthorityObservations, hforeign, List.foldl_cons]
      exact foldl_rejectRole_completeness rfl
    rw [hinvalid]
    constructor
    · intro h; cases h
    · rintro ⟨-, hroles⟩
      exact absurd (hroles package (List.mem_filter.mp hmem).1) hrole

theorem installedAuthorityObservations_eq_self
    {installed : PackageRelationObservationSet}
    (hroles : ∀ package ∈ installed.packages, package.role = .installed) :
    installedAuthorityObservations installed = installed := by
  have hforeign : (installed.packages.filter fun package =>
      package.role ≠ .installed) = [] := by
    rw [List.filter_eq_nil_iff]
    intro package hmem
    simp [hroles package hmem]
  have hkept : (installed.packages.filter fun package =>
      package.role = .installed) = installed.packages := by
    rw [List.filter_eq_self]
    intro package hmem
    simp [hroles package hmem]
  simp only [installedAuthorityObservations, hforeign, hkept, List.foldl_nil]

/-! ### The planned authority -/

/-- What reading a list of planned targets adds to an observation set. -/
private structure PlannedReading
    (planned : List PlannedPackageRelationObservation)
    (before after : PackageRelationObservationSet) : Prop where
  completeness : after.completeness = before.completeness
  failures : after.failures = before.failures
  packages : after.packages = before.packages ++ planned.map (·.package)
  sources : ∀ source, source ∈ after.requiredSources ↔
    source ∈ before.requiredSources ∨
      ∃ item ∈ planned, item.package.source = source
  covered : ∀ channel, IsChannel channel → ∀ source,
    covers channel source after.sourceIdentityCoverage = true ↔
      covers channel source before.sourceIdentityCoverage = true ∨
        ∃ item ∈ planned, item.package.source = source

private theorem plannedReading_foldl : ∀ {planned : List PlannedPackageRelationObservation}
      {observations : PackageRelationObservationSet},
      (∀ item ∈ planned, item.package.role = .plannedTarget) →
      PlannedReading planned observations (planned.foldl plannedTargetStep observations) := by
  intro planned
  induction planned with
  | nil =>
    intro observations _
    exact {
      completeness := rfl
      failures := rfl
      packages := by simp
      sources := by simp
      covered := by simp }
  | cons item rest ih =>
    intro observations hroles
    have hrole : item.package.role = .plannedTarget :=
      hroles item List.mem_cons_self
    have hstep : plannedTargetStep observations item =
        { retainSource observations item.package.source with
          packages := observations.packages ++ [item.package] } := by
      simp [plannedTargetStep, hrole, retainSource]
    have hrest := @ih (plannedTargetStep observations item)
      fun other hother => hroles other (List.mem_cons_of_mem _ hother)
    rw [List.foldl_cons]
    refine {
      completeness := ?_
      failures := ?_
      packages := ?_
      sources := ?_
      covered := ?_ }
    · rw [hrest.completeness, hstep]
      rfl
    · rw [hrest.failures, hstep]
      rfl
    · rw [hrest.packages, hstep]
      simp
    · intro source
      rw [hrest.sources, hstep]
      simp only [retainSource, mem_insertNew, List.mem_cons,
        exists_eq_or_imp, or_assoc, eq_comm (a := source)]
    · intro channel hchannel source
      rw [hrest.covered channel hchannel, hstep]
      simp only [retainSource, covers_joinCoverage hchannel, hchannel.full,
        Bool.and_true, Bool.or_eq_true, decide_eq_true_eq, List.mem_cons,
        exists_eq_or_imp, or_assoc]

private theorem plannedTargetStep_completeness
    {item : PlannedPackageRelationObservation}
    {observations : PackageRelationObservationSet}
    (h : observations.completeness = .invalid) :
    (plannedTargetStep observations item).completeness = .invalid := by
  unfold plannedTargetStep
  split
  · rfl
  · exact h

private theorem foldl_plannedTargetStep_invalid :
    ∀ {planned : List PlannedPackageRelationObservation}
      {observations : PackageRelationObservationSet},
      (observations.completeness = .invalid ∨
        ∃ item ∈ planned, item.package.role ≠ .plannedTarget) →
      (planned.foldl plannedTargetStep observations).completeness = .invalid := by
  intro planned
  induction planned with
  | nil =>
    rintro observations (h | ⟨item, hmem, -⟩)
    · exact h
    · cases hmem
  | cons item rest ih =>
    intro observations h
    rw [List.foldl_cons]
    apply ih
    rcases h with h | ⟨other, hmem, hrole⟩
    · exact Or.inl (plannedTargetStep_completeness h)
    · rcases List.mem_cons.mp hmem with rfl | hmem
      · left
        simp [plannedTargetStep, hrole, rejectRole, retainUncoveredSource]
      · exact Or.inr ⟨other, hmem, hrole⟩

theorem plannedTargetObservations_complete_iff (hne : planned ≠ []) :
    (plannedTargetObservations planned).completeness = .complete ↔
      ∀ item ∈ planned, item.package.role = .plannedTarget := by
  unfold plannedTargetObservations
  constructor
  · intro h
    by_contra hroles
    push Not at hroles
    rw [foldl_plannedTargetStep_invalid (Or.inr hroles)] at h
    cases h
  · intro hroles
    rw [(plannedReading_foldl hroles).completeness, if_neg hne]

/-! ## Cleared declarations -/

/-- An installed or planned package other than the declaring one and the
installed version of the declaring one. -/
def OtherActive (installed : PackageRelationObservationSet)
    (planned : List PlannedPackageRelationObservation)
    (declaring package : PackageRelationObservedPackage) : Prop :=
  (package ∈ installed.packages ∨ ∃ item ∈ planned, item.package = package) ∧
    isSelf declaring package = false

/-- The observation of a declaration is complete, with no failed and no
invalid part. -/
structure ObservationComplete (installed : PackageRelationObservationSet)
    (planned : List PlannedPackageRelationObservation)
    (declaring : PackageRelationObservedPackage)
    (declaration : DeclaredPackageRelation) : Prop where
  installed_complete : installed.completeness = .complete
  installed_roles : ∀ package ∈ installed.packages, package.role = .installed
  planned_roles : ∀ item ∈ planned, item.package.role = .plannedTarget
  no_failures : installed.failures = []
  covered : ∀ source ∈ installed.requiredSources,
    sourceHasCompleteIdentityCoverage installed.sourceIdentityCoverage source =
        true ∨
      ∃ item ∈ planned, item.package.source = source
  declaring_wellFormed : WellFormed declaration declaring
  others_valid : ∀ package, OtherActive installed planned declaring package →
    validatePackageRelationObservation package = none
  old_self_valid : ∀ package ∈ installed.packages,
    isInstalledOldSelf declaring package = true →
      validatePackageRelationObservation package = none

/-- A declaration the code clears: its observation is complete and every
other package was compared, as far as the code reads it, and missed. -/
structure Cleared (vercmp : Bytes → Bytes → Int)
    (installed : PackageRelationObservationSet)
    (planned : List PlannedPackageRelationObservation)
    (declaring : PackageRelationObservedPackage)
    (declaration : DeclaredPackageRelation) : Prop where
  observation : ObservationComplete installed planned declaring declaration
  others_miss : ∀ package, OtherActive installed planned declaring package →
    ConfirmedMiss vercmp declaration package

private theorem mergeCompleteness_eq_complete_iff
    {installed planned : PackageRelationObservationCompleteness} :
    mergeCompleteness installed planned = .complete ↔
      installed = .complete ∧ planned = .complete := by
  cases installed <;> cases planned <;> decide

/-- The observations of a declaring package when both authorities hold
packages of their own role. -/
private theorem activeObservations_spec
    {installed : PackageRelationObservationSet}
    {planned : List PlannedPackageRelationObservation}
    (declaring : PackageRelationObservedPackage)
    (hinstalled : ∀ package ∈ installed.packages, package.role = .installed)
    (hplanned : ∀ item ∈ planned, item.package.role = .plannedTarget) :
    let active := activeObservationsFor (installedAuthorityObservations installed)
      (plannedTargetObservations planned) declaring
    (∀ source, source ∈ active.observations.requiredSources ↔ source ∈ installed.requiredSources ∨
        ∃ item ∈ planned, item.package.source = source) ∧
    (∀ source, sourceHasCompleteIdentityCoverage
        active.observations.sourceIdentityCoverage source = true ↔
      sourceHasCompleteIdentityCoverage installed.sourceIdentityCoverage source = true ∨
        ∃ item ∈ planned, item.package.source = source) ∧
    active.observations.failures = installed.failures ∧
    (∀ package, package ∈ active.observations.packages ↔
      OtherActive installed planned declaring package) ∧
    (active.filteredOldSelfInvalidEvidence = [] ↔ ∀ package ∈ installed.packages,
        isInstalledOldSelf declaring package = true →
          validatePackageRelationObservation package = none) := by
  intro active
  have hreading : PlannedReading planned
      { completeness := if planned = [] then .unavailable else .complete }
      (plannedTargetObservations planned) := plannedReading_foldl hplanned
  have hactive : active = activeObservationsFor installed
      (plannedTargetObservations planned) declaring := by
    simp only [active, installedAuthorityObservations_eq_self hinstalled]
  have hpackages : (plannedTargetObservations planned).packages = planned.map (·.package) := by
    simpa using hreading.packages
  have hfailures : (plannedTargetObservations planned).failures = [] := by
    simpa using hreading.failures
  rw [hactive]
  refine ⟨?_, ?_, ?_, ?_, ?_⟩
  · intro source
    simp only [activeObservationsFor, mergeObservationSet, mem_foldl_insertNew,
      hreading.sources, List.not_mem_nil, false_or]
  · intro source
    have hchannel : ∀ channel, IsChannel channel →
        (covers channel source (activeObservationsFor installed (plannedTargetObservations planned)
            declaring).observations.sourceIdentityCoverage = true ↔
          covers channel source installed.sourceIdentityCoverage = true ∨
            ∃ item ∈ planned, item.package.source = source) := by
      intro channel hchannel
      simp only [activeObservationsFor, mergeObservationSet,
        covers_foldl_joinCoverage hchannel, Bool.or_eq_true,
        hreading.covered channel hchannel]
      simp [covers]
    rw [sourceHasCompleteIdentityCoverage_eq, sourceHasCompleteIdentityCoverage_eq,
      Bool.and_eq_true, Bool.and_eq_true, hchannel _ isChannel_exact,
      hchannel _ isChannel_provided, and_or_right]
  · simp [activeObservationsFor, mergeObservationSet, hfailures]
  · intro package
    simp only [activeObservationsFor, mergeObservationSet, hpackages,
      List.nil_append, List.mem_filter, List.mem_append, List.mem_map,
      Bool.not_eq_true', OtherActive]
  · simp only [activeObservationsFor, mergeObservationSet, hpackages,
      List.nil_append, List.filterMap_eq_nil_iff, List.mem_append, List.mem_map,
      oldSelfInvalidEvidence]
    constructor
    · intro h package hmem hold
      have hnone := h package (Or.inl hmem)
      rw [if_pos hold, Option.map_eq_none_iff] at hnone
      exact hnone
    · rintro h package (hmem | ⟨item, hitem, rfl⟩)
      · split
        · rename_i hold
          rw [h package hmem hold]
          rfl
        · rfl
      · have hrole : isInstalledOldSelf declaring item.package = false := by
          simp [isInstalledOldSelf, hplanned item hitem]
        rw [hrole]
        rfl

/-- The code gives the verdict exactly for the cleared declarations. -/
theorem exists_noMatch_iff {installed : PackageRelationObservationSet} (hmem : declaring ∈ planned)
    {declaration : DeclaredPackageRelation}
    (repositoryContext : Option PackageRelationObservationSet) (missing : Bool) :
    (∃ assessment ∈ assessDeclaration vercmp declaring declaration
        (activeObservationsFor (installedAuthorityObservations installed)
          (plannedTargetObservations planned) declaring.package)
        repositoryContext missing,
      assessment.kind = .confirmedNoMatchingCurrentOrPlannedTarget) ↔
      Cleared vercmp installed planned declaring.package declaration := by
  have hne : planned ≠ [] := List.ne_nil_of_mem hmem
  rw [exists_noMatch_assessDeclaration_iff, packageRelationConfirmsNoMatch_iff,
    show (activeObservationsFor (installedAuthorityObservations installed)
        (plannedTargetObservations planned)
        declaring.package).observations.completeness =
      mergeCompleteness (installedAuthorityObservations installed).completeness
        (plannedTargetObservations planned).completeness from rfl,
    mergeCompleteness_eq_complete_iff,
    installedAuthorityObservations_complete_iff,
    plannedTargetObservations_complete_iff hne]
  constructor
  · rintro ⟨⟨⟨⟨hcomplete, hinstalled⟩, hplanned⟩, ⟨-, hcovered⟩, hfailures, hmisses⟩,
      hdeclaring, hold⟩
    obtain ⟨hsources, hcoverage, hactiveFailures, hpackages, hfiltered⟩ :=
      activeObservations_spec declaring.package hinstalled hplanned
    have hmissed : ∀ package, OtherActive installed planned declaring.package package →
          ConfirmedMiss vercmp declaration package := by
      intro package hother
      exact hmisses package ((hpackages package).mpr hother)
    refine ⟨{
      installed_complete := hcomplete
      installed_roles := hinstalled
      planned_roles := hplanned
      no_failures := hactiveFailures.symm.trans hfailures
      covered := ?_
      declaring_wellFormed := hdeclaring
      others_valid := ?_
      old_self_valid := hfiltered.mp hold }, hmissed⟩
    · intro source hsource
      exact (hcoverage source).mp (hcovered source ((hsources source).mpr (Or.inl hsource)))
    · intro package hother
      exact (hmissed package hother).observation_valid
  · intro hcleared
    have hobservation := hcleared.observation
    obtain ⟨hsources, hcoverage, hactiveFailures, hpackages, hfiltered⟩ :=
      activeObservations_spec declaring.package
        hobservation.installed_roles hobservation.planned_roles
    refine ⟨⟨⟨⟨hobservation.installed_complete, hobservation.installed_roles⟩,
      hobservation.planned_roles⟩, ⟨?_, ?_⟩, ?_, ?_⟩,
      hobservation.declaring_wellFormed,
      hfiltered.mpr hobservation.old_self_valid⟩
    · exact List.ne_nil_of_mem ((hsources declaring.package.source).mpr
          (Or.inr ⟨declaring, hmem, rfl⟩))
    · intro source hsource
      rw [hcoverage]
      rcases (hsources source).mp hsource with hsource | hsource
      · exact hobservation.covered source hsource
      · exact Or.inr hsource
    · exact hactiveFailures.trans hobservation.no_failures
    · intro package hactive
      exact hcleared.others_miss package ((hpackages package).mp hactive)

/-! ## Fail-closed assessment -/

/-- What the verdict promises: the observation is complete and no other
package matches the declaration, through its name or through a component it
provides. -/
structure NoMatchJustified (vercmp : Bytes → Bytes → Int)
    (installed : PackageRelationObservationSet)
    (planned : List PlannedPackageRelationObservation)
    (declaring : PackageRelationObservedPackage)
    (declaration : DeclaredPackageRelation) : Prop where
  observation : ObservationComplete installed planned declaring declaration
  no_match : ∀ package, OtherActive installed planned declaring package →
    ¬ PackageMatches vercmp declaration package

/-- The contract of an assessment run: every declaration is assessed, and
the verdict that releases the guard is justified. -/
structure FailClosed (vercmp : Bytes → Bytes → Int)
    (installed : PackageRelationObservationSet)
    (planned : List PlannedPackageRelationObservation)
    (repositoryContext : Option PackageRelationObservationSet) : Prop where
  assessed : ∀ declaring ∈ planned, ∀ declaration ∈ declaring.declarations,
    ∃ assessment ∈
      assessPackageRelations vercmp installed planned repositoryContext,
      assessment.declaration = declaration ∧
        assessment.declaringPackage = declaring.package
  justified : ∀ assessment ∈
      assessPackageRelations vercmp installed planned repositoryContext,
    assessment.kind = .confirmedNoMatchingCurrentOrPlannedTarget →
      NoMatchJustified vercmp installed planned assessment.declaringPackage
        assessment.declaration

/-- Every assessment carries the declaration and the package it is about. -/
private theorem assessDeclaration_attribution
    {repositoryContext : Option PackageRelationObservationSet}
    {assessment : PackageRelationAssessment}
    (hmem : assessment ∈ assessDeclaration vercmp declaring declaration active
      repositoryContext missing) :
    assessment.declaration = declaration ∧ assessment.declaringPackage = declaring.package := by
  simp only [assessDeclaration, assessEvidence, assessFailure, List.mem_append,
    List.mem_map, List.mem_flatMap, Option.mem_toList, Option.map_eq_some_iff,
    List.mem_ite_nil_right, List.mem_singleton] at hmem
  rcases hmem with ((((⟨-, rfl⟩ | ⟨_, -, rfl⟩) |
    ⟨_, -, (⟨-, rfl⟩ | ⟨-, rfl⟩) | ⟨-, rfl⟩⟩) | ⟨_, -, rfl⟩) | ⟨_, -, rfl⟩) |
    ⟨_, -, rfl⟩
  all_goals exact ⟨rfl, rfl⟩

/-- **Fail-closed assessment, exactly**: an assessment run meets its contract
if and only if no declaration the code clears has a shadowed package, one
that bears the declared name at a version outside the condition and provides
that same name at a version inside it. -/
theorem failClosed_iff_no_shadow (vercmp : Bytes → Bytes → Int)
    (installed : PackageRelationObservationSet)
    (planned : List PlannedPackageRelationObservation)
    (repositoryContext : Option PackageRelationObservationSet) :
    FailClosed vercmp installed planned repositoryContext ↔
      ∀ declaring ∈ planned, ∀ declaration ∈ declaring.declarations,
        ∀ package, OtherActive installed planned declaring.package package →
          Shadowed vercmp declaration package →
            ¬ Cleared vercmp installed planned declaring.package declaration := by
  constructor
  · intro hclosed declaring hdeclaring declaration hdeclaration package hother
      hshadowed hcleared
    obtain ⟨assessment, hmem, hkind⟩ := (exists_noMatch_iff hdeclaring
      repositoryContext (installedAuthorityIsUndeclared
        (installedAuthorityObservations installed))).mpr hcleared
    obtain ⟨hsame, hsamePackage⟩ := assessDeclaration_attribution hmem
    have hjustified := hclosed.justified assessment
      (List.mem_flatMap.mpr ⟨declaring, hdeclaring,
        List.mem_flatMap.mpr ⟨declaration, hdeclaration, hmem⟩⟩) hkind
    rw [hsame, hsamePackage] at hjustified
    exact hjustified.no_match package hother
      ((hcleared.others_miss package hother).packageMatches_iff.mpr hshadowed)
  · intro hshadow
    refine { assessed := ?_, justified := ?_ }
    · intro declaring hdeclaring declaration hdeclaration
      obtain ⟨assessment, hmem⟩ := List.exists_mem_of_ne_nil _
        (@assessDeclaration_ne_nil vercmp declaring declaration
          (activeObservationsFor (installedAuthorityObservations installed)
            (plannedTargetObservations planned) declaring.package)
          repositoryContext
          (installedAuthorityIsUndeclared
            (installedAuthorityObservations installed)))
      refine ⟨assessment, ?_, assessDeclaration_attribution hmem⟩
      exact List.mem_flatMap.mpr ⟨declaring, hdeclaring,
        List.mem_flatMap.mpr ⟨declaration, hdeclaration, hmem⟩⟩
    · intro assessment hassessment hkind
      obtain ⟨declaring, hdeclaring, hinner⟩ := List.mem_flatMap.mp hassessment
      obtain ⟨declaration, hdeclaration, hmem⟩ := List.mem_flatMap.mp hinner
      have hcleared := (exists_noMatch_iff hdeclaring _ _).mp ⟨assessment, hmem, hkind⟩
      obtain ⟨hsame, hsamePackage⟩ := assessDeclaration_attribution hmem
      rw [hsame, hsamePackage]
      refine ⟨hcleared.observation, ?_⟩
      intro package hother hmatches
      exact hshadow declaring hdeclaring declaration hdeclaration package hother
        ((hcleared.others_miss package hother).packageMatches_iff.mp hmatches)
        hcleared

/-! ### A shadowed package -/

/-- An installed `foo 1-1` that provides `foo=2`. -/
def shadowingInstalled : PackageRelationObservationSet :=
  let database : PackageRelationSourceIdentity :=
    .installedDatabase (ascii "/") (ascii "/var/lib/pacman")
  { completeness := .complete
    requiredSources := [database]
    sourceIdentityCoverage := [⟨database, true, true⟩]
    packages := [{
      packageName := ascii "foo"
      packageBase := none
      packageVersion := .available .installedExactPackage (ascii "1-1")
      provides := [{
        capability := ⟨ascii "foo=2", ascii "foo", some (ascii "2")⟩
        observedVersion :=
          .available .installedProviderCapability (ascii "2") }]
      source := database
      role := .installed
      roots := [] }]
    failures := [] }

/-- A planned `bar` that declares a conflict with `foo>=2`. -/
def conflictingPlanned : List PlannedPackageRelationObservation :=
  [{ package := {
      packageName := ascii "bar"
      packageBase := some (ascii "bar")
      packageVersion := .available .aurExactPackage (ascii "1-1")
      provides := []
      source := .aurSource (ascii "bar") (ascii "bar")
      role := .plannedTarget
      roots := [⟨0, ascii "bar"⟩] }
     declarations := [{
      declaringPackageName := ascii "bar"
      declaringPackageBase := ascii "bar"
      kind := .conflict
      rawSpecification := ascii "foo>=2"
      targetComponent := ascii "foo"
      constraint := some ⟨.greaterThanOrEqual, ascii "2"⟩ }] }]

/-- The conflict of `bar` with the provided `foo=2` is cleared, because the
installed package is itself named `foo`. -/
theorem shadowed_conflict_cleared :
    ¬ FailClosed bytewiseVercmp shadowingInstalled conflictingPlanned none := by
  intro hclosed
  have hassessed : ∃ assessment ∈ assessPackageRelations bytewiseVercmp
      shadowingInstalled conflictingPlanned none,
      assessment.kind = .confirmedNoMatchingCurrentOrPlannedTarget ∧
        ∃ package ∈ shadowingInstalled.packages,
          isSelf assessment.declaringPackage package = false ∧
            PackageMatches bytewiseVercmp assessment.declaration package := by
    decide
  obtain ⟨assessment, hmem, hkind, package, hpackage, hself, hmatches⟩ := hassessed
  exact (hclosed.justified assessment hmem hkind).no_match package
    ⟨Or.inl hpackage, hself⟩ hmatches

end Moguet.Relation.NoMatch
