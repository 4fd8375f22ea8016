import Moguet.Verified.Pruning
import Moguet.Cleanup.Execution

/-!
# A removal takes a closed set

The candidates that stay ready are looked at twice: each by itself, through a
chain of checks with early returns, and then together, until no ready candidate
has a consumer that stays. The second part is pruning to a closed set, so the
list of the removal is the largest one the answers allow.
-/

namespace Moguet.Cleanup.Execution

open Verified.ByteString Verified.Pruning Plan.Constraint Model Policy

variable {name : Bytes} {actual : InstalledPackageMetadata}

section

variable {Failure Configuration Session : Type}

/-! ## The closure -/

theorem isReady_iff {candidate : CandidateRevalidation Failure} :
    candidate.isReady = true ↔ candidate.status = .ready := by
  rw [CandidateRevalidation.isReady, decide_eq_true_iff]

/-- The candidates a round keeps ready are the supported ones. -/
theorem staysRequired_eq_false_iff (candidates : List (CandidateRevalidation Failure))
    {candidate : CandidateRevalidation Failure} (hready : candidate.isReady = true) :
    staysRequired (readyNames candidates) candidate = false ↔
      Supported CandidateRevalidation.name CandidateRevalidation.runtimeConsumers
        (candidates.filter (·.isReady)) candidate := by
  rw [staysRequired, hready, Bool.true_and, List.any_eq_false]
  constructor
  · intro h consumer hconsumer
    have hstays := h consumer hconsumer
    simp only [decide_not, Bool.not_eq_true', decide_eq_false_iff_not, not_not] at hstays
    exact hstays
  · intro h consumer hconsumer
    simp only [decide_not, Bool.not_eq_true', decide_eq_false_iff_not, not_not]
    exact h consumer hconsumer

theorem filter_isReady_map {ready : List Bytes}
    {candidates : List (CandidateRevalidation Failure)} :
    (candidates.map fun candidate =>
        if staysRequired ready candidate then { candidate with status := .stillRequired }
        else candidate).filter (·.isReady) =
      (candidates.filter (·.isReady)).filter fun candidate =>
        !staysRequired ready candidate := by
  induction candidates with
  | nil => rfl
  | cons candidate candidates ih =>
    by_cases hready : candidate.isReady = true
    · by_cases hstays : staysRequired ready candidate = true
      · have hdropped : CandidateRevalidation.isReady
            { candidate with status := RevalidationStatus.stillRequired } = false := rfl
        rw [List.map_cons, if_pos hstays, List.filter_cons_of_neg (by rw [hdropped]; simp),
          List.filter_cons_of_pos hready, List.filter_cons_of_neg (by simp [hstays]), ih]
      · rw [List.map_cons, if_neg hstays, List.filter_cons_of_pos hready,
          List.filter_cons_of_pos hready, List.filter_cons_of_pos (by simp [hstays]), ih]
    · have hstays : ¬ staysRequired ready candidate = true := by
        simp [staysRequired, hready]
      rw [List.map_cons, if_neg hstays, List.filter_cons_of_neg hready,
        List.filter_cons_of_neg hready, ih]

theorem filter_isReady_closePass (candidates : List (CandidateRevalidation Failure)) :
    (closePass candidates).filter (·.isReady) =
      prune CandidateRevalidation.name CandidateRevalidation.runtimeConsumers
        (candidates.filter (·.isReady)) := by
  rw [closePass, filter_isReady_map, prune]
  apply List.filter_congr
  intro candidate hcandidate
  have hiff := staysRequired_eq_false_iff candidates (List.mem_filter.mp hcandidate).2
  cases hstays : staysRequired (readyNames candidates) candidate with
  | false =>
    rw [decide_eq_true (hiff.mp hstays)]
    rfl
  | true =>
    have hunsupported := mt hiff.mpr (by rw [hstays]; exact Bool.noConfusion)
    rw [decide_eq_false hunsupported]
    rfl

/-- A round that changes a status makes the ready ones fewer. -/
theorem any_staysRequired_iff (candidates : List (CandidateRevalidation Failure)) :
    candidates.any (staysRequired (readyNames candidates)) = true ↔
      (prune CandidateRevalidation.name CandidateRevalidation.runtimeConsumers
        (candidates.filter (·.isReady))).length < (candidates.filter (·.isReady)).length := by
  rw [prune, List.length_filter_lt_length_iff_exists, List.any_eq_true]
  constructor
  · rintro ⟨candidate, hcandidate, hstays⟩
    have hready : candidate.isReady = true := (Bool.and_eq_true_iff.mp hstays).1
    refine ⟨candidate, List.mem_filter.mpr ⟨hcandidate, hready⟩, ?_⟩
    rw [decide_eq_true_iff, ← staysRequired_eq_false_iff candidates hready, hstays]
    exact Bool.noConfusion
  · rintro ⟨candidate, hcandidate, hunsupported⟩
    obtain ⟨hmem, hready⟩ := List.mem_filter.mp hcandidate
    rw [decide_eq_true_iff, ← staysRequired_eq_false_iff candidates hready] at hunsupported
    exact ⟨candidate, hmem, Bool.of_not_eq_false hunsupported⟩

/-- The loop over the statuses, seen on the ready candidates only. -/
theorem closeLoop_eq_pruneLoop : ∀ (fuel : Nat) (candidates : List (CandidateRevalidation Failure)),
    (closeLoop fuel candidates).map (List.filter (·.isReady)) =
      pruneLoop CandidateRevalidation.name CandidateRevalidation.runtimeConsumers fuel
        (candidates.filter (·.isReady)) := by
  intro fuel
  induction fuel with
  | zero =>
    intro candidates
    rfl
  | succ fuel ih =>
    intro candidates
    rw [closeLoop, pruneLoop]
    by_cases hchanged : candidates.any (staysRequired (readyNames candidates)) = true
    · rw [if_pos hchanged, if_pos ((any_staysRequired_iff candidates).mp hchanged), ih,
        filter_isReady_closePass]
    · rw [if_neg hchanged, if_neg (mt (any_staysRequired_iff candidates).mpr hchanged),
        Option.map_some, filter_isReady_closePass]

theorem closeLoop_ends (candidates : List (CandidateRevalidation Failure)) :
    ∃ closed, closeLoop (candidates.length + 1) candidates = some closed := by
  have hlength : (candidates.filter (·.isReady)).length < candidates.length + 1 :=
    Nat.lt_succ_of_le (List.length_filter_le _ _)
  have hends : ∃ kept, pruneLoop CandidateRevalidation.name
      CandidateRevalidation.runtimeConsumers (candidates.length + 1)
      (candidates.filter (·.isReady)) = some kept := pruneLoop_ends hlength
  obtain ⟨kept, hkept⟩ := hends
  rw [← closeLoop_eq_pruneLoop] at hkept
  obtain ⟨closed, hclosed, -⟩ := Option.map_eq_some_iff.mp hkept
  exact ⟨closed, hclosed⟩

/-! ## What a ready candidate was seen to be -/

/-- The answers that no candidate is judged without. -/
structure Observed (queries : CleanupQueries Failure Configuration Session)
    (configuration : Configuration) (session : Session) (snapshot : InstalledSnapshot)
    (patterns : List Bytes) : Prop where
  resolved : queries.resolveConfiguration = .ok configuration
  held : queries.holdPackagePatterns = .ok (.ok patterns)
  opened : queries.openSession configuration = .ok session
  listed : queries.snapshotInstalled session = .ok (.ok snapshot)

/-- An installed package with the approved identity. -/
structure SameIdentity (expected actual : InstalledPackageMetadata) : Prop where
  name : actual.name = expected.name
  version : actual.version = expected.version
  packageBase : actual.packageBase = expected.packageBase
  architecture : actual.architecture = expected.architecture

structure ReadyEvidence (queries : CleanupQueries Failure Configuration Session)
    (configuration : Configuration) (session : Session) (snapshot : InstalledSnapshot)
    (patterns : List Bytes) (candidate : CandidateRevalidation Failure) : Prop where
  installed : ∃ actual, snapshot.lookup candidate.name = some actual ∧
    candidate.current = some actual ∧
    SameIdentity candidate.approved.expectedInstalled actual ∧ actual.reason = .dependency
  policy : ∃ policy, queries.policyEvidence configuration candidate.name = .ok policy ∧
    projectCleanupPolicyProtection policy = .notProtected
  holdPackages : ∀ pattern ∈ patterns, queries.fnmatch pattern candidate.name = .noMatch
  consumers : queries.runtimeConsumers session candidate.name =
    .ok (.ok candidate.runtimeConsumers)

theorem holdPackageMatch_noMatch {fnmatch : Bytes → Bytes → FnmatchResult} :
    ∀ {patterns : List Bytes}, holdPackageMatch fnmatch name patterns = .noMatch →
      ∀ pattern ∈ patterns, fnmatch pattern name = .noMatch := by
  intro patterns
  induction patterns with
  | nil =>
    intro _ pattern hpattern
    cases hpattern
  | cons first patterns ih =>
    intro h pattern hpattern
    rw [holdPackageMatch] at h
    cases hfirst : fnmatch first name with
    | matched =>
      rw [hfirst] at h
      cases h
    | failed =>
      rw [hfirst] at h
      cases h
    | noMatch =>
      rw [hfirst] at h
      rcases List.mem_cons.mp hpattern with rfl | hrest
      · exact hfirst
      · exact ih h pattern hrest

theorem sameIdentity_of_not_identityChanged {expected : InstalledPackageMetadata}
    (h : ¬ identityChanged expected actual = true) : SameIdentity expected actual := by
  simp only [identityChanged, ne_eq, Bool.or_eq_true, decide_eq_true_eq, not_or, not_not] at h
  exact ⟨h.1.1.1, h.1.1.2, h.1.2, h.2⟩

section

variable {queries : CleanupQueries Failure Configuration Session} {configuration : Configuration}
  {session : Session} {snapshot : InstalledSnapshot} {patterns : List Bytes}

theorem revalidateConsumers_ready {candidate candidate' : CandidateRevalidation Failure}
    (h : revalidateConsumers queries session candidate = (candidate', none))
    (hunknown : candidate.status = .unknown) (hready : candidate'.isReady = true) :
    candidate'.approved = candidate.approved ∧ candidate'.current = candidate.current ∧
      queries.runtimeConsumers session candidate.name = .ok (.ok candidate'.runtimeConsumers) := by
  unfold revalidateConsumers at h
  split at h
  · cases h
  · cases h
    rw [isReady_iff] at hready
    rw [hunknown] at hready
    cases hready
  · rename_i consumers hconsumers
    cases h
    exact ⟨rfl, rfl, hconsumers⟩

theorem not_isReady_of_unknown {candidate : CandidateRevalidation Failure}
    (h : candidate.status = .unknown) : ¬ candidate.isReady = true := by
  rw [isReady_iff, h]
  exact RevalidationStatus.noConfusion

theorem revalidateProtection_ready {candidate candidate' : CandidateRevalidation Failure}
    (h : revalidateProtection queries configuration session patterns actual candidate =
      (candidate', none)) (hunknown : candidate.status = .unknown)
    (hready : candidate'.isReady = true) :
    candidate'.approved = candidate.approved ∧ candidate'.current = candidate.current ∧
      (∃ policy, queries.policyEvidence configuration candidate.name = .ok policy ∧
        projectCleanupPolicyProtection policy = .notProtected) ∧
      (∀ pattern ∈ patterns, queries.fnmatch pattern actual.name = .noMatch) ∧
      queries.runtimeConsumers session candidate.name = .ok (.ok candidate'.runtimeConsumers) := by
  unfold revalidateProtection at h
  split at h
  · cases h
  · rename_i policy hpolicy
    dsimp only at h
    split at h
    · cases h
      exact absurd hready (not_isReady_of_unknown hunknown)
    · split at h
      · cases h
        cases hready
      · cases h
        cases hready
      · rename_i hprotection
        split at h
        · cases h
          cases hready
        · cases h
          exact absurd hready (not_isReady_of_unknown hunknown)
        · rename_i hpatterns
          obtain ⟨happroved, hcurrent, hconsumers⟩ :=
            revalidateConsumers_ready h hunknown hready
          exact ⟨happroved, hcurrent, ⟨policy, hpolicy, hprotection⟩,
            holdPackageMatch_noMatch hpatterns, hconsumers⟩

/-- Every early return leaves the candidate unready. -/
theorem revalidateCandidate_ready {candidate candidate' : CandidateRevalidation Failure}
    (h : revalidateCandidate queries configuration session snapshot patterns candidate =
      (candidate', none))
    (hunknown : candidate.status = .unknown) (hready : candidate'.isReady = true) :
    ReadyEvidence queries configuration session snapshot patterns candidate' := by
  unfold revalidateCandidate at h
  dsimp only at h
  split at h
  · cases h
    cases hready
  · split at h
    · rename_i actual hverified hmetadata
      split at h
      · cases h
        cases hready
      · rename_i hidentity
        split at h
        · cases h
          rw [isReady_iff] at hready
          dsimp only at hready
          split at hready
          · cases hready
          · cases hready
        · rename_i hreason
          obtain ⟨happroved, hcurrent, hpolicy, hpatterns, hconsumers⟩ :=
            revalidateProtection_ready h hunknown hready
          have hname : candidate'.name = candidate.name := by
            rw [CandidateRevalidation.name, happroved]
            rfl
          have hlookup : snapshot.lookup candidate.name = some actual := by
            unfold projectCurrentPackageEvidence at hmetadata
            split at hmetadata
            · cases hmetadata
            · rename_i metadata hmetadata'
              injection hmetadata with hmetadata
              rw [← hmetadata]
              exact hmetadata'
          have hsame := sameIdentity_of_not_identityChanged hidentity
          have hactual : actual.name = candidate'.name := by
            rw [hname]
            exact hsame.name
          refine ⟨⟨actual, ?_, ?_, ?_, not_not.mp hreason⟩, ?_, ?_, ?_⟩
          · rw [hname]
            exact hlookup
          · rw [hcurrent]
            exact hmetadata
          · rw [happroved]
            exact hsame
          · rw [hname]
            exact hpolicy
          · rw [← hactual]
            exact hpatterns
          · rw [hname]
            exact hconsumers
    · cases h
      exact absurd hready (not_isReady_of_unknown hunknown)

variable (queries configuration session snapshot patterns) in
theorem revalidateCandidate_approved (candidate : CandidateRevalidation Failure) :
    (revalidateCandidate queries configuration session snapshot patterns
      candidate).1.approved = candidate.approved := by
  unfold revalidateCandidate revalidateProtection revalidateConsumers
  dsimp only
  repeat' split
  all_goals rfl

/-- The run over the candidates, by the spec of one. -/
theorem revalidateAll_ready : ∀ {candidates candidates' : List (CandidateRevalidation Failure)},
    revalidateAll queries configuration session snapshot patterns candidates = (candidates', none) →
      (∀ candidate ∈ candidates, candidate.status = .unknown) →
      candidates'.map (·.approved) = candidates.map (·.approved) ∧
      ∀ candidate ∈ candidates', candidate.isReady = true →
        ReadyEvidence queries configuration session snapshot patterns candidate := by
  intro candidates
  induction candidates with
  | nil =>
    intro candidates' h _
    cases h
    refine ⟨rfl, ?_⟩
    intro candidate hcandidate
    cases hcandidate
  | cons first candidates ih =>
    intro candidates' h hunknown
    rw [revalidateAll] at h
    split at h
    · cases h
    · rename_i first' hfirst
      injection h with hlist hthrown
      obtain ⟨happroved, hready⟩ := ih (Prod.ext rfl hthrown)
        fun candidate hcandidate => hunknown candidate (List.mem_cons_of_mem _ hcandidate)
      have hsame : first'.approved = first.approved := by
        have hkept := revalidateCandidate_approved queries configuration session snapshot
          patterns first
        rw [hfirst] at hkept
        exact hkept
      rw [← hlist]
      constructor
      · rw [List.map_cons, List.map_cons, happroved, hsame]
      · intro candidate hcandidate hisReady
        rcases List.mem_cons.mp hcandidate with rfl | hrest
        · exact revalidateCandidate_ready hfirst (hunknown first List.mem_cons_self) hisReady
        · exact hready candidate hrest hisReady

end

/-- Without an invalid candidate, the approved ones have distinct names and
are all valid. -/
theorem initialCandidates_valid : ∀ {approved : List CandidateSnapshot} {names : List Bytes},
    (∀ candidate ∈ (initialCandidates names approved : List (CandidateRevalidation Failure)),
      candidate.status ≠ .invalid) →
    (initialCandidates names approved : List (CandidateRevalidation Failure)).map
      (·.approved) = approved ∧
    (∀ candidate ∈ (initialCandidates names approved : List (CandidateRevalidation Failure)),
      candidate.status = .unknown) ∧
    (∀ candidate ∈ approved, validApprovalCandidate candidate = true ∧ candidate.name ∉ names) ∧
    (approved.map (·.name)).Nodup := by
  intro approved
  induction approved with
  | nil =>
    intro names _
    simp [initialCandidates]
  | cons first approved ih =>
    intro names hvalid
    rw [initialCandidates] at hvalid ⊢
    split at hvalid
    · rename_i hfirst
      rw [if_pos hfirst]
      obtain ⟨happroved, hunknown, hcandidates, hnodup⟩ := ih
        fun candidate hcandidate => hvalid candidate (List.mem_cons_of_mem _ hcandidate)
      refine ⟨by rw [List.map_cons, happroved], ?_, ?_, ?_⟩
      · intro candidate hcandidate
        rcases List.mem_cons.mp hcandidate with rfl | hrest
        · rfl
        · exact hunknown candidate hrest
      · intro candidate hcandidate
        rcases List.mem_cons.mp hcandidate with rfl | hrest
        · exact hfirst
        · refine ⟨(hcandidates candidate hrest).1, fun hmem => ?_⟩
          exact (hcandidates candidate hrest).2 (List.mem_append_left _ hmem)
      · rw [List.map_cons, List.nodup_cons]
        refine ⟨fun hmem => ?_, hnodup⟩
        obtain ⟨candidate, hcandidate, hname⟩ := List.mem_map.mp hmem
        apply (hcandidates candidate hcandidate).2
        rw [hname]
        exact List.mem_append_right _ List.mem_cons_self
    · exact absurd rfl (hvalid _ List.mem_cons_self)

/-- The approved identity is that of the installed package. -/
theorem packageName_of_valid {candidate : CandidateSnapshot}
    (h : validApprovalCandidate candidate = true) :
    candidate.package.packageName = candidate.name ∧
      candidate.expectedInstalled.reason = .dependency := by
  rw [validApprovalCandidate, Bool.and_eq_true, decide_eq_true_iff, decide_eq_true_iff] at h
  obtain ⟨metadata, hmetadata, hinstalled⟩ :=
    (classifyInvocationOwnedCleanup_eligible h.2).installed
  injection hmetadata with hmetadata
  rw [← hmetadata] at hinstalled
  exact ⟨hinstalled.name.symm, hinstalled.reason⟩

/-! ## What is removed -/

/-- A package of the list `names`, as the system answered. -/
structure Removable (queries : CleanupQueries Failure Configuration Session)
    (configuration : Configuration) (session : Session) (snapshot : InstalledSnapshot)
    (patterns : List Bytes) (approval : CleanupPreview) (names : List Bytes)
    (name : Bytes) : Prop where
  installed : ∃ approved ∈ approval.eligibleCandidates, approved.package.packageName = name ∧
    ∃ actual, snapshot.lookup name = some actual ∧
      SameIdentity approved.expectedInstalled actual ∧ actual.reason = .dependency
  policy : ∃ policy, queries.policyEvidence configuration name = .ok policy ∧
    projectCleanupPolicyProtection policy = .notProtected
  holdPackages : ∀ pattern ∈ patterns, queries.fnmatch pattern name = .noMatch
  consumers : ∃ consumers, queries.runtimeConsumers session name = .ok (.ok consumers) ∧
    ∀ consumer ∈ consumers, consumer ∈ names

/-- A set of ready names that holds what needs its members. -/
def ClosedNames (candidates : List (CandidateRevalidation Failure)) (names : List Bytes) :
    Prop :=
  names ⊆ readyNames candidates ∧
    ∀ candidate ∈ candidates, candidate.isReady = true → candidate.name ∈ names →
      ∀ consumer ∈ candidate.runtimeConsumers, consumer ∈ names

/-- The list of a removal: every query that all candidates share was answered,
no query threw, and the list is the largest closed set of ready names. -/
structure ClosedRemoval (queries : CleanupQueries Failure Configuration Session)
    (approval : CleanupPreview) (revalidation : RevalidationResult Failure)
    (names : List Bytes) : Prop where
  approved : approval.state = .ready
  valid : ∀ candidate ∈ approval.eligibleCandidates, validApprovalCandidate candidate = true
  distinctApproved : (approval.eligibleCandidates.map (·.name)).Nodup
  ready : names = readyNames revalidation.candidates
  distinct : names.Nodup
  observed : ∃ configuration session snapshot patterns before,
    Observed queries configuration session snapshot patterns ∧
    revalidateAll queries configuration session snapshot patterns
      (initialCandidates [] approval.eligibleCandidates) = (before, none) ∧
    (∀ name ∈ names, Removable queries configuration session snapshot patterns approval
      names name) ∧
    ClosedNames before names ∧
    ∀ closed, ClosedNames before closed → closed ⊆ names

theorem readyNames_sublist (candidates : List (CandidateRevalidation Failure)) :
    (readyNames candidates).Sublist (candidates.map (·.name)) :=
  List.Sublist.map _ List.filter_sublist

theorem mem_readyNames {candidates : List (CandidateRevalidation Failure)} :
    name ∈ readyNames candidates ↔
      ∃ candidate ∈ candidates, candidate.isReady = true ∧ candidate.name = name := by
  rw [readyNames, List.mem_map]
  constructor
  · rintro ⟨candidate, hcandidate, hname⟩
    obtain ⟨hmem, hready⟩ := List.mem_filter.mp hcandidate
    exact ⟨candidate, hmem, hready, hname⟩
  · rintro ⟨candidate, hmem, hready, hname⟩
    exact ⟨candidate, List.mem_filter.mpr ⟨hmem, hready⟩, hname⟩

/-- What the closure leaves of the candidates, in names. -/
theorem closeLoop_closedNames {fuel : Nat}
    {candidates closed : List (CandidateRevalidation Failure)}
    (h : closeLoop fuel candidates = some closed)
    (hnodup : (candidates.map (·.name)).Nodup) :
    (closed.filter (·.isReady)).Sublist (candidates.filter (·.isReady)) ∧
      ClosedNames candidates (readyNames closed) ∧
      ∀ names, ClosedNames candidates names → names ⊆ readyNames closed := by
  have hpruned : pruneLoop CandidateRevalidation.name
      CandidateRevalidation.runtimeConsumers fuel (candidates.filter (·.isReady)) =
        some (closed.filter (·.isReady)) := by
    rw [← closeLoop_eq_pruneLoop, h]
    rfl
  obtain ⟨hsublist, hclosed⟩ := pruneLoop_closed hpruned
  refine ⟨hsublist, ⟨List.map_subset _ hsublist.subset, ?_⟩, ?_⟩
  · intro candidate hcandidate hready hname consumer hconsumer
    obtain ⟨kept, hkept, hsame⟩ := List.mem_map.mp hname
    -- the names are distinct, so the ready candidate of the name is the one kept
    have heq : kept = candidate := by
      apply List.inj_on_of_nodup_map hnodup
      · exact (List.mem_filter.mp (hsublist.subset hkept)).1
      · exact hcandidate
      · exact hsame
    rw [heq] at hkept
    exact hclosed candidate hkept consumer hconsumer
  · intro names hnames name hname
    have hset : ClosedSet CandidateRevalidation.name CandidateRevalidation.runtimeConsumers
        ((candidates.filter (·.isReady)).filter fun candidate => candidate.name ∈ names) := by
      intro candidate hcandidate consumer hconsumer
      obtain ⟨hready, hmem⟩ := List.mem_filter.mp hcandidate
      obtain ⟨hlisted, hisReady⟩ := List.mem_filter.mp hready
      have hconsumerName := hnames.2 candidate hlisted hisReady (of_decide_eq_true hmem)
        consumer hconsumer
      obtain ⟨found, hfound, hfoundReady, hfoundName⟩ :=
        mem_readyNames.mp (hnames.1 hconsumerName)
      apply List.mem_map.mpr
      refine ⟨found, ?_, hfoundName⟩
      apply List.mem_filter.mpr
      refine ⟨List.mem_filter.mpr ⟨hfound, hfoundReady⟩, ?_⟩
      rw [hfoundName]
      exact decide_eq_true hconsumerName
    obtain ⟨candidate, hcandidate, hready, hcandidateName⟩ :=
      mem_readyNames.mp (hnames.1 hname)
    have hkept : candidate ∈ closed.filter (·.isReady) := by
      apply pruneLoop_greatest hset hpruned (List.filter_subset_self _)
      apply List.mem_filter.mpr
      refine ⟨List.mem_filter.mpr ⟨hcandidate, hready⟩, ?_⟩
      rw [hcandidateName]
      exact decide_eq_true hname
    exact List.mem_map.mpr ⟨candidate, hkept, hcandidateName⟩

/-! ## The whole run -/

theorem caughtResult_blocked {candidates : List (CandidateRevalidation Failure)}
    {thrown : QueryThrown Failure} {result : RevalidationResult Failure}
    (h : caughtResult candidates thrown = .ok result) : result.state = .blocked := by
  cases thrown with
  | packageMetadata failure =>
    cases h
    rfl
  | other => cases h

/-- Either something all candidates share failed, or every candidate was looked
at and the closure ended. -/
theorem revalidateApproved_cases (queries : CleanupQueries Failure Configuration Session)
    (candidates : List (CandidateRevalidation Failure)) :
    ∃ outcome, revalidateApproved queries candidates = some outcome ∧
      ((∀ result, outcome = .ok result → result.state = .blocked) ∨
        ∃ configuration session snapshot patterns before closed,
          Observed queries configuration session snapshot patterns ∧
          revalidateAll queries configuration session snapshot patterns candidates =
            (before, none) ∧
          closeLoop (before.length + 1) before = some closed ∧
          outcome = .ok (finishRevalidation closed)) := by
  unfold revalidateApproved
  split
  · exact ⟨_, rfl, Or.inl fun _ => caughtResult_blocked⟩
  · rename_i configuration hconfiguration
    split
    · exact ⟨_, rfl, Or.inl fun _ => caughtResult_blocked⟩
    · refine ⟨_, rfl, Or.inl ?_⟩
      intro result hresult
      cases hresult
      rfl
    · rename_i patterns hpatterns
      split
      · exact ⟨_, rfl, Or.inl fun _ => caughtResult_blocked⟩
      · rename_i session hsession
        split
        · exact ⟨_, rfl, Or.inl fun _ => caughtResult_blocked⟩
        · refine ⟨_, rfl, Or.inl ?_⟩
          intro result hresult
          cases hresult
          rfl
        · rename_i snapshot hsnapshot
          split
          · exact ⟨_, rfl, Or.inl fun _ => caughtResult_blocked⟩
          · rename_i before hbefore
            obtain ⟨closed, hclosed⟩ := closeLoop_ends before
            rw [hclosed]
            exact ⟨_, rfl, Or.inr ⟨configuration, session, snapshot, patterns, before, closed,
              ⟨hconfiguration, hpatterns, hsession, hsnapshot⟩, hbefore, hclosed, rfl⟩⟩

theorem removeRevalidatedCandidates_blocked (run : Bytes → Option Int)
    {revalidation : RevalidationResult Failure} (h : revalidation.state = .blocked) :
    (removeRevalidatedCandidates run revalidation).commands = [] := by
  rw [removeRevalidatedCandidates, h]

/-- A command that is run names the ready candidates. -/
theorem removeRevalidatedCandidates_commands (run : Bytes → Option Int)
    (revalidation : RevalidationResult Failure) :
    (removeRevalidatedCandidates run revalidation).commands = [] ∨
      (removeRevalidatedCandidates run revalidation).commands =
        [removalCommand ((revalidation.candidates.filter (·.isReady)).map
          (·.approved.package.packageName))] := by
  unfold removeRevalidatedCandidates
  dsimp only
  split
  · exact Or.inl rfl
  · exact Or.inl rfl
  · split
    · exact Or.inl rfl
    · split
      · exact Or.inl rfl
      · exact Or.inr rfl

theorem removeRevalidatedCandidates_revalidation (run : Bytes → Option Int)
    (revalidation : RevalidationResult Failure) :
    (removeRevalidatedCandidates run revalidation).revalidation = some revalidation := by
  unfold removeRevalidatedCandidates
  dsimp only
  repeat' split
  all_goals rfl

/-- The list of the ready candidates of a closed run. -/
theorem closedRemoval_of_closeLoop
    {queries : CleanupQueries Failure Configuration Session} {approval : CleanupPreview}
    {configuration : Configuration} {session : Session} {snapshot : InstalledSnapshot}
    {patterns : List Bytes} {before closed : List (CandidateRevalidation Failure)}
    (hvalid : approvalIsInvalid approval (initialCandidates [] approval.eligibleCandidates :
      List (CandidateRevalidation Failure)) = false)
    (hobserved : Observed queries configuration session snapshot patterns)
    (hbefore : revalidateAll queries configuration session snapshot patterns
      (initialCandidates [] approval.eligibleCandidates) = (before, none))
    (hclosed : closeLoop (before.length + 1) before = some closed) :
    (closed.filter (·.isReady)).map (·.approved.package.packageName) = readyNames closed ∧
      ClosedRemoval queries approval (finishRevalidation closed) (readyNames closed) := by
  simp only [approvalIsInvalid, Bool.or_eq_false_iff, decide_eq_false_iff_not, ne_eq,
    not_not, List.any_eq_false] at hvalid
  obtain ⟨⟨hstate, -⟩, hnotInvalid⟩ := hvalid
  obtain ⟨happroved, hunknown, hcandidates, hnodup⟩ :=
    initialCandidates_valid (fun candidate hcandidate hinvalid =>
      hnotInvalid candidate hcandidate (decide_eq_true hinvalid))
  obtain ⟨hsame, hevidence⟩ := revalidateAll_ready hbefore hunknown
  rw [happroved] at hsame
  have hnames : before.map (·.name) = approval.eligibleCandidates.map (·.name) := by
    rw [← hsame, List.map_map]
    rfl
  rw [← hnames] at hnodup
  obtain ⟨hsublist, hclosedNames, hgreatest⟩ := closeLoop_closedNames hclosed hnodup
  have hmember : ∀ candidate ∈ closed.filter (·.isReady), candidate ∈ before ∧
      candidate.isReady = true ∧ candidate.approved ∈ approval.eligibleCandidates := by
    intro candidate hcandidate
    obtain ⟨hmem, hready⟩ := List.mem_filter.mp (hsublist.subset hcandidate)
    refine ⟨hmem, hready, ?_⟩
    rw [← hsame]
    exact List.mem_map_of_mem hmem
  have hpackage : ∀ candidate ∈ closed.filter (·.isReady),
      candidate.approved.package.packageName = candidate.name := fun candidate hcandidate =>
    (packageName_of_valid (hcandidates _ (hmember candidate hcandidate).2.2).1).1
  refine ⟨List.map_congr_left hpackage, ?_⟩
  refine ⟨hstate, fun candidate hcandidate => (hcandidates candidate hcandidate).1,
    hnames ▸ hnodup, rfl, ?_, configuration, session, snapshot, patterns, before, hobserved,
    hbefore, ?_, hclosedNames, hgreatest⟩
  · exact (hsublist.map _).nodup ((readyNames_sublist before).nodup hnodup)
  · intro name hname
    obtain ⟨candidate, hcandidate, rfl⟩ := List.mem_map.mp hname
    obtain ⟨hmem, hready, hlisted⟩ := hmember candidate hcandidate
    obtain ⟨⟨actual, hlookup, -, hidentity, hreason⟩, hpolicy, hpatterns, hconsumers⟩ :=
      hevidence candidate hmem hready
    exact ⟨⟨candidate.approved, hlisted, hpackage candidate hcandidate, actual, hlookup,
      hidentity, hreason⟩, hpolicy, hpatterns, candidate.runtimeConsumers, hconsumers,
      hclosedNames.2 candidate hmem hready hname⟩

/-- A cleanup ends. It runs no command, or one removal of an approved
interaction: then every answer that all candidates share was there, no query
threw, every approved candidate was valid, and the list is the largest closed
set of the candidates that were ready. -/
theorem executeDependencyCleanup_removes_closed
    (queries : CleanupQueries Failure Configuration Session) (run : Bytes → Option Int)
    (interaction : InteractionResult) :
    ∃ outcome, executeDependencyCleanup queries run interaction = some outcome ∧
      (commandsRun outcome = [] ∨
        ∃ approval revalidation names result,
          interaction.status = .approved ∧ interaction.approvedSnapshot = some approval ∧
          outcome = .ok result ∧ result.revalidation = some revalidation ∧
          commandsRun outcome = [removalCommand names] ∧
          ClosedRemoval queries approval revalidation names) := by
  unfold executeDependencyCleanup
  split
  · rename_i approval hstatus happroval
    unfold revalidateDependencyCleanup
    dsimp only
    split
    · refine ⟨_, rfl, Or.inl ?_⟩
      exact removeRevalidatedCandidates_blocked run rfl
    · rename_i hvalid
      obtain ⟨outcome, houtcome, hblocked | ⟨configuration, session, snapshot, patterns,
        before, closed, hobserved, hbefore, hclosed, rfl⟩⟩ :=
        revalidateApproved_cases queries (initialCandidates [] approval.eligibleCandidates)
      · rw [houtcome]
        refine ⟨_, rfl, Or.inl ?_⟩
        cases outcome with
        | error thrown => rfl
        | ok revalidation =>
          exact removeRevalidatedCandidates_blocked run (hblocked revalidation rfl)
      · rw [houtcome]
        refine ⟨_, rfl, ?_⟩
        obtain ⟨hnames, hremoval⟩ := closedRemoval_of_closeLoop
          (Bool.eq_false_of_not_eq_true hvalid) hobserved hbefore hclosed
        rcases removeRevalidatedCandidates_commands run (finishRevalidation closed) with
          hnone | hcommand
        · exact Or.inl hnone
        · refine Or.inr ⟨approval, finishRevalidation closed, readyNames closed, _, hstatus,
            happroval, rfl, removeRevalidatedCandidates_revalidation run _, ?_, hremoval⟩
          rw [← hnames]
          exact hcommand
  · exact ⟨_, rfl, Or.inl rfl⟩

end

/-! ## A failed query of one candidate

Two packages were approved. The metadata of the second cannot be read again, so
it stays; the first is removed.
-/

def toolIdentity (name : Bytes) (valid : isValidPackageName name = true) :
    PackageChildIdentity where
  packageBase :=
    { source := .repository (ascii "extra") (.unknown .gitRemote)
      packageBase := name
      valid := valid }
  packageName := name
  valid := valid

/-- A build dependency of the package `app`. -/
def approvedTool (name : Bytes) (valid : isValidPackageName name = true) :
    CandidateSnapshot where
  package :=
    { package := toolIdentity name valid
      sourceRevision := .inapplicable
      packageVersion := .composite (ascii "1-1")
      architecture := .known [ascii "any"] }
  expectedInstalled :=
    ⟨name, ascii "1-1", .dependency, .known name, .known (ascii "any")⟩
  correlations :=
    [⟨⟨0, ascii "app"⟩, toolIdentity name valid, some .buildDependency,
      some ⟨0, toolIdentity (ascii "app") (by decide), .consumer ⟨name, name, none⟩, none⟩,
      .verified⟩]
  classification := .eligible
  sharedRequirement := .noLongerRequired
  policyProtection := .notProtected

def approvedTools : CleanupPreview :=
  ⟨.ready, [approvedTool (ascii "cmake") (by decide), approvedTool (ascii "ninja") (by decide)]⟩

def absentAuthority (kind : AuthorityKind) : AuthorityEvidence :=
  ⟨kind, .notObserved, .incomplete, .notEvaluated, .incomplete, [], none⟩

/-- `base-devel` is installed and needs neither of the two. -/
def toolPolicy (name : Bytes) (failures : List Unit) : PolicyEvidence Unit where
  localDatabaseCompleteness := .complete
  candidateMetadataCompleteness := if failures = [] then .complete else .failed
  candidate := if failures = [] then some ⟨name, ascii "1-1", [], []⟩ else none
  installedBaseDevel :=
    ⟨.installedBaseDevelMetaPackage, .present, .complete, .notProtected, .complete,
      [⟨.installedBaseDevelMetaPackage, none, none, ascii "base-devel", ascii "1-1",
        [ascii "gcc"]⟩], none⟩
  configuredSyncBaseDevel := absentAuthority .configuredSyncBaseDevelMetaPackage
  baseDevelGroup := absentAuthority .baseDevelGroupCompatibility
  consistency := .consistent
  failures := failures

/-- The system on which the policy of `ninja` cannot be read. -/
def failingQueries : CleanupQueries Unit Unit Unit where
  resolveConfiguration := .ok ()
  holdPackagePatterns := .ok (.ok [])
  openSession := fun _ => .ok ()
  snapshotInstalled := fun _ => .ok (.ok
    (approvedTools.eligibleCandidates.map fun candidate =>
      (candidate.name, candidate.expectedInstalled)))
  policyEvidence := fun _ name =>
    .ok (toolPolicy name (if name = ascii "ninja" then [()] else []))
  runtimeConsumers := fun _ _ => .ok (.ok [])
  fnmatch := fun _ _ => .noMatch

theorem executeDependencyCleanup_failed_query_removes :
    (∃ policy, failingQueries.policyEvidence () (ascii "ninja") = .ok policy ∧
      policy.failures ≠ []) ∧
    (executeDependencyCleanup failingQueries (fun _ => some 0)
      ⟨.approved, some approvedTools⟩).map commandsRun =
        some [removalCommand [ascii "cmake"]] := by
  refine ⟨⟨_, rfl, by decide⟩, ?_⟩
  decide +kernel

end Moguet.Cleanup.Execution
