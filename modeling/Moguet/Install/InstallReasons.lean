import Moguet.Install.ArtifactCorrelation

/-!
# The install reasons of a transaction

A `pacman -U` takes one flag for the reasons of all of its targets.
`resolve_install_reason_directive` (`artifact_install_plan.cpp`) says what each
artifact would need on its own, and `resolve_package_base_artifact_install_reason_plan`
(`package_base_artifact_install_plan.cpp`) folds that into the one flag, or refuses.
-/

namespace Moguet.Install.InstallReasons

open Verified.ByteString Verified.Checked Plan.Constraint ArtifactSelection ArtifactCorrelation

variable {α β : Type}

variable {needed : Bool}

/-! ## Reasons and directives -/

inductive ExistingInstallReason
  | explicit
  | dependency
  deriving DecidableEq

inductive InstalledVersionState
  | notInstalled
  | sameVersion
  | differentVersion
  deriving DecidableEq

inductive InstallReasonDirective
  | default
  | asExplicit
  | asDependency
  deriving DecidableEq

variable {flag : InstallReasonDirective}

inductive SafeFinalInstallReason
  | explicit
  | dependency
  deriving DecidableEq

/-- What is thrown: a broken invariant, or a reason that `--needed` may keep from
being changed. -/
inductive PolicyError
  | invalidPackageBase
  | noSelectedArtifact
  | invalidPackageName
  | emptyPackageVersion
  | reasonOfNotInstalled
  | noReasonOfInstalled
  | unknownDesiredReason
  | neededMaySkip
  | skippedPackageChanges
  deriving DecidableEq

variable {error : PolicyError}

def requireConsistentInstallReasonInput (versionState : InstalledVersionState)
    (existingReason : Option ExistingInstallReason) : Except PolicyError Unit :=
  match versionState, existingReason with
  | .notInstalled, some _ => .error .reasonOfNotInstalled
  | .notInstalled, none => .ok ()
  | _, none => .error .noReasonOfInstalled
  | _, some _ => .ok ()

/-- The directive before `--needed` is looked at. -/
def desiredDirective (desiredReason : InstallReasonValue) (versionState : InstalledVersionState)
    (existingReason : Option ExistingInstallReason) : Except PolicyError InstallReasonDirective :=
  match desiredReason with
  | .named .explicit =>
    if versionState ≠ .notInstalled ∧ existingReason = some .dependency then .ok .asExplicit
    else .ok .default
  | .named .dependency =>
    if versionState = .notInstalled then .ok .asDependency else .ok .default
  | .unknown _ => .error .unknownDesiredReason

def resolveInstallReasonDirective (desiredReason : InstallReasonValue)
    (versionState : InstalledVersionState) (existingReason : Option ExistingInstallReason)
    (needed : Bool) : Except PolicyError InstallReasonDirective := do
  requireConsistentInstallReasonInput versionState existingReason
  let directive ← desiredDirective desiredReason versionState existingReason
  if versionState = .sameVersion ∧ needed = true ∧ directive ≠ .default then
    .error .neededMaySkip
  else .ok directive

/-! ## The plan -/

/-- `SelectedPackageBaseArtifactInstallReasonPolicyInput`. -/
structure SelectedArtifact where
  identity : ArtifactPackageIdentity
  desiredReason : InstallReasonValue
  installedVersionState : InstalledVersionState
  existingReason : Option ExistingInstallReason
  deriving DecidableEq

variable {input : SelectedArtifact}

/-- `PackageBaseArtifactInstallReasonPolicyInput`. -/
structure ReasonPolicyInput where
  packageBase : Bytes
  selectedArtifacts : List SelectedArtifact
  needed : Bool := false

/-- `ResolvedReasonPolicyItem`. -/
structure ResolvedItem where
  input : SelectedArtifact
  directive : InstallReasonDirective
  finalReason : SafeFinalInstallReason

variable {item : ResolvedItem} {items : List ResolvedItem}

/-- `PackageBaseArtifactInstallExpectedOutcome`. -/
inductive ExpectedOutcome
  | installed
  | skippedAsNeeded
  deriving DecidableEq

/-- `PlannedPackageBaseArtifactInstallReason`. -/
structure PlannedReason where
  identity : ArtifactPackageIdentity
  desiredReason : InstallReasonValue
  installedVersionState : InstalledVersionState
  existingReason : Option ExistingInstallReason
  directive : InstallReasonDirective
  expectedOutcome : ExpectedOutcome
  deriving DecidableEq

/-- `PackageBaseArtifactInstallReasonPlan`. -/
structure ReasonPlan where
  packageBase : Bytes
  selectedArtifacts : List PlannedReason
  transactionDirective : InstallReasonDirective
  needed : Bool
  deriving DecidableEq

/-- `MixedPackageBaseInstallReasonUnsupported`: the artifacts with their directives. -/
structure MixedReasons where
  packageBase : Bytes
  selectedArtifacts : List (SelectedArtifact × InstallReasonDirective)
  deriving DecidableEq

inductive ReasonPlanResult
  | plan (plan : ReasonPlan)
  | mixed (failure : MixedReasons)
  deriving DecidableEq

def resolveSafeFinalInstallReason (input : SelectedArtifact)
    (directive : InstallReasonDirective) : Except PolicyError SafeFinalInstallReason :=
  match directive with
  | .asExplicit => .ok .explicit
  | .asDependency => .ok .dependency
  | .default =>
    match input.installedVersionState, input.existingReason with
    -- without an option a new target becomes explicit
    | .notInstalled, _ => .ok .explicit
    | _, none => .error .noReasonOfInstalled
    | _, some .explicit => .ok .explicit
    | _, some .dependency => .ok .dependency

def requireValidPolicyIdentity (identity : ArtifactPackageIdentity) : Except PolicyError Unit :=
  if !isValidPackageName identity.packageName then .error .invalidPackageName
  else if identity.fullVersion = [] then .error .emptyPackageVersion
  else .ok ()

/-- The body of the loop over the selected artifacts. -/
def resolveItem (needed : Bool) (item : SelectedArtifact) : Except PolicyError ResolvedItem := do
  requireValidPolicyIdentity item.identity
  let directive ← resolveInstallReasonDirective item.desiredReason item.installedVersionState
    item.existingReason needed
  let finalReason ← resolveSafeFinalInstallReason item directive
  .ok ⟨item, directive, finalReason⟩

def reduceTransactionDirective (items : List ResolvedItem) : Option InstallReasonDirective :=
  if items.all fun item => item.directive = .default then some .default
  else if items.all fun item => item.finalReason = .explicit then some .asExplicit
  else if items.all fun item => item.finalReason = .dependency then some .asDependency
  else none

def preservesFinalReason (transactionDirective : InstallReasonDirective)
    (finalReason : SafeFinalInstallReason) : Bool :=
  match transactionDirective with
  | .default => true
  | .asExplicit => finalReason = .explicit
  | .asDependency => finalReason = .dependency

def resolveExpectedOutcome (item : ResolvedItem) (transactionDirective : InstallReasonDirective)
    (needed : Bool) : Except PolicyError ExpectedOutcome :=
  if needed = false ∨ item.input.installedVersionState ≠ .sameVersion ∨
      item.directive ≠ .default then .ok .installed
  else if preservesFinalReason transactionDirective item.finalReason then .ok .skippedAsNeeded
  else .error .skippedPackageChanges

def planItem (transactionDirective : InstallReasonDirective) (needed : Bool)
    (item : ResolvedItem) : Except PolicyError PlannedReason := do
  let outcome ← resolveExpectedOutcome item transactionDirective needed
  .ok {
    identity := item.input.identity
    desiredReason := item.input.desiredReason
    installedVersionState := item.input.installedVersionState
    existingReason := item.input.existingReason
    directive := item.directive
    expectedOutcome := outcome }

/-- `resolve_package_base_artifact_install_reason_plan`. -/
def resolveReasonPlan (input : ReasonPolicyInput) : Except PolicyError ReasonPlanResult :=
  if !isValidPackageName input.packageBase then .error .invalidPackageBase
  else if input.selectedArtifacts = [] then .error .noSelectedArtifact
  else do
    let items ← input.selectedArtifacts.mapM (resolveItem input.needed)
    match reduceTransactionDirective items with
    | none => .ok (.mixed ⟨input.packageBase, items.map fun item => (item.input, item.directive)⟩)
    | some directive => do
        let planned ← items.mapM (planItem directive input.needed)
        .ok (.plan ⟨input.packageBase, planned, directive, input.needed⟩)

/-! ## The transaction -/

/-- What `pacman -U` has done to a target, and the reason recorded for it then. -/
structure TargetAfter where
  skipped : Bool
  reason : ExistingInstallReason

variable {after : TargetAfter}

/-- With `--needed` a target of the installed version may be skipped. -/
def maySkip (needed : Bool) (item : SelectedArtifact) : Bool :=
  needed && item.installedVersionState = .sameVersion

/-- The reason of a target that is installed: the flag decides, and without one a new
package is explicit and an installed one keeps its reason. -/
def installedReason (flag : InstallReasonDirective) (item : SelectedArtifact) :
    ExistingInstallReason :=
  match flag with
  | .asExplicit => .explicit
  | .asDependency => .dependency
  | .default => item.existingReason.getD .explicit

/-- A target under a flag: it is installed, or skipped with its reason as it was. -/
inductive TargetRuns (flag : InstallReasonDirective) (needed : Bool) (item : SelectedArtifact) :
    TargetAfter → Prop
  | installed : TargetRuns flag needed item ⟨false, installedReason flag item⟩
  | skipped (reason : ExistingInstallReason) (hmay : maySkip needed item = true)
      (hreason : item.existingReason = some reason) : TargetRuns flag needed item ⟨true, reason⟩

/-- One transaction, target by target. -/
def TransactionRuns (flag : InstallReasonDirective) (needed : Bool)
    (items : List SelectedArtifact) (after : List TargetAfter) : Prop :=
  List.Forall₂ (TargetRuns flag needed) items after

/-- What a transaction is to leave of an artifact. -/
structure Settled (needed : Bool) (item : SelectedArtifact) (planned : PlannedReason)
    (after : TargetAfter) : Prop where
  identity : planned.identity = item.identity
  own : ∀ alone, TargetRuns planned.directive needed item alone → after.reason = alone.reason
  kept : item.existingReason = some .explicit → after.reason = .explicit
  wanted : item.desiredReason = .named .explicit → after.reason = .explicit
  expectedInstalled : planned.expectedOutcome = .installed → after.skipped = false
  expectedSkipped : planned.expectedOutcome = .skippedAsNeeded ↔ maySkip needed item = true

/-! ## One artifact -/

/-- How an artifact is resolved: by its state, the reason recorded for it and the
reason wanted for it, into a directive and a final reason. -/
inductive Resolution (needed : Bool) : InstalledVersionState → Option ExistingInstallReason →
    InstallReasonValue → InstallReasonDirective → SafeFinalInstallReason → Prop
  | newExplicit : Resolution needed .notInstalled none (.named .explicit) .default .explicit
  | newDependency :
      Resolution needed .notInstalled none (.named .dependency) .asDependency .dependency
  | keptExplicit (state : InstalledVersionState) (wanted : Plan.ArtifactTargets.DesiredInstallReason)
      (hinstalled : state ≠ .notInstalled) :
      Resolution needed state (some .explicit) (.named wanted) .default .explicit
  | raised (state : InstalledVersionState) (hinstalled : state ≠ .notInstalled)
      (hchanged : ¬ (state = .sameVersion ∧ needed = true)) :
      Resolution needed state (some .dependency) (.named .explicit) .asExplicit .explicit
  | keptDependency (state : InstalledVersionState) (hinstalled : state ≠ .notInstalled) :
      Resolution needed state (some .dependency) (.named .dependency) .default .dependency

/-- The resolution of an artifact. -/
def ResolvedAs (needed : Bool) (item : ResolvedItem) : Prop :=
  Resolution needed item.input.installedVersionState item.input.existingReason
    item.input.desiredReason item.directive item.finalReason

theorem resolution_of_directive {directive : InstallReasonDirective}
    {finalReason : SafeFinalInstallReason}
    (hdirective : resolveInstallReasonDirective input.desiredReason input.installedVersionState
      input.existingReason needed = .ok directive)
    (hfinal : resolveSafeFinalInstallReason input directive = .ok finalReason) :
    Resolution needed input.installedVersionState input.existingReason input.desiredReason
      directive finalReason := by
  obtain ⟨identity, desiredReason, state, existingReason⟩ := input
  obtain ⟨u, hconsistent, hdirective⟩ := bind_eq_ok.mp hdirective
  obtain ⟨wanted, hwanted, hkept⟩ := bind_eq_ok.mp hdirective
  have hsame : wanted = directive := by
    split at hkept
    · cases hkept
    · exact Except.ok.inj hkept
  rw [hsame] at hwanted hkept
  cases desiredReason with
  | unknown value => cases hwanted
  | named reason =>
    cases existingReason with
    | none =>
      cases state with
      | notInstalled =>
        cases reason with
        | explicit =>
          cases hwanted
          cases hfinal
          exact Resolution.newExplicit
        | dependency =>
          cases hwanted
          cases hfinal
          exact Resolution.newDependency
      | sameVersion => cases hconsistent
      | differentVersion => cases hconsistent
    | some existing =>
      have hinstalled : state ≠ .notInstalled := by
        intro hnew
        rw [hnew] at hconsistent
        cases hconsistent
      have hchanges : directive ≠ .default → ¬ (state = .sameVersion ∧ needed = true) := by
        intro hchanged hboth
        rw [if_pos ⟨hboth.1, hboth.2, hchanged⟩] at hkept
        cases hkept
      unfold desiredDirective at hwanted
      unfold resolveSafeFinalInstallReason at hfinal
      cases existing with
      | explicit =>
        have hdefault : directive = .default := by
          cases reason <;> simp_all
        rw [hdefault] at hfinal ⊢
        have hexplicit : finalReason = .explicit := by
          cases state <;> simp_all
        rw [hexplicit]
        exact Resolution.keptExplicit state reason hinstalled
      | dependency =>
        cases reason with
        | explicit =>
          have hraised : directive = .asExplicit := by simp_all
          rw [hraised] at hfinal ⊢
          rw [← Except.ok.inj hfinal]
          exact Resolution.raised state hinstalled (hchanges (by rw [hraised]; decide))
        | dependency =>
          have hdefault : directive = .default := by simp_all
          rw [hdefault] at hfinal ⊢
          have hdependency : finalReason = .dependency := by
            cases state <;> simp_all
          rw [hdependency]
          exact Resolution.keptDependency state hinstalled

theorem resolveItem_resolved (h : resolveItem needed input = .ok item) :
    item.input = input ∧ ResolvedAs needed item := by
  unfold resolveItem at h
  obtain ⟨u, -, h⟩ := bind_eq_ok.mp h
  obtain ⟨directive, hdirective, h⟩ := bind_eq_ok.mp h
  obtain ⟨finalReason, hfinal, h⟩ := bind_eq_ok.mp h
  rw [← Except.ok.inj h]
  exact ⟨rfl, resolution_of_directive hdirective hfinal⟩

/-- The final reason as a reason that is recorded. -/
def recorded : SafeFinalInstallReason → ExistingInstallReason
  | .explicit => .explicit
  | .dependency => .dependency

/-- A target that is skipped keeps its final reason. -/
theorem skipped_reason (h : ResolvedAs needed item) (hmay : maySkip needed item.input = true) :
    item.directive = .default ∧ item.input.existingReason = some (recorded item.finalReason) := by
  unfold maySkip at hmay
  simp only [Bool.and_eq_true, decide_eq_true_eq] at hmay
  unfold ResolvedAs at h
  generalize item.input.installedVersionState = state at h hmay
  generalize item.input.existingReason = existing at h ⊢
  generalize item.input.desiredReason = wanted at h
  generalize item.directive = directive at h ⊢
  generalize item.finalReason = finalReason at h ⊢
  cases h with
  | newExplicit => exact absurd hmay.2 (by decide)
  | newDependency => exact absurd hmay.2 (by decide)
  | keptExplicit => exact ⟨rfl, rfl⟩
  | raised _ _ hchanged => exact absurd ⟨hmay.2, hmay.1⟩ hchanged
  | keptDependency => exact ⟨rfl, rfl⟩

/-- Installed under its own directive an artifact gets its final reason. -/
theorem installedReason_own (h : ResolvedAs needed item) :
    installedReason item.directive item.input = recorded item.finalReason := by
  unfold installedReason
  unfold ResolvedAs at h
  generalize item.input.installedVersionState = state at h
  generalize item.input.existingReason = existing at h ⊢
  generalize item.input.desiredReason = wanted at h
  generalize item.directive = directive at h ⊢
  generalize item.finalReason = finalReason at h ⊢
  cases h <;> rfl

/-- What is explicit, or wanted so, has an explicit final reason. -/
theorem finalReason_explicit (h : ResolvedAs needed item)
    (hexplicit : item.input.existingReason = some .explicit ∨
      item.input.desiredReason = .named .explicit) : item.finalReason = .explicit := by
  unfold ResolvedAs at h
  generalize item.input.installedVersionState = state at h
  generalize item.input.existingReason = existing at h hexplicit
  generalize item.input.desiredReason = wanted at h hexplicit
  generalize item.directive = directive at h
  generalize item.finalReason = finalReason at h ⊢
  cases h with
  | newDependency => simp at hexplicit
  | keptDependency => simp at hexplicit
  | _ => rfl

/-- Under a flag that leaves it its final reason, or changes nothing, an artifact ends
with that reason, skipped or not. -/
theorem reason_after (h : ResolvedAs needed item)
    (hflag : installedReason flag item.input = recorded item.finalReason)
    (hruns : TargetRuns flag needed item.input after) :
    after.reason = recorded item.finalReason := by
  cases hruns with
  | installed => exact hflag
  | skipped reason hmay hreason =>
    have hkept := (skipped_reason h hmay).2
    rw [hreason] at hkept
    exact Option.some.inj hkept

/-! ## The fold -/

/-- The flag leaves every artifact with its final reason. -/
theorem installedReason_flag (h : reduceTransactionDirective items = some flag)
    (hitem : item ∈ items) (hresolved : ResolvedAs needed item) :
    installedReason flag item.input = recorded item.finalReason := by
  have hown := installedReason_own hresolved
  unfold reduceTransactionDirective at h
  split at h
  · rename_i hall
    have hdefault : item.directive = .default := by
      simpa using List.all_eq_true.mp hall item hitem
    rw [hdefault] at hown
    rw [← Option.some.inj h]
    exact hown
  · split at h
    · rename_i hall
      have hexplicit : item.finalReason = .explicit := by
        simpa using List.all_eq_true.mp hall item hitem
      rw [← Option.some.inj h, hexplicit]
      rfl
    · split at h
      · rename_i hall
        have hdependency : item.finalReason = .dependency := by
          simpa using List.all_eq_true.mp hall item hitem
        rw [← Option.some.inj h, hdependency]
        rfl
      · cases h

/-- The flag leaves a target that may be skipped with the reason that it has. -/
theorem preservesFinalReason_flag (h : reduceTransactionDirective items = some flag)
    (hitem : item ∈ items) : preservesFinalReason flag item.finalReason = true := by
  unfold reduceTransactionDirective at h
  split at h
  · rw [← Option.some.inj h]
    rfl
  · split at h
    · rename_i hall
      rw [← Option.some.inj h]
      exact List.all_eq_true.mp hall item hitem
    · split at h
      · rename_i hall
        rw [← Option.some.inj h]
        exact List.all_eq_true.mp hall item hitem
      · cases h

theorem resolveExpectedOutcome_ok (h : reduceTransactionDirective items = some flag)
    (hitem : item ∈ items) (hresolved : ResolvedAs needed item) :
    resolveExpectedOutcome item flag needed =
      .ok (if maySkip needed item.input then .skippedAsNeeded else .installed) := by
  unfold resolveExpectedOutcome
  by_cases hmay : maySkip needed item.input = true
  · have hdefault := (skipped_reason hresolved hmay).1
    rw [if_pos hmay, preservesFinalReason_flag h hitem]
    unfold maySkip at hmay
    simp only [Bool.and_eq_true, decide_eq_true_eq] at hmay
    simp [hmay, hdefault]
  · rw [if_neg hmay]
    apply if_pos
    unfold maySkip at hmay
    simp only [Bool.and_eq_true, decide_eq_true_eq, not_and] at hmay
    cases needed with
    | false => exact Or.inl rfl
    | true => exact Or.inr (Or.inl (hmay rfl))

/-- The plan of an artifact. -/
def plannedOf (needed : Bool) (item : ResolvedItem) : PlannedReason where
  identity := item.input.identity
  desiredReason := item.input.desiredReason
  installedVersionState := item.input.installedVersionState
  existingReason := item.input.existingReason
  directive := item.directive
  expectedOutcome := if maySkip needed item.input then .skippedAsNeeded else .installed

theorem planItem_ok (h : reduceTransactionDirective items = some flag) (hitem : item ∈ items)
    (hresolved : ResolvedAs needed item) :
    planItem flag needed item = .ok (plannedOf needed item) := by
  unfold planItem
  rw [bind_of_ok (resolveExpectedOutcome_ok h hitem hresolved)]
  rfl

/-! ## The plan of a transaction -/

theorem forall₂_of_mapM {ε : Type} {f : α → Except ε β} :
    ∀ {items : List α} {results : List β}, items.mapM f = .ok results →
      List.Forall₂ (fun item result => f item = .ok result) items results := by
  intro items
  induction items with
  | nil =>
    intro results h
    cases h
    exact List.Forall₂.nil
  | cons item items ih =>
    intro results h
    rw [List.mapM_cons] at h
    obtain ⟨first, hfirst, h⟩ := bind_eq_ok.mp h
    obtain ⟨rest, hrest, h⟩ := bind_eq_ok.mp h
    cases h
    exact List.Forall₂.cons hfirst (ih hrest)

theorem resolved_items {inputs : List SelectedArtifact}
    (h : inputs.mapM (resolveItem needed) = .ok items) :
    inputs = items.map ResolvedItem.input ∧ ∀ item ∈ items, ResolvedAs needed item := by
  have hall := forall₂_of_mapM h
  induction hall with
  | nil => exact ⟨rfl, List.forall_mem_nil _⟩
  | @cons input item inputs items hitem _ ih =>
    obtain ⟨hinput, hresolved⟩ := resolveItem_resolved hitem
    have hrest : inputs.mapM (resolveItem needed) = .ok items := by
      rw [List.mapM_cons] at h
      obtain ⟨first, hfirst, h⟩ := bind_eq_ok.mp h
      obtain ⟨rest, hrest, h⟩ := bind_eq_ok.mp h
      injection Except.ok.inj h with _ hsame
      rw [hrest, hsame]
    obtain ⟨hinputs, hitems⟩ := ih hrest
    refine ⟨by rw [List.map_cons, hinput, ← hinputs], ?_⟩
    intro other hother
    rcases List.mem_cons.mp hother with hsame | hmem
    · rw [hsame]
      exact hresolved
    · exact hitems other hmem

/-- A mapped check that fails does so on an item. -/
theorem exists_of_mapM_error {ε : Type} {f : α → Except ε β} {error : ε} :
    ∀ {items : List α}, items.mapM f = .error error → ∃ item ∈ items, f item = .error error := by
  intro items
  induction items with
  | nil =>
    intro h
    cases h
  | cons item items ih =>
    intro h
    rw [List.mapM_cons] at h
    cases hitem : f item with
    | error thrown =>
      rw [hitem] at h
      exact ⟨item, List.mem_cons_self, by rw [← Except.error.inj h]; exact hitem⟩
    | ok first =>
      rw [bind_of_ok hitem] at h
      cases hrest : items.mapM f with
      | error thrown =>
        rw [hrest] at h
        have hsame : thrown = error := Except.error.inj h
        rw [hsame] at hrest
        obtain ⟨other, hother, hfails⟩ := ih hrest
        exact ⟨other, List.mem_cons_of_mem _ hother, hfails⟩
      | ok rest =>
        rw [hrest] at h
        cases h

theorem directive_error {desiredReason : InstallReasonValue} {state : InstalledVersionState}
    {existingReason : Option ExistingInstallReason}
    (h : resolveInstallReasonDirective desiredReason state existingReason needed = .error error) :
    error ≠ .skippedPackageChanges := by
  intro hsame
  rw [hsame] at h
  cases desiredReason with
  | unknown value => cases state <;> cases existingReason <;> cases h
  | named reason =>
    cases existingReason with
    | none => cases state <;> cases reason <;> cases h
    | some existing =>
      cases state <;> cases reason <;> cases existing <;> cases needed <;> cases h

theorem resolveItem_error {item : SelectedArtifact} (h : resolveItem needed item = .error error) :
    error ≠ .skippedPackageChanges := by
  unfold resolveItem at h
  cases hidentity : requireValidPolicyIdentity item.identity with
  | error thrown =>
    rw [hidentity] at h
    rw [← Except.error.inj h]
    unfold requireValidPolicyIdentity at hidentity
    split at hidentity
    · rw [← Except.error.inj hidentity]
      decide
    · split at hidentity
      · rw [← Except.error.inj hidentity]
        decide
      · cases hidentity
  | ok u =>
    rw [bind_of_ok hidentity] at h
    cases hdirective : resolveInstallReasonDirective item.desiredReason
        item.installedVersionState item.existingReason needed with
    | error thrown =>
      rw [hdirective] at h
      rw [← Except.error.inj h]
      exact directive_error hdirective
    | ok directive =>
      rw [bind_of_ok hdirective] at h
      cases hfinal : resolveSafeFinalInstallReason item directive with
      | error thrown =>
        rw [hfinal] at h
        rw [← Except.error.inj h]
        unfold resolveSafeFinalInstallReason at hfinal
        split at hfinal
        · cases hfinal
        · cases hfinal
        · split at hfinal
          · cases hfinal
          · rw [← Except.error.inj hfinal]
            decide
          · cases hfinal
          · cases hfinal
      | ok finalReason =>
        rw [hfinal] at h
        cases h

/-- What the resolution of a plan comes to. -/
theorem resolveReasonPlan_cases (input : ReasonPolicyInput) :
    (∃ error, resolveReasonPlan input = .error error ∧ error ≠ .skippedPackageChanges) ∨
    (∃ mixed, resolveReasonPlan input = .ok (.mixed mixed)) ∨
    ∃ items flag, input.selectedArtifacts = items.map ResolvedItem.input ∧
      (∀ item ∈ items, ResolvedAs input.needed item) ∧
      reduceTransactionDirective items = some flag ∧
      resolveReasonPlan input = .ok (.plan
        ⟨input.packageBase, items.map (plannedOf input.needed), flag, input.needed⟩) := by
  unfold resolveReasonPlan
  by_cases hbase : (!isValidPackageName input.packageBase) = true
  · rw [if_pos hbase]
    exact Or.inl ⟨_, rfl, by decide⟩
  · rw [if_neg hbase]
    by_cases hnone : input.selectedArtifacts = []
    · rw [if_pos hnone]
      exact Or.inl ⟨_, rfl, by decide⟩
    · rw [if_neg hnone]
      cases hitems : input.selectedArtifacts.mapM (resolveItem input.needed) with
      | error error =>
        obtain ⟨item, -, hfails⟩ := exists_of_mapM_error hitems
        exact Or.inl ⟨error, rfl, resolveItem_error hfails⟩
      | ok items =>
        obtain ⟨hinputs, hresolved⟩ := resolved_items hitems
        rw [bind_of_ok rfl]
        cases hflag : reduceTransactionDirective items with
        | none => exact Or.inr (Or.inl ⟨_, rfl⟩)
        | some flag =>
          have hplanned : items.mapM (planItem flag input.needed) =
              .ok (items.map (plannedOf input.needed)) :=
            mapM_eq_ok fun item hitem => planItem_ok hflag hitem (hresolved item hitem)
          refine Or.inr (Or.inr ⟨items, flag, hinputs, hresolved, hflag, ?_⟩)
          dsimp only
          rw [bind_of_ok hplanned]

theorem settled_of_runs (hflag : reduceTransactionDirective items = some flag)
    (hitem : item ∈ items) (hresolved : ResolvedAs needed item)
    (hruns : TargetRuns flag needed item.input after) :
    Settled needed item.input (plannedOf needed item) after := by
  have hafter := reason_after hresolved (installedReason_flag hflag hitem hresolved) hruns
  refine ⟨rfl, ?_, ?_, ?_, ?_, ?_⟩
  · intro alone halone
    rw [hafter, reason_after hresolved (installedReason_own hresolved) halone]
  · intro hexplicit
    rw [hafter, finalReason_explicit hresolved (Or.inl hexplicit)]
    rfl
  · intro hwanted
    rw [hafter, finalReason_explicit hresolved (Or.inr hwanted)]
    rfl
  · intro hinstalled
    cases hruns with
    | installed => rfl
    | skipped reason hmay hreason =>
      unfold plannedOf at hinstalled
      dsimp only at hinstalled
      rw [if_pos hmay] at hinstalled
      cases hinstalled
  · unfold plannedOf
    dsimp only
    by_cases hmay : maySkip needed item.input = true
    · simp [hmay]
    · simp [hmay]

/-- Where the plan of a transaction succeeds, a transaction with its flag settles every
artifact; and a skipped package is never found to change. -/
theorem resolveReasonPlan_settled (input : ReasonPolicyInput) :
    resolveReasonPlan input ≠ .error .skippedPackageChanges ∧
      ∀ plan after, resolveReasonPlan input = .ok (.plan plan) →
        TransactionRuns plan.transactionDirective input.needed input.selectedArtifacts after →
        plan.selectedArtifacts.length = input.selectedArtifacts.length ∧
          ∀ (index : Nat) item planned done, input.selectedArtifacts[index]? = some item →
            plan.selectedArtifacts[index]? = some planned → after[index]? = some done →
            Settled input.needed item planned done := by
  rcases resolveReasonPlan_cases input with ⟨error, herror, hother⟩ | ⟨mixed, hmixed⟩ |
    ⟨items, flag, hinputs, hresolved, hflag, hplan⟩
  · rw [herror]
    refine ⟨?_, nofun⟩
    intro hsame
    exact hother (Except.error.inj hsame)
  · rw [hmixed]
    exact ⟨nofun, nofun⟩
  · rw [hplan]
    refine ⟨nofun, ?_⟩
    intro plan after hsame hruns
    injection Except.ok.inj hsame with hsame
    rw [← hsame] at hruns ⊢
    rw [hinputs] at hruns ⊢
    refine ⟨by rw [List.length_map, List.length_map], ?_⟩
    intro index item planned done hitem hplanned hdone
    rw [List.getElem?_map] at hitem hplanned
    cases hat : items[index]? with
    | none =>
      rw [hat] at hitem
      cases hitem
    | some resolved =>
      rw [hat] at hitem hplanned
      rw [← Option.some.inj hitem, ← Option.some.inj hplanned]
      have hmem := List.mem_of_getElem? hat
      apply settled_of_runs hflag hmem (hresolved resolved hmem)
      have hinput : (items.map ResolvedItem.input)[index]? = some resolved.input := by
        rw [List.getElem?_map, hat]
        rfl
      obtain ⟨hlt, hget⟩ := List.getElem?_eq_some_iff.mp hinput
      obtain ⟨hlt', hget'⟩ := List.getElem?_eq_some_iff.mp hdone
      rw [← hget, ← hget']
      exact hruns.get hlt hlt'

/-- A new package wanted as a dependency next to an installed dependency of the same
version, with `--needed`: the flag is `--asdeps`, the second may be skipped. -/
theorem resolveReasonPlan_settled_pair :
    Settled true ⟨⟨ascii "q", ascii "2-1", .unavailable, .unavailable⟩, .named .dependency,
        .sameVersion, some .dependency⟩
      ⟨⟨ascii "q", ascii "2-1", .unavailable, .unavailable⟩, .named .dependency, .sameVersion,
        some .dependency, .default, .skippedAsNeeded⟩ ⟨true, .dependency⟩ := by
  have hplan : resolveReasonPlan ⟨ascii "p", [⟨⟨ascii "p", ascii "1-1", .unavailable,
      .unavailable⟩, .named .dependency, .notInstalled, none⟩, ⟨⟨ascii "q", ascii "2-1",
      .unavailable, .unavailable⟩, .named .dependency, .sameVersion, some .dependency⟩], true⟩ =
      .ok (.plan ⟨ascii "p", [⟨⟨ascii "p", ascii "1-1", .unavailable, .unavailable⟩,
        .named .dependency, .notInstalled, none, .asDependency, .installed⟩, ⟨⟨ascii "q",
        ascii "2-1", .unavailable, .unavailable⟩, .named .dependency, .sameVersion,
        some .dependency, .default, .skippedAsNeeded⟩], .asDependency, true⟩) := by decide
  have hruns := (resolveReasonPlan_settled _).2 _ [⟨false, .dependency⟩, ⟨true, .dependency⟩] hplan
    (List.Forall₂.cons TargetRuns.installed
      (List.Forall₂.cons (TargetRuns.skipped .dependency rfl rfl) List.Forall₂.nil))
  exact hruns.2 1 _ _ _ rfl rfl rfl

end Moguet.Install.InstallReasons
