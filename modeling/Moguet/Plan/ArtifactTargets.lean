import Mathlib.Algebra.Ring.Nat
import Moguet.Plan.Attribution

/-!
# The artifact targets of a plan

`project_build_plan_required_artifact_targets` turns a plan into what each of
its build units has to install. It trusts nothing: every entry, target and
root is checked again, and a plan with a single issue is not projected at all.

The checks only look at the plan. `Projectable` is what they amount to, and an
accepted plan of a pass has it.
-/

namespace Moguet.Plan.ArtifactTargets

open Verified.ByteString Verified.Checked Constraint Model Discovery Readiness Resolver Walk
open Resolution BuildOrder Descent Acceptance Closure CycleDetection Attribution Relation.Assessment

variable {item : Bytes × Nat} {α : Type} {root : RootTargetIdentity} {target : PlannedPackageTarget}
  {entry : BuildPlanEntry}
variable {values : List α}

/-! ## Issues -/

/-- `BuildPlanArtifactTargetProjectionIssueKind`. -/
inductive ProjectionIssueKind
  | invalidPackageBase
  | emptyEntryPackageNames
  | invalidPackageName
  | duplicateEntryPackageName
  | missingPlannedPackageTarget
  | duplicatePlannedPackageTarget
  | packageBaseMismatch
  | uncoveredPlannedPackageTarget
  | desiredInstallReasonUnavailable
  | rootAttributionInconsistent
  | duplicatePackageBaseEntry
  deriving DecidableEq

/-- `BuildPlanArtifactTargetProjectionIssue`. -/
structure ProjectionIssue where
  kind : ProjectionIssueKind
  buildPlanOrderIndex : Option Nat := none
  entryPackageNameIndex : Option Nat := none
  packageTargetIndices : List Nat := []
  packageBase : Option Bytes := none
  packageName : Option Bytes := none
  roots : List RootTargetIdentity := []
  diagnostic : Bytes

inductive DesiredInstallReason
  | explicit
  | dependency
  deriving DecidableEq

structure RequiredPackageArtifactTarget where
  packageBase : Bytes
  packageName : Bytes
  desiredReason : DesiredInstallReason
  deriving DecidableEq

/-- `ProjectedBuildPlanArtifactTargets`. -/
structure ProjectedBuildUnit where
  buildPlanOrderIndex : Nat
  packageBase : Bytes
  requiredTargets : List RequiredPackageArtifactTarget

/-! ## Roots -/

def hasRole (target : PlannedPackageTarget) (role : PackageRole) : Bool :=
  role ∈ target.roles

def rootOccursExactlyOnce (roots : List RootTargetIdentity)
    (expected : RootTargetIdentity) : Bool :=
  roots.count expected = 1

/-- One attributed root: named validly, a root of the plan, and not attributed
before. -/
def attributedRootConsistent (plan : BuildPlan) (roots : List RootTargetIdentity)
    (item : RootTargetIdentity × Nat) : Bool :=
  isValidPackageName item.1.requestedName &&
    rootOccursExactlyOnce plan.rootTargets item.1 &&
    !(item.1 ∈ roots.take item.2)

def validateTargetRootAttribution (plan : BuildPlan) (target : PlannedPackageTarget)
    (targetIndex : Nat) : List ProjectionIssue :=
  let hasSelfRoot := target.roots.any fun root =>
    root.requestedName = target.packageName
  if target.roots ≠ [] ∧
      target.roots.zipIdx.all (attributedRootConsistent plan target.roots) ∧
      hasRole target .root = hasSelfRoot then []
  else
    [{ kind := .rootAttributionInconsistent
       packageTargetIndices := [targetIndex]
       packageBase := some target.packageBase
       packageName := some target.packageName
       roots := target.roots
       diagnostic :=
        ascii "Planned package target root attribution is inconsistent." }]

/-- The targets that attribute themselves to the root. -/
def selfAttributedTargets (plan : BuildPlan) (root : RootTargetIdentity) : List Nat :=
  (plan.packageTargets.zipIdx.filter fun item =>
    item.1.packageName = root.requestedName && hasRole item.1 .root &&
      rootOccursExactlyOnce item.1.roots root).map (·.2)

def validatePlanRootCoverage (plan : BuildPlan) : List ProjectionIssue :=
  plan.rootTargets.zipIdx.flatMap fun item =>
    let matching := selfAttributedTargets plan item.1
    if item.1.invocationIndex = item.2 ∧ matching.length = 1 ∧
        rootOccursExactlyOnce plan.rootTargets item.1 then []
    else
      [{ kind := .rootAttributionInconsistent
         packageTargetIndices := matching
         packageName := some item.1.requestedName
         roots := [item.1]
         diagnostic := ascii
          "BuildPlan root does not have exactly one self-attributed planned package target." }]

/-! ## Entries -/

def validateEntryPackageName (entry : BuildPlanEntry) (orderIndex : Nat)
    (item : Bytes × Nat) : List ProjectionIssue :=
  let issue (kind : ProjectionIssueKind) (diagnostic : Bytes) : ProjectionIssue :=
    { kind := kind
      buildPlanOrderIndex := some orderIndex
      entryPackageNameIndex := some item.2
      packageBase := some entry.packageBase
      packageName := some item.1
      diagnostic := diagnostic }
  (if isValidPackageName item.1 then []
    else [issue .invalidPackageName
      (ascii "BuildPlan entry has an invalid required package name.")]) ++
  (if item.1 ∈ entry.packageNames.take item.2 then
      [issue .duplicateEntryPackageName
        (ascii "BuildPlan entry contains a duplicate required package name.")]
    else [])

def validateOrderEntry (plan : BuildPlan) (item : BuildPlanEntry × Nat) :
    List ProjectionIssue :=
  let entry := item.1
  let issue (kind : ProjectionIssueKind) (diagnostic : Bytes) : ProjectionIssue :=
    { kind := kind
      buildPlanOrderIndex := some item.2
      packageBase := some entry.packageBase
      diagnostic := diagnostic }
  let sameBase (candidate : BuildPlanEntry) : Bool :=
    candidate.packageBase = entry.packageBase
  (if isValidPackageName entry.packageBase then []
    else [issue .invalidPackageBase
      (ascii "BuildPlan entry has an invalid PackageBase.")]) ++
  (if entry.packageNames = [] then
      [issue .emptyEntryPackageNames
        (ascii "BuildPlan entry has no required package names.")]
    else []) ++
  -- A repeated base is reported once, at its first entry.
  (if !(plan.order.take item.2).any sameBase ∧ 1 < plan.order.countP sameBase then
      [issue .duplicatePackageBaseEntry
        (ascii "PackageBase appears more than once in BuildPlan execution order.")]
    else []) ++
  entry.packageNames.zipIdx.flatMap (validateEntryPackageName entry item.2)

def validateOrderEntries (plan : BuildPlan) : List ProjectionIssue :=
  plan.order.zipIdx.flatMap (validateOrderEntry plan)

/-! ## Targets -/

/-- Targets of one name, reported once, at the first of them. -/
def validateTargetName (plan : BuildPlan) (target : PlannedPackageTarget)
    (targetIndex : Nat) : List ProjectionIssue :=
  let sameName (candidate : PlannedPackageTarget) : Bool :=
    candidate.packageName = target.packageName
  if (plan.packageTargets.take targetIndex).any sameName then []
  else
    let same := plan.packageTargets.zipIdx.filter fun item =>
      targetIndex ≤ item.2 && sameName item.1
    if same.length ≤ 1 then []
    else
      let allBasesMatch := same.all fun item =>
        item.1.packageBase = target.packageBase
      [{ kind :=
          if allBasesMatch then .duplicatePlannedPackageTarget else .packageBaseMismatch
         packageTargetIndices := same.map (·.2)
         packageBase := some target.packageBase
         packageName := some target.packageName
         diagnostic :=
          if allBasesMatch then
            ascii "BuildPlan contains duplicate planned package targets."
          else ascii "One package name is attributed to multiple PackageBases." }]

def validatePackageTarget (plan : BuildPlan) (item : PlannedPackageTarget × Nat) :
    List ProjectionIssue :=
  let target := item.1
  let issue (kind : ProjectionIssueKind) (diagnostic : Bytes) : ProjectionIssue :=
    { kind := kind
      packageTargetIndices := [item.2]
      packageBase := some target.packageBase
      packageName := some target.packageName
      diagnostic := diagnostic }
  (if isValidPackageName target.packageBase then []
    else [issue .invalidPackageBase
      (ascii "Planned package target has an invalid PackageBase.")]) ++
  (if isValidPackageName target.packageName then []
    else [issue .invalidPackageName
      (ascii "Planned package target has an invalid package name.")]) ++
  validateTargetRootAttribution plan target item.2 ++
  validateTargetName plan target item.2

def validatePackageTargets (plan : BuildPlan) : List ProjectionIssue :=
  plan.packageTargets.zipIdx.flatMap (validatePackageTarget plan)

/-! ## Build units -/

def matchingPackageTargets (plan : BuildPlan) (packageName : Bytes)
    (packageBase : Option Bytes) : List (PlannedPackageTarget × Nat) :=
  plan.packageTargets.zipIdx.filter fun item =>
    item.1.packageName = packageName &&
      packageBase.all fun base => item.1.packageBase = base

def missingOrMismatchedTargetIssue (plan : BuildPlan) (entry : BuildPlanEntry)
    (orderIndex : Nat) (item : Bytes × Nat) : ProjectionIssue :=
  let same := (matchingPackageTargets plan item.1 none).map (·.2)
  { kind := if same ≠ [] then .packageBaseMismatch else .missingPlannedPackageTarget
    buildPlanOrderIndex := some orderIndex
    entryPackageNameIndex := some item.2
    packageTargetIndices := same
    packageBase := some entry.packageBase
    packageName := some item.1
    diagnostic :=
      if same ≠ [] then
        ascii "Required package name is attributed to a different PackageBase."
      else ascii "BuildPlan entry has no matching planned package target." }

/-- `desired_install_reason`: a root is installed explicitly. A target without
a role has no reason. -/
def desiredInstallReason (target : PlannedPackageTarget) : Option DesiredInstallReason :=
  if .root ∈ target.roles then some .explicit
  else if target.roles.any fun role =>
      role = .runtimeDependency || role = .buildDependency || role = .checkDependency then
    some .dependency
  else none

/-- The reason of a target, or why there is none. -/
def projectDesiredInstallReason (target : PlannedPackageTarget) (targetIndex : Nat)
    (orderIndex nameIndex : Nat) : Option DesiredInstallReason × List ProjectionIssue :=
  let issue (diagnostic : Bytes) : ProjectionIssue :=
    { kind := .desiredInstallReasonUnavailable
      buildPlanOrderIndex := some orderIndex
      entryPackageNameIndex := some nameIndex
      packageTargetIndices := [targetIndex]
      packageBase := some target.packageBase
      packageName := some target.packageName
      roots := target.roots
      diagnostic := diagnostic }
  if target.roles = [] then
    (none,
      [issue (ascii "Planned package target has no complete known package-role set.")])
  else
    match desiredInstallReason target with
    | some reason => (some reason, [])
    | none =>
      (none,
        [issue (ascii "Planned package target desired install reason is unavailable.")])

/-- One name of an entry: what it requires and the issues it raises. A name
with several exact targets is reported with the targets. -/
def projectRequiredTarget (plan : BuildPlan) (entry : BuildPlanEntry) (orderIndex : Nat)
    (item : Bytes × Nat) : List RequiredPackageArtifactTarget × List ProjectionIssue :=
  match matchingPackageTargets plan item.1 (some entry.packageBase) with
  | [] => ([], [missingOrMismatchedTargetIssue plan entry orderIndex item])
  | [(target, targetIndex)] =>
    match projectDesiredInstallReason target targetIndex orderIndex item.2 with
    | (some reason, issues) => ([⟨entry.packageBase, item.1, reason⟩], issues)
    | (none, issues) => ([], issues)
  | _ => ([], [])

def projectBuildUnit (plan : BuildPlan) (item : BuildPlanEntry × Nat) :
    ProjectedBuildUnit × List ProjectionIssue :=
  let projected := item.1.packageNames.zipIdx.map
    (projectRequiredTarget plan item.1 item.2)
  (⟨item.2, item.1.packageBase, projected.flatMap (·.1)⟩, projected.flatMap (·.2))

def projectBuildUnits (plan : BuildPlan) :
    List ProjectedBuildUnit × List ProjectionIssue :=
  let projected := plan.order.zipIdx.map (projectBuildUnit plan)
  (projected.map (·.1), projected.flatMap (·.2))

def validateReverseCoverage (plan : BuildPlan) : List ProjectionIssue :=
  plan.packageTargets.zipIdx.flatMap fun item =>
    let target := item.1
    let occurrences : Nat := ((plan.order.filter fun entry =>
      entry.packageBase = target.packageBase).map fun entry =>
        entry.packageNames.count target.packageName).sum
    if occurrences ≠ 0 then []
    else
      [{ kind := .uncoveredPlannedPackageTarget
         packageTargetIndices := [item.2]
         packageBase := some target.packageBase
         packageName := some target.packageName
         roots := target.roots
         diagnostic :=
          ascii "Planned package target is absent from BuildPlan execution order." }]

/-- `project_build_plan_required_artifact_targets`: the build units, or all
issues of the plan. -/
def projectRequiredArtifactTargets (plan : BuildPlan) :
    Except (List ProjectionIssue) (List ProjectedBuildUnit) :=
  let projected := projectBuildUnits plan
  let issues := validateOrderEntries plan ++ validatePackageTargets plan ++
    validatePlanRootCoverage plan ++ projected.2 ++ validateReverseCoverage plan
  if issues = [] then .ok projected.1 else .error issues

/-! ## Plans without issues -/

/-- What the checks of the projection amount to. -/
structure Projectable (plan : BuildPlan) : Prop where
  bases_nodup : (plan.order.map (·.packageBase)).Nodup
  bases_valid : ∀ entry ∈ plan.order, isValidPackageName entry.packageBase = true
  entries : ∀ entry ∈ plan.order, entry.packageNames ≠ [] ∧ entry.packageNames.Nodup ∧
    ∀ name ∈ entry.packageNames, isValidPackageName name = true ∧
      ∃ target ∈ plan.packageTargets, target.packageName = name ∧
        target.packageBase = entry.packageBase
  names_nodup : (plan.packageTargets.map (·.packageName)).Nodup
  targets : ∀ target ∈ plan.packageTargets,
    isValidPackageName target.packageBase = true ∧
      isValidPackageName target.packageName = true ∧
      target.roots ≠ [] ∧ target.roots.Nodup ∧ target.roots ⊆ plan.rootTargets ∧
      target.roles ≠ [] ∧
      (.root ∈ target.roles ↔
        ∃ root ∈ target.roots, root.requestedName = target.packageName)
  covered : ∀ target ∈ plan.packageTargets, ∃ entry ∈ plan.order,
    entry.packageBase = target.packageBase ∧ target.packageName ∈ entry.packageNames
  roots_indexed : ∀ item ∈ plan.rootTargets.zipIdx, item.1.invocationIndex = item.2
  roots_valid : ∀ root ∈ plan.rootTargets, isValidPackageName root.requestedName = true
  roots_targeted : ∀ root ∈ plan.rootTargets, ∃ target ∈ plan.packageTargets,
    target.packageName = root.requestedName ∧ .root ∈ target.roles ∧ root ∈ target.roots

/-- The item at a position does not stand before it. -/
theorem not_mem_take_of_nodup (h : values.Nodup) {value : α} {index : Nat}
    (hitem : (value, index) ∈ values.zipIdx) : value ∉ values.take index := by
  have hat : values[index]? = some value := List.mk_mem_zipIdx_iff_getElem?.mp hitem
  obtain ⟨hlt, hvalue⟩ := List.getElem?_eq_some_iff.mp hat
  intro hmem
  obtain ⟨other, hother, hsame⟩ := List.mem_iff_getElem.mp hmem
  rw [List.length_take] at hother
  rw [List.getElem_take] at hsame
  have heq := (List.Nodup.getElem_inj_iff h).mp (hsame.trans hvalue.symm)
  omega

section Projectable

variable {plan : BuildPlan}

/-- Roots numbered by their position are listed once. -/
theorem Projectable.roots_nodup (h : Projectable plan) : plan.rootTargets.Nodup := by
  rw [List.nodup_iff_injective_getElem]
  intro first second hsame
  have hindex : ∀ index : Fin plan.rootTargets.length,
      (plan.rootTargets[index]).invocationIndex = index := by
    intro index
    have hitem : (plan.rootTargets[index], (index : Nat)) ∈ plan.rootTargets.zipIdx :=
      List.mk_mem_zipIdx_iff_getElem?.mpr (List.getElem?_eq_getElem index.isLt)
    exact h.roots_indexed _ hitem
  have hfirst := hindex first
  have hsecond := hindex second
  dsimp only at hsame
  apply Fin.ext
  rw [← hfirst, ← hsecond]
  exact congrArg RootTargetIdentity.invocationIndex hsame

theorem Projectable.rootOnce (h : Projectable plan) (hroot : root ∈ plan.rootTargets) :
    rootOccursExactlyOnce plan.rootTargets root = true := by
  unfold rootOccursExactlyOnce
  simpa using List.count_eq_one_of_mem h.roots_nodup hroot

theorem validateTargetRootAttribution_nil (h : Projectable plan)
    (htarget : target ∈ plan.packageTargets) (targetIndex : Nat) :
    validateTargetRootAttribution plan target targetIndex = [] := by
  obtain ⟨-, -, hne, hnodup, hmem, -, hrole⟩ := h.targets target htarget
  unfold validateTargetRootAttribution
  dsimp only
  rw [if_pos]
  refine ⟨hne, ?_, ?_⟩
  · rw [List.all_eq_true]
    rintro ⟨root, index⟩ hitem
    have hroot := hmem (List.fst_mem_of_mem_zipIdx hitem)
    have hfresh := not_mem_take_of_nodup hnodup hitem
    unfold attributedRootConsistent
    simp [h.roots_valid root hroot, h.rootOnce hroot, hfresh]
  · unfold hasRole
    rw [Bool.eq_iff_iff]
    simp [hrole]

/-- Only the target itself bears its name. -/
theorem Projectable.target_unique (h : Projectable plan)
    {first second : PlannedPackageTarget × Nat} (hfirst : first ∈ plan.packageTargets.zipIdx)
    (hsecond : second ∈ plan.packageTargets.zipIdx)
    (hname : first.1.packageName = second.1.packageName) : first = second := by
  have hat := List.mk_mem_zipIdx_iff_getElem?.mp hfirst
  have hat' := List.mk_mem_zipIdx_iff_getElem?.mp hsecond
  have heq : first.1 = second.1 := List.inj_on_of_nodup_map h.names_nodup
    (List.mem_of_getElem? hat) (List.mem_of_getElem? hat') hname
  have hnodup : plan.packageTargets.Nodup := List.Nodup.of_map _ h.names_nodup
  obtain ⟨hlt, -⟩ := List.getElem?_eq_some_iff.mp hat
  rw [← heq] at hat'
  have hindex := (List.getElem?_inj hlt hnodup).mp (hat.trans hat'.symm)
  exact Prod.ext heq hindex

/-- A test that one numbered item passes, and no other. -/
theorem filter_zipIdx_eq_singleton {p : α × Nat → Bool} {item : α × Nat}
    (hitem : item ∈ values.zipIdx) (hpass : p item = true)
    (hunique : ∀ other ∈ values.zipIdx, p other = true → other = item) :
    values.zipIdx.filter p = [item] := by
  have hnodup : values.zipIdx.Nodup := by
    refine List.Nodup.of_map Prod.snd ?_
    rw [List.zipIdx_map_snd]
    exact List.nodup_range'
  rw [← List.perm_singleton, List.perm_ext_iff_of_nodup (hnodup.filter p)
    (List.nodup_singleton item)]
  intro other
  rw [List.mem_filter, List.mem_singleton]
  constructor
  · exact fun hother => hunique other hother.1 hother.2
  · rintro rfl
    exact ⟨hitem, hpass⟩

theorem validateTargetName_nil (h : Projectable plan) {item : PlannedPackageTarget × Nat}
    (hitem : item ∈ plan.packageTargets.zipIdx) :
    validateTargetName plan item.1 item.2 = [] := by
  unfold validateTargetName
  dsimp only
  split
  · rfl
  · rw [if_pos]
    rw [filter_zipIdx_eq_singleton hitem (by simp)]
    · exact Nat.le_refl 1
    · intro other hother hpass
      refine h.target_unique hother hitem ?_
      simp only [Bool.and_eq_true, decide_eq_true_eq] at hpass
      exact hpass.2

theorem validatePackageTargets_nil (h : Projectable plan) : validatePackageTargets plan = [] := by
  unfold validatePackageTargets
  rw [List.flatMap_eq_nil_iff]
  intro item hitem
  have htarget := List.fst_mem_of_mem_zipIdx hitem
  obtain ⟨hbase, hname, -⟩ := h.targets item.1 htarget
  unfold validatePackageTarget
  simp [hbase, hname, validateTargetRootAttribution_nil h htarget, validateTargetName_nil h hitem]

theorem validateEntryPackageName_nil (h : Projectable plan) (hentry : entry ∈ plan.order)
    (orderIndex : Nat) (hitem : item ∈ entry.packageNames.zipIdx) :
    validateEntryPackageName entry orderIndex item = [] := by
  obtain ⟨-, hnodup, hnames⟩ := h.entries entry hentry
  have hvalid := (hnames item.1 (List.fst_mem_of_mem_zipIdx hitem)).1
  have hfresh := not_mem_take_of_nodup hnodup hitem
  unfold validateEntryPackageName
  simp [hvalid, hfresh]

/-- A base of the order has one entry. -/
theorem Projectable.countP_base (h : Projectable plan) {entry : BuildPlanEntry} :
    plan.order.countP (fun candidate => candidate.packageBase = entry.packageBase) ≤ 1 := by
  have hcount := List.nodup_iff_count_le_one.mp h.bases_nodup entry.packageBase
  rw [List.count_eq_countP, List.countP_map] at hcount
  refine le_trans (List.countP_mono_left ?_) hcount
  intro candidate _ hsame
  simpa using hsame

theorem validateOrderEntries_nil (h : Projectable plan) : validateOrderEntries plan = [] := by
  unfold validateOrderEntries
  rw [List.flatMap_eq_nil_iff]
  intro item hitem
  have hentry := List.fst_mem_of_mem_zipIdx hitem
  obtain ⟨hne, -, -⟩ := h.entries item.1 hentry
  have hcount := @Projectable.countP_base plan h item.1
  have hnames : item.1.packageNames.zipIdx.flatMap
      (validateEntryPackageName item.1 item.2) = [] := by
    rw [List.flatMap_eq_nil_iff]
    exact fun name hname => validateEntryPackageName_nil h hentry item.2 hname
  unfold validateOrderEntry
  dsimp only
  rw [hnames, if_pos (h.bases_valid item.1 hentry), if_neg hne, if_neg]
  · rfl
  · rintro ⟨-, hmany⟩
    omega

/-- The one target that attributes itself to a root. -/
theorem selfAttributedTargets_length (h : Projectable plan) (hroot : root ∈ plan.rootTargets) :
    (selfAttributedTargets plan root).length = 1 := by
  obtain ⟨target, htarget, hname, hrole, hmem⟩ := h.roots_targeted root hroot
  obtain ⟨index, hindex⟩ := List.mem_iff_getElem?.mp htarget
  have hitem : (target, index) ∈ plan.packageTargets.zipIdx :=
    List.mk_mem_zipIdx_iff_getElem?.mpr hindex
  obtain ⟨-, -, -, hnodup, -, -, -⟩ := h.targets target htarget
  have honce : rootOccursExactlyOnce target.roots root = true := by
    unfold rootOccursExactlyOnce
    simpa using List.count_eq_one_of_mem hnodup hmem
  unfold selfAttributedTargets
  rw [filter_zipIdx_eq_singleton hitem]
  · rfl
  · simp [hname, hasRole, hrole, honce]
  · intro other hother hpass
    simp only [Bool.and_eq_true, decide_eq_true_eq] at hpass
    exact h.target_unique hother hitem (hpass.1.1.trans hname.symm)

theorem validatePlanRootCoverage_nil (h : Projectable plan) :
    validatePlanRootCoverage plan = [] := by
  unfold validatePlanRootCoverage
  rw [List.flatMap_eq_nil_iff]
  intro item hitem
  have hroot := List.fst_mem_of_mem_zipIdx hitem
  dsimp only
  rw [if_pos ⟨h.roots_indexed item hitem, selfAttributedTargets_length h hroot, h.rootOnce hroot⟩]

theorem validateReverseCoverage_nil (h : Projectable plan) : validateReverseCoverage plan = [] := by
  unfold validateReverseCoverage
  rw [List.flatMap_eq_nil_iff]
  intro item hitem
  obtain ⟨entry, hentry, hbase, hname⟩ :=
    h.covered item.1 (List.fst_mem_of_mem_zipIdx hitem)
  dsimp only
  rw [if_pos]
  have hpos : 0 < entry.packageNames.count item.1.packageName :=
    List.count_pos_iff.mpr hname
  have hmem : entry.packageNames.count item.1.packageName ∈
      (plan.order.filter fun entry => entry.packageBase = item.1.packageBase).map
        fun entry => entry.packageNames.count item.1.packageName :=
    List.mem_map.mpr ⟨entry, List.mem_filter.mpr ⟨hentry, by simpa using hbase⟩, rfl⟩
  intro hzero
  have hnone := List.sum_eq_zero_iff_forall_eq_nat.mp hzero _ hmem
  omega

/-! ## The units of such a plan -/

/-- What a target requires. -/
def requiredTarget (target : PlannedPackageTarget) : RequiredPackageArtifactTarget :=
  ⟨target.packageBase, target.packageName,
    if .root ∈ target.roles then .explicit else .dependency⟩

theorem projectDesiredInstallReason_of_roles (hroles : target.roles ≠ [])
    (targetIndex orderIndex nameIndex : Nat) :
    projectDesiredInstallReason target targetIndex orderIndex nameIndex =
      (some (if .root ∈ target.roles then .explicit else .dependency), []) := by
  unfold projectDesiredInstallReason
  dsimp only
  rw [if_neg hroles]
  unfold desiredInstallReason
  by_cases hroot : PackageRole.root ∈ target.roles
  · rw [if_pos hroot, if_pos hroot]
  · rw [if_neg hroot, if_neg hroot, if_pos]
    obtain ⟨role, hrole⟩ := List.exists_mem_of_ne_nil _ hroles
    rw [List.any_eq_true]
    refine ⟨role, hrole, ?_⟩
    cases role with
    | root => exact absurd hrole hroot
    | runtimeDependency | buildDependency | checkDependency => rfl

/-- A name of an entry requires exactly its target. -/
theorem projectRequiredTarget_eq (h : Projectable plan) (hentry : entry ∈ plan.order)
    (orderIndex : Nat) (hitem : item ∈ entry.packageNames.zipIdx) :
    ∃ target ∈ plan.packageTargets, target.packageName = item.1 ∧
      target.packageBase = entry.packageBase ∧
      projectRequiredTarget plan entry orderIndex item = ([requiredTarget target], []) := by
  obtain ⟨-, -, hnames⟩ := h.entries entry hentry
  obtain ⟨-, target, htarget, hname, hbase⟩ :=
    hnames item.1 (List.fst_mem_of_mem_zipIdx hitem)
  obtain ⟨-, -, -, -, -, hroles, -⟩ := h.targets target htarget
  obtain ⟨index, hindex⟩ := List.mem_iff_getElem?.mp htarget
  have hmem : (target, index) ∈ plan.packageTargets.zipIdx :=
    List.mk_mem_zipIdx_iff_getElem?.mpr hindex
  have hmatching : matchingPackageTargets plan item.1 (some entry.packageBase) =
      [(target, index)] := by
    refine filter_zipIdx_eq_singleton hmem (by simp [hname, hbase]) ?_
    intro other hother hpass
    simp only [Bool.and_eq_true, decide_eq_true_eq] at hpass
    exact h.target_unique hother hmem (hpass.1.trans hname.symm)
  refine ⟨target, htarget, hname, hbase, ?_⟩
  unfold projectRequiredTarget requiredTarget
  rw [hmatching]
  dsimp only
  rw [projectDesiredInstallReason_of_roles hroles, hname, hbase]

/-- A build unit: the required targets of its names, and no issue. -/
theorem projectBuildUnit_spec (h : Projectable plan) {item : BuildPlanEntry × Nat}
    (hentry : item.1 ∈ plan.order) :
    (projectBuildUnit plan item).2 = [] ∧
      (projectBuildUnit plan item).1.requiredTargets.map (·.packageName) = item.1.packageNames ∧
      ∀ required ∈ (projectBuildUnit plan item).1.requiredTargets,
        required.packageBase = item.1.packageBase ∧
          ∃ target ∈ plan.packageTargets, required = requiredTarget target := by
  have hnames : ∀ (names : List (Bytes × Nat)),
      (∀ name ∈ names, name ∈ item.1.packageNames.zipIdx) →
      let projected := names.map (projectRequiredTarget plan item.1 item.2)
      projected.flatMap (·.2) = [] ∧
        (projected.flatMap (·.1)).map (·.packageName) = names.map (·.1) ∧
        ∀ required ∈ projected.flatMap (·.1), required.packageBase = item.1.packageBase ∧
            ∃ target ∈ plan.packageTargets, required = requiredTarget target := by
    intro names
    induction names with
    | nil => simp
    | cons name rest ih =>
      intro hmem
      obtain ⟨target, htarget, hname, hbase, heq⟩ := projectRequiredTarget_eq h hentry
        item.2 (hmem name List.mem_cons_self)
      obtain ⟨hissues, htargetNames, hrequired⟩ :=
        ih fun other hother => hmem other (List.mem_cons_of_mem _ hother)
      dsimp only at hissues htargetNames hrequired ⊢
      rw [List.map_cons, List.flatMap_cons, List.flatMap_cons, heq]
      refine ⟨hissues, ?_, ?_⟩
      · rw [List.map_append, htargetNames, List.map_cons]
        show [target.packageName] ++ _ = name.1 :: _
        rw [hname]
        rfl
      · intro required hrequiredMem
        rcases List.mem_append.mp hrequiredMem with hown | hrest
        · rw [List.mem_singleton.mp hown]
          exact ⟨hbase, target, htarget, rfl⟩
        · exact hrequired required hrest
  obtain ⟨hissues, htargetNames, hrequired⟩ := hnames _ fun name hname => hname
  refine ⟨hissues, ?_, hrequired⟩
  show (((item.1.packageNames.zipIdx.map
    (projectRequiredTarget plan item.1 item.2)).flatMap (·.1)).map _) = _
  rw [htargetNames]
  exact List.zipIdx_map_fst _ _

/-- No name stands in two entries. -/
theorem Projectable.entryNames_nodup (h : Projectable plan) :
    (plan.order.flatMap (·.packageNames)).Nodup := by
  rw [List.nodup_flatMap]
  refine ⟨fun entry hentry => (h.entries entry hentry).2.1, ?_⟩
  have hbases : plan.order.Pairwise fun first second =>
      first.packageBase ≠ second.packageBase := by
    have hnodup := h.bases_nodup
    rw [List.nodup_iff_pairwise_ne, List.pairwise_map] at hnodup
    exact hnodup
  refine hbases.imp_of_mem ?_
  intro first second hfirst hsecond hne
  show List.Disjoint first.packageNames second.packageNames
  intro name hname hname'
  obtain ⟨-, target, htarget, htargetName, hbase⟩ := (h.entries first hfirst).2.2 name hname
  obtain ⟨-, other, hother, hotherName, hbase'⟩ :=
    (h.entries second hsecond).2.2 name hname'
  have hsame : target = other := List.inj_on_of_nodup_map h.names_nodup htarget hother
    (htargetName.trans hotherName.symm)
  exact hne (hbase.symm.trans (hsame ▸ hbase'))

/-- What a projection owes to its plan: units in the order of the entries,
and each target required once, in the unit of its base. -/
structure Projects (plan : BuildPlan) (units : List ProjectedBuildUnit) : Prop where
  order : units.map (fun unit => (unit.packageBase, unit.buildPlanOrderIndex)) =
    (plan.order.map (·.packageBase)).zipIdx
  own : ∀ unit ∈ units, ∀ required ∈ unit.requiredTargets,
    required.packageBase = unit.packageBase
  required : (units.flatMap (·.requiredTargets)).Perm
    (plan.packageTargets.map requiredTarget)

theorem projectBuildUnits_spec (h : Projectable plan) :
    (projectBuildUnits plan).2 = [] ∧ Projects plan (projectBuildUnits plan).1 := by
  have hunit : ∀ item ∈ plan.order.zipIdx, item.1 ∈ plan.order :=
    fun item hitem => List.fst_mem_of_mem_zipIdx hitem
  have hunits : (projectBuildUnits plan).1 =
      plan.order.zipIdx.map fun item => (projectBuildUnit plan item).1 := by
    unfold projectBuildUnits
    dsimp only
    rw [List.map_map]
    rfl
  constructor
  · unfold projectBuildUnits
    dsimp only
    rw [List.flatMap_map, List.flatMap_eq_nil_iff]
    exact fun item hitem => (projectBuildUnit_spec h (hunit item hitem)).1
  rw [hunits]
  refine ⟨?_, ?_, ?_⟩
  · rw [List.map_map, List.zipIdx_map]
    rfl
  · intro unit hmem required hrequired
    obtain ⟨item, hitem, rfl⟩ := List.mem_map.mp hmem
    exact ((projectBuildUnit_spec h (hunit item hitem)).2.2 required hrequired).1
  · rw [List.flatMap_map]
    -- Required targets are told apart by their names.
    have hnames : (plan.order.zipIdx.flatMap fun item =>
        (projectBuildUnit plan item).1.requiredTargets).map (·.packageName) =
        plan.order.flatMap (·.packageNames) := by
      rw [List.map_flatMap]
      calc (plan.order.zipIdx.flatMap fun item =>
            (projectBuildUnit plan item).1.requiredTargets.map (·.packageName))
          = plan.order.zipIdx.flatMap fun item => item.1.packageNames :=
            List.flatMap_congr fun item hitem =>
              (projectBuildUnit_spec h (hunit item hitem)).2.1
        _ = (plan.order.zipIdx.map (·.1)).flatMap (·.packageNames) := by
            rw [List.flatMap_map]
        _ = plan.order.flatMap (·.packageNames) := by rw [List.zipIdx_map_fst]
    have hnodup : (plan.order.zipIdx.flatMap fun item =>
        (projectBuildUnit plan item).1.requiredTargets).Nodup := by
      refine List.Nodup.of_map (·.packageName) ?_
      rw [hnames]
      exact h.entryNames_nodup
    have hnodup' : (plan.packageTargets.map requiredTarget).Nodup := by
      refine List.Nodup.of_map (·.packageName) ?_
      rw [List.map_map]
      exact h.names_nodup
    rw [List.perm_ext_iff_of_nodup hnodup hnodup']
    intro required
    rw [List.mem_flatMap, List.mem_map]
    constructor
    · rintro ⟨item, hitem, hrequired⟩
      obtain ⟨-, target, htarget, rfl⟩ :=
        (projectBuildUnit_spec h (hunit item hitem)).2.2 required hrequired
      exact ⟨target, htarget, rfl⟩
    · rintro ⟨target, htarget, rfl⟩
      obtain ⟨entry, hentry, -, hname⟩ := h.covered target htarget
      obtain ⟨index, hindex⟩ := List.mem_iff_getElem?.mp hentry
      have hitem : (entry, index) ∈ plan.order.zipIdx :=
        List.mk_mem_zipIdx_iff_getElem?.mpr hindex
      obtain ⟨-, htargetNames, hrequired⟩ := projectBuildUnit_spec h (hunit _ hitem)
      rw [← htargetNames] at hname
      obtain ⟨other, hother, hotherName⟩ := List.mem_map.mp hname
      obtain ⟨-, origin, horigin, rfl⟩ := hrequired other hother
      have hsame : origin = target :=
        List.inj_on_of_nodup_map h.names_nodup horigin htarget hotherName
      rw [← hsame]
      exact ⟨_, hitem, hother⟩

/-- A plan without issues is projected. -/
theorem projectRequiredArtifactTargets_of_projectable (h : Projectable plan) :
    ∃ units, projectRequiredArtifactTargets plan = .ok units ∧ Projects plan units := by
  obtain ⟨hissues, hprojects⟩ := projectBuildUnits_spec h
  refine ⟨(projectBuildUnits plan).1, ?_, hprojects⟩
  unfold projectRequiredArtifactTargets
  dsimp only
  rw [validateOrderEntries_nil h, validatePackageTargets_nil h,
    validatePlanRootCoverage_nil h, hissues, validateReverseCoverage_nil h]
  rfl

end Projectable

/-! ## Accepted plans -/

theorem forall₂_map_eq {β : Type} {R : α → α → Prop} {f : α → β}
    (hf : ∀ first second, R first second → f second = f first) {before after : List α}
    (h : List.Forall₂ R before after) : after.map f = before.map f := by
  induction h with
  | nil => rfl
  | cons hitem _ ih => rw [List.map_cons, List.map_cons, hf _ _ hitem, ih]

section Accepted

variable {settings : ResolverSettings} {targets : List Bytes} {walked : WalkState}
  {plan : BuildPlan}

/-- A root of a plan without reports has its target, in the role of a root. -/
theorem root_targeted (h : FinishedFrom settings targets walked plan) (hcalm : Calm plan)
    (hroot : root ∈ plan.rootTargets) :
    ∃ target ∈ plan.packageTargets, target.packageName = root.requestedName ∧
      .root ∈ target.roles ∧ root ∈ target.roots := by
  rw [h.rootTargets, ← h.roots] at hroot
  obtain ⟨-, origin, horigin, hname, hroles, hmem⟩ :=
    h.collection.roots (h.calm hcalm) root hroot
  obtain ⟨kept, hkept, hsame⟩ := forall₂_exists_left h.target origin horigin
  refine ⟨kept, hkept, ?_, ?_, hsame.2 hmem⟩
  · rw [hsame.1]
    exact hname
  · rw [hsame.1]
    exact hroles (List.mem_singleton.mpr rfl)

theorem names_nodup_of_finished (h : FinishedFrom settings targets walked plan)
    (hconsistent : Consistent settings walked.plan) :
    (plan.packageTargets.map (·.packageName)).Nodup := by
  have hnames : plan.packageTargets.map (·.packageName) =
      walked.plan.packageTargets.map (·.packageName) :=
    forall₂_map_eq (fun first second hsame => by rw [hsame.1]) h.target
  rw [hnames]
  exact hconsistent.names_nodup

/-- An entry of the plan names targets of its own base. -/
theorem entry_targeted (h : FinishedFrom settings targets walked plan)
    (hbases : SameBases settings.env) (hconsistent : Consistent settings walked.plan)
    (hsound : TargetsSound settings plan.rootTargets plan) (hentry : entry ∈ plan.order)
    {name : Bytes} (hname : name ∈ entry.packageNames) :
    isValidPackageName name = true ∧ ∃ target ∈ plan.packageTargets,
      target.packageName = name ∧ target.packageBase = entry.packageBase := by
  have hentrySound := hconsistent.entries entry (h.order.mem_iff.mp hentry)
  obtain ⟨info, hknown, hinfoName, hinfoBase⟩ := hentrySound.known name hname
  obtain ⟨origin, horigin, horiginName⟩ := hentrySound.targets name hname
  obtain ⟨kept, hkept, hsame⟩ := forall₂_exists_left h.target origin horigin
  have hkeptName : kept.packageName = name := by
    rw [hsame.1]
    exact horiginName
  obtain ⟨other, hotherKnown, hotherName, hotherBase⟩ := (hsound kept hkept).known
  have hbase := known_base_eq hbases hotherKnown hknown
    (hotherName.trans (hkeptName.trans hinfoName.symm))
  refine ⟨hinfoName ▸ info.name_valid, kept, hkept, hkeptName, ?_⟩
  rw [← hotherBase, hbase, hinfoBase]

theorem projectable_of_calm (h : FinishedFrom settings targets walked plan)
    (hvalid : ∀ target ∈ targets, isValidPackageName target = true)
    (hbases : SameBases settings.env) (hconsistent : Consistent settings walked.plan)
    (hcover : EntriesCover walked.plan)
    (hsound : TargetsSound settings plan.rootTargets plan) (hcalm : Calm plan) :
    Projectable plan := by
  have hnames := names_nodup_of_finished h hconsistent
  refine {
    bases_nodup := ?_
    bases_valid := fun entry hentry =>
      h.entries.valid entry (h.order.mem_iff.mp hentry)
    entries := ?_
    names_nodup := hnames
    targets := ?_
    covered := ?_
    roots_indexed := ?_
    roots_valid := ?_
    roots_targeted := fun root hroot => root_targeted h hcalm hroot }
  · exact (h.order.map _).nodup_iff.mpr h.entries.nodup
  · intro entry hentry
    have hentrySound := hconsistent.entries entry (h.order.mem_iff.mp hentry)
    exact ⟨hentrySound.names_ne, hentrySound.names_nodup,
      fun name hname => entry_targeted h hbases hconsistent hsound hentry hname⟩
  · intro target htarget
    have htargetSound := hsound target htarget
    obtain ⟨info, -, hname, hbase⟩ := htargetSound.known
    refine ⟨hbase ▸ info.packageBase_valid, hname ▸ info.name_valid, htargetSound.roots_ne,
      htargetSound.roots_nodup, htargetSound.roots_mem, htargetSound.roles_ne,
      htargetSound.rootRole, ?_⟩
    rintro ⟨root, hroot, hrootName⟩
    obtain ⟨other, hother, hotherName, hrole, -⟩ :=
      root_targeted h hcalm (htargetSound.roots_mem hroot)
    have hsame : other = target := List.inj_on_of_nodup_map hnames hother htarget
      (hotherName.trans hrootName)
    rw [← hsame]
    exact hrole
  · intro target htarget
    obtain ⟨origin, horigin, hsame⟩ := forall₂_exists_right h.target target htarget
    obtain ⟨entry, hentry, hbase, hname⟩ := hcover.targets origin horigin
    refine ⟨entry, h.order.mem_iff.mpr hentry, ?_, ?_⟩
    · rw [hbase, hsame.1]
    · rw [hsame.1]
      exact hname
  · rintro ⟨root, index⟩ hitem
    rw [h.rootTargets, List.mk_mem_zipIdx_iff_getElem?, List.getElem?_map] at hitem
    obtain ⟨⟨name, position⟩, hposition, rfl⟩ := Option.map_eq_some_iff.mp hitem
    rw [List.getElem?_zipIdx] at hposition
    obtain ⟨other, -, hother⟩ := Option.map_eq_some_iff.mp hposition
    injection hother with _ hindex
    rw [← hindex]
    exact Nat.zero_add index
  · intro root hroot
    rw [h.rootTargets] at hroot
    obtain ⟨item, hitem, rfl⟩ := List.mem_map.mp hroot
    exact hvalid item.1 (List.fst_mem_of_mem_zipIdx hitem)

end Accepted

/-- **Accepted plans are projected**: for lookups that name one base for one
package, the projection of a plan that passes the build guard succeeds, its
units follow the order of the plan one to one, and each planned target is
required exactly once, in the unit of its base, explicitly exactly when it is
a root. -/
theorem resolveBuildPlanOnce_projects (env : MetadataEnvironment)
    (hbases : SameBases env) (targets : List Bytes)
    (context : BuildPlanResolutionContext)
    (selectProvider : Option ProviderSelectionCallback) (result : PassResult)
    (relationDisplay : PackageRelationAssessment → Bytes) (target : Bytes)
    (h : resolveBuildPlanOnce env targets context selectProvider = .ok result)
    (hguard : requireExecutableBuildPlan relationDisplay target result.plan = .ok ()) :
    ∃ units, projectRequiredArtifactTargets result.plan = .ok units ∧
      Projects result.plan units := by
  obtain ⟨walked, hwalked, hfinished⟩ := resolveBuildPlanOnce_finished h
  have haccepted := requireExecutableBuildPlan_ok_iff.mp hguard
  unfold resolveBuildPlanOnce at h
  simp only [bind_eq_ok] at h
  obtain ⟨_, htargets, walked', hwalked', plan, hplan, h⟩ := h
  have hvalid := requireTargets_valid htargets
  have hsame : walked' = walked := by
    rw [show collectRoots (passSettings env context selectProvider) targets = .ok walked'
      from hwalked'] at hwalked
    injection hwalked
  rw [hsame] at hplan
  injection h with h
  have hconsistent := collectRoots_consistent hvalid hwalked
  have hcover : EntriesCover walked.plan := by
    refine collectRoots_keeps (keeps_entriesCover _) ⟨by simp, by simp⟩ ?_ hvalid hwalked
    intro state root hstate
    exact hstate.of_eq rfl rfl rfl
  have hsound : TargetsSound (passSettings env context selectProvider)
      plan.rootTargets plan :=
    finishBuildPlan_targetsSound hconsistent.targets hplan
  have hresult : result.plan = plan := by rw [← h]
  rw [hresult] at hfinished haccepted ⊢
  exact projectRequiredArtifactTargets_of_projectable
    (projectable_of_calm hfinished hvalid hbases hconsistent hcover hsound
      ⟨haccepted.unresolved, haccepted.cycles⟩)

/-- `app` and `lib` are asked for together; `app` needs `lib` too. -/
theorem resolveBuildPlanOnce_projects_app :
    ∃ result units,
      resolveBuildPlanOnce appAndLib [ascii "app", ascii "lib"] { mode := .legacy } none =
          .ok result ∧
        requireExecutableBuildPlan (fun _ => []) (ascii "app") result.plan = .ok () ∧
        projectRequiredArtifactTargets result.plan = .ok units ∧
        Projects result.plan units ∧
        result.plan.packageTargets.map requiredTarget =
          [⟨ascii "app", ascii "app", .explicit⟩,
            ⟨ascii "lib", ascii "lib", .explicit⟩] := by
  have hview : (resolveBuildPlanOnce appAndLib [ascii "app", ascii "lib"]
      { mode := .legacy } none).toOption.map (fun result =>
        (decide (requireExecutableBuildPlan (fun _ => []) (ascii "app") result.plan =
          .ok ()), result.plan.packageTargets.map requiredTarget)) =
        some (true, [⟨ascii "app", ascii "app", .explicit⟩,
          ⟨ascii "lib", ascii "lib", .explicit⟩]) := by decide +kernel
  have hbases : SameBases appAndLib := by
    intro name first second hfirst hsecond
    rw [show appAndLib.aurInfoStrict name = appAndLib.aurInfo name from rfl, hfirst]
      at hsecond
    injection hsecond with hsame
    injection hsame with hsame
    rw [hsame]
  obtain ⟨result, hresult, hseen⟩ := exists_ok_of_view hview
  simp only [Prod.mk.injEq, decide_eq_true_eq] at hseen
  obtain ⟨units, hunits, hprojects⟩ := resolveBuildPlanOnce_projects appAndLib hbases
    [ascii "app", ascii "lib"] { mode := .legacy } none result (fun _ => []) (ascii "app")
    hresult hseen.1
  exact ⟨result, units, hresult, hseen.1, hunits, hprojects, hseen.2⟩

end Moguet.Plan.ArtifactTargets
