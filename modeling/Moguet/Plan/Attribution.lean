import Moguet.Plan.CycleDetection

/-!
# Targets, roots and entries agree

The walk writes every package three times: as a target with its roles and
roots, under the entry of its base, and in the edges that lead to it. This
module proves that the three agree in every plan, and with the root list when
nothing was reported.

An entry is found under the base of the record at hand, a target keeps the
base of the first one, so the agreement of bases rests on lookups that name
one base for one package.
-/

namespace Moguet.Plan.Attribution

open Verified.ByteString Verified.Checked Verified.Upsert Constraint Metadata Model Discovery
open Resolver Walk Resolution

variable {settings : ResolverSettings} {roots : List RootTargetIdentity} {before plan : BuildPlan}

variable {root : RootTargetIdentity} {after : BuildPlan} {values : List Bytes}
  {env : MetadataEnvironment} {name : Bytes} {target : PlannedPackageTarget}

/-- The two AUR lookups of the environment name one base for a package. -/
def SameBases (env : MetadataEnvironment) : Prop :=
  ∀ name first second, env.aurInfo name = .ok (some first) →
    env.aurInfoStrict name = .ok (some second) →
    first.packageBase = second.packageBase

/-- Without a recipe of its name a record has the base of a lookup. -/
theorem queryAurPackageInfo_base {context : BuildPlanResolutionContext} {authoritative : Bool}
    {info : AurPackageInfo}
    (h : queryAurPackageInfo env context name authoritative = .ok (some info)) :
    findRecipe context.recipes name = some info ∨
      findRecipe context.recipes name = none ∧ ∃ package, (env.aurInfo name = .ok (some package) ∨
          env.aurInfoStrict name = .ok (some package)) ∧
        info.packageBase = package.packageBase := by
  unfold queryAurPackageInfo at h
  split at h
  · rename_i recipe hrecipe
    split at h
    · cases h
    · injection h with h
      injection h with h
      rw [← h]
      exact Or.inl hrecipe
  · rename_i hnone
    rw [bind_eq_ok] at h
    obtain ⟨package, hquery, h⟩ := h
    cases package with
    | none => cases h
    | some package =>
      refine Or.inr ⟨hnone, package, ?_, ?_⟩
      · unfold aurInfoQuery at hquery
        split at hquery
        · exact Or.inr hquery
        · exact Or.inl hquery
      · dsimp only at h
        split at h
        · cases h
        · rw [bind_eq_ok] at h
          obtain ⟨typed, htyped, h⟩ := h
          injection h with h
          injection h with h
          rw [← h]
          rw [(requireTypedAurPackageInfo_ok htyped).1]

/-- Records of one name have one base. -/
theorem known_base_eq (hbases : SameBases settings.env) {first second : AurPackageInfo}
    (hfirst : Known settings first) (hsecond : Known settings second)
    (hname : first.name = second.name) : first.packageBase = second.packageBase := by
  obtain ⟨_, hfirst⟩ := hfirst
  obtain ⟨_, hsecond⟩ := hsecond
  rw [hname] at hfirst
  rcases queryAurPackageInfo_base hfirst with hrecipe | ⟨hnone, package, hlookup, hbase⟩
  · rcases queryAurPackageInfo_base hsecond with hrecipe' | ⟨hnone, -⟩
    · rw [hrecipe] at hrecipe'
      injection hrecipe' with hsame
      rw [hsame]
    · rw [hrecipe] at hnone
      cases hnone
  · rcases queryAurPackageInfo_base hsecond with hrecipe' | ⟨-, other, hlookup', hbase'⟩
    · rw [hnone] at hrecipe'
      cases hrecipe'
    · rw [hbase, hbase']
      rcases hlookup with hlookup | hlookup
      · rcases hlookup' with hlookup' | hlookup'
        · rw [hlookup] at hlookup'
          injection hlookup' with hsame
          injection hsame with hsame
          rw [hsame]
        · exact hbases _ _ _ hlookup hlookup'
      · rcases hlookup' with hlookup' | hlookup'
        · exact (hbases _ _ _ hlookup' hlookup).symm
        · rw [hlookup] at hlookup'
          injection hlookup' with hsame
          injection hsame with hsame
          rw [hsame]

/-- A target: a package some lookup returned, in at least one role and under
at least one root, and in the role of a root only when it is one. -/
structure TargetSound (settings : ResolverSettings) (roots : List RootTargetIdentity)
    (target : PlannedPackageTarget) : Prop where
  known : ∃ info, Known settings info ∧ info.name = target.packageName ∧
    info.packageBase = target.packageBase
  roles_ne : target.roles ≠ []
  roots_ne : target.roots ≠ []
  roots_nodup : target.roots.Nodup
  roots_mem : target.roots ⊆ roots
  rootRole : .root ∈ target.roles →
    ∃ root ∈ target.roots, root.requestedName = target.packageName

theorem TargetSound.moreRoots {more : List RootTargetIdentity}
    (h : TargetSound settings roots target) (hmore : roots ⊆ more) :
    TargetSound settings more target :=
  ⟨h.known, h.roles_ne, h.roots_ne, h.roots_nodup, List.Subset.trans h.roots_mem hmore, h.rootRole⟩

theorem nodup_addRootIdentity (h : roots.Nodup) : (addRootIdentity roots root).Nodup := by
  unfold addRootIdentity
  split
  · exact h
  · rename_i hnew
    rw [(List.perm_insertionSort _ _).nodup_iff, List.nodup_append_comm]
    exact List.nodup_cons.mpr ⟨hnew, h⟩

/-- A root is added to a target. -/
theorem TargetSound.addRoot (h : TargetSound settings roots target) (hroot : root ∈ roots) :
    TargetSound settings roots
      { target with roots := addRootIdentity target.roots root } where
  known := h.known
  roles_ne := h.roles_ne
  roots_ne := List.ne_nil_of_mem (mem_addRootIdentity.mpr (Or.inr rfl))
  roots_nodup := nodup_addRootIdentity h.roots_nodup
  roots_mem := by
    intro other hother
    rcases mem_addRootIdentity.mp hother with hother | rfl
    · exact h.roots_mem hother
    · exact hroot
  rootRole := by
    intro hrole
    obtain ⟨other, hother, hname⟩ := h.rootRole hrole
    exact ⟨other, mem_addRootIdentity.mpr (Or.inl hother), hname⟩

/-- An entry: each of its names once, each the name of a record of its base
and of a target. -/
structure EntrySound (settings : ResolverSettings) (plan : BuildPlan)
    (entry : BuildPlanEntry) : Prop where
  names_ne : entry.packageNames ≠ []
  names_nodup : entry.packageNames.Nodup
  known : ∀ name ∈ entry.packageNames, ∃ info, Known settings info ∧ info.name = name ∧
    info.packageBase = entry.packageBase
  targets : ∀ name ∈ entry.packageNames, ∃ target ∈ plan.packageTargets,
    target.packageName = name

structure Consistent (settings : ResolverSettings) (plan : BuildPlan) : Prop where
  names_nodup : (plan.packageTargets.map (·.packageName)).Nodup
  targets : ∀ target ∈ plan.packageTargets, TargetSound settings plan.rootTargets target
  entries : ∀ entry ∈ plan.order, EntrySound settings plan entry

theorem EntrySound.grow {entry : BuildPlanEntry} (h : EntrySound settings before entry)
    (hgrows : PlanGrows before after) : EntrySound settings after entry where
  names_ne := h.names_ne
  names_nodup := h.names_nodup
  known := h.known
  targets := by
    intro name hname
    obtain ⟨target, htarget, htargetName⟩ := h.targets name hname
    obtain ⟨kept, hkept, hkeptName, -⟩ := hgrows.targets target htarget
    exact ⟨kept, hkept, hkeptName.trans htargetName⟩

theorem Consistent.of_eq (h : Consistent settings before)
    (hroots : before.rootTargets ⊆ after.rootTargets)
    (htargets : after.packageTargets = before.packageTargets) (horder : after.order = before.order)
    : Consistent settings after := by
  refine ⟨?_, ?_, ?_⟩
  · rw [htargets]
    exact h.names_nodup
  · rw [htargets]
    exact fun target htarget => (h.targets target htarget).moreRoots hroots
  · rw [horder]
    intro entry hentry
    have hsound := h.entries entry hentry
    refine ⟨hsound.names_ne, hsound.names_nodup, hsound.known, ?_⟩
    rw [htargets]
    exact hsound.targets

/-- The root a package is asked for under is one of the list. -/
theorem Consistent.root_mem (h : Consistent settings plan) {request : CollectRequest}
    (hasked : AskedBy plan request) : request.root ∈ plan.rootTargets := by
  rcases hasked with ⟨-, -, hroot⟩ | ⟨-, parent, target, htarget, -, hroot⟩
  · exact hroot
  · exact (h.targets target htarget).roots_mem hroot

theorem nodup_addUniqueValue {value : Bytes} (h : values.Nodup) :
    (addUniqueValue values value).Nodup := by
  unfold addUniqueValue
  dsimp only
  split
  · exact h
  · exact nodup_insertNew h

/-- The name of a package is the one value it adds to its entry. -/
theorem mem_addUniqueValue_name {other : Bytes} (hname : isValidPackageName name = true)
    (h : other ∈ addUniqueValue values name) : other ∈ values ∨ other = name := by
  unfold addUniqueValue at h
  dsimp only at h
  rw [trim_of_isValidPackageName hname, if_neg (isValidPackageName_ne_nil hname)] at h
  exact mem_insertNew.mp h

section Record

variable {settings : ResolverSettings} {request : CollectRequest} {before : WalkState}
  {info : AurPackageInfo} {plan : BuildPlan}

/-- The roles and the root a package is asked for are merged into its
target. -/
theorem targetSound_record (h : Consistent settings before.plan)
    (henters : Enters settings request before info plan) (hname : target.packageName = info.name)
    (hknown : ∃ info, Known settings info ∧ info.name = target.packageName ∧
      info.packageBase = target.packageBase) (hnodup : target.roots.Nodup)
    (hroots : target.roots ⊆ before.plan.rootTargets) (hrole : .root ∈ target.roles →
      ∃ root ∈ target.roots, root.requestedName = target.packageName) :
    TargetSound settings before.plan.rootTargets
      { target with
        roles := request.roles.foldl addPackageRole target.roles
        roots := addRootIdentity target.roots request.root } where
  known := hknown
  roles_ne := by
    obtain ⟨role, hmem⟩ := List.exists_mem_of_ne_nil _ henters.requestAt.roles_ne
    exact List.ne_nil_of_mem (mem_foldl_addPackageRole.mpr (Or.inr hmem))
  roots_ne := List.ne_nil_of_mem (mem_addRootIdentity.mpr (Or.inr rfl))
  roots_nodup := nodup_addRootIdentity hnodup
  roots_mem := by
    intro other hother
    rcases mem_addRootIdentity.mp hother with hother | rfl
    · exact hroots hother
    · exact h.root_mem henters.requestAt.asked
  rootRole := by
    intro hmem
    rcases mem_foldl_addPackageRole.mp hmem with hmem | hmem
    · obtain ⟨other, hother, hotherName⟩ := hrole hmem
      exact ⟨other, mem_addRootIdentity.mpr (Or.inl hother), hotherName⟩
    · rcases henters.requestAt.asked with ⟨-, hown, -⟩ | ⟨hnot, -⟩
      · refine ⟨request.root, mem_addRootIdentity.mpr (Or.inr rfl), ?_⟩
        show request.root.requestedName = target.packageName
        rw [hname, henters.name, hown]
      · exact absurd hmem hnot

theorem Consistent.record (h : Consistent settings before.plan)
    (henters : Enters settings request before info plan) : Consistent settings plan := by
  have hrecorded := recordPackage_ok henters.recorded
  have hgrows := PlanGrows.recordPackage henters.recorded
  have htargets : plan.packageTargets = (addPlannedPackageTarget before.plan info.name
      info.packageBase request.roles request.root).packageTargets := by rw [hrecorded]; rfl
  have horder : plan.order = (addBuildPlanEntry before.plan info.name info.packageBase).order := by
    rw [hrecorded]
    rfl
  refine ⟨?_, ?_, ?_⟩
  · have hnames : plan.packageTargets.map (·.packageName) =
        insertNew (before.plan.packageTargets.map (·.packageName)) info.name := by
      rw [htargets]
      exact map_upsert (by intro _; rfl) (by rfl) before.plan.packageTargets
    rw [hnames]
    exact nodup_insertNew h.names_nodup
  · rw [hgrows.rootTargets, htargets]
    intro target htarget
    rcases mem_upsert htarget with htarget | rfl | ⟨existing, hexisting, hname, rfl⟩
    · exact h.targets target htarget
    · exact targetSound_record h henters rfl ⟨info, henters.known, rfl, rfl⟩
        List.nodup_nil (List.nil_subset _) (fun hrole => by cases hrole)
    · have hsound := h.targets existing hexisting
      have hname : existing.packageName = info.name := by simpa using hname
      exact targetSound_record h henters hname hsound.known hsound.roots_nodup
        hsound.roots_mem hsound.rootRole
  · rw [horder]
    obtain ⟨own, hown, hownName, -⟩ := (recordPackage_planned henters.recorded).1
    intro entry hentry
    rcases mem_upsert hentry with hentry | rfl | ⟨existing, hexisting, hbase, rfl⟩
    · exact (h.entries entry hentry).grow hgrows
    · refine ⟨List.cons_ne_nil _ _, List.nodup_singleton _, ?_, ?_⟩
      · intro name hname
        rw [List.mem_singleton.mp hname]
        exact ⟨info, henters.known, rfl, rfl⟩
      · intro name hname
        rw [List.mem_singleton.mp hname]
        exact ⟨own, hown, hownName⟩
    · have hsound := (h.entries existing hexisting).grow hgrows
      have hbase : existing.packageBase = info.packageBase := by simpa using hbase
      refine ⟨?_, nodup_addUniqueValue hsound.names_nodup, ?_, ?_⟩
      · exact List.ne_nil_of_mem (mem_addUniqueValue_of_valid info.name_valid)
      · intro name hname
        rcases mem_addUniqueValue_name info.name_valid hname with hname | rfl
        · exact hsound.known name hname
        · exact ⟨info, henters.known, rfl, hbase.symm⟩
      · intro name hname
        rcases mem_addUniqueValue_name info.name_valid hname with hname | rfl
        · exact hsound.targets name hname
        · exact ⟨own, hown, hownName⟩

end Record

theorem keeps_consistent (settings : ResolverSettings) :
    Keeps settings fun state => Consistent settings state.plan where
  quiet := fun h hquiet => h.of_eq (by rw [hquiet.grows.rootTargets]; exact fun _ h => h)
    hquiet.aside.targets hquiet.aside.order
  leads := fun h hleads => h.of_eq (by rw [hleads.grows.rootTargets]; exact fun _ h => h)
    hleads.aside.targets hleads.aside.order
  stops := fun h _ hstops => h.of_eq (by rw [hstops.grows.rootTargets]; exact fun _ h => h)
    hstops.aside.targets hstops.aside.order
  enters := fun h henters => h.record henters
  cycle := fun h => h.of_eq (List.Subset.refl _) rfl rfl
  opened := fun h _ _ => h
  closed := by
    intro state info h
    refine h.of_eq ?_ (closePackage_targets_eq _ _) (closePackage_order_eq _ _)
    rw [(PlanGrows.closePackage info state).rootTargets]
    exact fun _ hroot => hroot

theorem collectRoots_consistent {targets : List Bytes} {walked : WalkState}
    (hvalid : ∀ target ∈ targets, isValidPackageName target = true)
    (h : collectRoots settings targets = .ok walked) : Consistent settings walked.plan := by
  refine collectRoots_keeps (keeps_consistent settings) ?_ ?_ hvalid h
  · exact ⟨List.nodup_nil, by simp, by simp⟩
  · intro state root hstate
    exact hstate.of_eq (List.subset_append_left _ _) rfl rfl

section Propagation

variable {settings : ResolverSettings} {roots : List RootTargetIdentity}

/-- The targets of a plan are sound with respect to a root list. -/
def TargetsSound (settings : ResolverSettings) (roots : List RootTargetIdentity)
    (plan : BuildPlan) : Prop :=
  ∀ target ∈ plan.packageTargets, TargetSound settings roots target

theorem TargetsSound.addRootToTarget (h : TargetsSound settings roots plan) (name : Bytes)
    (hroot : root ∈ roots) : TargetsSound settings roots (addRootToTarget plan name root) := by
  intro target htarget
  rcases mem_updateFirst htarget with htarget | ⟨origin, horigin, rfl⟩
  · exact h target htarget
  · exact (h origin horigin).addRoot hroot

theorem propagateRoot_targetsSound (hroot : root ∈ roots) :
    ∀ (budget : Nat) (pending visited : List Bytes) (plan : BuildPlan),
      TargetsSound settings roots plan →
      TargetsSound settings roots (propagateRoot root budget pending visited plan) := by
  intro budget
  induction budget with
  | zero => exact fun pending visited plan h => h
  | succ budget ih =>
    intro pending visited plan h
    cases pending with
    | nil => exact h
    | cons name pending =>
      unfold propagateRoot
      split
      · exact ih _ _ _ h
      · split
        · exact ih _ _ _ h
        · refine ih _ _ _ ?_
          unfold TargetsSound
          rw [foldl_addRelationRootsOfEdge_frame]
          exact h.addRootToTarget name hroot

theorem propagateRootIdentities_targetsSound (h : TargetsSound settings plan.rootTargets plan) :
    TargetsSound settings plan.rootTargets (propagateRootIdentities plan) := by
  unfold propagateRootIdentities
  generalize propagationBudget plan = budget
  have hrun : ∀ (items : List RootTargetIdentity) (current : BuildPlan),
      (∀ root ∈ items, root ∈ plan.rootTargets) →
      TargetsSound settings plan.rootTargets current →
      TargetsSound settings plan.rootTargets (items.foldl (fun current root =>
        propagateRoot root budget [root.requestedName] [] current) current) := by
    intro items
    induction items with
    | nil => exact fun current _ hcurrent => hcurrent
    | cons root rest ih =>
      intro current hitems hcurrent
      refine ih _ (fun other hother => hitems other (List.mem_cons_of_mem _ hother)) ?_
      exact propagateRoot_targetsSound (hitems root List.mem_cons_self) _ _ _ _ hcurrent
  exact hrun plan.rootTargets plan (fun root hroot => hroot) h

end Propagation

/-- Comparing the requirements changes the edges only. -/
theorem projectBuildPlanConstraintConflicts_frame
    (h : projectBuildPlanConstraintConflicts env plan = .ok after) :
    after = { plan with dependencyEdges := after.dependencyEdges } := by
  unfold projectBuildPlanConstraintConflicts at h
  refine foldlM_inv (P := fun current =>
    current = { plan with dependencyEdges := current.dependencyEdges }) ?_ rfl h
  intro indices _ current next hcurrent hstep
  unfold projectGroup at hstep
  split at hstep
  · cases hstep
  · injection hstep with hstep
    rw [← hstep]
    exact hcurrent
  · injection hstep with hstep
    rw [← hstep, hcurrent]
    rfl

/-- The targets of a finished plan are sound with respect to its roots. -/
theorem finishBuildPlan_targetsSound {collected : BuildPlan}
    (hcollected : TargetsSound settings collected.rootTargets collected)
    (h : finishBuildPlan env collected = .ok plan) :
    TargetsSound settings plan.rootTargets plan := by
  obtain ⟨ordered, hordered, hannotated⟩ := finishBuildPlan_spec h
  have hframe := orderBuildPlanEntries_frame hordered
  have hroots : plan.rootTargets = ordered.rootTargets := by rw [hannotated.frame]
  rw [hroots]
  unfold finishBuildPlan at h
  simp only [bind_eq_ok] at h
  obtain ⟨ordered', hordered', projected, hprojected, _, -, _, -, h⟩ := h
  have hsame : ordered' = ordered := by
    rw [hordered'] at hordered
    injection hordered
  rw [hsame] at hprojected
  injection h with h
  rw [← h]
  unfold TargetsSound
  rw [projectBuildPlanConstraintConflicts_frame hprojected]
  refine propagateRootIdentities_targetsSound ?_
  unfold TargetsSound
  rw [hframe]
  exact hcollected

end Moguet.Plan.Attribution
