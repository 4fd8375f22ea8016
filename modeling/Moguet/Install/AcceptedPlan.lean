import Moguet.Install.InstallReasons
import Moguet.Plan.EdgeOrigin

/-!
# From an accepted plan to installed packages

A plan that passes the build guard is carried out entry by entry: the packages of an
entry are built, the artifacts its unit requires are selected from what was produced,
and one transaction installs them. Here the stages are put together: wherever such a
run stops, what was built is closed under the dependencies of the plan; a selection
fails only by what was produced; and the transaction records a package as explicit
exactly when the user has asked for it or it was explicit before.
-/

namespace Moguet.Install.AcceptedPlan

open Verified.ByteString Verified.Checked Plan.Constraint Plan.Metadata Plan.Model Plan.Discovery
open Plan.Dependency Plan.Readiness Plan.Resolver Plan.Walk Plan.Resolution Plan.BuildOrder
open Plan.Descent Plan.Acceptance Plan.Closure Plan.CycleDetection Plan.Attribution Plan.EdgeOrigin
open Plan.ArtifactTargets Relation.Assessment ArtifactSelection InstallReasons

variable {env : MetadataEnvironment} {settings : ResolverSettings} {targets : List Bytes}
  {context : BuildPlanResolutionContext} {selectProvider : Option ProviderSelectionCallback}
  {result : PassResult} {plan : BuildPlan} {walked : WalkState}

/-! ## Accepted plans -/

/-- What is known of a pass whose plan was accepted. -/
structure Accepted (settings : ResolverSettings) (targets : List Bytes) (walked : WalkState)
    (plan : BuildPlan) : Prop where
  finished : FinishedFrom settings targets walked plan
  calm : Calm plan
  projectable : Projectable plan
  sound : TargetsSound settings plan.rootTargets plan
  closed : Closed settings targets plan
  ordered : OrderRespects walked.plan.order plan
  origins : ∀ edge ∈ plan.dependencyEdges, EdgeOrigin settings edge

theorem accepted_of_guard (hbases : SameBases env)
    (h : resolveBuildPlanOnce env targets context selectProvider = .ok result)
    {relationDisplay : PackageRelationAssessment → Bytes} {target : Bytes}
    (hguard : requireExecutableBuildPlan relationDisplay target result.plan = .ok ()) :
    ∃ walked, Accepted (passSettings env context selectProvider) targets walked result.plan := by
  obtain ⟨walked, hwalked, hfinished⟩ := resolveBuildPlanOnce_finished h
  have haccepted := requireExecutableBuildPlan_ok_iff.mp hguard
  have hevaluated := resolveBuildPlanOnce_evaluated h
  have horigins := resolveBuildPlanOnce_edgeOrigin h
  unfold resolveBuildPlanOnce at h
  simp only [bind_eq_ok] at h
  obtain ⟨_, htargets, walked', hwalked', plan, hplan, h⟩ := h
  have hvalid := requireTargets_valid htargets
  have hsame : walked' = walked := Except.ok.inj (hwalked'.symm.trans hwalked)
  rw [hsame] at hplan
  have hresult : result.plan = plan := by rw [← Except.ok.inj h]
  have hconsistent := collectRoots_consistent hvalid hwalked
  have hcover : EntriesCover walked.plan := by
    refine collectRoots_keeps (keeps_entriesCover _) ⟨by simp, by simp⟩ ?_ hvalid hwalked
    intro state root hstate
    exact hstate.of_eq rfl rfl rfl
  have hcalm : Calm result.plan := ⟨haccepted.unresolved, haccepted.cycles⟩
  have hsound : TargetsSound (passSettings env context selectProvider)
      result.plan.rootTargets result.plan := by
    rw [hresult]
    exact finishBuildPlan_targetsSound hconsistent.targets hplan
  exact ⟨walked, hfinished, hcalm,
    projectable_of_calm hfinished hvalid hbases hconsistent hcover hsound hcalm, hsound,
    closed_of_accepted hfinished haccepted hevaluated,
    hresult ▸ finishBuildPlan_orderRespects (collectRoots_entriesDistinct hvalid hwalked) hplan,
    horigins⟩

/-! ## Built in the order of the plan -/

/-- The base of an edge is the base its dependency is planned under. -/
theorem Accepted.resolvedBase (h : Accepted settings targets walked plan)
    (hbases : SameBases settings.env) {edge : BuildPlanDependencyEdge}
    (hedge : edge ∈ plan.dependencyEdges) {target : PlannedPackageTarget}
    (htarget : target ∈ plan.packageTargets)
    (hname : resolvedAurDependencyName edge = some target.packageName) :
    resolvedAurDependencyPackageBase plan edge = some target.packageBase := by
  unfold resolvedAurDependencyPackageBase
  split
  · rename_i hexact
    obtain ⟨info, hknown, hinfoName, hinfoBase⟩ := (h.origins edge hedge).aur hexact.1
    obtain ⟨other, hother, hotherName, hotherBase⟩ := (h.sound target htarget).known
    have hsame : info.name = target.packageName := by
      unfold resolvedAurDependencyName at hname
      rw [if_pos hexact.1, hinfoName] at hname
      exact Option.some.inj hname
    rw [hinfoBase, known_base_eq hbases hknown hother (hsame.trans hotherName.symm), hotherBase]
  · rw [hname]
    dsimp only
    cases hfound : findPackageTarget plan target.packageName with
    | none => exact absurd (List.find?_eq_none.mp hfound target htarget) (by simp)
    | some found =>
      have hfoundName : found.packageName = target.packageName := by
        simpa using List.find?_some hfound
      rw [List.inj_on_of_nodup_map h.projectable.names_nodup (List.mem_of_find?_eq_some hfound)
        htarget hfoundName]
      rfl

/-- What stands in front of a base it depends on another one, stands there too. -/
theorem Accepted.built_before (h : Accepted settings targets walked plan)
    {built rest : List BuildPlanEntry} (horder : plan.order = built ++ rest)
    {edge : BuildPlanDependencyEdge} (hedge : edge ∈ plan.dependencyEdges)
    (hparent : edge.parentPackageBase ∈ built.map (·.packageBase)) {entry : BuildPlanEntry}
    (hentry : entry ∈ plan.order)
    (hresolved : resolvedAurDependencyPackageBase plan edge = some entry.packageBase) :
    entry ∈ built := by
  have hplanned : ∀ base ∈ built.map (·.packageBase), base ∈ plan.order.map (·.packageBase) := by
    rw [horder, List.map_append]
    exact fun _ hbase => List.mem_append_left _ hbase
  have hbase : entry.packageBase ∈ built.map (·.packageBase) := by
    by_cases hown : entry.packageBase = edge.parentPackageBase
    · rw [hown]
      exact hparent
    · by_contra hlater
      have hbefore := h.ordered.dependencies h.calm.cycles edge hedge _ hresolved hown
        (List.mem_map_of_mem hentry) (hplanned _ hparent)
      rw [horder, List.map_append, List.idxOf_append_of_notMem hlater,
        List.idxOf_append_of_mem hparent] at hbefore
      have hwithin := List.idxOf_lt_length_of_mem hparent
      omega
  obtain ⟨other, hother, hsame⟩ := List.mem_map.mp hbase
  rw [← List.inj_on_of_nodup_map h.projectable.bases_nodup
    (horder ▸ List.mem_append_left rest hother) hentry hsame]
  exact hother

/-- **Builds are closed**: however far the entries of an accepted plan are built in their
order, every declared dependency of a package built has its edge, which is satisfied or
unconstrained and leads to a package built before or with it, or to none of the AUR. -/
theorem acceptedPlan_builds_closed (env : MetadataEnvironment) (hbases : SameBases env)
    (targets : List Bytes) (context : BuildPlanResolutionContext)
    (selectProvider : Option ProviderSelectionCallback) (result : PassResult)
    (relationDisplay : PackageRelationAssessment → Bytes) (target : Bytes)
    (h : resolveBuildPlanOnce env targets context selectProvider = .ok result)
    (hguard : requireExecutableBuildPlan relationDisplay target result.plan = .ok ()) :
    ∀ built rest, result.plan.order = built ++ rest →
      ∀ entry ∈ built, ∀ name ∈ entry.packageNames,
        ∃ info, Known (passSettings env context selectProvider) info ∧ info.name = name ∧
          info.packageBase = entry.packageBase ∧
          ∀ declared ∈ declaredDependencies info.toAurPackageRecord,
            ∃ edge ∈ result.plan.dependencyEdges, edge.parentPackageName = name ∧
              edge.dependencySpec = declared.1 ∧ edge.role = declared.2 ∧
              (edge.constraintEvaluation = some .satisfied ∨
                edge.constraintEvaluation = some .unconstrained) ∧
              ∀ dependency, resolvedAurDependencyName edge = some dependency →
                ∃ earlier ∈ built, dependency ∈ earlier.packageNames := by
  obtain ⟨walked, haccepted⟩ := accepted_of_guard hbases h hguard
  have hprojectable := haccepted.projectable
  have hfinished := haccepted.finished
  intro built rest horder entry hentry name hname
  have hplanned : entry ∈ result.plan.order := by
    rw [horder]
    exact List.mem_append_left _ hentry
  obtain ⟨-, planned, hmem, hplannedName, hplannedBase⟩ :=
    (hprojectable.entries entry hplanned).2.2 name hname
  obtain ⟨info, hwalked⟩ := (hfinished.collection.finished (hfinished.calm haccepted.calm)).walked
    _ (visited_of_target hfinished haccepted.calm hmem)
  obtain ⟨other, hother, hotherName, hotherBase⟩ := (haccepted.sound planned hmem).known
  have hbase : info.packageBase = entry.packageBase := by
    rw [known_base_eq hbases hwalked.known hother (hwalked.name_eq.trans hotherName.symm),
      hotherBase, hplannedBase]
  refine ⟨info, hwalked.known, hwalked.name_eq.trans hplannedName, hbase, ?_⟩
  obtain ⟨typed, htyped, hdeclared⟩ := hwalked.declared
  intro declared hdeclaredMem
  obtain ⟨declaration, hdeclaration, hspecification, hrole⟩ :=
    collectTypedBuildDependencies_covers htyped declared hdeclaredMem
  obtain ⟨origin, horigin, hparentName, hparentBase, hspec, hedgeRole⟩ :=
    hdeclared declaration hdeclaration
  obtain ⟨edge, hedge, hsame⟩ := forall₂_exists_left hfinished.edge origin horigin
  have hedgeName : edge.parentPackageName = planned.packageName := by
    rw [hsame, ← hwalked.name_eq]
    exact hparentName
  have hedgeBase : edge.parentPackageBase = entry.packageBase := by
    rw [hsame, ← hbase]
    exact hparentBase
  refine ⟨edge, hedge, hedgeName.trans hplannedName, ?_, ?_, haccepted.closed.satisfied edge hedge,
    ?_⟩
  · rw [hsame, ← hspecification]
    exact hspec
  · rw [hsame, ← hrole]
    exact hedgeRole
  · intro dependency hdependency
    obtain ⟨⟨needed, hneeded, hneededName⟩, -⟩ :=
      haccepted.closed.dependencies planned hmem edge hedge hedgeName dependency hdependency
    obtain ⟨earlier, hearlier, hearlierBase, hnames⟩ := hprojectable.covered needed hneeded
    rw [← hneededName] at hdependency ⊢
    refine ⟨earlier, haccepted.built_before horder hedge ?_ hearlier ?_, hnames⟩
    · rw [hedgeBase]
      exact List.mem_map_of_mem hentry
    · rw [hearlierBase]
      exact haccepted.resolvedBase hbases hedge hneeded hdependency

theorem sameBases_appAndLib : SameBases appAndLib := by
  intro name first second hfirst hsecond
  rw [show appAndLib.aurInfoStrict name = appAndLib.aurInfo name from rfl, hfirst] at hsecond
  injection hsecond with hsame
  injection hsame with hsame
  rw [hsame]

/-- `app` is asked for; its plan builds `lib`, which it depends on, first. -/
theorem appAndLib_accepted :
    ∃ result, resolveBuildPlanOnce appAndLib [ascii "app"] { mode := .legacy } none = .ok result ∧
      (requireExecutableBuildPlan (fun _ => []) (ascii "app") result.plan = .ok () ∧
        result.plan.order.map (·.packageNames) = [[ascii "lib"], [ascii "app"]]) ∧
      (projectRequiredArtifactTargets result.plan).toOption.map (fun units =>
        units.map fun unit => (unit.packageBase, unit.requiredTargets)) =
          some [(ascii "lib", [⟨ascii "lib", ascii "lib", .dependency⟩]),
            (ascii "app", [⟨ascii "app", ascii "app", .explicit⟩])] := by
  have hview : (resolveBuildPlanOnce appAndLib [ascii "app"] { mode := .legacy }
      none).toOption.map (fun result =>
        (decide (requireExecutableBuildPlan (fun _ => []) (ascii "app") result.plan = .ok () ∧
          result.plan.order.map (·.packageNames) = [[ascii "lib"], [ascii "app"]]),
          (projectRequiredArtifactTargets result.plan).toOption.map fun units =>
            units.map fun unit => (unit.packageBase, unit.requiredTargets))) =
        some (true, some [(ascii "lib", [⟨ascii "lib", ascii "lib", .dependency⟩]),
          (ascii "app", [⟨ascii "app", ascii "app", .explicit⟩])]) := by decide +kernel
  obtain ⟨result, hresult, hseen⟩ := exists_ok_of_view hview
  simp only [Prod.mk.injEq, decide_eq_true_eq] at hseen
  exact ⟨result, hresult, hseen⟩

theorem acceptedPlan_builds_closed_app :
    ∃ result entry, resolveBuildPlanOnce appAndLib [ascii "app"] { mode := .legacy } none =
        .ok result ∧ entry ∈ result.plan.order ∧ ascii "app" ∈ entry.packageNames ∧
      ∃ info, Known (passSettings appAndLib { mode := .legacy } none) info ∧
        info.name = ascii "app" ∧ info.packageBase = entry.packageBase := by
  obtain ⟨result, hresult, ⟨hguard, horder⟩, -⟩ := appAndLib_accepted
  have happ : [ascii "app"] ∈ result.plan.order.map (·.packageNames) := by
    rw [horder]
    decide
  obtain ⟨entry, hentry, hnames⟩ := List.mem_map.mp happ
  have hmem : ascii "app" ∈ entry.packageNames := by
    rw [hnames]
    exact List.mem_singleton_self _
  obtain ⟨info, hknown, hname, hbase, -⟩ := acceptedPlan_builds_closed appAndLib
    sameBases_appAndLib [ascii "app"] { mode := .legacy } none result (fun _ => []) (ascii "app")
    hresult hguard result.plan.order [] (List.append_nil _).symm entry hentry _ hmem
  exact ⟨result, entry, hresult, hentry, hmem, info, hknown, hname, hbase⟩

/-! ## Selected and installed as the plan requires -/

variable {units : List ProjectedBuildUnit} {unit : ProjectedBuildUnit}
  {produced : List ProducedPackageArtifact} {needed : Bool}

/-- A package has the role of a root when the user has asked for it. -/
theorem Accepted.root_iff (h : Accepted settings targets walked plan)
    {target : PlannedPackageTarget} (htarget : target ∈ plan.packageTargets) :
    .root ∈ target.roles ↔ target.packageName ∈ targets := by
  obtain ⟨-, -, -, -, hroots, -, hroot⟩ := h.projectable.targets target htarget
  constructor
  · intro hrole
    obtain ⟨root, hmem, hname⟩ := hroot.mp hrole
    have hplanned := hroots hmem
    rw [h.finished.rootTargets] at hplanned
    obtain ⟨item, hitem, rfl⟩ := List.mem_map.mp hplanned
    rw [← hname]
    exact List.fst_mem_of_mem_zipIdx hitem
  · intro hname
    obtain ⟨index, hindex⟩ := List.mem_iff_getElem?.mp hname
    have hplanned : (⟨index, target.packageName⟩ : RootTargetIdentity) ∈ plan.rootTargets := by
      rw [h.finished.rootTargets]
      exact List.mem_map.mpr ⟨(_, index), List.mk_mem_zipIdx_iff_getElem?.mpr hindex, rfl⟩
    obtain ⟨other, hother, hotherName, hrole, -⟩ := h.projectable.roots_targeted _ hplanned
    rw [← List.inj_on_of_nodup_map h.projectable.names_nodup hother htarget hotherName]
    exact hrole

/-- A target of a unit, as the selection takes it. -/
def selectionTarget (required : RequiredPackageArtifactTarget) : RequiredTarget :=
  ⟨required.packageBase, required.packageName, .named required.desiredReason⟩

/-- The selection for a unit among what its build has produced. -/
def unitRequest (unit : ProjectedBuildUnit) (produced : List ProducedPackageArtifact) :
    SelectionRequest :=
  ⟨unit.packageBase, unit.requiredTargets.map selectionTarget, produced⟩

/-- What a build has to produce for a unit. -/
structure Produces (unit : ProjectedBuildUnit) (produced : List ProducedPackageArtifact) :
    Prop where
  valid : ∀ artifact ∈ produced, isValidPackageName artifact.packageName = true
  distinct : (produced.map ProducedPackageArtifact.packageName).Nodup
  required : ∀ required ∈ unit.requiredTargets, ⟨required.packageName⟩ ∈ produced

theorem required_of_unit (hprojects : Projects plan units) (hunit : unit ∈ units)
    {required : RequiredPackageArtifactTarget} (hrequired : required ∈ unit.requiredTargets) :
    ∃ target ∈ plan.packageTargets, requiredTarget target = required :=
  List.mem_map.mp (hprojects.required.subset (List.mem_flatMap.mpr ⟨unit, hunit, hrequired⟩))

/-- Nothing but what was produced keeps a unit from being selected. -/
theorem selectable_iff (h : Projectable plan) (hprojects : Projects plan units)
    (hunit : unit ∈ units) : Selectable (unitRequest unit produced) ↔ Produces unit produced := by
  constructor
  · intro hselectable
    exact ⟨hselectable.produced_valid, hselectable.produced_distinct, fun required hrequired =>
      hselectable.required_produced _ (List.mem_map_of_mem hrequired)⟩
  · intro hproduces
    have hnames : ((units.flatMap (·.requiredTargets)).map (·.packageName)).Nodup := by
      rw [(hprojects.required.map _).nodup_iff, List.map_map]
      exact h.names_nodup
    rw [List.map_flatMap] at hnames
    have hbase : unit.packageBase ∈ plan.order.map (·.packageBase) := by
      have hplace := List.mem_map_of_mem (f := fun unit : ProjectedBuildUnit =>
        (unit.packageBase, unit.buildPlanOrderIndex)) hunit
      rw [hprojects.order] at hplace
      exact List.fst_mem_of_mem_zipIdx hplace
    obtain ⟨entry, hentry, hentryBase⟩ := List.mem_map.mp hbase
    refine ⟨⟨?_, ?_, ?_, ?_, hproduces.valid, hproduces.distinct, ?_⟩, ?_⟩
    · show isValidPackageName unit.packageBase = true
      rw [← hentryBase]
      exact h.bases_valid entry hentry
    · intro target htarget
      obtain ⟨required, hrequired, rfl⟩ := List.mem_map.mp htarget
      obtain ⟨planned, hplanned, rfl⟩ := required_of_unit hprojects hunit hrequired
      exact (h.targets planned hplanned).2.1
    · intro target htarget
      obtain ⟨required, hrequired, rfl⟩ := List.mem_map.mp htarget
      exact hprojects.own unit hunit required hrequired
    · show ((unit.requiredTargets.map selectionTarget).map _).Nodup
      rw [List.map_map]
      exact (List.nodup_flatMap.mp hnames).1 unit hunit
    · intro target htarget
      obtain ⟨required, hrequired, rfl⟩ := List.mem_map.mp htarget
      exact hproduces.required required hrequired
    · intro target htarget
      obtain ⟨required, -, rfl⟩ := List.mem_map.mp htarget
      exact ⟨_, rfl⟩

/-- What `prepare_package_base_artifact_install` hands on: the artifacts selected, in their
order, each with the reason it is wanted for. -/
def Installs (success : SelectionSuccess) (input : ReasonPolicyInput) : Prop :=
  input.selectedArtifacts.map (fun item => (item.identity.packageName, item.desiredReason)) =
    success.selectedArtifacts.map fun selected =>
      (selected.artifact.packageName, selected.desiredReason)

theorem finalReason_explicit_iff {item : ResolvedItem} (h : ResolvedAs needed item) :
    recorded item.finalReason = .explicit ↔ item.input.existingReason = some .explicit ∨
      item.input.desiredReason = .named .explicit := by
  unfold ResolvedAs at h
  generalize item.input.installedVersionState = state at h
  generalize item.input.existingReason = existing at h ⊢
  generalize item.input.desiredReason = wanted at h ⊢
  generalize item.directive = directive at h
  generalize item.finalReason = finalReason at h ⊢
  cases h <;> simp [recorded]

/-- A transaction records what was explicit, or is wanted so, and nothing else. -/
theorem explicit_after_iff {input : ReasonPolicyInput} {planned : ReasonPlan}
    {after : List TargetAfter} (hplan : resolveReasonPlan input = .ok (.plan planned))
    (hruns : TransactionRuns planned.transactionDirective input.needed input.selectedArtifacts
      after) {item : SelectedArtifact} {done : TargetAfter}
    (hdone : (item, done) ∈ input.selectedArtifacts.zip after) :
    done.reason = .explicit ↔
      item.existingReason = some .explicit ∨ item.desiredReason = .named .explicit := by
  rcases resolveReasonPlan_cases input with ⟨error, herror, -⟩ | ⟨mixed, hmixed⟩ |
    ⟨items, flag, hinputs, hresolved, hflag, hsame⟩
  · rw [herror] at hplan
    cases hplan
  · rw [hmixed] at hplan
    cases hplan
  · rw [hsame] at hplan
    injection Except.ok.inj hplan with hplan
    rw [← hplan] at hruns
    have htarget := (List.forall₂_iff_zip.mp hruns).2 hdone
    have hmem := (List.of_mem_zip hdone).1
    rw [hinputs] at hmem
    obtain ⟨resolved, hitem, rfl⟩ := List.mem_map.mp hmem
    have hown := hresolved resolved hitem
    rw [reason_after hown (installedReason_flag hflag hitem hown) htarget,
      finalReason_explicit_iff hown]

end Moguet.Install.AcceptedPlan
