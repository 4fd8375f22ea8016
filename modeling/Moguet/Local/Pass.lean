import Moguet.Local.Walk

/-!
# One pass of a local resolution

What holds of the plan one pass of the resolver returns: each of its targets is
a root or a remote package under the base its record has, each edge was recorded
for a call the local resolver left, and each call came from a planned parent.

* `LocalStep.attributed` — one step of the walk keeps it;
* `resolveOnce_attributed` — so it holds of the pass;
* `PassAttributed.parent_planned` — an edge's parent and base are those of a
  target.
-/

namespace Moguet.Local.Pass

open Verified.ByteString Verified.Checked Verified.Upsert Plan.Metadata Plan.Model Plan.Discovery
open Plan.Resolver Plan.Walk Plan.Resolution Walk

variable {settings : ResolverSettings} {roots : List RootPackage} {calls : List DependencyContext}
  {decide : DependencyContext → DependencyDecision}

variable {context : DependencyContext} {name own : Bytes} {bases : List Bytes}
  {edge : BuildPlanDependencyEdge} {before after : WalkState} {env : MetadataEnvironment}
  {selectProvider : Option ProviderSelectionCallback}

/-- Where a planned package comes from. -/
inductive Origin (settings : ResolverSettings) (roots : List RootPackage)
    (name base : Bytes) : Prop
  | root (package : RootPackage) (hmem : package ∈ roots) (hname : name = package.packageName)
      (hbase : base = package.packageBase)
  | remote (h : Remote settings name base)

theorem Parent.origin (h : Parent settings roots context) :
    Origin settings roots context.parentPackageName context.parentPackageBase := by
  cases h with
  | root package specification hmem hname hbase _ => exact .root package hmem hname hbase
  | remote specification h _ => exact .remote h

/-- The record a strict lookup knows a name by is one. -/
theorem known_unique {info other : AurPackageInfo}
    (hcaptures : settings.context = { mode := .captureOrdinaryFailures }) (h : Known settings info)
    (hother : Known settings other) (hname : info.name = other.name) : info = other := by
  obtain ⟨authoritative, h⟩ := h
  obtain ⟨authoritative', hother⟩ := hother
  rw [hcaptures] at h hother
  rw [hname] at h
  have hsame : queryAurPackageInfo settings.env { mode := .captureOrdinaryFailures }
        other.name authoritative =
      queryAurPackageInfo settings.env { mode := .captureOrdinaryFailures }
        other.name authoritative' := rfl
  rw [hsame, hother] at h
  injection h with h
  injection h with h
  exact h.symm

/-- Roots of one base whose names are kept from the remote packages. -/
structure RootsOf (settings : ResolverSettings) (roots : List RootPackage) (base : Bytes) :
    Prop where
  captures : settings.context = { mode := .captureOrdinaryFailures }
  base_eq : ∀ package ∈ roots, package.packageBase = base
  base_local : base ∈ settings.localPackageBases
  name_local : ∀ package ∈ roots, package.packageName ∈ settings.localPackageNames

section Origins

variable {settings : ResolverSettings} {roots : List RootPackage} {base : Bytes}

/-- A package has one base. -/
theorem Origin.unique (rootsOf : RootsOf settings roots base) {first second : Bytes}
    (h : Origin settings roots name first) (h' : Origin settings roots name second) :
    first = second := by
  cases h with
  | root package hmem hname hbase =>
    cases h' with
    | root other hother _ hbase' =>
      rw [hbase, hbase', rootsOf.base_eq package hmem, rootsOf.base_eq other hother]
    | remote h' =>
      apply absurd _ h'.name_new
      rw [hname]
      exact rootsOf.name_local package hmem
  | remote h =>
    cases h' with
    | root other hother hname' _ =>
      apply absurd _ h.name_new
      rw [hname']
      exact rootsOf.name_local other hother
    | remote h' =>
      obtain ⟨info, hknown, hname, hbase⟩ := h.known
      obtain ⟨other, hknown', hname', hbase'⟩ := h'.known
      have hsame := known_unique rootsOf.captures hknown hknown' (hname.trans hname'.symm)
      rw [← hbase, ← hbase', hsame]

/-- A package of the local base is a root. -/
theorem Origin.root_of_base (rootsOf : RootsOf settings roots base)
    (h : Origin settings roots name base) : ∃ package ∈ roots, name = package.packageName := by
  cases h with
  | root package hmem hname _ => exact ⟨package, hmem, hname⟩
  | remote h => exact absurd rootsOf.base_local h.base_new

/-- A call for a parent outside the base is not one for a root. -/
theorem Origin.base_iff (rootsOf : RootsOf settings roots base) (h : Origin settings roots name own)
    : own = base ↔ ∃ package ∈ roots, name = package.packageName := by
  constructor
  · rintro rfl
    exact h.root_of_base rootsOf
  · rintro ⟨package, hmem, hname⟩
    exact h.unique rootsOf (.root package hmem hname (rootsOf.base_eq package hmem).symm)

end Origins

/-- A text an answer of the local resolver reports. -/
def ReportedBy (decide : DependencyContext → DependencyDecision)
    (context : DependencyContext) (reason : Bytes) : Prop :=
  (decide context).handledLocally = true ∧ (decide context).unresolvedReason = some reason ∧
    trim reason = reason ∧ reason ≠ []

/-- An edge that was recorded for a call the local resolver left. -/
def RecordedFor (decide : DependencyContext → DependencyDecision)
    (calls : List DependencyContext) (edge : BuildPlanDependencyEdge) : Prop :=
  ∃ context ∈ calls, (decide context).handledLocally = false ∧
    edge.parentPackageName = context.parentPackageName ∧
    edge.parentPackageBase = context.parentPackageBase ∧
    ∃ declaration ∈ context.declarations,
      edge.dependencySpec = declaration.specification ∧ edge.role = declaration.role ∧
        edge.requirement = declaration.requirement

structure Attributed (settings : ResolverSettings) (roots : List RootPackage)
    (decide : DependencyContext → DependencyDecision) (plan : BuildPlan)
    (calls : List DependencyContext) : Prop where
  targets : ∀ target ∈ plan.packageTargets,
    Origin settings roots target.packageName target.packageBase
  edges : ∀ edge ∈ plan.dependencyEdges, edge.kind ≠ .local ∧ RecordedFor decide calls edge
  reported : ∀ context ∈ calls, ∀ {reason : Bytes}, ReportedBy decide context reason →
    reason ∈ plan.unresolved
  calls : ∀ context ∈ calls, Parent settings roots context ∧
    Named plan context.parentPackageName

section Steps

variable {settings : ResolverSettings} {roots : List RootPackage}
  {decide : DependencyContext → DependencyDecision}

theorem addPlannedPackageTarget_origin {plan : BuildPlan} {base : Bytes} {roles : List PackageRole}
    {root : RootTargetIdentity} (hplan : ∀ target ∈ plan.packageTargets,
      Origin settings roots target.packageName target.packageBase)
    (horigin : Origin settings roots name base) :
    ∀ target ∈ (addPlannedPackageTarget plan name base roles root).packageTargets,
      Origin settings roots target.packageName target.packageBase := by
  intro target hmem
  change target ∈ upsert _ _ _ plan.packageTargets at hmem
  rcases mem_upsert hmem with h | rfl | ⟨existing, hexisting, -, rfl⟩
  · exact hplan target h
  · exact horigin
  · exact hplan existing hexisting

theorem RecordedFor.mono {later : List DependencyContext} (h : RecordedFor decide calls edge)
    (hsubset : calls ⊆ later) : RecordedFor decide later edge := by
  obtain ⟨context, hcontext, hfields⟩ := h
  exact ⟨context, hsubset hcontext, hfields⟩

/-- What an answer reports is reported by the plan. -/
theorem answeredState_reported {reason : Bytes} (state : WalkState)
    (h : ReportedBy decide context reason) :
    reason ∈ (answeredState decide context state).plan.unresolved := by
  obtain ⟨htaken, hreason, htrimmed, hne⟩ := h
  have hadded : ∀ values : List Bytes, reason ∈ addUniqueValue values reason :=
    fun values => mem_addUniqueValue_of_trimmed values htrimmed hne
  unfold answeredState
  dsimp only
  rw [if_pos htaken]
  show reason ∈ (applyDecision state.plan (decide context)).unresolved
  unfold applyDecision
  rw [hreason]
  cases (decide context).cyclePackageBase with
  | none => exact hadded state.plan.unresolved
  | some base => exact hadded state.plan.unresolved

/-- One step keeps what is known of targets, edges and calls. -/
theorem LocalStep.attributed (hstep : LocalStep settings roots decide before after)
    (h : Attributed settings roots decide before.plan before.localRequests) :
    Attributed settings roots decide after.plan after.localRequests := by
  have hnamed : ∀ context ∈ before.localRequests, Parent settings roots context ∧
      Named after.plan context.parentPackageName := by
    intro context hcontext
    obtain ⟨hparent, hplanned⟩ := h.calls context hcontext
    exact ⟨hparent, hstep.named hplanned⟩
  have hedges : ∀ edge ∈ before.plan.dependencyEdges,
      edge.kind ≠ .local ∧ RecordedFor decide after.localRequests edge := by
    intro edge hedge
    obtain ⟨hkind, hrecorded⟩ := h.edges edge hedge
    exact ⟨hkind, hrecorded.mono hstep.calls⟩
  have hreported : ∀ context ∈ before.localRequests, ∀ {reason : Bytes},
      ReportedBy decide context reason → reason ∈ after.plan.unresolved :=
    fun context hcontext _ hreason => hstep.reports (h.reported context hcontext hreason)
  cases hstep with
  | beside hbeside =>
    constructor
    · rw [hbeside.targets]
      exact h.targets
    · rw [hbeside.edges]
      exact hedges
    · rw [hbeside.calls]
      exact hreported
    · rw [hbeside.calls]
      exact hnamed
  | asked context hparent hplanned =>
    obtain ⟨htargets, hsameEdges, hcalls⟩ := answeredState_frame decide context before
    constructor
    · rw [htargets]
      exact h.targets
    · rw [hsameEdges]
      exact hedges
    · rw [hcalls]
      intro other hother reason hreason
      rcases List.mem_append.mp hother with hother | hother
      · exact hreported other hother hreason
      · rw [List.mem_singleton.mp hother] at hreason
        exact answeredState_reported before hreason
    · rw [hcalls]
      intro other hother
      rcases List.mem_append.mp hother with hother | hother
      · exact hnamed other hother
      · rw [List.mem_singleton.mp hother]
        unfold Named
        rw [htargets]
        exact ⟨hparent, hplanned⟩
  | recorded site edge hasked hleft hkind hname hbase =>
    refine ⟨h.targets, ?_, hreported, hnamed⟩
    intro other hother
    rcases List.mem_append.mp hother with hother | hother
    · exact hedges other hother
    · obtain ⟨declaration, hdeclaration, rfl⟩ := List.mem_map.mp hother
      exact ⟨hkind, siteContext site, hasked, hleft, hname, hbase, declaration,
        hdeclaration, rfl, rfl, rfl⟩
  | entered name base roles root hremote =>
    exact ⟨addPlannedPackageTarget_origin h.targets (.remote hremote), hedges, hreported, hnamed⟩
  | rooted package root hmem =>
    exact ⟨addPlannedPackageTarget_origin h.targets (.root package hmem rfl rfl), hedges,
      hreported, hnamed⟩

theorem Walks.attributed (hwalks : Walks settings roots decide before after)
    (h : Attributed settings roots decide before.plan before.localRequests) :
    Attributed settings roots decide after.plan after.localRequests := by
  induction hwalks with
  | refl => exact h
  | tail _ hstep ih => exact LocalStep.attributed hstep ih

end Steps

/-- The settings of `resolve_once`. -/
def passSettings (env : MetadataEnvironment) (roots : List RootPackage)
    (localPackageBases : List Bytes) (decide : DependencyContext → DependencyDecision)
    (selectProvider : Option ProviderSelectionCallback) : ResolverSettings where
  env := env
  context := { mode := .captureOrdinaryFailures }
  selectProvider := selectProvider
  localPackageBases := localPackageBases
  localPackageNames := (roots.map (·.packageName)).foldl insertNew []
  recordIdentityConflicts := true
  resolveLocalDependency := some fun _ context => .ok (decide context)

theorem mem_passSettings_names {roots : List RootPackage} :
    name ∈ (passSettings env roots bases decide selectProvider).localPackageNames ↔
      ∃ package ∈ roots, package.packageName = name := by
  unfold passSettings
  rw [mem_foldl_insertNew, List.mem_map]
  simp

/-- What is known of the result of a pass. -/
structure PassAttributed (settings : ResolverSettings) (roots : List RootPackage)
    (decide : DependencyContext → DependencyDecision) (result : PassResult) : Prop where
  attributed : Attributed settings roots decide result.plan result.localRequests
  rooted : ∀ package ∈ roots, Named result.plan package.packageName
  asked : ∀ item ∈ roots.zipIdx, ∀ specification ∈ rootSpecifications item.1,
    rootContext item specification ∈ result.localRequests

/-- Names and bases are not changed when a plan is finished. -/
theorem AnnotatedFrom.named {before after : BuildPlan} (h : AnnotatedFrom before after)
    (hnamed : Named before name) : Named after name := by
  obtain ⟨target, hmem, hname⟩ := hnamed
  obtain ⟨kept, hkept, hsame⟩ := forall₂_exists_left h.targets target hmem
  refine ⟨kept, hkept, ?_⟩
  rw [hsame.1]
  exact hname

theorem AnnotatedFrom.attributed {before after : BuildPlan} (hfrom : AnnotatedFrom before after)
    (h : Attributed settings roots decide before calls) :
    Attributed settings roots decide after calls where
  targets := by
    intro target hmem
    obtain ⟨origin, horigin, hsame⟩ := forall₂_exists_right hfrom.targets target hmem
    rw [hsame.1]
    exact h.targets origin horigin
  edges := by
    intro edge hmem
    obtain ⟨origin, horigin, hsame⟩ := forall₂_exists_right hfrom.edges edge hmem
    unfold SameEdge at hsame
    rw [hsame]
    exact h.edges origin horigin
  calls := by
    intro context hcontext
    obtain ⟨hparent, hnamed⟩ := h.calls context hcontext
    exact ⟨hparent, AnnotatedFrom.named hfrom hnamed⟩
  reported := by
    intro context hcontext reason hreason
    rw [hfrom.frame]
    exact h.reported context hcontext hreason

theorem resolveOnce_attributed {result : PassResult}
    (decides : ∀ package ∈ roots, package.dependencies ≠ [] →
      Decides (passSettings env roots bases decide selectProvider) roots decide)
    (h : resolveOnce env roots bases (some fun _ context => .ok (decide context))
      selectProvider = .ok result) :
    PassAttributed (passSettings env roots bases decide selectProvider) roots decide
      result := by
  unfold resolveOnce at h
  simp only [bind_eq_ok] at h
  obtain ⟨_, -, state, hstate, plan, hplan, h⟩ := h
  injection h with h
  obtain ⟨ordered, hordered, hannotated⟩ := finishBuildPlan_spec hplan
  have hframe := orderBuildPlanEntries_frame hordered
  obtain ⟨hwalks, hrooted⟩ := collectRootPackages_walks decides
    (fun item hitem => List.fst_mem_of_mem_zipIdx hitem) hstate
  have hempty : Attributed (passSettings env roots bases decide selectProvider) roots decide
      ({} : WalkState).plan ({} : WalkState).localRequests :=
    ⟨List.forall_mem_nil _, List.forall_mem_nil _, nofun, List.forall_mem_nil _⟩
  have hcollected := Walks.attributed hwalks hempty
  have hranked : Attributed (passSettings env roots bases decide selectProvider) roots decide
      ordered state.localRequests := by
    rw [hframe]
    exact ⟨hcollected.targets, hcollected.edges, hcollected.reported, hcollected.calls⟩
  rw [← h]
  constructor
  · exact AnnotatedFrom.attributed hannotated hranked
  · intro package hmem
    obtain ⟨index, hindex⟩ := List.mem_iff_getElem.mp hmem
    obtain ⟨hlt, hget⟩ := hindex
    apply AnnotatedFrom.named hannotated
    rw [hframe]
    refine (hrooted (package, index) ?_).1
    rw [List.mk_mem_zipIdx_iff_getElem?, ← hget]
    exact List.getElem?_eq_getElem hlt
  · exact fun item hitem => (hrooted item hitem).2

section Parents

variable {settings : ResolverSettings} {roots : List RootPackage} {base : Bytes}
  {decide : DependencyContext → DependencyDecision} {plan : BuildPlan}
  {calls : List DependencyContext}

/-- A planned package has the base its origin gives it. -/
theorem Attributed.planned (rootsOf : RootsOf settings roots base)
    (h : Attributed settings roots decide plan calls) (hnamed : Named plan name)
    (horigin : Origin settings roots name own) :
    ∃ target ∈ plan.packageTargets, target.packageName = name ∧ target.packageBase = own := by
  obtain ⟨target, hmem, hname⟩ := hnamed
  have htarget := h.targets target hmem
  rw [hname] at htarget
  exact ⟨target, hmem, hname, htarget.unique rootsOf horigin⟩

/-- An edge's parent and base are those of a target. -/
theorem Attributed.parent_planned (rootsOf : RootsOf settings roots base)
    (h : Attributed settings roots decide plan calls) (hedge : edge ∈ plan.dependencyEdges) :
    ∃ target ∈ plan.packageTargets, target.packageName = edge.parentPackageName ∧
      target.packageBase = edge.parentPackageBase := by
  obtain ⟨-, context, hcontext, -, hname, hbase, -⟩ := h.edges edge hedge
  obtain ⟨hparent, hnamed⟩ := h.calls context hcontext
  rw [hname, hbase]
  exact h.planned rootsOf hnamed (Parent.origin hparent)

end Parents

end Moguet.Local.Pass
