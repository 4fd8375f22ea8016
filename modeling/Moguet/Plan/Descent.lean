import Moguet.Plan.Resolution

/-!
# The descent through package names

The walk is a depth-first search over package names: `visiting` is the path to
the package being walked and `visited` lists the packages in the order their
walks ended. As long as neither a cycle nor an unresolved dependency is
reported, every AUR edge leads to a package whose walk ended first, and every
package a walk ended for is planned, entered and has an edge for each of its
declarations.
-/

namespace Moguet.Plan.Descent

open Verified.ByteString Verified.Upsert Constraint Metadata Model Discovery Resolver Walk
open Resolution

variable {settings : ResolverSettings}

variable {name later parent : Bytes} {visited : List Bytes}
  {before after first second third state : WalkState} {plan : BuildPlan} {info : AurPackageInfo}
  {roles : List PackageRole} {request : CollectRequest}

/-! ## The two name sets -/

/-- No walk is open twice, and none is open that has ended. -/
structure Balanced (state : WalkState) : Prop where
  visited_nodup : state.visited.Nodup
  visiting_nodup : state.visiting.Nodup
  disjoint : ∀ name ∈ state.visiting, name ∉ state.visited

theorem Balanced.of_eq (h : Balanced before) (hvisited : after.visited = before.visited)
    (hvisiting : after.visiting = before.visiting) : Balanced after := by
  refine ⟨?_, ?_, ?_⟩
  · rw [hvisited]
    exact h.visited_nodup
  · rw [hvisiting]
    exact h.visiting_nodup
  · rw [hvisited, hvisiting]
    exact h.disjoint

/-- A part of a walk ends on the path it began on, and ends walks only. -/
structure Returns (before after : WalkState) : Prop where
  grows : PlanGrows before.plan after.plan
  visiting : after.visiting = before.visiting
  visited : before.visited <+: after.visited
  balanced : Balanced after

theorem Returns.trans (h : Returns first second) (h' : Returns second third) :
    Returns first third where
  grows := h.grows.trans h'.grows
  visiting := h'.visiting.trans h.visiting
  visited := h.visited.trans h'.visited
  balanced := h'.balanced

/-- A change aside of the entered packages. -/
theorem Returns.of_aside (hbefore : Balanced before) (hgrows : PlanGrows before.plan after.plan)
    (h : Aside before after) : Returns before after where
  grows := hgrows
  visiting := h.visiting
  visited := h.visited ▸ List.prefix_refl _
  balanced := hbefore.of_eq h.visited h.visiting

theorem Returns.withPlan (hbefore : Balanced before) (hgrows : PlanGrows before.plan plan) :
    Returns before (before.withPlan plan) where
  grows := hgrows
  visiting := rfl
  visited := List.prefix_refl _
  balanced := hbefore.of_eq rfl rfl

theorem openPackage_visiting (h : info.name ∉ state.visiting) :
    (openPackage info state).visiting = state.visiting ++ [info.name] := by
  show insertNew state.visiting info.name = _
  unfold insertNew
  rw [if_neg h]

theorem Balanced.openPackage (h : Balanced state) (hvisited : info.name ∉ state.visited)
    (hvisiting : info.name ∉ state.visiting) : Balanced (Resolver.openPackage info state) where
  visited_nodup := h.visited_nodup
  visiting_nodup := nodup_insertNew h.visiting_nodup
  disjoint := by
    intro name hname
    rcases mem_insertNew.mp hname with hname | rfl
    · exact h.disjoint name hname
    · exact hvisited

theorem closePackage_visited (h : info.name ∉ state.visited) :
    (closePackage info state).visited = state.visited ++ [info.name] := by
  show insertNew state.visited info.name = _
  unfold insertNew
  rw [if_neg h]

/-- Walking a package leaves the path as it was and ends one more walk. -/
theorem Returns.walk (hvisiting : info.name ∉ before.visiting) (hgrows : PlanGrows before.plan plan)
    (hwalk : Returns (openPackage info (before.withPlan plan)) after) :
    Returns before (closePackage info after) := by
  have hopened : after.visiting = before.visiting ++ [info.name] :=
    hwalk.visiting.trans (openPackage_visiting hvisiting)
  have hclosed : (closePackage info after).visiting = before.visiting := by
    show after.visiting.filter (· ≠ info.name) = before.visiting
    rw [hopened, List.filter_append, List.filter_cons_of_neg (by simp),
      List.filter_nil, List.append_nil, List.filter_eq_self]
    intro name hname
    have hne : name ≠ info.name := fun heq => hvisiting (heq ▸ hname)
    simpa using hne
  have hin : info.name ∈ after.visiting := by
    rw [hopened]
    simp
  have hfresh : info.name ∉ after.visited := hwalk.balanced.disjoint _ hin
  refine {
    grows := (hgrows.trans hwalk.grows).trans (PlanGrows.closePackage info after)
    visiting := hclosed
    visited := ?_
    balanced := ⟨?_, ?_, ?_⟩ }
  · rw [closePackage_visited hfresh]
    exact hwalk.visited.trans (List.prefix_append _ _)
  · exact nodup_insertNew hwalk.balanced.visited_nodup
  · rw [hclosed]
    have hnodup := hwalk.balanced.visiting_nodup
    rw [hopened] at hnodup
    exact hnodup.of_append_left
  · rw [hclosed, closePackage_visited hfresh]
    intro name hname hmem
    rcases List.mem_append.mp hmem with hmem | hmem
    · refine hwalk.balanced.disjoint name ?_ hmem
      rw [hopened]
      exact List.mem_append.mpr (Or.inl hname)
    · rw [List.mem_singleton.mp hmem] at hname
      exact hvisiting hname

/-! ## What a finished walk has established -/

/-- The walk of the one name ended before that of the other. -/
def Precedes (visited : List Bytes) (name later : Bytes) : Prop :=
  ∃ earlier, earlier ++ [later] <+: visited ∧ name ∈ earlier

theorem Precedes.grow {before after : List Bytes} (h : Precedes before name later)
    (hgrows : before <+: after) : Precedes after name later := by
  obtain ⟨earlier, hprefix, hmem⟩ := h
  exact ⟨earlier, hprefix.trans hgrows, hmem⟩

theorem Precedes.mem (h : Precedes visited name later) : name ∈ visited := by
  obtain ⟨earlier, hprefix, hmem⟩ := h
  exact hprefix.subset (List.mem_append.mpr (Or.inl hmem))

/-- In a list without repetitions the order is that of the positions. -/
theorem Precedes.idxOf_lt (h : Precedes visited name later) (hnodup : visited.Nodup) :
    visited.idxOf name < visited.idxOf later := by
  obtain ⟨earlier, ⟨rest, rfl⟩, hmem⟩ := h
  have hfresh : later ∉ earlier := by
    intro hin
    have hfront := hnodup.of_append_left
    exact List.disjoint_of_nodup_append hfront hin (List.mem_singleton.mpr rfl)
  rw [List.append_assoc, List.idxOf_append_of_mem hmem, List.idxOf_append_of_notMem hfresh]
  have hlt := List.idxOf_lt_length_of_mem hmem
  omega

/-- A package whose walk ended: the record it was walked by, its target, its
entry and the edges of its declarations. -/
structure Walked (settings : ResolverSettings) (plan : BuildPlan) (name : Bytes)
    (info : AurPackageInfo) : Prop where
  known : Known settings info
  name_eq : info.name = name
  declared : Declared info plan
  target : ∃ target ∈ plan.packageTargets, target.packageName = name
  entry : ∃ entry ∈ plan.order, entry.packageBase = info.packageBase ∧
    name ∈ entry.packageNames

theorem Walked.grow {before after : BuildPlan} (h : Walked settings before name info)
    (hgrows : PlanGrows before after) : Walked settings after name info where
  known := h.known
  name_eq := h.name_eq
  declared := by
    obtain ⟨typed, htyped, hdeclared⟩ := h.declared
    refine ⟨typed, htyped, ?_⟩
    intro declaration hdeclaration
    obtain ⟨edge, hedge, hfields⟩ := hdeclared declaration hdeclaration
    exact ⟨edge, hgrows.edges.subset hedge, hfields⟩
  target := by
    obtain ⟨target, htarget, hname⟩ := h.target
    obtain ⟨kept, hkept, hkeptName, -⟩ := hgrows.targets target htarget
    exact ⟨kept, hkept, hkeptName.trans hname⟩
  entry := by
    obtain ⟨entry, hentry, hbase, hname⟩ := h.entry
    obtain ⟨kept, hkept, hkeptBase, hnames⟩ := hgrows.entries entry hentry
    exact ⟨kept, hkept, hkeptBase.trans hbase, hnames hname⟩

/-- Nothing is reported that keeps a plan from being built. -/
structure Calm (plan : BuildPlan) : Prop where
  unresolved : plan.unresolved = []
  cycles : plan.cycles = []

theorem Calm.of_grows {before after : BuildPlan} (h : Calm after)
    (hgrows : PlanGrows before after) : Calm before := by
  constructor
  · have hprefix := hgrows.unresolved
    rw [h.unresolved] at hprefix
    exact List.prefix_nil.mp hprefix
  · have hprefix := hgrows.cycles
    rw [h.cycles] at hprefix
    exact List.prefix_nil.mp hprefix

/-- The state of a walk without reports. `pending` are the edges of open
packages whose dependency is being walked. -/
structure Finished (settings : ResolverSettings) (pending : Bytes → Bytes → Prop)
    (state : WalkState) : Prop where
  ended : ∀ edge ∈ state.plan.dependencyEdges, ∀ name,
    resolvedAurDependencyName edge = some name →
      edge.parentPackageName ∈ state.visited →
      Precedes state.visited name edge.parentPackageName
  opened : ∀ edge ∈ state.plan.dependencyEdges, ∀ name,
    resolvedAurDependencyName edge = some name →
      edge.parentPackageName ∈ state.visiting →
      name ∈ state.visited ∨ pending edge.parentPackageName name
  parents : ∀ edge ∈ state.plan.dependencyEdges,
    edge.parentPackageName ∈ state.visited ∨ edge.parentPackageName ∈ state.visiting
  targets : ∀ target ∈ state.plan.packageTargets,
    target.packageName ∈ state.visited ∨ target.packageName ∈ state.visiting
  walked : ∀ name ∈ state.visited, ∃ info, Walked settings state.plan name info

section Steps

variable {settings : ResolverSettings} {pending : Bytes → Bytes → Prop}

/-- Edges of an open package are added; those that lead to an AUR package are
pending. -/
theorem Finished.addEdges {dependency base : Option Bytes} {pending' : Bytes → Bytes → Prop}
    (h : Finished settings pending before) (hbalanced : Balanced before)
    (hparent : parent ∈ before.visiting) (hgrows : PlanGrows before.plan after.plan)
    (haside : Aside before after) (hadds : AddsEdges parent dependency base before.plan after.plan)
    (hpending : ∀ name later, pending name later → pending' name later)
    (hdependency : ∀ name, dependency = some name → pending' parent name) :
    Finished settings pending' after := by
  obtain ⟨added, hedges, hadded⟩ := hadds
  refine {
    ended := ?_
    opened := ?_
    parents := ?_
    targets := ?_
    walked := ?_ }
  · intro edge hedge name hname hended
    rw [haside.visited] at hended ⊢
    rw [hedges] at hedge
    rcases List.mem_append.mp hedge with hedge | hedge
    · exact h.ended edge hedge name hname hended
    · rw [(hadded edge hedge).1] at hended
      exact absurd hended (hbalanced.disjoint parent hparent)
  · intro edge hedge name hname hopen
    rw [haside.visiting] at hopen
    rw [haside.visited]
    rw [hedges] at hedge
    rcases List.mem_append.mp hedge with hedge | hedge
    · rcases h.opened edge hedge name hname hopen with hended | hpend
      · exact Or.inl hended
      · exact Or.inr (hpending _ _ hpend)
    · obtain ⟨hedgeParent, hedgeName, -⟩ := hadded edge hedge
      rw [hedgeParent]
      exact Or.inr (hdependency name (hedgeName.symm.trans hname))
  · intro edge hedge
    rw [haside.visited, haside.visiting]
    rw [hedges] at hedge
    rcases List.mem_append.mp hedge with hedge | hedge
    · exact h.parents edge hedge
    · rw [(hadded edge hedge).1]
      exact Or.inr hparent
  · rw [haside.targets, haside.visited, haside.visiting]
    exact h.targets
  · intro name hname
    rw [haside.visited] at hname
    obtain ⟨info, hinfo⟩ := h.walked name hname
    exact ⟨info, hinfo.grow hgrows⟩

/-- A dependency is no longer pending once its walk ended. -/
theorem Finished.settle {dependency : Bytes} (h : Finished settings
      (fun name later => pending name later ∨ name = parent ∧ later = dependency) state)
    (hdependency : dependency ∈ state.visited) : Finished settings pending state where
  ended := h.ended
  opened := by
    intro edge hedge name hname hopen
    rcases h.opened edge hedge name hname hopen with hended | hpend | ⟨-, rfl⟩
    · exact Or.inl hended
    · exact Or.inr hpend
    · exact Or.inl hdependency
  parents := h.parents
  targets := h.targets
  walked := h.walked

/-- The targets of a plan a package was recorded in. -/
theorem recordPackage_targets {root : RootTargetIdentity} {after : BuildPlan}
    (h : recordPackage info roles root plan = .ok after) :
    ∀ target ∈ after.packageTargets, target.packageName = info.name ∨
      ∃ kept ∈ plan.packageTargets, kept.packageName = target.packageName := by
  rw [recordPackage_ok h]
  intro target hmem
  rcases mem_upsert hmem with hmem | rfl | ⟨existing, hexisting, -, rfl⟩
  · exact Or.inr ⟨target, hmem, rfl⟩
  · exact Or.inl rfl
  · exact Or.inr ⟨existing, hexisting, rfl⟩

theorem recordPackage_edges_eq {root : RootTargetIdentity} {after : BuildPlan}
    (h : recordPackage info roles root plan = .ok after) :
    after.dependencyEdges = plan.dependencyEdges := by
  rw [recordPackage_ok h]
  rfl

/-- A package is recorded in a state where it is open or its walk ended. -/
theorem Finished.record {root : RootTargetIdentity} (h : Finished settings pending before)
    (hplan : recordPackage info roles root before.plan = .ok after.plan)
    (hvisited : after.visited = before.visited) (hvisiting : ∀ name, name ∈ after.visiting →
      name ∈ before.visiting ∨ name = info.name ∧ info.name ∉ before.visited ∧
        info.name ∉ before.visiting) (hkept : before.visiting ⊆ after.visiting)
    (hname : info.name ∈ after.visited ∨ info.name ∈ after.visiting) :
    Finished settings pending after := by
  have hedges := recordPackage_edges_eq hplan
  refine {
    ended := ?_
    opened := ?_
    parents := ?_
    targets := ?_
    walked := ?_ }
  · rw [hedges, hvisited]
    exact h.ended
  · rw [hedges, hvisited]
    intro edge hedge name hdependency hopen
    rcases hvisiting _ hopen with hopen | ⟨hown, hnew, hnew'⟩
    · exact h.opened edge hedge name hdependency hopen
    · -- A package that was not met before has no edges yet.
      rcases h.parents edge hedge with hparent | hparent
      · exact absurd (hown ▸ hparent) hnew
      · exact absurd (hown ▸ hparent) hnew'
  · rw [hedges, hvisited]
    intro edge hedge
    rcases h.parents edge hedge with hparent | hparent
    · exact Or.inl hparent
    · exact Or.inr (hkept hparent)
  · intro target htarget
    rcases recordPackage_targets hplan target htarget with hown | ⟨kept, hmem, hsame⟩
    · rw [hown]
      exact hname
    · rw [← hsame, hvisited]
      rcases h.targets kept hmem with hended | hopen
      · exact Or.inl hended
      · exact Or.inr (hkept hopen)
  · rw [hvisited]
    intro name hended
    obtain ⟨walked, hwalked⟩ := h.walked name hended
    exact ⟨walked, hwalked.grow (PlanGrows.recordPackage hplan)⟩

/-- The walk of a package ends: its edges lead to packages that are done. -/
theorem Finished.close (h : Finished settings pending state) (hopen : info.name ∈ state.visiting)
    (hbalanced : Balanced state) (hpending : ∀ name, ¬ pending info.name name)
    (hwalked : Walked settings state.plan info.name info) :
    Finished settings pending (closePackage info state) := by
  have hfresh : info.name ∉ state.visited := hbalanced.disjoint _ hopen
  have hvisited := closePackage_visited hfresh
  have hedges := closePackage_edges_eq info state
  have htargets := closePackage_targets_eq info state
  have hmoved : ∀ {name}, name ∈ state.visited ∨ name ∈ state.visiting →
      name ∈ (closePackage info state).visited ∨ name ∈ (closePackage info state).visiting := by
    intro name hname
    rw [hvisited]
    rcases hname with hname | hname
    · exact Or.inl (List.mem_append.mpr (Or.inl hname))
    · by_cases hown : name = info.name
      · rw [hown]
        exact Or.inl (List.mem_append.mpr (Or.inr (List.mem_singleton.mpr rfl)))
      · exact Or.inr (List.mem_filter.mpr ⟨hname, by simpa using hown⟩)
  refine {
    ended := ?_
    opened := ?_
    parents := ?_
    targets := ?_
    walked := ?_ }
  · rw [hedges, hvisited]
    intro edge hedge name hname hended
    rcases List.mem_append.mp hended with hended | hended
    · exact (h.ended edge hedge name hname hended).grow (List.prefix_append _ _)
    · have hown : edge.parentPackageName = info.name := List.mem_singleton.mp hended
      rw [hown]
      refine ⟨state.visited, List.prefix_refl _, ?_⟩
      have hopened := h.opened edge hedge name hname (hown ▸ hopen)
      rw [hown] at hopened
      exact hopened.resolve_right (hpending name)
  · rw [hedges, hvisited]
    intro edge hedge name hname hstill
    have hstill : edge.parentPackageName ∈ state.visiting :=
      (List.mem_filter.mp hstill).1
    rcases h.opened edge hedge name hname hstill with hended | hpend
    · exact Or.inl (List.mem_append.mpr (Or.inl hended))
    · exact Or.inr hpend
  · rw [hedges]
    exact fun edge hedge => hmoved (h.parents edge hedge)
  · rw [htargets]
    exact fun target htarget => hmoved (h.targets target htarget)
  · rw [hvisited]
    intro name hended
    have hgrows := PlanGrows.closePackage info state
    rcases List.mem_append.mp hended with hended | hended
    · obtain ⟨other, hother⟩ := h.walked name hended
      exact ⟨other, hother.grow hgrows⟩
    · rw [List.mem_singleton.mp hended]
      exact ⟨info, hwalked.grow hgrows⟩

end Steps

/-! ## The walk -/

/-- A walk with nothing local in it: every AUR package is descended into. -/
structure Remote (settings : ResolverSettings) : Prop where
  traverse : settings.traverseAurProviders = true
  bases : settings.localPackageBases = []
  decisions : settings.resolveLocalDependency = none

/-- The package is planned in the roles and under the root it was asked for. -/
def Attributed (plan : BuildPlan) (request : CollectRequest) : Prop :=
  ∃ target ∈ plan.packageTargets, target.packageName = request.packageName ∧
    request.roles ⊆ target.roles ∧ request.root ∈ target.roots

theorem Attributed.grow {before after : BuildPlan} (h : Attributed before request)
    (hgrows : PlanGrows before after) : Attributed after request := by
  obtain ⟨target, htarget, hname, hroles, hroot⟩ := h
  obtain ⟨kept, hkept, hkeptName, -, hkeptRoots, hkeptRoles⟩ := hgrows.targets target htarget
  exact ⟨kept, hkept, hkeptName.trans hname, List.Subset.trans hroles hkeptRoles, hkeptRoots hroot⟩

theorem attributed_of_enters (h : Enters settings request before info plan) :
    Attributed plan request := by
  have hrecorded := h.recorded
  rw [recordPackage_ok hrecorded]
  show ∃ target ∈ upsert _ _ _ before.plan.packageTargets, _
  rcases exists_mem_upsert before.plan.packageTargets with hfresh | ⟨target, -, hname, hkept⟩
  · refine ⟨_, hfresh, h.name, ?_, ?_⟩
    · exact fun role hrole => mem_foldl_addPackageRole.mpr (Or.inr hrole)
    · show request.root ∈ addRootIdentity [] request.root
      exact mem_addRootIdentity.mpr (Or.inr rfl)
  · refine ⟨_, hkept, ?_, ?_, ?_⟩
    · have hname : target.packageName = info.name := by simpa using hname
      exact hname.trans h.name
    · exact fun role hrole => mem_foldl_addPackageRole.mpr (Or.inr hrole)
    · exact mem_addRootIdentity.mpr (Or.inr rfl)

/-- The pending edges are edges of open packages. -/
def PendingOpen (pending : Bytes → Bytes → Prop) (state : WalkState) : Prop :=
  ∀ name later, pending name later → name ∈ state.visiting

/-- A part of the walk over the dependencies of the parent. -/
def Descends (settings : ResolverSettings) (parent : Bytes)
    (before after : WalkState) : Prop :=
  Balanced before → Returns before after ∧
    (parent ∈ before.visiting → ∀ pending, PendingOpen pending before →
      Calm after.plan → Finished settings pending before →
      Finished settings pending after)

/-- One collected package: its walk has ended. -/
def Ends (settings : ResolverSettings) (request : CollectRequest)
    (before after : WalkState) : Prop :=
  Balanced before → Returns before after ∧
    ∀ pending, PendingOpen pending before → Calm after.plan →
      Finished settings pending before →
      Finished settings pending after ∧ request.packageName ∈ after.visited ∧
        Attributed after.plan request

section Rule

variable {settings : ResolverSettings}

theorem not_calm_addUnresolved {value : Bytes} (h : trim value ≠ []) :
    ¬ Calm (addUnresolved plan value) :=
  fun hcalm => addUniqueValue_ne_nil h hcalm.unresolved

theorem not_calm_addCycle (plan : BuildPlan) (info : AurPackageInfo) :
    ¬ Calm (addCycle plan info.packageBase) := by
  intro hcalm
  refine addUniqueValue_ne_nil ?_ hcalm.cycles
  rw [trim_of_isValidPackageName info.packageBase_valid]
  exact isValidPackageName_ne_nil info.packageBase_valid

/-- A package the walk cannot enter is reported. -/
theorem not_calm_of_stops (hrequest : RequestAt settings before.plan request)
    (h : Stops request before after) : ¬ Calm after.plan := by
  cases h with
  | unresolved value hvalue => exact not_calm_addUnresolved hvalue
  | failed context kind diagnostic =>
    refine not_calm_addUnresolved ?_
    rw [trim_of_isValidPackageName hrequest.name_valid]
    exact isValidPackageName_ne_nil hrequest.name_valid

theorem Descends.trans (h : Descends settings parent first second)
    (h' : Descends settings parent second third) : Descends settings parent first third := by
  intro hbalanced
  obtain ⟨hreturns, hfinished⟩ := h hbalanced
  obtain ⟨hreturns', hfinished'⟩ := h' hreturns.balanced
  refine ⟨hreturns.trans hreturns', ?_⟩
  intro hparent pending hpending hcalm hbefore
  have hmiddle := hfinished hparent pending hpending (hcalm.of_grows hreturns'.grows) hbefore
  refine hfinished' (hreturns.visiting ▸ hparent) pending ?_ hcalm hmiddle
  intro name later hpend
  rw [hreturns.visiting]
  exact hpending name later hpend

theorem descends_quiet (h : Quiet settings parent before after) :
    Descends settings parent before after := by
  intro hbalanced
  refine ⟨Returns.of_aside hbalanced h.grows h.aside, ?_⟩
  intro hparent pending _ _ hbefore
  exact hbefore.addEdges hbalanced hparent h.grows h.aside h.addsEdges
    (fun _ _ hpend => hpend) (fun name hname => by cases hname)

theorem descends_leads {between : WalkState} (h : Leads settings parent before between info request)
    (hends : Ends settings request between after) : Descends settings parent before after := by
  intro hbalanced
  have hreturns := Returns.of_aside hbalanced h.grows h.aside
  obtain ⟨hreturns', hfinished⟩ := hends hreturns.balanced
  refine ⟨hreturns.trans hreturns', ?_⟩
  intro hparent pending hpending hcalm hbefore
  -- While the dependency is walked, the new edges of the parent are pending.
  let pending' (name later : Bytes) : Prop :=
    pending name later ∨ name = parent ∧ later = request.packageName
  have hbetween : Finished settings pending' between :=
    hbefore.addEdges hbalanced hparent h.grows h.aside h.addsEdges (fun _ _ hpend => Or.inl hpend)
      (fun name hname => Or.inr ⟨rfl, by injection hname with hname; exact hname.symm⟩)
  have hopen : PendingOpen pending' between := by
    intro name later hpend
    rw [h.aside.visiting]
    rcases hpend with hpend | ⟨rfl, -⟩
    · exact hpending name later hpend
    · exact hparent
  obtain ⟨hafter, hvisited, -⟩ := hfinished pending' hopen hcalm hbetween
  exact hafter.settle hvisited

theorem ends_revisit (h : Enters settings request before info plan)
    (hvisited : info.name ∈ before.visited) :
    Ends settings request before (before.withPlan plan) := by
  intro hbalanced
  refine ⟨Returns.withPlan hbalanced (PlanGrows.recordPackage h.recorded), ?_⟩
  intro pending _ _ hbefore
  refine ⟨?_, h.name ▸ hvisited, attributed_of_enters h⟩
  exact hbefore.record h.recorded rfl (fun _ hname => Or.inl hname)
    (List.Subset.refl _) (Or.inl hvisited)

theorem ends_walk (hremote : Remote settings) (h : Enters settings request before info plan)
    (hvisited : info.name ∉ before.visited) (hvisiting : info.name ∉ before.visiting)
    (hwalk : Descends settings info.name (openPackage info (before.withPlan plan)) after)
    (hdeclared : settings.resolveLocalDependency = none → Declared info after.plan) :
    Ends settings request before (closePackage info after) := by
  intro hbalanced
  have hgrows := PlanGrows.recordPackage h.recorded
  have hopened : Balanced (openPackage info (before.withPlan plan)) :=
    Balanced.openPackage (hbalanced.of_eq rfl rfl) hvisited hvisiting
  obtain ⟨hreturns, hfinished⟩ := hwalk hopened
  have hvisitingEq : (openPackage info (before.withPlan plan)).visiting =
      before.visiting ++ [info.name] := openPackage_visiting hvisiting
  have hin : info.name ∈ (openPackage info (before.withPlan plan)).visiting := by
    rw [hvisitingEq]
    simp
  refine ⟨hreturns.walk hvisiting hgrows, ?_⟩
  intro pending hpending hcalm hbefore
  have hstart : Finished settings pending (openPackage info (before.withPlan plan)) := by
    refine hbefore.record h.recorded rfl ?_ ?_ (Or.inr hin)
    · intro name hname
      rw [hvisitingEq] at hname
      rcases List.mem_append.mp hname with hname | hname
      · exact Or.inl hname
      · exact Or.inr ⟨List.mem_singleton.mp hname, hvisited, hvisiting⟩
    · rw [hvisitingEq]
      exact List.subset_append_left _ _
  have hopen : PendingOpen pending (openPackage info (before.withPlan plan)) := by
    intro name later hpend
    rw [hvisitingEq]
    exact List.mem_append.mpr (Or.inl (hpending name later hpend))
  have hafter := hfinished hin pending hopen
    (hcalm.of_grows (PlanGrows.closePackage info after)) hstart
  have hstill : info.name ∈ after.visiting := by
    rw [hreturns.visiting]
    exact hin
  obtain ⟨⟨target, htarget, htargetName, -⟩, hentry⟩ := recordPackage_planned h.recorded
  have hentered : Walked settings after.plan info.name info := {
    known := h.known
    name_eq := rfl
    declared := hdeclared hremote.decisions
    target := by
      obtain ⟨kept, hkept, hname, -⟩ := hreturns.grows.targets target htarget
      exact ⟨kept, hkept, hname.trans htargetName⟩
    entry := by
      obtain ⟨entry, hmem, hbase, hname⟩ := hentry
      obtain ⟨kept, hkept, hkeptBase, hnames⟩ := hreturns.grows.entries entry hmem
      exact ⟨kept, hkept, hkeptBase.trans hbase, hnames hname⟩ }
  refine ⟨hafter.close hstill hreturns.balanced ?_ hentered, ?_,
    ((attributed_of_enters h).grow hreturns.grows).grow (PlanGrows.closePackage info after)⟩
  · intro name hpend
    exact hvisiting (hpending info.name name hpend)
  · rw [closePackage_visited (hreturns.balanced.disjoint _ hstill), ← h.name]
    simp

/-- The descent obeys the rules of the walk. -/
theorem descentRule (hremote : Remote settings) :
    WalkRule settings (Descends settings) (Ends settings) where
  refl := by
    intro parent state hbalanced
    refine ⟨⟨PlanGrows.refl _, rfl, List.prefix_refl _, hbalanced⟩, ?_⟩
    exact fun _ _ _ _ h => h
  trans := Descends.trans
  quiet := descends_quiet
  leads := fun hleads _ hends => descends_leads hleads hends
  turns := fun hlocal _ => absurd hremote.bases hlocal
  untraversed := by
    intro parent before after info request htraverse
    rw [hremote.traverse] at htraverse
    cases htraverse
  stops := by
    intro request before after hrequest hstops hbalanced
    refine ⟨Returns.of_aside hbalanced hstops.grows hstops.aside, ?_⟩
    intro pending _ hcalm
    exact absurd hcalm (not_calm_of_stops hrequest hstops)
  revisits := ends_revisit
  closes := by
    intro request before info plan henters _ _ hbalanced
    refine ⟨Returns.withPlan hbalanced ((PlanGrows.recordPackage henters.recorded).trans
      (PlanGrows.addCycle _ _)), ?_⟩
    intro pending _ hcalm
    exact absurd hcalm (not_calm_addCycle plan info)
  walks := ends_walk hremote

end Rule

/-! ## All roots of a pass -/

/-- A whole collection: nothing is open any more. -/
structure Collection (settings : ResolverSettings) (state : WalkState) : Prop where
  balanced : Balanced state
  visiting : state.visiting = []
  finished : Calm state.plan → Finished settings (fun _ _ => False) state
  roots : Calm state.plan → ∀ root ∈ state.plan.rootTargets,
    root.requestedName ∈ state.visited ∧ Attributed state.plan (rootRequest root)

theorem Collection.root {settings : ResolverSettings} {state after : WalkState}
    (root : RootTargetIdentity) (h : Collection settings state)
    (hends : Ends settings (rootRequest root) (enterRoot state root) after)
    (hgrows : PlanGrows (enterRoot state root).plan after.plan) :
    Collection settings after := by
  have hentered : Balanced (enterRoot state root) := h.balanced.of_eq rfl rfl
  obtain ⟨hreturns, hfinished⟩ := hends hentered
  have hroots : after.plan.rootTargets = state.plan.rootTargets ++ [root] :=
    hgrows.rootTargets
  have hstart : Calm after.plan → Finished settings (fun _ _ => False) (enterRoot state root) := by
    intro hcalm
    have hbefore := hcalm.of_grows hgrows
    have hstate := h.finished ⟨hbefore.unresolved, hbefore.cycles⟩
    refine ⟨hstate.ended, hstate.opened, hstate.parents, hstate.targets, ?_⟩
    intro name hname
    obtain ⟨info, hinfo⟩ := hstate.walked name hname
    exact ⟨info, ⟨hinfo.known, hinfo.name_eq, hinfo.declared, hinfo.target, hinfo.entry⟩⟩
  have hnone : PendingOpen (fun _ _ => False) (enterRoot state root) :=
    fun _ _ hpend => hpend.elim
  refine {
    balanced := hreturns.balanced
    visiting := hreturns.visiting.trans h.visiting
    finished := fun hcalm => (hfinished _ hnone hcalm (hstart hcalm)).1
    roots := ?_ }
  intro hcalm other hother
  rw [hroots] at hother
  rcases List.mem_append.mp hother with hother | hother
  · have hbefore := hcalm.of_grows hgrows
    obtain ⟨hvisited, hattributed⟩ :=
      h.roots ⟨hbefore.unresolved, hbefore.cycles⟩ other hother
    have hentered : Attributed (enterRoot state root).plan (rootRequest other) :=
      hattributed
    exact ⟨hreturns.visited.subset hvisited, hentered.grow hgrows⟩
  · rw [List.mem_singleton.mp hother]
    exact (hfinished _ hnone hcalm (hstart hcalm)).2

/-- **A collection without reports**: the walks ended in an order in which
every AUR edge leads back to an earlier one, from every root and for every
planned package. -/
theorem collectRoots_collection (hremote : Remote settings) {targets : List Bytes}
    (hvalid : ∀ target ∈ targets, isValidPackageName target = true)
    (h : collectRoots settings targets = .ok after) : Collection settings after := by
  refine collectRoots_rule (descentRule hremote) ?_
    (fun root hstate hends hgrows => hstate.root root hends hgrows) hvalid h
  · refine ⟨⟨List.nodup_nil, List.nodup_nil, by simp⟩, rfl, ?_, by simp⟩
    exact fun _ => ⟨by simp, by simp, by simp, by simp, by simp⟩

end Moguet.Plan.Descent
