import Moguet.Plan.Closure

/-!
# Cycle reports are exact

Cycles are looked for twice: by package name, on the path of the walk, and by
package base, when the entries are ordered. Edges between packages of one base
matter only to the first, edges to packages that were walked before only to
the second.

Without a report of either kind both graphs are acyclic: names by the order in
which their walks ended, bases by their place in the plan. The other way
round, each report is made where a path of edges closes.
-/

namespace Moguet.Plan.CycleDetection

open Verified ByteString Checked Upsert CyclePath Constraint Metadata Model Discovery Resolver Walk
open Order Resolution Descent Closure

variable {base : Option Bytes} {plan : BuildPlan}

variable {before after : WalkState} {name dependency parent : Bytes} {roles : List PackageRole}
  {pending : Bytes → Prop} {info : AurPackageInfo} {root : RootTargetIdentity}
  {request : CollectRequest}

/-! ## The two graphs of a plan -/

/-- The first package has a resolved AUR edge to the second. -/
def NameEdge (plan : BuildPlan) (name dependency : Bytes) : Prop :=
  ∃ edge ∈ plan.dependencyEdges, edge.parentPackageName = name ∧
    resolvedAurDependencyName edge = some dependency

/-- The first base has a resolved AUR edge to the second, another one. -/
def BaseEdge (plan : BuildPlan) (base dependency : Bytes) : Prop :=
  ∃ edge ∈ plan.dependencyEdges, edge.parentPackageBase = base ∧
    resolvedAurDependencyPackageBase plan edge = some dependency ∧ dependency ≠ base

theorem NameEdge.grow {before after : BuildPlan} (h : NameEdge before name dependency)
    (hedges : before.dependencyEdges <+: after.dependencyEdges) :
    NameEdge after name dependency := by
  obtain ⟨edge, hedge, hfields⟩ := h
  exact ⟨edge, hedges.subset hedge, hfields⟩

/-! ## Every edge ends at an entry -/

/-- The base has an entry. -/
def Entered (plan : BuildPlan) (base : Bytes) : Prop :=
  ∃ entry ∈ plan.order, entry.packageBase = base

theorem Entered.grow {before after : BuildPlan} {base : Bytes}
    (h : Entered before base) (hgrows : PlanGrows before after) : Entered after base := by
  obtain ⟨entry, hentry, hbase⟩ := h
  obtain ⟨kept, hkept, hkeptBase, -⟩ := hgrows.entries entry hentry
  exact ⟨kept, hkept, hkeptBase.trans hbase⟩

/-- Edges start at an entry, and targets have one that names them. -/
structure EntriesCover (plan : BuildPlan) : Prop where
  parents : ∀ edge ∈ plan.dependencyEdges, Entered plan edge.parentPackageBase
  targets : ∀ target ∈ plan.packageTargets, ∃ entry ∈ plan.order,
    entry.packageBase = target.packageBase ∧ target.packageName ∈ entry.packageNames

/-- A change that adds edges of entered packages, and no target. -/
theorem EntriesCover.addEdges {dependency : Option Bytes} (h : EntriesCover before.plan)
    (haside : Aside before after) (hadds : AddsEdges parent dependency base before.plan after.plan)
    : EntriesCover after.plan := by
  obtain ⟨added, hedges, hadded⟩ := hadds
  constructor
  · intro edge hedge
    unfold Entered
    rw [haside.order]
    rw [hedges] at hedge
    rcases List.mem_append.mp hedge with hedge | hedge
    · exact h.parents edge hedge
    · obtain ⟨-, -, -, entry, hentry, hbase, -⟩ := hadded edge hedge
      exact ⟨entry, hentry, hbase⟩
  · rw [haside.targets, haside.order]
    exact h.targets

theorem EntriesCover.of_eq {before after : BuildPlan} (h : EntriesCover before)
    (hedges : after.dependencyEdges = before.dependencyEdges)
    (htargets : after.packageTargets = before.packageTargets)
    (horder : after.order = before.order) : EntriesCover after := by
  constructor
  · unfold Entered
    rw [hedges, horder]
    exact h.parents
  · rw [htargets, horder]
    exact h.targets

theorem EntriesCover.record {after : BuildPlan} (h : EntriesCover plan)
    (hrecord : recordPackage info roles root plan = .ok after) : EntriesCover after := by
  have hgrows := PlanGrows.recordPackage hrecord
  constructor
  · rw [recordPackage_edges_eq hrecord]
    exact fun edge hedge => (h.parents edge hedge).grow hgrows
  · have hkept : ∀ target ∈ plan.packageTargets, ∃ entry ∈ after.order,
        entry.packageBase = target.packageBase ∧ target.packageName ∈ entry.packageNames := by
      intro target htarget
      obtain ⟨entry, hentry, hbase, hname⟩ := h.targets target htarget
      obtain ⟨kept, hkept, hkeptBase, hnames⟩ := hgrows.entries entry hentry
      exact ⟨kept, hkept, hkeptBase.trans hbase, hnames hname⟩
    have hown := (recordPackage_planned hrecord).2
    intro target htarget
    rw [recordPackage_ok hrecord] at htarget
    rcases mem_upsert htarget with htarget | rfl | ⟨existing, hexisting, -, rfl⟩
    · exact hkept target htarget
    · exact hown
    · exact hkept existing hexisting

theorem keeps_entriesCover (settings : ResolverSettings) :
    Keeps settings fun state => EntriesCover state.plan where
  quiet := fun h hquiet => h.addEdges hquiet.aside hquiet.addsEdges
  leads := fun h hleads => h.addEdges hleads.aside hleads.addsEdges
  stops := by
    intro request before after h _ hstops
    refine h.of_eq ?_ hstops.aside.targets hstops.aside.order
    cases hstops with
    | unresolved value => rfl
    | failed context kind diagnostic =>
      show (addResolutionFailure context kind request.packageName diagnostic
        before.plan).dependencyEdges = _
      rw [addResolutionFailure_frame context kind request.packageName diagnostic before.plan]
  enters := fun h henters => h.record henters.recorded
  cycle := fun h => h.of_eq rfl rfl rfl
  opened := fun h _ _ => h
  closed := by
    intro state info h
    exact h.of_eq (closePackage_edges_eq _ _) (closePackage_targets_eq _ _)
      (closePackage_order_eq _ _)

/-- The bases exact AUR edges lead to have entries, up to those in `pending`. -/
def BasesEntered (pending : Bytes → Prop) (plan : BuildPlan) : Prop :=
  ∀ edge ∈ plan.dependencyEdges, edge.kind = .aur → ∀ base,
    edge.resolvedPackageBase = some base → Entered plan base ∨ pending base

theorem BasesEntered.of_edges_eq {before after : BuildPlan} (h : BasesEntered pending before)
    (hgrows : PlanGrows before after) (hedges : after.dependencyEdges = before.dependencyEdges) :
    BasesEntered pending after := by
  intro edge hedge hkind base hbase
  rw [hedges] at hedge
  rcases h edge hedge hkind base hbase with hentered | hpending
  · exact Or.inl (hentered.grow hgrows)
  · exact Or.inr hpending

/-- Edges that are added: an exact AUR edge among them leads to a pending
base. -/
theorem BasesEntered.addEdges {pending' : Bytes → Prop} {dependency : Option Bytes}
    (h : BasesEntered pending before.plan) (haside : Aside before after)
    (hadds : AddsEdges parent dependency base before.plan after.plan)
    (hpending : ∀ base, pending base → pending' base)
    (hbase : ∀ own, base = some own → pending' own) : BasesEntered pending' after.plan := by
  obtain ⟨added, hedges, hadded⟩ := hadds
  intro edge hedge hkind own hown
  rw [hedges] at hedge
  unfold Entered
  rw [haside.order]
  rcases List.mem_append.mp hedge with hedge | hedge
  · rcases h edge hedge hkind own hown with hentered | hpend
    · exact Or.inl hentered
    · exact Or.inr (hpending own hpend)
  · obtain ⟨-, -, haur, -⟩ := hadded edge hedge
    exact Or.inr (hbase own ((haur hkind).2.symm.trans hown))

section Bases

variable {settings : ResolverSettings}

/-- A part of a walk without reports enters the bases its edges lead to. -/
def EntersBases (_parent : Bytes) (before after : WalkState) : Prop :=
  PlanGrows before.plan after.plan ∧ ∀ pending, Calm after.plan →
    BasesEntered pending before.plan → BasesEntered pending after.plan

/-- A collected package enters the base of the record it was given. -/
def EntersBase (request : CollectRequest) (before after : WalkState) : Prop :=
  PlanGrows before.plan after.plan ∧ ∀ pending, Calm after.plan →
    BasesEntered pending before.plan → BasesEntered pending after.plan ∧
      ∀ info, request.preloadedPackageInfo = some info →
        Entered after.plan info.packageBase

theorem leads_preloaded (h : Leads settings parent before after info request) :
    request.preloadedPackageInfo = some info := by
  cases h with
  | aur => rfl
  | provided => rfl

theorem entersBases_leads {between : WalkState}
    (h : Leads settings parent before between info request)
    (henters : EntersBase request between after) : EntersBases parent before after := by
  refine ⟨h.grows.trans henters.1, ?_⟩
  intro pending hcalm hbefore
  -- The base of the record is pending until the package is collected.
  have hbetween := hbefore.addEdges h.aside h.addsEdges
    (fun base hpend => (Or.inl hpend : pending base ∨ base = info.packageBase))
    (fun own hown => Or.inr (by injection hown with hown; exact hown.symm))
  obtain ⟨hafter, hentered⟩ := henters.2 _ hcalm hbetween
  intro edge hedge hkind base hbase
  rcases hafter edge hedge hkind base hbase with hin | hpend | rfl
  · exact Or.inl hin
  · exact Or.inr hpend
  · exact Or.inl (hentered info (leads_preloaded h))

theorem recordPackage_entered (h : Enters settings request before info plan) :
    ∀ other, request.preloadedPackageInfo = some other → Entered plan other.packageBase := by
  intro other hother
  rw [h.preloaded other hother]
  obtain ⟨entry, hentry, hbase, -⟩ := (recordPackage_planned h.recorded).2
  exact ⟨entry, hentry, hbase⟩

theorem basesRule (hremote : Remote settings) : WalkRule settings EntersBases EntersBase where
  refl := fun parent state => ⟨PlanGrows.refl _, fun _ _ h => h⟩
  trans := by
    intro parent first second third h h'
    refine ⟨h.1.trans h'.1, ?_⟩
    intro pending hcalm hfirst
    exact h'.2 pending hcalm (h.2 pending (hcalm.of_grows h'.1) hfirst)
  quiet := by
    intro parent before after hquiet
    refine ⟨hquiet.grows, ?_⟩
    intro pending _ hbefore
    exact hbefore.addEdges hquiet.aside hquiet.addsEdges (fun _ hpend => hpend) nofun
  leads := fun hleads _ henters => entersBases_leads hleads henters
  turns := fun hlocal _ => absurd hremote.bases hlocal
  untraversed := by
    intro parent before after info request htraverse
    rw [hremote.traverse] at htraverse
    cases htraverse
  stops := by
    intro request before after hrequest hstops
    refine ⟨hstops.grows, ?_⟩
    intro pending hcalm
    exact absurd hcalm (not_calm_of_stops hrequest hstops)
  revisits := by
    intro request before info plan henters _
    have hgrows := PlanGrows.recordPackage henters.recorded
    refine ⟨hgrows, ?_⟩
    intro pending _ hbefore
    exact ⟨hbefore.of_edges_eq hgrows (recordPackage_edges_eq henters.recorded),
      recordPackage_entered henters⟩
  closes := by
    intro request before info plan henters _ _
    refine ⟨(PlanGrows.recordPackage henters.recorded).trans (PlanGrows.addCycle _ _), ?_⟩
    intro pending hcalm
    exact absurd hcalm (not_calm_addCycle plan info)
  walks := by
    intro request before info plan after henters _ _ hwalk _
    have hgrows := PlanGrows.recordPackage henters.recorded
    have hwalked : PlanGrows plan after.plan := hwalk.1
    have hclosed := PlanGrows.closePackage info after
    refine ⟨(hgrows.trans hwalked).trans hclosed, ?_⟩
    intro pending hcalm hbefore
    have hstart : BasesEntered pending plan :=
      hbefore.of_edges_eq hgrows (recordPackage_edges_eq henters.recorded)
    have hend := hwalk.2 pending (hcalm.of_grows hclosed) hstart
    refine ⟨hend.of_edges_eq hclosed (closePackage_edges_eq info after), ?_⟩
    intro other hother
    exact ((recordPackage_entered henters other hother).grow hwalked).grow hclosed

end Bases

/-! ## Reports of the walk -/

/-- A cycle is reported only when the names have one. -/
def ReportsNames (plan : BuildPlan) : Prop :=
  plan.cycles ≠ [] → HasCycle (NameEdge plan)

theorem ReportsNames.grow {before after : BuildPlan} (h : ReportsNames before)
    (hedges : before.dependencyEdges <+: after.dependencyEdges)
    (hcycles : after.cycles = before.cycles) : ReportsNames after := by
  intro hreported
  rw [hcycles] at hreported
  exact (h hreported).mono fun _ _ hedge => hedge.grow hedges

/-- The path of the walk is a path of edges. -/
def OnPath (state : WalkState) : Prop :=
  state.visiting.IsChain (NameEdge state.plan)

theorem OnPath.grow (h : OnPath before) (hvisiting : after.visiting = before.visiting)
    (hedges : before.plan.dependencyEdges <+: after.plan.dependencyEdges) : OnPath after := by
  unfold OnPath
  rw [hvisiting]
  exact h.imp fun _ _ hedge => hedge.grow hedges

/-- A package is collected from the end of the path. -/
def CalledFrom (request : CollectRequest) (state : WalkState) : Prop :=
  ∀ last, state.visiting.getLast? = some last →
    NameEdge state.plan last request.packageName

section Reports

variable {settings : ResolverSettings}

theorem quiet_cycles_eq (hremote : Remote settings) (h : Quiet settings parent before after) :
    after.plan.cycles = before.plan.cycles := by
  cases h with
  | decided decision hlocal => exact absurd hremote.decisions hlocal
  | repository site first consumer candidate plan hresolving hplan =>
    show plan.cycles = before.plan.cycles
    rw [addPlannedRelationObservation_ok hplan]
  | provided =>
    rw [recordProvided_ok ‹recordProvided _ _ _ _ _ _ before = .ok after›]
    rfl
  | retained | locallyAsked | requested | conflicted | unclassified | unresolved
  | ambiguous | installed => rfl

theorem leads_cycles_eq (h : Leads settings parent before after info request) :
    after.plan.cycles = before.plan.cycles := by
  cases h with
  | aur => rfl
  | provided =>
    rw [recordProvided_ok ‹recordProvided _ _ _ _ _ _ before = .ok after›]
    rfl

theorem stops_cycles_eq (h : Stops request before after) :
    after.plan.cycles = before.plan.cycles := by
  cases h with
  | unresolved value => rfl
  | failed context kind diagnostic =>
    show (addResolutionFailure context kind request.packageName diagnostic before.plan).cycles = _
    rw [addResolutionFailure_frame context kind request.packageName diagnostic before.plan]

theorem recordPackage_cycles_eq {after : BuildPlan}
    (h : recordPackage info roles root plan = .ok after) : after.cycles = plan.cycles := by
  rw [recordPackage_ok h]
  rfl

/-- The edge a dependency is collected by. -/
theorem leads_nameEdge (h : Leads settings parent before after info request) :
    NameEdge after.plan parent request.packageName := by
  have hadds := h.addsEdges
  cases h with
  | aur site first consumer _ candidate hresolving hrepository hinfo hcandidate hparent =>
    have hmem : first ∈ site.declarations := List.mem_of_head? hresolving.isFirst
    refine ⟨{ aurEdge settings (site.edge first) consumer candidate with
        dependencySpec := first.specification
        role := first.role
        requirement := first.requirement }, ?_, hparent, ?_⟩
    · exact List.mem_append.mpr (Or.inr (List.mem_map.mpr ⟨first, hmem, rfl⟩))
    · show some candidate.packageName = some consumer.packageName
      rw [(aurCandidate_ok hcandidate).1, (queryAurPackageInfo_some hinfo).1]
  | provided _ site first consumer discovery resolution provider evaluation _
      hresolving hplanned horigin hinfo hname hbase hparent hrecord =>
      have hmem : first ∈ site.declarations := List.mem_of_head? hresolving.isFirst
      rw [recordProvided_ok hrecord]
      refine ⟨{ providedEdge (site.edge first) provider evaluation resolution with
          dependencySpec := first.specification
          role := first.role
          requirement := first.requirement }, ?_, hparent, ?_⟩
      · exact List.mem_append.mpr (Or.inr (List.mem_map.mpr ⟨first, hmem, rfl⟩))
      · simp [resolvedAurDependencyName, providedEdge, providerRequest, horigin]

/-- A part of the walk over the dependencies of the last package of the
path. -/
def ReportsParts (settings : ResolverSettings) (parent : Bytes)
    (before after : WalkState) : Prop :=
  Descends settings parent before after ∧
    (Balanced before → before.visiting.getLast? = some parent → OnPath before →
      ReportsNames before.plan → ReportsNames after.plan)

/-- One collected package. -/
def ReportsPackage (settings : ResolverSettings) (request : CollectRequest)
    (before after : WalkState) : Prop :=
  Ends settings request before after ∧
    (Balanced before → CalledFrom request before → OnPath before →
      ReportsNames before.plan → ReportsNames after.plan)

theorem ReportsParts.trans {first second third : WalkState}
    (h : ReportsParts settings parent first second) (h' : ReportsParts settings parent second third)
    : ReportsParts settings parent first third := by
  refine ⟨h.1.trans h'.1, ?_⟩
  intro hbalanced hlast hpath hfirst
  have hreturns := (h.1 hbalanced).1
  refine h'.2 hreturns.balanced ?_ ?_ (h.2 hbalanced hlast hpath hfirst)
  · rw [hreturns.visiting]
    exact hlast
  · exact hpath.grow hreturns.visiting hreturns.grows.edges

/-- An open package that is met again lies on the path, and the edge it is
met by closes a cycle. -/
theorem reports_close (henters : Enters settings request before info plan)
    (hvisiting : info.name ∈ before.visiting) (hcalled : CalledFrom request before)
    (hpath : OnPath before) : ReportsNames (addCycle plan info.packageBase) := by
  intro _
  have hedges : before.plan.dependencyEdges <+: (addCycle plan info.packageBase).dependencyEdges :=
    ((PlanGrows.recordPackage henters.recorded).trans (PlanGrows.addCycle _ _)).edges
  cases hlast : before.visiting.getLast? with
  | none =>
    rw [List.getLast?_eq_none_iff] at hlast
    rw [hlast] at hvisiting
    cases hvisiting
  | some last =>
    have hback := hcalled last hlast
    rw [← henters.name] at hback
    exact (HasCycle.of_path hpath hvisiting hlast hback).mono fun _ _ hedge => hedge.grow hedges

theorem reports_walk (hremote : Remote settings)
    (henters : Enters settings request before info plan) (hvisited : info.name ∉ before.visited)
    (hvisiting : info.name ∉ before.visiting) (hwalk : ReportsParts settings info.name
      (openPackage info (before.withPlan plan)) after)
    (hdeclared : settings.resolveLocalDependency = none → Declared info after.plan) :
    ReportsPackage settings request before (closePackage info after) := by
  refine ⟨ends_walk hremote henters hvisited hvisiting hwalk.1 hdeclared, ?_⟩
  intro hbalanced hcalled hpath hbefore
  have hedges := (PlanGrows.recordPackage henters.recorded).edges
  have hvisitingEq : (openPackage info (before.withPlan plan)).visiting =
      before.visiting ++ [info.name] := openPackage_visiting hvisiting
  have hopened : OnPath (openPackage info (before.withPlan plan)) := by
    unfold OnPath
    rw [hvisitingEq, List.isChain_append]
    refine ⟨?_, List.isChain_singleton _, ?_⟩
    · exact hpath.imp fun _ _ hedge => hedge.grow hedges
    · intro last hlast next hnext
      simp only [List.head?_cons, Option.mem_some_iff] at hnext
      rw [← hnext, henters.name]
      exact (hcalled last hlast).grow hedges
  have hstart : ReportsNames (openPackage info (before.withPlan plan)).plan :=
    hbefore.grow hedges (recordPackage_cycles_eq henters.recorded)
  have hend := hwalk.2 (Balanced.openPackage (hbalanced.of_eq rfl rfl) hvisited hvisiting)
    (by rw [hvisitingEq]; exact List.getLast?_concat) hopened hstart
  exact hend.grow (PlanGrows.closePackage info after).edges (closePackage_cycles_eq _ _)

theorem reportsRule (hremote : Remote settings) :
    WalkRule settings (ReportsParts settings) (ReportsPackage settings) where
  refl := fun parent state =>
    ⟨(descentRule hremote).refl parent state, fun _ _ _ h => h⟩
  trans := ReportsParts.trans
  quiet := by
    intro parent before after hquiet
    refine ⟨descends_quiet hquiet, ?_⟩
    intro _ _ _ hbefore
    exact hbefore.grow hquiet.grows.edges (quiet_cycles_eq hremote hquiet)
  leads := by
    intro parent before between after info request hleads _ hpackage
    refine ⟨descends_leads hleads hpackage.1, ?_⟩
    intro hbalanced hlast hpath hbefore
    refine hpackage.2 (hbalanced.of_eq hleads.aside.visited hleads.aside.visiting) ?_
      (hpath.grow hleads.aside.visiting hleads.grows.edges)
      (hbefore.grow hleads.grows.edges (leads_cycles_eq hleads))
    intro last hother
    rw [hleads.aside.visiting, hlast] at hother
    injection hother with hother
    rw [← hother]
    exact leads_nameEdge hleads
  turns := fun hlocal _ => absurd hremote.bases hlocal
  untraversed := by
    intro parent before after info request htraverse
    rw [hremote.traverse] at htraverse
    cases htraverse
  stops := by
    intro request before after hrequest hstops
    refine ⟨(descentRule hremote).stops hrequest hstops, ?_⟩
    intro _ _ _ hbefore
    exact hbefore.grow hstops.grows.edges (stops_cycles_eq hstops)
  revisits := by
    intro request before info plan henters hvisited
    refine ⟨ends_revisit henters hvisited, ?_⟩
    intro _ _ _ hbefore
    exact hbefore.grow (PlanGrows.recordPackage henters.recorded).edges
      (recordPackage_cycles_eq henters.recorded)
  closes := by
    intro request before info plan henters hvisited hvisiting
    refine ⟨(descentRule hremote).closes henters hvisited hvisiting, ?_⟩
    intro _ hcalled hpath _
    exact reports_close henters hvisiting hcalled hpath
  walks := reports_walk hremote

end Reports

/-- What a pass knows of its collected edges. -/
structure Explored (state : WalkState) : Prop where
  balanced : Balanced state
  visiting : state.visiting = []
  bases : Calm state.plan → BasesEntered (fun _ => False) state.plan
  reports : ReportsNames state.plan

theorem collectRoots_explored {settings : ResolverSettings} (hremote : Remote settings)
    {targets : List Bytes} (hvalid : ∀ target ∈ targets, isValidPackageName target = true)
    (h : collectRoots settings targets = .ok after) : Explored after := by
  have hbases : Calm after.plan → BasesEntered (fun _ => False) after.plan := by
    refine collectRoots_rule (P := fun state => Calm state.plan →
      BasesEntered (fun _ => False) state.plan) (basesRule hremote) ?_ ?_ hvalid h
    · exact fun _ edge hedge => by cases hedge
    · intro state next root hstate hcollected hgrows hcalm
      have hbefore := hcalm.of_grows hgrows
      exact (hcollected.2 _ hcalm (hstate ⟨hbefore.unresolved, hbefore.cycles⟩)).1
  have hreports : Balanced after ∧ after.visiting = [] ∧ ReportsNames after.plan := by
    refine collectRoots_rule (P := fun state => Balanced state ∧ state.visiting = [] ∧
      ReportsNames state.plan) (reportsRule hremote) ?_ ?_ hvalid h
    · exact ⟨⟨List.nodup_nil, List.nodup_nil, by simp⟩, rfl, fun hnone => absurd rfl hnone⟩
    · rintro state next root ⟨hbalanced, hvisiting, hstate⟩ hcollected hgrows
      have hentered : Balanced (enterRoot state root) := hbalanced.of_eq rfl rfl
      have hnone : (enterRoot state root).visiting = [] := hvisiting
      have hreturns := (hcollected.1 hentered).1
      refine ⟨hreturns.balanced, hreturns.visiting.trans hnone, ?_⟩
      refine hcollected.2 hentered ?_ ?_ (hstate.grow (List.prefix_refl _) rfl)
      · intro last hlast
        rw [hnone] at hlast
        cases hlast
      · unfold OnPath
        rw [hnone]
        exact List.isChain_nil
  exact ⟨hreports.1, hreports.2.1, hbases, hreports.2.2⟩

/-! ## The finished plan -/

section Finished

variable {settings : ResolverSettings} {targets : List Bytes} {walked : WalkState}
  {plan : BuildPlan}

theorem nameEdge_of_finished (h : FinishedFrom settings targets walked plan) :
    NameEdge plan name dependency ↔ NameEdge walked.plan name dependency := by
  constructor
  · rintro ⟨edge, hedge, hparent, hname⟩
    obtain ⟨origin, horigin, hsame⟩ := forall₂_exists_right h.edge edge hedge
    refine ⟨origin, horigin, ?_, ?_⟩
    · rw [← hparent, hsame]
    · rw [← hname, hsame.resolvedAurDependencyName]
  · rintro ⟨edge, hedge, hparent, hname⟩
    obtain ⟨kept, hkept, hsame⟩ := forall₂_exists_left h.edge edge hedge
    refine ⟨kept, hkept, ?_, ?_⟩
    · rw [← hparent, hsame]
    · rw [hsame.resolvedAurDependencyName, hname]

/-- Names are ordered by the ends of their walks. -/
theorem no_nameCycle (h : FinishedFrom settings targets walked plan) (hcalm : Calm plan) :
    ¬ HasCycle (NameEdge plan) := by
  have hfinished := h.collection.finished (h.calm hcalm)
  refine @not_hasCycle_of_lt _ (NameEdge plan) (walked.visited.idxOf ·) ?_
  intro name dependency hedge
  obtain ⟨edge, hmem, hparent, hname⟩ := (nameEdge_of_finished h).mp hedge
  have hended : edge.parentPackageName ∈ walked.visited := by
    rcases hfinished.parents edge hmem with hended | hopen
    · exact hended
    · rw [h.collection.visiting] at hopen
      cases hopen
  have hbefore := hfinished.ended edge hmem dependency hname hended
  rw [hparent] at hbefore
  exact hbefore.idxOf_lt h.collection.balanced.visited_nodup

/-- The bases an edge of a plan without reports connects have entries. -/
theorem entered_of_resolved (h : FinishedFrom settings targets walked plan)
    (hcover : EntriesCover walked.plan) (hexplored : Explored walked) (hcalm : Calm plan)
    {edge : BuildPlanDependencyEdge} (hedge : edge ∈ walked.plan.dependencyEdges)
    (hresolved : resolvedAurDependencyPackageBase walked.plan edge = some dependency) :
    Entered walked.plan dependency := by
  unfold resolvedAurDependencyPackageBase at hresolved
  split at hresolved
  · rename_i hexact
    rcases hexplored.bases (h.calm hcalm) edge hedge hexact.1 dependency hresolved with
      hentered | hpending
    · exact hentered
    · exact hpending.elim
  · split at hresolved
    · cases hresolved
    · rename_i name hname
      obtain ⟨target, htarget, hbase⟩ := Option.map_eq_some_iff.mp hresolved
      obtain ⟨entry, hentry, hentryBase, -⟩ :=
        hcover.targets target (List.mem_of_find?_eq_some htarget)
      exact ⟨entry, hentry, hentryBase.trans hbase⟩

/-- Bases are ordered by their place in the plan. -/
theorem no_baseCycle (h : FinishedFrom settings targets walked plan)
    (hcover : EntriesCover walked.plan) (hexplored : Explored walked) (hcalm : Calm plan) :
    ¬ HasCycle (BaseEdge plan) := by
  obtain ⟨ordered, hordered, hspec, hannotated⟩ := h.ordered
  have hcycles : ordered.cycles = [] := by
    have hsame : plan.cycles = ordered.cycles := by rw [hannotated.frame]
    rw [← hsame]
    exact hcalm.cycles
  have hin : ∀ {base}, Entered walked.plan base → base ∈ walked.plan.order.map (·.packageBase) := by
    rintro base ⟨entry, hentry, rfl⟩
    exact List.mem_map.mpr ⟨entry, hentry, rfl⟩
  refine @not_hasCycle_of_lt _ (BaseEdge plan) ((ordered.order.map (·.packageBase)).idxOf ·) ?_
  rintro base dependency ⟨edge, hedge, rfl, hresolved, hne⟩
  obtain ⟨origin, horigin, hsame⟩ := forall₂_exists_right h.edge edge hedge
  have hparent : edge.parentPackageBase = origin.parentPackageBase := by rw [hsame]
  rw [h.dependencyPackageBase hsame] at hresolved
  rw [hparent] at hne ⊢
  exact hspec.dependencies hcycles origin horigin dependency hresolved hne
    (hin (entered_of_resolved h hcover hexplored hcalm horigin hresolved))
    (hin (hcover.parents origin horigin))

/-- A report of the plan is a report of the walk or of the ordering. -/
theorem hasCycle_of_reported (h : FinishedFrom settings targets walked plan)
    (hexplored : Explored walked) (hreported : plan.cycles ≠ []) :
    HasCycle (NameEdge plan) ∨ HasCycle (BaseEdge plan) := by
  obtain ⟨ordered, hordered, hspec, hannotated⟩ := h.ordered
  have hsame : plan.cycles = ordered.cycles := by rw [hannotated.frame]
  rcases hspec.reports with hwalk | hcycle
  · refine Or.inl ?_
    rw [hsame, hwalk] at hreported
    exact (hexplored.reports hreported).mono fun _ _ hedge => (nameEdge_of_finished h).mpr hedge
  · refine Or.inr (hcycle.mono ?_)
    intro base dependency hmem
    obtain ⟨hne, -, edge, hedge, hparent, hresolved⟩ := mem_dependencyBases.mp hmem
    obtain ⟨kept, hkept, hsameEdge⟩ := forall₂_exists_left h.edge edge hedge
    refine ⟨kept, hkept, ?_, ?_, hne⟩
    · rw [← hparent, hsameEdge]
    · rw [h.dependencyPackageBase hsameEdge]
      exact hresolved

end Finished

/-- **Cycle detection is exact**: when the resolved AUR edges of a plan close a
cycle of names, or of bases, a cycle or an unresolved dependency is reported;
and a cycle is reported only when they do. -/
theorem resolveBuildPlanOnce_cycles_exact (env : MetadataEnvironment)
    (targets : List Bytes) (context : BuildPlanResolutionContext)
    (selectProvider : Option ProviderSelectionCallback) (result : PassResult)
    (h : resolveBuildPlanOnce env targets context selectProvider = .ok result) :
    (HasCycle (NameEdge result.plan) ∨ HasCycle (BaseEdge result.plan) →
        result.plan.cycles ≠ [] ∨ result.plan.unresolved ≠ []) ∧
      (result.plan.cycles ≠ [] →
        HasCycle (NameEdge result.plan) ∨ HasCycle (BaseEdge result.plan)) := by
  obtain ⟨walked, hwalked, hfinished⟩ := resolveBuildPlanOnce_finished h
  have hvalid : ∀ target ∈ targets, isValidPackageName target = true := by
    unfold resolveBuildPlanOnce at h
    simp only [bind_eq_ok] at h
    obtain ⟨_, htargets, -⟩ := h
    exact requireTargets_valid htargets
  have hexplored := collectRoots_explored
    (passSettings_remote env context selectProvider) hvalid hwalked
  have hcover : EntriesCover walked.plan := by
    refine collectRoots_keeps (keeps_entriesCover _) ⟨by simp, by simp⟩ ?_ hvalid hwalked
    intro state root hstate
    exact hstate.of_eq rfl rfl rfl
  constructor
  · intro hcycle
    by_contra hnone
    push Not at hnone
    have hcalm : Calm result.plan := ⟨hnone.2, hnone.1⟩
    rcases hcycle with hcycle | hcycle
    · exact no_nameCycle hfinished hcalm hcycle
    · exact no_baseCycle hfinished hcover hexplored hcalm hcycle
  · exact hasCycle_of_reported hfinished hexplored

/-- `app` and `lib` depend on each other. -/
def appAndLibInTurn : MetadataEnvironment :=
  MetadataEnvironment.ofAurRecords
    [{ name := ascii "app", packageBase := ascii "app", version := ascii "1-1",
       depends := [ascii "lib"] },
     { name := ascii "lib", packageBase := ascii "lib", version := ascii "1-1",
       depends := [ascii "app"] }]

/-- The plan for `app` reports a cycle, and its edges have one. -/
theorem resolveBuildPlanOnce_cycles_exact_app :
    ∃ result,
      resolveBuildPlanOnce appAndLibInTurn [ascii "app"] { mode := .legacy } none =
          .ok result ∧
        result.plan.cycles = [ascii "app"] ∧
        (HasCycle (NameEdge result.plan) ∨ HasCycle (BaseEdge result.plan)) := by
  have hview : (resolveBuildPlanOnce appAndLibInTurn [ascii "app"] { mode := .legacy }
      none).toOption.map (fun result => result.plan.cycles) = some [ascii "app"] := by
    decide +kernel
  obtain ⟨result, hresult, hseen⟩ := exists_ok_of_view hview
  have hexact := resolveBuildPlanOnce_cycles_exact appAndLibInTurn [ascii "app"]
    { mode := .legacy } none result hresult
  refine ⟨result, hresult, hseen, hexact.2 ?_⟩
  rw [hseen]
  exact List.cons_ne_nil _ _

end Moguet.Plan.CycleDetection
