import Moguet.Local.Preflight

/-!
# Cycles of a local plan

The mark of an internal edge says whether its end leads back to its start. The
search behind it is a depth-first one with a budget; here it is told by the
paths themselves, and the marks of an invocation by the paths of its last plan.

* `hasDependencyPath_iff` — the search finds a path exactly when there is one;
* `InternalEdgeFrom` — what an internal edge is known by when it is written
  down;
* `markCycles_iff` — what its mark says in the end.
-/

namespace Moguet.Local.Cycles

open Verified.ByteString Verified.DepthFirst Plan.Model Plan.Resolver Metadata Projection Answers
open Walk

variable {internalEdges : List LocalDependencyPlanInternalEdge}

variable {later : List LocalDependencyPlanInternalEdge} {edge : LocalDependencyPlanInternalEdge}
  {plan : BuildPlan} {name other origin target : Bytes}

/-- One step of a path: an internal edge, or an AUR edge between planned
targets. -/
inductive PathStep (plan : BuildPlan) (internalEdges : List LocalDependencyPlanInternalEdge)
    (name other : Bytes) : Prop
  | internal (edge : LocalDependencyPlanInternalEdge) (hmem : edge ∈ internalEdges)
      (hparent : edge.parentPackageName = name) (hresolved : edge.resolvedPackageName = other)
  | aur (edge : BuildPlanDependencyEdge) (hmem : edge ∈ plan.dependencyEdges)
      (hparent : edge.parentPackageName = name)
      (hresolved : resolvedAurPackageName edge = some other) (hstart : Named plan name)
      (hend : Named plan other)

/-- A path of internal edges and of resolved AUR edges. -/
abbrev DependencyPath (plan : BuildPlan)
    (internalEdges : List LocalDependencyPlanInternalEdge) : Bytes → Bytes → Prop :=
  Relation.ReflTransGen (PathStep plan internalEdges)

theorem findPackageTarget_isSome_iff :
    (findPackageTarget plan name).isSome = true ↔ Named plan name := by
  unfold findPackageTarget Named
  rw [List.find?_isSome]
  simp

theorem mem_dependencySuccessors {plan : BuildPlan}
    {internalEdges : List LocalDependencyPlanInternalEdge} :
    other ∈ dependencySuccessors plan internalEdges name ↔
      (∃ edge ∈ internalEdges, edge.parentPackageName = name ∧ edge.resolvedPackageName = other) ∨
      ∃ edge ∈ plan.dependencyEdges, edge.parentPackageName = name ∧
        resolvedAurPackageName edge = some other ∧ Named plan other := by
  unfold dependencySuccessors
  rw [List.mem_append]
  apply or_congr
  · simp only [List.mem_map, List.mem_filter, decide_eq_true_eq]
    constructor
    · rintro ⟨edge, ⟨hmem, hparent⟩, hresolved⟩
      exact ⟨edge, hmem, hparent, hresolved⟩
    · rintro ⟨edge, hmem, hparent, hresolved⟩
      exact ⟨edge, ⟨hmem, hparent⟩, hresolved⟩
  · simp only [List.mem_filterMap, List.mem_filter, decide_eq_true_eq,
      Option.filter_eq_some_iff, findPackageTarget_isSome_iff]
    constructor
    · rintro ⟨edge, ⟨hmem, hparent⟩, hresolved, hnamed⟩
      exact ⟨edge, hmem, hparent, hresolved, hnamed⟩
    · rintro ⟨edge, hmem, hparent, hresolved, hnamed⟩
      exact ⟨edge, ⟨hmem, hparent⟩, hresolved, hnamed⟩

/-- The search finds a path exactly when there is one. -/
theorem hasDependencyPath_iff : hasDependencyPath origin target plan internalEdges = true ↔
      Relation.ReflTransGen (Leads (dependencySuccessors plan internalEdges)) origin
        target := by
  -- Every opened package is the first one or the end of an edge.
  let nodes : List Bytes := origin :: (internalEdges.map (·.resolvedPackageName) ++
    plan.dependencyEdges.filterMap resolvedAurPackageName)
  have hclosed : ∀ node ∈ nodes, ∀ other ∈ dependencySuccessors plan internalEdges node,
      other ∈ nodes := by
    intro node _ other hother
    apply List.mem_cons_of_mem
    rw [List.mem_append]
    rcases mem_dependencySuccessors.mp hother with ⟨edge, hmem, -, hresolved⟩ |
      ⟨edge, hmem, -, hresolved, -⟩
    · exact Or.inl (List.mem_map.mpr ⟨edge, hmem, hresolved⟩)
    · exact Or.inr (List.mem_filterMap.mpr ⟨edge, hmem, hresolved⟩)
  have hbudget : nodes.length < pathBudget plan internalEdges := by
    have hle := List.length_filterMap_le resolvedAurPackageName plan.dependencyEdges
    show (origin :: _).length < internalEdges.length + plan.dependencyEdges.length + 2
    rw [List.length_cons, List.length_append, List.length_map]
    omega
  exact search_eq_true_iff hclosed hbudget List.mem_cons_self

/-- AUR edges come from planned parents. -/
def AurEdgesPlanned (plan : BuildPlan) : Prop :=
  ∀ edge ∈ plan.dependencyEdges, resolvedAurPackageName edge ≠ none →
    Named plan edge.parentPackageName

theorem leads_iff (hplanned : AurEdgesPlanned plan) :
    Leads (dependencySuccessors plan internalEdges) name other ↔
      PathStep plan internalEdges name other := by
  unfold Leads
  rw [mem_dependencySuccessors]
  constructor
  · rintro (⟨edge, hmem, hparent, hresolved⟩ | ⟨edge, hmem, hparent, hresolved, hnamed⟩)
    · exact .internal edge hmem hparent hresolved
    · have hstart := hplanned edge hmem (by rw [hresolved]; exact Option.some_ne_none _)
      rw [hparent] at hstart
      exact .aur edge hmem hparent hresolved hstart hnamed
  · intro h
    cases h with
    | internal edge hmem hparent hresolved => exact Or.inl ⟨edge, hmem, hparent, hresolved⟩
    | aur edge hmem hparent hresolved _ hend =>
      exact Or.inr ⟨edge, hmem, hparent, hresolved, hend⟩

theorem hasDependencyPath_planned (hplanned : AurEdgesPlanned plan) :
    hasDependencyPath origin target plan internalEdges = true ↔
      DependencyPath plan internalEdges origin target := by
  rw [hasDependencyPath_iff]
  constructor
  · exact Relation.ReflTransGen.mono (fun _ _ => (leads_iff hplanned).mp) _ _
  · exact Relation.ReflTransGen.mono (fun _ _ => (leads_iff hplanned).mpr) _ _

/-- Internal edges that join the same packages. -/
def JoinedIn (internalEdges later : List LocalDependencyPlanInternalEdge) : Prop :=
  ∀ edge ∈ internalEdges, ∃ kept ∈ later, kept.parentPackageName = edge.parentPackageName ∧
    kept.resolvedPackageName = edge.resolvedPackageName

theorem JoinedIn.of_subset (h : internalEdges ⊆ later) : JoinedIn internalEdges later :=
  fun edge hedge => ⟨edge, h hedge, rfl, rfl⟩

/-- A path stays one when internal edges are added. -/
theorem DependencyPath.joined (hjoined : JoinedIn internalEdges later)
    (h : DependencyPath plan internalEdges name other) : DependencyPath plan later name other := by
  refine Relation.ReflTransGen.mono ?_ _ _ h
  intro first second hstep
  cases hstep with
  | internal edge hmem hparent hresolved =>
    obtain ⟨kept, hkept, hsame, hsame'⟩ := hjoined edge hmem
    exact .internal kept hkept (hsame.trans hparent) (hsame'.trans hresolved)
  | aur edge hmem hparent hresolved hstart hend =>
    exact .aur edge hmem hparent hresolved hstart hend

/-- A path of an empty plan is one of internal edges, so it is one of every
plan. -/
theorem DependencyPath.of_empty (plan : BuildPlan) (h : DependencyPath {} internalEdges name other)
    : DependencyPath plan internalEdges name other := by
  refine Relation.ReflTransGen.mono ?_ _ _ h
  intro first second hstep
  cases hstep with
  | internal edge hmem hparent hresolved => exact .internal edge hmem hparent hresolved
  | aur edge hmem => cases hmem

theorem mem_markCycles (h : edge ∈ markCycles plan internalEdges) :
    ∃ own ∈ internalEdges, edge = { own with isCycle := edge.isCycle } ∧
      edge.isCycle = (own.isCycle || hasDependencyPath own.resolvedPackageName
        own.parentPackageName plan internalEdges) := by
  obtain ⟨own, hown, rfl⟩ := List.mem_map.mp h
  refine ⟨own, hown, ?_⟩
  by_cases hcycle : own.isCycle = true
  · rw [if_pos hcycle, hcycle]
    exact ⟨by rw [← hcycle], rfl⟩
  · rw [if_neg hcycle, Bool.eq_false_iff.mpr hcycle]
    exact ⟨rfl, rfl⟩

theorem markCycles_joined (plan : BuildPlan)
    (internalEdges : List LocalDependencyPlanInternalEdge) :
    JoinedIn (markCycles plan internalEdges) internalEdges ∧
      JoinedIn internalEdges (markCycles plan internalEdges) := by
  constructor
  · intro edge hedge
    obtain ⟨own, hown, hsame, -⟩ := mem_markCycles hedge
    exact ⟨own, hown, by rw [hsame], by rw [hsame]⟩
  · intro edge hedge
    refine ⟨_, List.mem_map.mpr ⟨edge, hedge, rfl⟩, ?_⟩
    split <;> exact ⟨rfl, rfl⟩

/-- The parent of a call has the local base exactly when it is a child. -/
def BaseTells (localUnit : LocalUnit) (context : DependencyContext) : Prop :=
  context.parentPackageBase = localUnit.packageBase ↔
    ∃ child ∈ localUnit.children, child.packageName = context.parentPackageName

/-- What an internal edge is known by. -/
structure InternalEdgeFrom (localUnit : LocalUnit) (contexts : List DependencyContext)
    (internalEdges : List LocalDependencyPlanInternalEdge)
    (edge : LocalDependencyPlanInternalEdge) : Prop where
  resolved : ∃ child ∈ localUnit.children, edge.resolvedPackageName = child.packageName
  asked : ∃ context ∈ contexts, edge.parentPackageName = context.parentPackageName ∧
    (resolveLocalCandidate localUnit context).internalEdges ≠ []
  outside : (¬ ∃ child ∈ localUnit.children, child.packageName = edge.parentPackageName) →
    edge.isCycle = true
  cycle : edge.isCycle = true →
    (¬ ∃ child ∈ localUnit.children, child.packageName = edge.parentPackageName) ∨
      DependencyPath {} internalEdges edge.resolvedPackageName edge.parentPackageName

section Records

variable {localUnit : LocalUnit} {contexts : List DependencyContext}
  {internalEdges : List LocalDependencyPlanInternalEdge}

/-- An edge of an answer starts as a cycle when its parent is outside, or
depends on itself. -/
theorem answer_edge_from {context : DependencyContext} (hcontext : context ∈ contexts)
    (htells : BaseTells localUnit context)
    (h : edge ∈ (resolveLocalCandidate localUnit context).internalEdges) :
    InternalEdgeFrom localUnit contexts internalEdges edge := by
  obtain ⟨hparent, hresolved, hcycle⟩ := mem_answer_edges h
  refine ⟨hresolved, ⟨context, hcontext, hparent, List.ne_nil_of_mem h⟩, ?_, ?_⟩
  · intro houtside
    rw [hparent] at houtside
    have hbase : context.parentPackageBase ≠ localUnit.packageBase := by
      intro hbase
      exact houtside (htells.mp hbase)
    rw [hcycle, decide_eq_true hbase]
    rfl
  · intro htrue
    rw [hcycle, Bool.or_eq_true, decide_eq_true_eq, decide_eq_true_eq] at htrue
    rcases htrue with hbase | hself
    · left
      rw [hparent]
      intro hchild
      exact hbase (htells.mpr hchild)
    · right
      rw [hself]

theorem InternalEdgeFrom.mono {more : List DependencyContext}
    (h : InternalEdgeFrom localUnit contexts internalEdges edge) (hmore : contexts ⊆ more)
    (hlater : JoinedIn internalEdges later) : InternalEdgeFrom localUnit more later edge := by
  obtain ⟨context, hcontext, hparent, hedges⟩ := h.asked
  refine ⟨h.resolved, ⟨context, hmore hcontext, hparent, hedges⟩, h.outside, ?_⟩
  intro hcycle
  rcases h.cycle hcycle with houtside | hpath
  · exact Or.inl houtside
  · exact Or.inr (hpath.joined hlater)

/-- The calls of an invocation write edges of this kind only. -/
theorem recordCalls_from {calls : List DependencyContext} {records : LocalRecords}
    (htells : ∀ context ∈ calls, BaseTells localUnit context)
    (hbefore : ∀ edge ∈ records.internalEdges,
      InternalEdgeFrom localUnit contexts records.internalEdges edge) :
    ∀ edge ∈ (recordCalls localUnit calls records).internalEdges,
      InternalEdgeFrom localUnit (contexts ++ calls)
        (recordCalls localUnit calls records).internalEdges edge := by
  intro edge hedge
  rcases mem_recordCalls hedge with hedge | ⟨context, hcontext, hedge⟩
  · exact (hbefore edge hedge).mono (List.subset_append_left _ _)
      (JoinedIn.of_subset (subset_recordCalls localUnit calls records))
  · exact answer_edge_from (List.mem_append_right _ hcontext) (htells context hcontext) hedge

/-- Marking in the preflight, where no remote package is known. -/
theorem markCycles_from
    (h : ∀ edge ∈ internalEdges, InternalEdgeFrom localUnit contexts internalEdges edge) :
    ∀ edge ∈ markCycles {} internalEdges,
      InternalEdgeFrom localUnit contexts (markCycles {} internalEdges) edge := by
  have hempty : AurEdgesPlanned {} := List.forall_mem_nil _
  intro edge hedge
  obtain ⟨own, hown, hsame, hmark⟩ := mem_markCycles hedge
  have hfrom := (h own hown).mono (List.Subset.refl _) (markCycles_joined {} internalEdges).2
  rw [hsame]
  refine ⟨hfrom.resolved, hfrom.asked, ?_, ?_⟩
  · intro houtside
    show edge.isCycle = true
    rw [hmark, hfrom.outside houtside]
    rfl
  · intro hcycle
    change edge.isCycle = true at hcycle
    rw [hmark, Bool.or_eq_true] at hcycle
    rcases hcycle with hcycle | hpath
    · exact hfrom.cycle hcycle
    · right
      exact ((hasDependencyPath_planned hempty).mp hpath).joined
        (markCycles_joined {} internalEdges).2

/-- The last mark of an internal edge: its parent is no child, or its end leads
back to its start. -/
theorem markCycles_iff (hplanned : AurEdgesPlanned plan)
    (h : ∀ edge ∈ internalEdges, InternalEdgeFrom localUnit contexts internalEdges edge)
    (hedge : edge ∈ markCycles plan internalEdges) :
    edge.isCycle = true ↔
      (¬ ∃ child ∈ localUnit.children, child.packageName = edge.parentPackageName) ∨
        DependencyPath plan (markCycles plan internalEdges) edge.resolvedPackageName
          edge.parentPackageName := by
  obtain ⟨hback, hforth⟩ := markCycles_joined plan internalEdges
  obtain ⟨own, hown, hsame, hmark⟩ := mem_markCycles hedge
  have hfrom := h own hown
  have hparent : edge.parentPackageName = own.parentPackageName := by rw [hsame]
  have hresolved : edge.resolvedPackageName = own.resolvedPackageName := by rw [hsame]
  rw [hmark, hparent, hresolved, Bool.or_eq_true, hasDependencyPath_planned hplanned]
  constructor
  · rintro (hcycle | hpath)
    · rcases hfrom.cycle hcycle with houtside | hpath
      · exact Or.inl houtside
      · exact Or.inr ((hpath.of_empty plan).joined hforth)
    · exact Or.inr (hpath.joined hforth)
  · rintro (houtside | hpath)
    · exact Or.inl (hfrom.outside houtside)
    · exact Or.inr (hpath.joined hback)

end Records

end Moguet.Local.Cycles
