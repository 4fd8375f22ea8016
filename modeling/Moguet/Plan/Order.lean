import Moguet.Verified.PostOrder
import Moguet.Plan.Model

/-!
# Build order

`order_build_plan_entries` rebuilds the order of a collected plan: a
post-order search over package bases along the edges that were recorded
between packages. The model is the source's recursion with its two sets; a
simulation carries the properties of `Verified.PostOrder` over to it.
-/

namespace Moguet.Plan.Order

open Verified ByteString PostOrder CyclePath Checked Constraint Metadata Model

variable {base : Bytes}

/-- What the recursion shares: the cycles of the plan, the two sets of bases
and the entries in their new order. -/
structure OrderingState where
  cycles : List Bytes
  ordered : List Bytes := []
  visiting : List Bytes := []
  orderedEntries : List BuildPlanEntry := []

/-- The base an edge makes another base wait for: nothing for an edge of
another parent, an edge that stays inside the base, or one that leads out of
the plan. -/
def dependencyBaseOf (plan : BuildPlan) (aggregated : List BuildPlanEntry)
    (packageBase : Bytes) (edge : BuildPlanDependencyEdge) : Option Bytes :=
  if edge.parentPackageBase ≠ packageBase then none
  else
    match resolvedAurDependencyPackageBase plan edge with
    | none => none
    | some dependencyBase =>
      if dependencyBase = packageBase ∨
          findBuildPlanEntry aggregated dependencyBase = none then none
      else some dependencyBase

def aggregationMissing (packageBase : Bytes) : Thrown :=
  ⟨.logicError, ascii
    "PackageBase aggregation is missing during build plan ordering: " ++
      packageBase⟩

/-- One turn of the edge loop: `append` goes on with the base the edge makes
`packageBase` wait for. -/
def appendDependency (plan : BuildPlan) (aggregated : List BuildPlanEntry)
    (append : Bytes → OrderingState → Except Thrown OrderingState)
    (packageBase : Bytes) (state : OrderingState)
    (edge : BuildPlanDependencyEdge) : Except Thrown OrderingState :=
  match dependencyBaseOf plan aggregated packageBase edge with
  | none => .ok state
  | some dependencyBase => append dependencyBase state

/-- `append_build_plan_entry_postorder`, on a budget of nested calls. -/
def appendBuildPlanEntryPostorder (plan : BuildPlan)
    (aggregated : List BuildPlanEntry) :
    Nat → Bytes → OrderingState → Except Thrown OrderingState
  | 0, _, state => .ok state
  | budget + 1, packageBase, state =>
    if packageBase ∈ state.ordered then .ok state
    else if packageBase ∈ state.visiting then
      .ok { state with cycles := addUniqueValue state.cycles packageBase }
    else do
      let walked ← plan.dependencyEdges.foldlM
        (appendDependency plan aggregated
          (appendBuildPlanEntryPostorder plan aggregated budget) packageBase)
        { state with visiting := packageBase :: state.visiting }
      let closed := { walked with
        visiting := walked.visiting.filter (· ≠ packageBase) }
      if packageBase ∈ closed.ordered then .ok closed
      else
        match findBuildPlanEntry aggregated packageBase with
        | none => .error (aggregationMissing packageBase)
        | some entry =>
          .ok { closed with
            ordered := packageBase :: closed.ordered
            orderedEntries := closed.orderedEntries ++ [entry] }

/-- The budget of a search: a path visits every base at most once. -/
def orderingBudget (aggregated : List BuildPlanEntry) : Nat :=
  aggregated.length + 1

def orderBuildPlanEntries (plan : BuildPlan) : Except Thrown BuildPlan := do
  let aggregated := plan.order
  let state ← aggregated.foldlM
    (fun state entry =>
      appendBuildPlanEntryPostorder plan aggregated (orderingBudget aggregated)
        entry.packageBase state)
    { cycles := plan.cycles }
  .ok { plan with order := state.orderedEntries, cycles := state.cycles }

section Simulation

variable {plan : BuildPlan} {aggregated : List BuildPlanEntry}

/-- The bases a base waits for, in edge order. -/
def dependencyBases (plan : BuildPlan) (aggregated : List BuildPlanEntry)
    (packageBase : Bytes) : List Bytes :=
  plan.dependencyEdges.filterMap (dependencyBaseOf plan aggregated packageBase)

/-- The ordering state holds what the abstract walk holds. -/
structure Simulates (plan : BuildPlan) (aggregated : List BuildPlanEntry)
    (walk : Walk Bytes) (state : OrderingState) : Prop where
  ordered : ∀ base, base ∈ state.ordered ↔ base ∈ walk.ordered
  visiting : ∀ base, base ∈ state.visiting ↔ base ∈ walk.opened
  bases : state.orderedEntries.map (·.packageBase) = walk.ordered
  entries : ∀ entry ∈ state.orderedEntries, entry ∈ aggregated
  cycles : state.cycles = walk.cycles.foldl addUniqueValue plan.cycles
  reported : ∀ base ∈ walk.cycles, base ∈ aggregated.map (·.packageBase)

theorem findBuildPlanEntry_isSome (h : base ∈ aggregated.map (·.packageBase)) :
    ∃ entry ∈ aggregated, entry.packageBase = base ∧
      findBuildPlanEntry aggregated base = some entry := by
  cases hfind : findBuildPlanEntry aggregated base with
  | some entry =>
    have hbase : entry.packageBase = base := by
      simpa using List.find?_some hfind
    exact ⟨entry, List.mem_of_find?_eq_some hfind, hbase, rfl⟩
  | none =>
    obtain ⟨entry, hmem, hbase⟩ := List.mem_map.mp h
    have hnone := List.find?_eq_none.mp hfind entry hmem
    simp [hbase] at hnone

theorem mem_of_findBuildPlanEntry (h : findBuildPlanEntry aggregated base ≠ none) :
    base ∈ aggregated.map (·.packageBase) := by
  obtain ⟨entry, hentry⟩ := Option.ne_none_iff_exists'.mp h
  have hbase : entry.packageBase = base := by
    simpa using List.find?_some hentry
  exact List.mem_map.mpr ⟨entry, List.mem_of_find?_eq_some hentry, hbase⟩

/-- What a base waits for, read off the edges. -/
theorem mem_dependencyBases {dependency : Bytes} :
    dependency ∈ dependencyBases plan aggregated base ↔
      dependency ≠ base ∧ dependency ∈ aggregated.map (·.packageBase) ∧
        ∃ edge ∈ plan.dependencyEdges, edge.parentPackageBase = base ∧
          resolvedAurDependencyPackageBase plan edge = some dependency := by
  unfold dependencyBases
  rw [List.mem_filterMap]
  constructor
  · rintro ⟨edge, hmem, hedge⟩
    unfold dependencyBaseOf at hedge
    split at hedge
    · cases hedge
    · rename_i hparent
      split at hedge
      · cases hedge
      · rename_i resolved hresolved
        split at hedge
        · cases hedge
        · rename_i hkept
          push Not at hparent hkept
          injection hedge with hedge
          rw [← hedge]
          exact ⟨hkept.1, mem_of_findBuildPlanEntry hkept.2, edge, hmem, hparent, hresolved⟩
  · rintro ⟨hne, hbase, edge, hmem, hparent, hresolved⟩
    refine ⟨edge, hmem, ?_⟩
    obtain ⟨entry, -, -, hfind⟩ := findBuildPlanEntry_isSome hbase
    unfold dependencyBaseOf
    rw [if_neg (by simp [hparent]), hresolved]
    dsimp only
    rw [if_neg (by simp [hne, hfind])]

theorem dependencyBases_closed (plan : BuildPlan) (aggregated : List BuildPlanEntry) :
    ∀ base ∈ aggregated.map (·.packageBase), ∀ next ∈ dependencyBases plan aggregated base,
        next ∈ aggregated.map (·.packageBase) :=
  fun _ _ _ hnext => (mem_dependencyBases.mp hnext).2.1

/-- The loop over the edges of a base is the walk over what the base waits
for: a relation one visit keeps, the loop keeps. -/
theorem appendDependency_foldlM {Good : Walk Bytes → OrderingState → Prop}
    {append : Bytes → OrderingState → Except Thrown OrderingState}
    {next : Walk Bytes → Bytes → Walk Bytes} {packageBase : Bytes}
    (hstep : ∀ walk state base, Good walk state → base ∈ aggregated.map (·.packageBase) →
      ∃ after, append base state = .ok after ∧ Good (next walk base) after) :
    ∀ (edges : List BuildPlanDependencyEdge) (walk : Walk Bytes)
      (state : OrderingState), Good walk state →
      ∃ after, edges.foldlM (appendDependency plan aggregated append packageBase) state =
            .ok after ∧
          Good ((edges.filterMap
            (dependencyBaseOf plan aggregated packageBase)).foldl next walk) after := by
  intro edges
  induction edges with
  | nil =>
    intro walk state hgood
    exact ⟨state, rfl, hgood⟩
  | cons edge rest ih =>
    intro walk state hgood
    rw [List.foldlM_cons]
    unfold appendDependency
    cases hedge : dependencyBaseOf plan aggregated packageBase edge with
    | none =>
      rw [List.filterMap_cons_none hedge]
      exact ih walk state hgood
    | some base =>
      have hbase : base ∈ aggregated.map (·.packageBase) := by
        unfold dependencyBaseOf at hedge
        split at hedge
        · cases hedge
        · split at hedge
          · cases hedge
          · split at hedge
            · cases hedge
            · rename_i hkept
              push Not at hkept
              injection hedge with hedge
              rw [← hedge]
              exact mem_of_findBuildPlanEntry hkept.2
      obtain ⟨middle, hmiddle, hgoodMiddle⟩ := hstep walk state base hgood hbase
      obtain ⟨after, hafter, hgoodAfter⟩ := ih _ middle hgoodMiddle
      rw [List.filterMap_cons_some hedge, List.foldl_cons]
      refine ⟨after, ?_, hgoodAfter⟩
      rw [bind_eq_ok]
      exact ⟨middle, hmiddle, hafter⟩

/-- One call of the recursion is one visit of the walk. -/
theorem simulates_visit :
    ∀ (budget : Nat) (walk : Walk Bytes) (state : OrderingState) (base : Bytes),
      Simulates plan aggregated walk state →
      Sound (aggregated.map (·.packageBase)) walk →
      (aggregated.map (·.packageBase)).length < budget + walk.opened.length →
      base ∈ aggregated.map (·.packageBase) →
      ∃ after, appendBuildPlanEntryPostorder plan aggregated budget base state = .ok after ∧
        Simulates plan aggregated
          (visit (dependencyBases plan aggregated) budget base walk) after := by
  intro budget
  induction budget with
  | zero =>
    intro walk state base hsim _ _ _
    exact ⟨state, rfl, hsim⟩
  | succ budget ih =>
    intro walk state base hsim hsound hbudget hbase
    unfold appendBuildPlanEntryPostorder visit
    by_cases hordered : base ∈ walk.ordered
    · rw [if_pos hordered, if_pos ((hsim.ordered base).mpr hordered)]
      exact ⟨state, rfl, hsim⟩
    rw [if_neg hordered, if_neg (fun h => hordered ((hsim.ordered base).mp h))]
    by_cases hopened : base ∈ walk.opened
    · rw [if_pos hopened, if_pos ((hsim.visiting base).mpr hopened)]
      refine ⟨_, rfl, hsim.ordered, hsim.visiting, hsim.bases, hsim.entries, ?_, ?_⟩
      · rw [List.foldl_append, ← hsim.cycles]
        rfl
      · intro other hother
        rcases List.mem_append.mp hother with hother | hother
        · exact hsim.reported other hother
        · rw [List.mem_singleton.mp hother]
          exact hbase
    rw [if_neg hopened, if_neg (fun h => hopened ((hsim.visiting base).mp h))]
    dsimp only
    have hsimOpened : Simulates plan aggregated
        { walk with opened := base :: walk.opened }
        { state with visiting := base :: state.visiting } := by
      refine ⟨hsim.ordered, ?_, hsim.bases, hsim.entries, hsim.cycles, hsim.reported⟩
      intro other
      rw [List.mem_cons, List.mem_cons, hsim.visiting other]
    have hstep : ∀ (other : Walk Bytes) (otherState : OrderingState) (next : Bytes),
        (Simulates plan aggregated other otherState ∧ Sound (aggregated.map (·.packageBase)) other ∧
          other.opened = base :: walk.opened) →
        next ∈ aggregated.map (·.packageBase) →
        ∃ after, appendBuildPlanEntryPostorder plan aggregated budget next otherState = .ok after ∧
          Simulates plan aggregated
            (visit (dependencyBases plan aggregated) budget next other) after ∧
          Sound (aggregated.map (·.packageBase))
            (visit (dependencyBases plan aggregated) budget next other) ∧
          (visit (dependencyBases plan aggregated) budget next other).opened =
            base :: walk.opened := by
      rintro other otherState next ⟨hother, hsoundOther, hopenedOther⟩ hnext
      have hlength : (aggregated.map (·.packageBase)).length < budget + other.opened.length := by
        rw [hopenedOther, List.length_cons]
        omega
      obtain ⟨after, hafter, hsimAfter⟩ :=
        ih other otherState next hother hsoundOther hlength hnext
      have hvisited := visit_spec (dependencyBases_closed plan aggregated) hlength hsoundOther hnext
      exact ⟨after, hafter, hsimAfter, hvisited.sound, hvisited.grows.opened.trans hopenedOther⟩
    obtain ⟨inner, hinner, hsimInner, hsoundInner, hopenedInner⟩ :=
      appendDependency_foldlM hstep plan.dependencyEdges _ _
        ⟨hsimOpened, hsound.opening hbase hordered hopened, rfl⟩
    rw [bind_of_ok hinner]
    have hfresh : base ∉ inner.ordered := by
      intro hin
      refine hsoundInner.disjoint base ((hsimInner.ordered base).mp hin) ?_
      rw [hopenedInner]
      exact List.mem_cons_self
    obtain ⟨entry, hentry, hentryBase, hfind⟩ := findBuildPlanEntry_isSome hbase
    rw [if_neg hfresh, hfind]
    refine ⟨_, rfl, ?_, ?_, ?_, ?_, hsimInner.cycles, hsimInner.reported⟩
    · intro other
      rw [List.mem_cons, List.mem_append, hsimInner.ordered other, List.mem_singleton, or_comm]
      rfl
    · intro other
      rw [List.mem_filter, List.mem_filter, hsimInner.visiting other]
      rfl
    · rw [List.map_append, hsimInner.bases, List.map_singleton, hentryBase]
      rfl
    · intro other hother
      rcases List.mem_append.mp hother with hother | hother
      · exact hsimInner.entries other hother
      · rw [List.mem_singleton.mp hother]
        exact hentry

/-- The loop over all entries is the walk from all bases. -/
theorem simulates_visitAll :
    ∀ (entries : List BuildPlanEntry) (walk : Walk Bytes) (state : OrderingState),
      (∀ entry ∈ entries, entry ∈ aggregated) →
      Simulates plan aggregated walk state →
      Sound (aggregated.map (·.packageBase)) walk → walk.opened = [] →
      ∃ after, entries.foldlM (fun state entry =>
              appendBuildPlanEntryPostorder plan aggregated
                (orderingBudget aggregated) entry.packageBase state)
            state = .ok after ∧
          Simulates plan aggregated
            (visitAll (dependencyBases plan aggregated) (orderingBudget aggregated)
              (entries.map (·.packageBase)) walk) after := by
  intro entries
  induction entries with
  | nil =>
    intro walk state _ hsim _ _
    exact ⟨state, rfl, hsim⟩
  | cons entry rest ih =>
    intro walk state hmem hsim hsound hopened
    have hbase : entry.packageBase ∈ aggregated.map (·.packageBase) :=
      List.mem_map.mpr ⟨entry, hmem entry List.mem_cons_self, rfl⟩
    have hlength : (aggregated.map (·.packageBase)).length <
        orderingBudget aggregated + walk.opened.length := by
      rw [hopened, List.length_map, orderingBudget, List.length_nil]
      omega
    obtain ⟨middle, hmiddle, hsimMiddle⟩ :=
      simulates_visit (orderingBudget aggregated) walk state entry.packageBase hsim
        hsound hlength hbase
    have hvisited := visit_spec (dependencyBases_closed plan aggregated) hlength hsound hbase
    obtain ⟨after, hafter, hsimAfter⟩ := ih _ middle
      (fun other hother => hmem other (List.mem_cons_of_mem _ hother)) hsimMiddle
      hvisited.sound (hvisited.grows.opened.trans hopened)
    refine ⟨after, ?_, hsimAfter⟩
    rw [List.foldlM_cons, bind_eq_ok]
    exact ⟨middle, hmiddle, hafter⟩

end Simulation

theorem prefix_foldl_addUniqueValue :
    ∀ (added values : List Bytes), values <+: added.foldl addUniqueValue values := by
  intro added
  induction added with
  | nil => exact fun values => List.prefix_refl values
  | cons value rest ih =>
    intro values
    exact (prefix_addUniqueValue values value).trans (ih _)

/-- The ordered plan: the entries are those of the collected plan, the cycle
reports only grow and only by a cycle of bases, and without a report every
base follows the bases its edges lead to. -/
structure OrderedFrom (plan after : BuildPlan) : Prop where
  frame : after = { plan with order := after.order, cycles := after.cycles }
  entries : after.order.Perm plan.order
  cycles : plan.cycles <+: after.cycles
  reports : after.cycles = plan.cycles ∨
    HasCycle fun base dependency => dependency ∈ dependencyBases plan plan.order base
  dependencies : after.cycles = [] →
    ∀ edge ∈ plan.dependencyEdges, ∀ dependency,
      resolvedAurDependencyPackageBase plan edge = some dependency →
      dependency ≠ edge.parentPackageBase →
      dependency ∈ plan.order.map (·.packageBase) →
      edge.parentPackageBase ∈ plan.order.map (·.packageBase) →
      (after.order.map (·.packageBase)).idxOf dependency <
        (after.order.map (·.packageBase)).idxOf edge.parentPackageBase

theorem orderBuildPlanEntries_spec {plan : BuildPlan}
    (hnodup : (plan.order.map (·.packageBase)).Nodup)
    (hvalid : ∀ entry ∈ plan.order, isValidPackageName entry.packageBase = true) :
    ∃ after, orderBuildPlanEntries plan = .ok after ∧ OrderedFrom plan after := by
  have hinitial : Simulates plan plan.order ({} : Walk Bytes)
      { cycles := plan.cycles } :=
    ⟨fun _ => Iff.rfl, fun _ => Iff.rfl, rfl, by simp, rfl, by simp⟩
  have hsound : Sound (plan.order.map (·.packageBase)) ({} : Walk Bytes) :=
    ⟨List.nodup_nil, List.nodup_nil, by simp, by simp, by simp⟩
  obtain ⟨state, hstate, hsim⟩ :=
    simulates_visitAll plan.order {} _ (fun entry hmem => hmem) hinitial hsound rfl
  have hspec := @visitAll_spec Bytes _ (dependencyBases plan plan.order)
    (plan.order.map (·.packageBase)) (dependencyBases_closed plan plan.order) hnodup []
  rw [List.length_map] at hspec
  obtain ⟨-, hperm, -, hfirst⟩ := hspec
  have hreports := @visitAll_reports Bytes _ (dependencyBases plan plan.order)
    (plan.order.length + 1) (plan.order.map (·.packageBase)) { cycles := [] } rfl
  change Simulates plan plan.order
    (visitAll (dependencyBases plan plan.order) (plan.order.length + 1)
      (plan.order.map (·.packageBase)) { cycles := [] }) state at hsim
  generalize visitAll (dependencyBases plan plan.order) (plan.order.length + 1)
    (plan.order.map (·.packageBase)) { cycles := [] } = walk at hsim hperm hfirst hreports
  refine ⟨{ plan with order := state.orderedEntries, cycles := state.cycles }, ?_, ?_⟩
  · unfold orderBuildPlanEntries
    dsimp only
    rw [bind_of_ok hstate]
  have hordered : walk.ordered.Nodup := hperm.nodup_iff.mpr hnodup
  refine {
    frame := rfl
    entries := ?_
    cycles := ?_
    reports := ?_
    dependencies := ?_ }
  · show state.orderedEntries.Perm plan.order
    have hstateNodup : state.orderedEntries.Nodup := by
      refine List.Nodup.of_map (·.packageBase) ?_
      rw [hsim.bases]
      exact hordered
    rw [List.perm_ext_iff_of_nodup hstateNodup (List.Nodup.of_map _ hnodup)]
    intro entry
    constructor
    · exact hsim.entries entry
    · intro hmem
      have hbase : entry.packageBase ∈ walk.ordered :=
        hperm.mem_iff.mpr (List.mem_map.mpr ⟨entry, hmem, rfl⟩)
      rw [← hsim.bases] at hbase
      obtain ⟨other, hother, hsame⟩ := List.mem_map.mp hbase
      have heq : other = entry :=
        List.inj_on_of_nodup_map hnodup (hsim.entries other hother) hmem hsame
      rw [← heq]
      exact hother
  · show plan.cycles <+: state.cycles
    rw [hsim.cycles]
    exact prefix_foldl_addUniqueValue _ _
  · rcases hreports with hnone | hcycle
    · refine Or.inl ?_
      show state.cycles = plan.cycles
      rw [hsim.cycles, hnone]
      rfl
    · exact Or.inr hcycle
  · intro hcycles edge hedge dependency hresolved hne hdependency hparent
    have hcycles : state.cycles = [] := hcycles
    have hnone : walk.cycles = [] := by
      cases hwalk : walk.cycles with
      | nil => rfl
      | cons base rest =>
        -- A reported base is the base of an entry, so it is kept.
        have hbase : base ∈ plan.order.map (·.packageBase) :=
          hsim.reported base (by rw [hwalk]; exact List.mem_cons_self)
        obtain ⟨entry, hentry, hentryBase⟩ := List.mem_map.mp hbase
        have hvisible := hvalid entry hentry
        rw [hentryBase] at hvisible
        have hmem : base ∈ state.cycles := by
          rw [hsim.cycles, hwalk]
          exact (prefix_foldl_addUniqueValue rest _).subset (mem_addUniqueValue_of_valid hvisible)
        rw [hcycles] at hmem
        cases hmem
    show (state.orderedEntries.map (·.packageBase)).idxOf dependency <
      (state.orderedEntries.map (·.packageBase)).idxOf edge.parentPackageBase
    rw [hsim.bases]
    refine (hfirst hnone).idxOf_lt hordered (hperm.mem_iff.mpr hparent) ?_
    exact mem_dependencyBases.mpr ⟨hne, hdependency, edge, hedge, rfl, hresolved⟩

end Moguet.Plan.Order
