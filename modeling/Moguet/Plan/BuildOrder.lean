import Moguet.Plan.Resolution

/-!
# The order of a resolved plan

The walk aggregates packages under their base: one entry for each base, under
a valid name. Ordering then only permutes the entries, and a plan without
cycle reports lists every base after the bases its resolved AUR edges lead
to.
-/

namespace Moguet.Plan.BuildOrder

open Verified.ByteString Verified.Checked Verified.Upsert Constraint Model Discovery Resolver Walk
open Order Resolution

variable {plan : BuildPlan}

/-- One entry for each base, under a valid name. -/
structure EntriesDistinct (plan : BuildPlan) : Prop where
  nodup : (plan.order.map (·.packageBase)).Nodup
  valid : ∀ entry ∈ plan.order, isValidPackageName entry.packageBase = true

theorem EntriesDistinct.of_order_eq {before after : BuildPlan}
    (h : EntriesDistinct before) (horder : after.order = before.order) :
    EntriesDistinct after := by
  constructor
  · rw [horder]
    exact h.nodup
  · rw [horder]
    exact h.valid

theorem EntriesDistinct.addBuildPlanEntry (h : EntriesDistinct plan)
    {packageName packageBase : Bytes} (hbase : isValidPackageName packageBase = true) :
    EntriesDistinct (addBuildPlanEntry plan packageName packageBase) := by
  constructor
  · have hbases : (Model.addBuildPlanEntry plan packageName packageBase).order.map
        (·.packageBase) = insertNew (plan.order.map (·.packageBase)) packageBase :=
      map_upsert (by intro _; rfl) (by rfl) plan.order
    rw [hbases]
    exact nodup_insertNew h.nodup
  · intro entry hmem
    rcases mem_upsert hmem with hmem | rfl | ⟨existing, hexisting, -, rfl⟩
    · exact h.valid entry hmem
    · exact hbase
    · exact h.valid existing hexisting

/-- Only an entered package changes the entries. -/
theorem keeps_entriesDistinct (settings : ResolverSettings) :
    Keeps settings fun state => EntriesDistinct state.plan where
  quiet := fun h hquiet => h.of_order_eq hquiet.aside.order
  leads := fun h hleads => h.of_order_eq hleads.aside.order
  stops := fun h _ hstops => h.of_order_eq hstops.aside.order
  enters := by
    intro request before info plan h henters
    show EntriesDistinct plan
    rw [recordPackage_ok henters.recorded]
    have htarget : EntriesDistinct (addPlannedPackageTarget before.plan info.name
        info.packageBase request.roles request.root) := h.of_order_eq rfl
    exact (htarget.addBuildPlanEntry info.packageBase_valid).of_order_eq rfl
  cycle := fun h => h.of_order_eq rfl
  opened := fun h _ _ => h
  closed := fun h => h.of_order_eq (closePackage_order_eq _ _)

theorem collectRoots_entriesDistinct {settings : ResolverSettings}
    {targets : List Bytes} {walked : WalkState}
    (hvalid : ∀ target ∈ targets, isValidPackageName target = true)
    (h : collectRoots settings targets = .ok walked) :
    EntriesDistinct walked.plan := by
  refine collectRoots_keeps (keeps_entriesDistinct settings) ?_ ?_ hvalid h
  · exact ⟨List.nodup_nil, by simp⟩
  · intro state root hstate
    exact hstate.of_order_eq rfl

/-- What the order of a finished plan owes to the entries its walk
aggregated. -/
structure OrderRespects (aggregated : List BuildPlanEntry) (plan : BuildPlan) :
    Prop where
  entries : plan.order.Perm aggregated
  once : (plan.order.map (·.packageBase)).Nodup
  dependencies : plan.cycles = [] →
    ∀ edge ∈ plan.dependencyEdges, ∀ dependency,
      resolvedAurDependencyPackageBase plan edge = some dependency →
      dependency ≠ edge.parentPackageBase →
      dependency ∈ plan.order.map (·.packageBase) →
      edge.parentPackageBase ∈ plan.order.map (·.packageBase) →
      (plan.order.map (·.packageBase)).idxOf dependency <
        (plan.order.map (·.packageBase)).idxOf edge.parentPackageBase

theorem finishBuildPlan_orderRespects {env : MetadataEnvironment} {collected : BuildPlan}
    (hentries : EntriesDistinct collected) (h : finishBuildPlan env collected = .ok plan) :
    OrderRespects collected.order plan := by
  obtain ⟨ordered, hordered, hannotated⟩ := finishBuildPlan_spec h
  obtain ⟨after, hafter, hspec⟩ :=
    orderBuildPlanEntries_spec hentries.nodup hentries.valid
  have hsame : ordered = after := by
    rw [hordered] at hafter
    injection hafter
  subst hsame
  have horder : plan.order = ordered.order := by rw [hannotated.frame]
  have hcycles : plan.cycles = ordered.cycles := by rw [hannotated.frame]
  have hedges : ordered.dependencyEdges = collected.dependencyEdges := by
    rw [hspec.frame]
  have hperm : (ordered.order.map (·.packageBase)).Perm
      (collected.order.map (·.packageBase)) := hspec.entries.map _
  refine {
    entries := by rw [horder]; exact hspec.entries
    once := by rw [horder]; exact hperm.nodup_iff.mpr hentries.nodup
    dependencies := ?_ }
  intro hnone edge hedge dependency hresolved hne hdependency hparent
  obtain ⟨origin, horigin, hsameEdge⟩ :=
    forall₂_exists_right hannotated.edges edge hedge
  have hparentEq : edge.parentPackageBase = origin.parentPackageBase := by
    rw [hsameEdge]
  have hresolvedOrigin : resolvedAurDependencyPackageBase collected origin = some dependency := by
    rw [hannotated.dependencyPackageBase hsameEdge, hspec.frame] at hresolved
    exact hresolved
  rw [horder] at hdependency hparent ⊢
  rw [hparentEq] at hne hparent ⊢
  rw [hedges] at horigin
  exact hspec.dependencies (hcycles ▸ hnone) origin horigin dependency
    hresolvedOrigin hne (hperm.mem_iff.mp hdependency) (hperm.mem_iff.mp hparent)

/-- `app` depends on `lib`, both of the AUR. -/
def appAndLib : MetadataEnvironment :=
  MetadataEnvironment.ofAurRecords
    [{ name := ascii "app", packageBase := ascii "app", version := ascii "1-1",
       depends := [ascii "lib"] },
     { name := ascii "lib", packageBase := ascii "lib", version := ascii "1-1" }]

end Moguet.Plan.BuildOrder
