import Moguet.Plan.BuildOrder
import Moguet.Plan.Acceptance

/-!
# Accepted plans are closed

A plan that passes the build guard reports nothing, so no walk was cut short:
whatever an edge of a planned package leads to was walked itself, and each
planned package has an edge for every dependency its record declares.
-/

namespace Moguet.Plan.Closure

open Verified.ByteString Verified.Checked Constraint Model Discovery Dependency Readiness Resolver
open Walk Order Resolution BuildOrder Descent Acceptance Relation.Assessment

variable {targets : List Bytes}

/-- The settings of a pass over AUR targets. -/
def passSettings (env : MetadataEnvironment) (context : BuildPlanResolutionContext)
    (selectProvider : Option ProviderSelectionCallback) : ResolverSettings :=
  { env := env, context := context, selectProvider := selectProvider }

theorem passSettings_remote (env : MetadataEnvironment) (context : BuildPlanResolutionContext)
    (selectProvider : Option ProviderSelectionCallback) :
    Remote (passSettings env context selectProvider) :=
  ⟨rfl, rfl, rfl⟩

/-- The roots of a collection are the targets in their order. -/
theorem collectRoots_rootTargets {settings : ResolverSettings} (hremote : Remote settings)
    {after : WalkState} (hvalid : ∀ target ∈ targets, isValidPackageName target = true)
    (h : collectRoots settings targets = .ok after) :
    after.plan.rootTargets = targets.zipIdx.map fun item => ⟨item.2, item.1⟩ := by
  have hrun : ∀ (items : List (Bytes × Nat)) {before after : WalkState},
      (∀ item ∈ items, isValidPackageName item.1 = true) →
      items.foldlM (collectRoot settings) before = .ok after →
      after.plan.rootTargets =
        before.plan.rootTargets ++ items.map fun item => ⟨item.2, item.1⟩ := by
    intro items
    induction items with
    | nil =>
      intro before after _ h
      injection h with h
      rw [← h, List.map_nil, List.append_nil]
    | cons item rest ih =>
      intro before after hitems h
      rw [List.foldlM_cons, bind_eq_ok] at h
      obtain ⟨between, hbetween, h⟩ := h
      have hgrows := ((descentRule hremote).collect _ _ _ _
        (@rootRequestAt settings before ⟨item.2, item.1⟩
          (hitems item List.mem_cons_self)) hbetween).2
      have hentered : between.plan.rootTargets =
          before.plan.rootTargets ++ [⟨item.2, item.1⟩] := hgrows.rootTargets
      rw [ih (fun other hother => hitems other (List.mem_cons_of_mem _ hother)) h,
        hentered, List.map_cons, List.append_assoc]
      rfl
  have hroots := hrun _ (fun item hitem =>
    hvalid item.1 (List.fst_mem_of_mem_zipIdx hitem)) h
  simpa using hroots

/-- A finished pass and the collection it was made from. -/
structure FinishedFrom (settings : ResolverSettings) (targets : List Bytes)
    (walked : WalkState) (plan : BuildPlan) : Prop where
  collection : Collection settings walked
  roots : walked.plan.rootTargets = targets.zipIdx.map fun item => ⟨item.2, item.1⟩
  entries : EntriesDistinct walked.plan
  ordered : ∃ ordered, orderBuildPlanEntries walked.plan = .ok ordered ∧
    OrderedFrom walked.plan ordered ∧ AnnotatedFrom ordered plan

theorem resolveBuildPlanOnce_finished {env : MetadataEnvironment}
    {context : BuildPlanResolutionContext} {selectProvider : Option ProviderSelectionCallback}
    {result : PassResult} (h : resolveBuildPlanOnce env targets context selectProvider = .ok result)
    :
    ∃ walked, collectRoots (passSettings env context selectProvider) targets = .ok walked ∧
      FinishedFrom (passSettings env context selectProvider) targets walked result.plan := by
  unfold resolveBuildPlanOnce at h
  simp only [bind_eq_ok] at h
  obtain ⟨_, htargets, walked, hwalked, plan, hplan, h⟩ := h
  injection h with h
  rw [← h]
  have hvalid := requireTargets_valid htargets
  have hremote := passSettings_remote env context selectProvider
  have hentries := collectRoots_entriesDistinct hvalid hwalked
  obtain ⟨ordered, hordered, hannotated⟩ := finishBuildPlan_spec hplan
  obtain ⟨after, hafter, hspec⟩ :=
    orderBuildPlanEntries_spec hentries.nodup hentries.valid
  have hsame : ordered = after := by
    rw [hordered] at hafter
    injection hafter
  subst hsame
  exact ⟨walked, hwalked, collectRoots_collection hremote hvalid hwalked,
    collectRoots_rootTargets hremote hvalid hwalked, hentries,
    ordered, hordered, hspec, hannotated⟩

section Finished

variable {settings : ResolverSettings} {targets : List Bytes} {walked : WalkState}
  {plan : BuildPlan}

/-- What is not reported in the end was not reported by the walk. -/
theorem FinishedFrom.calm (h : FinishedFrom settings targets walked plan)
    (hcalm : Calm plan) : Calm walked.plan := by
  obtain ⟨ordered, -, hspec, hannotated⟩ := h.ordered
  constructor
  · have hsame : plan.unresolved = walked.plan.unresolved := by
      rw [hannotated.frame, hspec.frame]
    rw [← hsame]
    exact hcalm.unresolved
  · have hsame : plan.cycles = ordered.cycles := by rw [hannotated.frame]
    have hprefix := hspec.cycles
    rw [← hsame, hcalm.cycles] at hprefix
    exact List.prefix_nil.mp hprefix

/-- The targets of the plan are those of the walk, with more roots. -/
theorem FinishedFrom.target (h : FinishedFrom settings targets walked plan) :
    List.Forall₂ SameTarget walked.plan.packageTargets plan.packageTargets := by
  obtain ⟨ordered, -, hspec, hannotated⟩ := h.ordered
  have htargets := hannotated.targets
  rw [hspec.frame] at htargets
  exact htargets

/-- The edges of the plan are those of the walk, up to their evaluation. -/
theorem FinishedFrom.edge (h : FinishedFrom settings targets walked plan) :
    List.Forall₂ SameEdge walked.plan.dependencyEdges plan.dependencyEdges := by
  obtain ⟨ordered, -, hspec, hannotated⟩ := h.ordered
  have hedges := hannotated.edges
  rw [hspec.frame] at hedges
  exact hedges

theorem FinishedFrom.order (h : FinishedFrom settings targets walked plan) :
    plan.order.Perm walked.plan.order := by
  obtain ⟨ordered, -, hspec, hannotated⟩ := h.ordered
  have hsame : plan.order = ordered.order := by rw [hannotated.frame]
  rw [hsame]
  exact hspec.entries

theorem FinishedFrom.rootTargets (h : FinishedFrom settings targets walked plan) :
    plan.rootTargets = targets.zipIdx.map fun item => ⟨item.2, item.1⟩ := by
  obtain ⟨ordered, -, hspec, hannotated⟩ := h.ordered
  have hsame : plan.rootTargets = walked.plan.rootTargets := by
    rw [hannotated.frame, hspec.frame]
  rw [hsame]
  exact h.roots

/-- Annotation keeps the dependency base of an edge. -/
theorem FinishedFrom.dependencyPackageBase
    (h : FinishedFrom settings targets walked plan) {before after : BuildPlanDependencyEdge}
    (hedge : SameEdge before after) :
    resolvedAurDependencyPackageBase plan after =
      resolvedAurDependencyPackageBase walked.plan before := by
  obtain ⟨ordered, -, hspec, hannotated⟩ := h.ordered
  rw [hannotated.dependencyPackageBase hedge, hspec.frame]
  rfl

end Finished

/-- The package is a planned target and an entry of the order builds it. -/
def InPlan (plan : BuildPlan) (name : Bytes) : Prop :=
  (∃ target ∈ plan.packageTargets, target.packageName = name) ∧
    ∃ entry ∈ plan.order, name ∈ entry.packageNames

/-- A plan from which nothing is missing. -/
structure Closed (settings : ResolverSettings) (targets : List Bytes)
    (plan : BuildPlan) : Prop where
  roots : ∀ target ∈ targets, InPlan plan target
  dependencies : ∀ target ∈ plan.packageTargets, ∀ edge ∈ plan.dependencyEdges,
    edge.parentPackageName = target.packageName →
      ∀ name, resolvedAurDependencyName edge = some name → InPlan plan name
  declared : ∀ target ∈ plan.packageTargets, ∃ info, Known settings info ∧
    info.name = target.packageName ∧
      ∀ declared ∈ declaredDependencies info.toAurPackageRecord,
        ∃ edge ∈ plan.dependencyEdges,
          edge.parentPackageName = target.packageName ∧
            edge.dependencySpec = declared.1 ∧ edge.role = declared.2
  satisfied : ∀ edge ∈ plan.dependencyEdges,
    edge.constraintEvaluation = some .satisfied ∨
      edge.constraintEvaluation = some .unconstrained

section Accepted

variable {settings : ResolverSettings} {targets : List Bytes} {walked : WalkState}
  {plan : BuildPlan}

/-- A package whose walk ended is in the plan. -/
theorem inPlan_of_visited (h : FinishedFrom settings targets walked plan)
    (hcalm : Calm plan) {name : Bytes} (hname : name ∈ walked.visited) :
    InPlan plan name := by
  have hfinished := h.collection.finished (h.calm hcalm)
  obtain ⟨info, hwalked⟩ := hfinished.walked name hname
  obtain ⟨target, htarget, htargetName⟩ := hwalked.target
  obtain ⟨entry, hentry, -, hentryName⟩ := hwalked.entry
  obtain ⟨kept, hkept, hsame⟩ := forall₂_exists_left h.target target htarget
  have hkeptName : kept.packageName = target.packageName := by rw [hsame.1]
  exact ⟨⟨kept, hkept, hkeptName.trans htargetName⟩,
    ⟨entry, h.order.mem_iff.mpr hentry, hentryName⟩⟩

/-- A planned package is one whose walk ended. -/
theorem visited_of_target (h : FinishedFrom settings targets walked plan)
    (hcalm : Calm plan) {target : PlannedPackageTarget}
    (htarget : target ∈ plan.packageTargets) : target.packageName ∈ walked.visited := by
  have hfinished := h.collection.finished (h.calm hcalm)
  obtain ⟨origin, horigin, hsame⟩ := forall₂_exists_right h.target target htarget
  have hname : target.packageName = origin.packageName := by rw [hsame.1]
  rw [hname]
  rcases hfinished.targets origin horigin with hended | hopen
  · exact hended
  · rw [h.collection.visiting] at hopen
    cases hopen

theorem closed_of_accepted (h : FinishedFrom settings targets walked plan)
    (haccepted : BuildAccepted plan) (hevaluated : Evaluated plan) :
    Closed settings targets plan := by
  have hcalm : Calm plan := ⟨haccepted.unresolved, haccepted.cycles⟩
  have hfinished := h.collection.finished (h.calm hcalm)
  refine {
    roots := ?_
    dependencies := ?_
    declared := ?_
    satisfied := haccepted.satisfied hevaluated }
  · intro target htarget
    obtain ⟨index, hindex⟩ := List.mem_iff_getElem?.mp htarget
    refine inPlan_of_visited h hcalm ?_
    refine (h.collection.roots (h.calm hcalm) ⟨index, target⟩ ?_).1
    rw [h.roots]
    exact List.mem_map.mpr ⟨(target, index), List.mk_mem_zipIdx_iff_getElem?.mpr hindex, rfl⟩
  · intro target htarget edge hedge hparent name hname
    obtain ⟨origin, horigin, hsame⟩ := forall₂_exists_right h.edge edge hedge
    have horiginName : resolvedAurDependencyName origin = some name := by
      rw [← hsame.resolvedAurDependencyName]
      exact hname
    have horiginParent : origin.parentPackageName = target.packageName := by
      rw [← hparent, hsame]
    have hended : origin.parentPackageName ∈ walked.visited := by
      rw [horiginParent]
      exact visited_of_target h hcalm htarget
    exact inPlan_of_visited h hcalm (hfinished.ended origin horigin name horiginName hended).mem
  · intro target htarget
    obtain ⟨info, hwalked⟩ := hfinished.walked _ (visited_of_target h hcalm htarget)
    refine ⟨info, hwalked.known, hwalked.name_eq, ?_⟩
    obtain ⟨typed, htyped, hdeclared⟩ := hwalked.declared
    intro declared hmem
    obtain ⟨declaration, hdeclaration, hspecification, hrole⟩ :=
      collectTypedBuildDependencies_covers htyped declared hmem
    obtain ⟨edge, hedge, hparent, -, hspec, hedgeRole⟩ := hdeclared declaration hdeclaration
    obtain ⟨kept, hkept, hsame⟩ := forall₂_exists_left h.edge edge hedge
    refine ⟨kept, hkept, ?_, ?_, ?_⟩
    · rw [hsame, ← hwalked.name_eq]
      exact hparent
    · rw [hsame, ← hspecification]
      exact hspec
    · rw [hsame, ← hrole]
      exact hedgeRole

end Accepted

/-- **Closure of accepted plans**: in a plan that passes the build guard, the
roots and every package a planned package leads to are planned and entered,
every declared dependency of a planned package has its edge, and every edge is
satisfied or unconstrained. -/
theorem resolveBuildPlanOnce_closed (env : MetadataEnvironment)
    (targets : List Bytes) (context : BuildPlanResolutionContext)
    (selectProvider : Option ProviderSelectionCallback) (result : PassResult)
    (relationDisplay : PackageRelationAssessment → Bytes) (target : Bytes)
    (h : resolveBuildPlanOnce env targets context selectProvider = .ok result)
    (hguard : requireExecutableBuildPlan relationDisplay target result.plan = .ok ()) :
    Closed (passSettings env context selectProvider) targets result.plan := by
  obtain ⟨walked, -, hfinished⟩ := resolveBuildPlanOnce_finished h
  exact closed_of_accepted hfinished (requireExecutableBuildPlan_ok_iff.mp hguard)
    (resolveBuildPlanOnce_evaluated h)

/-- The plan for `app`, which depends on `lib`, is accepted and closed. -/
theorem resolveBuildPlanOnce_closed_app :
    ∃ result,
      resolveBuildPlanOnce appAndLib [ascii "app"] { mode := .legacy } none =
          .ok result ∧
        requireExecutableBuildPlan (fun _ => []) (ascii "app") result.plan = .ok () ∧
        result.plan.packageTargets.map (·.packageName) = [ascii "app", ascii "lib"] ∧
        Closed (passSettings appAndLib { mode := .legacy } none) [ascii "app"]
          result.plan := by
  have hview : (resolveBuildPlanOnce appAndLib [ascii "app"] { mode := .legacy }
      none).toOption.map (fun result =>
        (decide (requireExecutableBuildPlan (fun _ => []) (ascii "app") result.plan =
          .ok ()), result.plan.packageTargets.map (·.packageName))) =
        some (true, [ascii "app", ascii "lib"]) := by decide +kernel
  obtain ⟨result, hresult, hseen⟩ := exists_ok_of_view hview
  simp only [Prod.mk.injEq, decide_eq_true_eq] at hseen
  exact ⟨result, hresult, hseen.1, hseen.2,
    resolveBuildPlanOnce_closed appAndLib [ascii "app"] { mode := .legacy } none result
      (fun _ => []) (ascii "app") hresult hseen.1⟩

end Moguet.Plan.Closure
