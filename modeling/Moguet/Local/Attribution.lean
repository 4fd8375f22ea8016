import Moguet.Local.Cycles

/-!
# Who an edge of a local plan belongs to

The edges of a local plan come from two producers. The resolver's walk records
an edge under the name and the base of the parent it stands at; the local edges
are appended afterwards, every one under the local base. The two agree as long
as every local answer was given to a child: a remote package that depends on a
child gets an edge that pairs its name with the local base, which no planned
package has.

* `wellAttributed_iff` — the plan is well attributed exactly when no package
  outside the base was given a local candidate.
-/

namespace Moguet.Local.Attribution

open Verified.ByteString Verified.Checked Verified.Upsert Plan.Model Plan.Discovery Plan.Resolver
open Plan.Resolution Plan.Interaction Metadata Projection Answers Walk Pass Preflight Cycles

variable {α : Type} {internalEdges : List LocalDependencyPlanInternalEdge}
  {metadata : LocalPackageMetadata} {effectiveArchitecture : Bytes} {run : LocalRun}
  {plan : LocalBuildPlan} {pass : BuildPlan}

variable {name base : Bytes} {env : MetadataEnvironment}
  {selectProvider : Option ProviderSelectionCallback} {edge : BuildPlanDependencyEdge}

/-! ## What finishing a local plan keeps -/

/-- The name and the base of a target. -/
def targetIdentity (target : PlannedPackageTarget) : Bytes × Bytes :=
  (target.packageName, target.packageBase)

/-- The same edges, and targets of the same names and bases. -/
structure SamePackages (before after : BuildPlan) : Prop where
  edges : after.dependencyEdges = before.dependencyEdges
  targets : after.packageTargets.map targetIdentity = before.packageTargets.map targetIdentity

theorem SamePackages.refl (plan : BuildPlan) : SamePackages plan plan := ⟨rfl, rfl⟩

theorem SamePackages.trans {first second third : BuildPlan} (h : SamePackages first second)
    (h' : SamePackages second third) : SamePackages first third :=
  ⟨h'.edges.trans h.edges, h'.targets.trans h.targets⟩

theorem SamePackages.symm {before after : BuildPlan} (h : SamePackages before after) :
    SamePackages after before :=
  ⟨h.edges.symm, h.targets.symm⟩

/-- A target changed in place, with its name and base left as they are. -/
theorem updateFirst_identities {p : PlannedPackageTarget → Bool}
    {update : PlannedPackageTarget → PlannedPackageTarget}
    (hupdate : ∀ target, targetIdentity (update target) = targetIdentity target)
    (targets : List PlannedPackageTarget) :
    (updateFirst p update targets).map targetIdentity = targets.map targetIdentity := by
  have hrelated := forall₂_updateFirst
    (R := fun before after => targetIdentity after = targetIdentity before)
    (p := p) (fun _ => rfl) hupdate targets
  exact map_eq_of_forall₂ (fun _ _ hsame => hsame) hrelated

theorem foldl_samePackages {step : BuildPlan → α → BuildPlan}
    (hstep : ∀ plan item, SamePackages plan (step plan item)) :
    ∀ (items : List α) (plan : BuildPlan), SamePackages plan (items.foldl step plan) := by
  intro items
  induction items with
  | nil => exact SamePackages.refl
  | cons item rest ih =>
    intro plan
    exact (hstep plan item).trans (ih _)

theorem aggregateLocalRoles_same (plan : BuildPlan)
    (internalEdges : List LocalDependencyPlanInternalEdge) (children : List EffectiveChild) :
    SamePackages plan (aggregateLocalRoles plan internalEdges children) := by
  apply foldl_samePackages
  intro plan edge
  split
  · refine ⟨rfl, ?_⟩
    apply updateFirst_identities
    intro target
    rfl
  · exact SamePackages.refl plan

theorem propagateLocalRootIdentities_same (plan : BuildPlan)
    (internalEdges : List LocalDependencyPlanInternalEdge) :
    SamePackages plan (propagateLocalRootIdentities plan internalEdges) := by
  have hroots : SamePackages plan
      (plan.rootTargets.foldl (propagateLocalRoot internalEdges) plan) := by
    apply foldl_samePackages
    intro plan root
    apply foldl_samePackages
    intro plan name
    refine ⟨rfl, ?_⟩
    apply updateFirst_identities
    intro target
    rfl
  exact ⟨hroots.edges, hroots.targets⟩

/-- What every step leaves alone, the run leaves alone. -/
theorem foldl_keeps {β : Type} (field : BuildPlan → β) {step : BuildPlan → α → BuildPlan}
    (hstep : ∀ plan item, field (step plan item) = field plan) :
    ∀ (items : List α) (plan : BuildPlan), field (items.foldl step plan) = field plan := by
  intro items
  induction items with
  | nil => exact fun plan => rfl
  | cons item rest ih =>
    intro plan
    exact (ih _).trans (hstep plan item)

theorem propagateLocalRootIdentities_cycles (plan : BuildPlan)
    (internalEdges : List LocalDependencyPlanInternalEdge) :
    (propagateLocalRootIdentities plan internalEdges).cycles = plan.cycles := by
  show (plan.rootTargets.foldl (propagateLocalRoot internalEdges) plan).cycles = _
  apply foldl_keeps BuildPlan.cycles
  intro plan root
  apply foldl_keeps BuildPlan.cycles
  intro plan name
  rfl

theorem mem_cyclesWith {cycles : List Bytes} {packageBase : Bytes}
    {edge : LocalDependencyPlanInternalEdge} (hedge : edge ∈ internalEdges)
    (hcycle : edge.isCycle = true) : packageBase ∈ cyclesWith cycles internalEdges packageBase := by
  unfold cyclesWith
  rw [if_pos (List.any_eq_true.mpr ⟨edge, hedge, hcycle⟩)]
  exact mem_insertNew.mpr (Or.inr rfl)

section Same

variable {before after : BuildPlan}

theorem SamePackages.planned (h : SamePackages before after) :
    (∃ target ∈ after.packageTargets, target.packageName = name ∧ target.packageBase = base) ↔
      ∃ target ∈ before.packageTargets, target.packageName = name ∧ target.packageBase = base := by
  have hmem : ∀ plan : BuildPlan, (∃ target ∈ plan.packageTargets,
      target.packageName = name ∧ target.packageBase = base) ↔
        (name, base) ∈ plan.packageTargets.map targetIdentity := by
    intro plan
    rw [List.mem_map]
    constructor
    · rintro ⟨target, htarget, rfl, rfl⟩
      exact ⟨target, htarget, rfl⟩
    · rintro ⟨target, htarget, hsame⟩
      injection hsame with hname hbase
      exact ⟨target, htarget, hname, hbase⟩
  rw [hmem, hmem, h.targets]

theorem SamePackages.named (h : SamePackages before after) (hnamed : Named before name) :
    Named after name := by
  obtain ⟨target, hmem, hname⟩ := hnamed
  obtain ⟨kept, hkept, hsame, -⟩ := h.planned.mpr ⟨target, hmem, hname, rfl⟩
  exact ⟨kept, hkept, hsame⟩

theorem SamePackages.path (h : SamePackages before after) {other : Bytes}
    (hpath : DependencyPath before internalEdges name other) :
    DependencyPath after internalEdges name other := by
  refine Relation.ReflTransGen.mono ?_ _ _ hpath
  intro first second hstep
  cases hstep with
  | internal edge hmem hparent hresolved => exact .internal edge hmem hparent hresolved
  | aur edge hmem hparent hresolved hstart hend =>
    rw [← h.edges] at hmem
    exact .aur edge hmem hparent hresolved (h.named hstart) (h.named hend)

end Same

/-- A returned plan, told by the plan of the resolution and the records of the
invocation. -/
structure FinishedFrom (metadata : LocalPackageMetadata) (localUnit : LocalUnit)
    (resolved : BuildPlan) (internalEdges : List LocalDependencyPlanInternalEdge)
    (plan : LocalBuildPlan) : Prop where
  metadata_eq : plan.localMetadata = metadata
  annotated : ∃ merged marked, merged.packageTargets = resolved.packageTargets ∧
    merged.dependencyEdges = resolved.dependencyEdges ++
      internalEdges.map (localBuildPlanEdge metadata.packageBase) ∧
    AnnotatedFrom merged marked ∧ SamePackages marked plan.buildPlan ∧
    plan.internalEdges = markCycles
      (aggregateLocalRoles marked internalEdges localUnit.children) internalEdges
  cycles : ∀ edge ∈ plan.internalEdges, edge.isCycle = true →
    metadata.packageBase ∈ plan.buildPlan.cycles

theorem finishLocalBuildPlan_spec {preflight : LocalPreflight} {interaction : InteractionResult}
    (h : finishLocalBuildPlan env metadata effectiveArchitecture preflight interaction = .ok run) :
    FinishedFrom metadata preflight.localUnit interaction.result.plan (preflight.recordsAfter
        (interaction.earlierLocalRequests ++ interaction.result.localRequests)).internalEdges
      run.plan := by
  unfold finishLocalBuildPlan finalizeBuildPlanConstraints at h
  simp only [bind_eq_ok] at h
  obtain ⟨marked, ⟨projected, hprojected, _, -, hmarked⟩, h⟩ := h
  injection hmarked with hmarked
  rw [hmarked] at hprojected
  injection h with h
  rw [← h]
  have hannotated := projectBuildPlanConstraintConflicts_annotated hprojected
  generalize preflight.recordsAfter
    (interaction.earlierLocalRequests ++ interaction.result.localRequests) = records
    at hannotated ⊢
  refine ⟨rfl, ⟨_, marked, ?_, ?_, hannotated, ?_, rfl⟩, ?_⟩
  · rfl
  · rfl
  · have haggregated := aggregateLocalRoles_same marked records.internalEdges
      preflight.localUnit.children
    have hpropagated := propagateLocalRootIdentities_same
      (classifyLocalCycles (aggregateLocalRoles marked records.internalEdges
        preflight.localUnit.children) records.internalEdges metadata.packageBase).1
      (markCycles (aggregateLocalRoles marked records.internalEdges
        preflight.localUnit.children) records.internalEdges)
    exact haggregated.trans ⟨hpropagated.edges, hpropagated.targets⟩
  · intro edge hedge hcycle
    rw [propagateLocalRootIdentities_cycles]
    exact mem_cyclesWith hedge hcycle

/-! ## The calls and the records of an invocation -/

section Invocation

variable {vercmp : Bytes → Bytes → Int} {metadata : LocalPackageMetadata}
  {effectiveArchitecture : Bytes}

/-- A root's own calls come from a child. -/
theorem preclassified_tells {context : DependencyContext}
    (h : context ∈ (localPreflight vercmp metadata effectiveArchitecture).preclassified) :
    BaseTells (localUnitOf vercmp metadata effectiveArchitecture) context := by
  unfold LocalPreflight.preclassified at h
  split at h
  · obtain ⟨⟨specification, own⟩, hown, rfl⟩ := List.mem_map.mp h
    obtain ⟨package, hmem, hname, hbase, -⟩ := mem_preclassifiedContexts hown
    constructor
    · intro _
      rw [hname]
      exact collectEffectiveChildren_names.mpr (localPreflight_names.mp ⟨package, hmem, rfl⟩)
    · intro _
      exact hbase.trans (localPreflight_base hmem)
  · cases h

/-- So does, or does not, every call of a pass. -/
theorem pass_tells {plan : BuildPlan} {calls : List DependencyContext} (h : Attributed
      (localSettings env (localPreflight vercmp metadata effectiveArchitecture)
        metadata.packageBase selectProvider)
      (localPreflight vercmp metadata effectiveArchitecture).roots
      (localPreflight vercmp metadata effectiveArchitecture).decide plan calls) :
    ∀ context ∈ calls, BaseTells (localUnitOf vercmp metadata effectiveArchitecture) context := by
  intro context hcontext
  have horigin := Parent.origin (h.calls context hcontext).1
  have hiff := horigin.base_iff (localPreflight_rootsOf env selectProvider)
  unfold BaseTells
  rw [show (localUnitOf vercmp metadata effectiveArchitecture).packageBase =
    metadata.packageBase from rfl, hiff]
  constructor
  · rintro ⟨package, hmem, hname⟩
    exact collectEffectiveChildren_names.mpr (localPreflight_names.mp ⟨package, hmem, hname.symm⟩)
  · intro hchild
    obtain ⟨package, hmem, hname⟩ :=
      (@localPreflight_names vercmp metadata effectiveArchitecture _).mpr
        (collectEffectiveChildren_names.mp hchild)
    exact ⟨package, hmem, hname.symm⟩

/-- The internal edges there are before the resolution starts. -/
theorem preflight_records_from :
    ∀ edge ∈ (localPreflight vercmp metadata effectiveArchitecture).records.internalEdges,
      InternalEdgeFrom (localUnitOf vercmp metadata effectiveArchitecture)
        (localPreflight vercmp metadata effectiveArchitecture).preclassified
        (localPreflight vercmp metadata effectiveArchitecture).records.internalEdges edge := by
  have htells := @preclassified_tells vercmp metadata effectiveArchitecture
  unfold LocalPreflight.preclassified localPreflight at htells ⊢
  dsimp only at htells ⊢
  split
  · rename_i hnone
    rw [if_pos hnone] at htells
    apply markCycles_from
    refine @recordCalls_from _ [] _ _ ?_ ?_
    · exact fun context hcontext => htells hcontext
    · exact List.forall_mem_nil _
  · exact List.forall_mem_nil _

end Invocation

/-! ## The returned plan -/

/-- Every edge belongs to a planned target, every local edge leads to a child,
and the cycle marks say what the edges of the plan say. -/
structure WellAttributed (plan : LocalBuildPlan) : Prop where
  parents : ∀ edge ∈ plan.buildPlan.dependencyEdges,
    ∃ target ∈ plan.buildPlan.packageTargets,
      target.packageName = edge.parentPackageName ∧
        target.packageBase = edge.parentPackageBase
  locals : ∀ edge ∈ plan.buildPlan.dependencyEdges, edge.kind = .local →
    edge.resolvedPackageBase = some plan.localMetadata.packageBase ∧
      ∃ child ∈ plan.localMetadata.children, edge.resolvedPackageName = some child.name
  cycles : ∀ edge ∈ plan.internalEdges, edge.isCycle = true ↔
    (¬ ∃ child ∈ plan.localMetadata.children, child.name = edge.parentPackageName) ∨
      DependencyPath plan.buildPlan plan.internalEdges edge.resolvedPackageName
        edge.parentPackageName
  reported : ∀ edge ∈ plan.internalEdges, edge.isCycle = true →
    plan.localMetadata.packageBase ∈ plan.buildPlan.cycles

/-- A run, told by the pass whose plan it returns and by its internal edges
before the last marking. -/
structure RunFrom (metadata : LocalPackageMetadata) (localUnit : LocalUnit) (run : LocalRun)
    (settings : ResolverSettings) (roots : List RootPackage)
    (decide : DependencyContext → DependencyDecision) (resolved : PassResult)
    (internalEdges : List LocalDependencyPlanInternalEdge) : Prop where
  children : localUnit.children.map (·.packageName) = metadata.children.map (·.name)
  base : localUnit.packageBase = metadata.packageBase
  rootsOf : RootsOf settings roots metadata.packageBase
  names : ∀ name, (∃ package ∈ roots, package.packageName = name) ↔
    ∃ child ∈ localUnit.children, child.packageName = name
  pass : PassAttributed settings roots decide resolved
  tells : ∀ context ∈ run.contexts, BaseTells localUnit context
  edges : ∀ edge ∈ internalEdges, InternalEdgeFrom localUnit run.contexts internalEdges edge
  kept : ∀ context ∈ run.contexts, context.parentPackageBase ≠ metadata.packageBase →
    hasSingleCandidate localUnit context = true →
      ∃ edge ∈ internalEdges, edge.parentPackageName = context.parentPackageName
  finished : FinishedFrom metadata localUnit resolved.plan internalEdges run.plan

/-- What is known of every pass of a local resolution. -/
theorem resolveOnce_passAttributed {vercmp : Bytes → Bytes → Int}
    {callback : Option ProviderSelectionCallback} {result : PassResult}
    (h : resolveOnce env (localPreflight vercmp metadata effectiveArchitecture).roots
      [metadata.packageBase]
      (some fun _ context => .ok
        ((localPreflight vercmp metadata effectiveArchitecture).decide context))
      callback = .ok result) :
    PassAttributed (localSettings env (localPreflight vercmp metadata effectiveArchitecture)
        metadata.packageBase callback)
      (localPreflight vercmp metadata effectiveArchitecture).roots
      (localPreflight vercmp metadata effectiveArchitecture).decide result := by
  apply resolveOnce_attributed _ h
  intro package hmem hdependencies
  exact localPreflight_decides _ _ (localPreflight_supported hmem hdependencies)

/-- A returned run finished the result of one pass. -/
theorem runLocalBuildPlan_pass {env : Nat → MetadataEnvironment}
    (h : runLocalBuildPlan env metadata effectiveArchitecture selectProvider = .ok run) :
    ∃ interaction callback,
      resolveLocal env (localPreflight (env 0).vercmp metadata effectiveArchitecture).roots
          [metadata.packageBase]
          (some fun _ context => .ok
            ((localPreflight (env 0).vercmp metadata effectiveArchitecture).decide context))
          selectProvider = .ok interaction ∧
        PassAttributed (localSettings (env interaction.pass)
            (localPreflight (env 0).vercmp metadata effectiveArchitecture)
            metadata.packageBase callback)
          (localPreflight (env 0).vercmp metadata effectiveArchitecture).roots
          (localPreflight (env 0).vercmp metadata effectiveArchitecture).decide
          interaction.result ∧
        finishLocalBuildPlan (env interaction.pass) metadata effectiveArchitecture
          (localPreflight (env 0).vercmp metadata effectiveArchitecture) interaction = .ok run := by
  unfold runLocalBuildPlan at h
  split at h
  · cases h
  · dsimp only at h
    rw [bind_eq_ok] at h
    obtain ⟨interaction, hinteraction, hfinish⟩ := h
    obtain ⟨callback, hresult⟩ := resolveWithProviderInteraction_pass hinteraction
    exact ⟨interaction, callback, hinteraction, resolveOnce_passAttributed hresult, hfinish⟩

theorem runLocalBuildPlan_spec {env : Nat → MetadataEnvironment}
    (h : runLocalBuildPlan env metadata effectiveArchitecture selectProvider = .ok run) :
    ∃ settings roots decide resolved internalEdges,
      RunFrom metadata (localUnitOf (env 0).vercmp metadata effectiveArchitecture) run settings
        roots decide resolved internalEdges := by
  obtain ⟨interaction, callback, hinteraction, hfinal, hfinish⟩ := runLocalBuildPlan_pass h
  -- Every call came from a pass that ended well.
  have hcalls : ∀ context ∈ interaction.earlierLocalRequests ++ interaction.result.localRequests,
      BaseTells (localUnitOf (env 0).vercmp metadata effectiveArchitecture) context := by
    intro context hcontext
    rcases List.mem_append.mp hcontext with hcontext | hcontext
    · rcases resolveWithProviderInteraction_earlier hinteraction with hnone |
        ⟨earlier, discovered, hdiscovered, hrequests⟩
      · rw [hnone] at hcontext
        cases hcontext
      · rw [hrequests] at hcontext
        exact pass_tells (resolveOnce_passAttributed hdiscovered).attributed context hcontext
    · exact pass_tells hfinal.attributed context hcontext
  have hspec := finishLocalBuildPlan_spec hfinish
  rw [localPreflight_unit] at hspec
  have hcontexts : run.contexts =
      (localPreflight (env 0).vercmp metadata effectiveArchitecture).preclassified ++
        (localPreflight (env 0).vercmp metadata effectiveArchitecture).classified
          (interaction.earlierLocalRequests ++ interaction.result.localRequests) := by
    unfold finishLocalBuildPlan at hfinish
    simp only [bind_eq_ok] at hfinish
    obtain ⟨plan, -, hfinish⟩ := hfinish
    injection hfinish with hfinish
    rw [← hfinish]
  have hclassified : ∀ context ∈
      (localPreflight (env 0).vercmp metadata effectiveArchitecture).classified
        (interaction.earlierLocalRequests ++ interaction.result.localRequests),
      BaseTells (localUnitOf (env 0).vercmp metadata effectiveArchitecture) context :=
    fun context hcontext => hcalls context (List.mem_of_mem_filter hcontext)
  have hunit := @localPreflight_unit (env 0).vercmp metadata effectiveArchitecture
  refine ⟨_, _, _, interaction.result, _, ?_, rfl, localPreflight_rootsOf (env _) callback,
    ?_, hfinal, ?_, ?_, ?_, hspec⟩
  · show (collectEffectiveChildren metadata effectiveArchitecture).map _ = _
    unfold collectEffectiveChildren
    rw [List.map_map]
    rfl
  · intro name
    exact localPreflight_names.trans collectEffectiveChildren_names.symm
  · rw [hcontexts]
    intro context hcontext
    rcases List.mem_append.mp hcontext with hcontext | hcontext
    · exact preclassified_tells hcontext
    · exact hclassified context hcontext
  · rw [hcontexts]
    unfold LocalPreflight.recordsAfter
    rw [hunit]
    exact recordCalls_from hclassified preflight_records_from
  · rw [hcontexts]
    intro context hcontext hbase hsingle
    rcases List.mem_append.mp hcontext with hcontext | hcontext
    · -- A root's own call has the local base.
      unfold LocalPreflight.preclassified at hcontext
      split at hcontext
      · obtain ⟨⟨specification, own⟩, hown, rfl⟩ := List.mem_map.mp hcontext
        obtain ⟨package, hmem, -, hown, -⟩ := mem_preclassifiedContexts hown
        exact absurd (hown.trans (localPreflight_base hmem)) hbase
      · cases hcontext
    · obtain ⟨edge, hedge⟩ := List.exists_mem_of_ne_nil _ (answer_edges_ne_nil_iff.mpr hsingle)
      obtain ⟨kept, hkept, hsame⟩ := exists_same_recordCalls hedge
        (localPreflight (env 0).vercmp metadata effectiveArchitecture).records hcontext
      refine ⟨kept, ?_, (sameInternalEdge_parent hsame).trans (mem_answer_edges hedge).1⟩
      unfold LocalPreflight.recordsAfter
      rw [hunit]
      exact hkept

section Returned

variable {metadata : LocalPackageMetadata} {localUnit : LocalUnit} {run : LocalRun}
  {settings : ResolverSettings} {roots : List RootPackage}
  {decide : DependencyContext → DependencyDecision} {resolved : PassResult}
  {internalEdges : List LocalDependencyPlanInternalEdge}

theorem RunFrom.child_iff
    (h : RunFrom metadata localUnit run settings roots decide resolved internalEdges) :
    (∃ child ∈ metadata.children, child.name = name) ↔
      ∃ child ∈ localUnit.children, child.packageName = name := by
  rw [← List.mem_map, ← List.mem_map, h.children]

/-- An edge of a finished plan was recorded by the pass, or is a local one. -/
theorem FinishedFrom.edge_cases (h : FinishedFrom metadata localUnit pass internalEdges plan)
    (hedge : edge ∈ plan.buildPlan.dependencyEdges) :
    (∃ origin ∈ pass.dependencyEdges, SameEdge origin edge) ∨
      ∃ own ∈ internalEdges, SameEdge (localBuildPlanEdge metadata.packageBase own) edge := by
  obtain ⟨merged, marked, -, hedges, hannotated, hsame, -⟩ := h.annotated
  rw [hsame.edges] at hedge
  obtain ⟨origin, horigin, hsameEdge⟩ := forall₂_exists_right hannotated.edges edge hedge
  rw [hedges] at horigin
  rcases List.mem_append.mp horigin with horigin | horigin
  · exact Or.inl ⟨origin, horigin, hsameEdge⟩
  · obtain ⟨own, hown, rfl⟩ := List.mem_map.mp horigin
    exact Or.inr ⟨own, hown, hsameEdge⟩

/-- Every local edge is in the finished plan. -/
theorem FinishedFrom.local_edge (h : FinishedFrom metadata localUnit pass internalEdges plan)
    {own : LocalDependencyPlanInternalEdge} (hown : own ∈ internalEdges) :
    ∃ edge ∈ plan.buildPlan.dependencyEdges,
      SameEdge (localBuildPlanEdge metadata.packageBase own) edge := by
  obtain ⟨merged, marked, -, hedges, hannotated, hsame, -⟩ := h.annotated
  rw [hsame.edges]
  apply forall₂_exists_left hannotated.edges
  rw [hedges]
  exact List.mem_append_right _ (List.mem_map.mpr ⟨own, hown, rfl⟩)

/-- The targets of the returned plan are those of the pass. -/
theorem RunFrom.target_iff
    (h : RunFrom metadata localUnit run settings roots decide resolved internalEdges) :
    (∃ target ∈ run.plan.buildPlan.packageTargets, target.packageName = name ∧
        target.packageBase = base) ↔
      ∃ target ∈ resolved.plan.packageTargets, target.packageName = name ∧
        target.packageBase = base := by
  obtain ⟨merged, marked, htargets, -, hannotated, hsame, -⟩ := h.finished.annotated
  have hmarked : SamePackages
      { merged with dependencyEdges := marked.dependencyEdges } marked := by
    constructor
    · rfl
    · exact map_eq_of_forall₂ (R := SameTarget)
        (fun _ _ hsame => by rw [hsame.1]; rfl) hannotated.targets
  rw [hsame.planned, hmarked.planned]
  rw [htargets]

/-- What the walk recorded belongs to a planned target. -/
theorem RunFrom.walked_parent
    (h : RunFrom metadata localUnit run settings roots decide resolved internalEdges)
    {origin : BuildPlanDependencyEdge} (horigin : origin ∈ resolved.plan.dependencyEdges)
    (hsame : SameEdge origin edge) :
    ∃ target ∈ run.plan.buildPlan.packageTargets, target.packageName = edge.parentPackageName ∧
        target.packageBase = edge.parentPackageBase := by
  have hplanned := h.pass.attributed.parent_planned h.rootsOf horigin
  rw [h.target_iff]
  unfold SameEdge at hsame
  rw [hsame]
  exact hplanned

/-- A child is planned under the local base. -/
theorem RunFrom.child_planned
    (h : RunFrom metadata localUnit run settings roots decide resolved internalEdges)
    (hchild : ∃ child ∈ localUnit.children, child.packageName = name) :
    ∃ target ∈ run.plan.buildPlan.packageTargets, target.packageName = name ∧
      target.packageBase = metadata.packageBase := by
  rw [h.target_iff]
  obtain ⟨package, hmem, rfl⟩ := (h.names name).mpr hchild
  exact h.pass.attributed.planned h.rootsOf (h.pass.rooted package hmem)
    (.root package hmem rfl (h.rootsOf.base_eq package hmem).symm)

/-- Only a child is planned under the local base. -/
theorem RunFrom.child_of_planned
    (h : RunFrom metadata localUnit run settings roots decide resolved internalEdges)
    (hplanned : ∃ target ∈ run.plan.buildPlan.packageTargets,
      target.packageName = name ∧ target.packageBase = metadata.packageBase) :
    ∃ child ∈ localUnit.children, child.packageName = name := by
  rw [h.target_iff] at hplanned
  obtain ⟨target, hmem, rfl, hbase⟩ := hplanned
  have horigin := h.pass.attributed.targets target hmem
  rw [hbase] at horigin
  obtain ⟨package, hpackage, hname⟩ := horigin.root_of_base h.rootsOf
  exact (h.names _).mp ⟨package, hpackage, hname.symm⟩

theorem RunFrom.locals
    (h : RunFrom metadata localUnit run settings roots decide resolved internalEdges) :
    ∀ edge ∈ run.plan.buildPlan.dependencyEdges, edge.kind = .local →
      edge.resolvedPackageBase = some metadata.packageBase ∧
        ∃ child ∈ metadata.children, edge.resolvedPackageName = some child.name := by
  intro edge hedge hkind
  rcases h.finished.edge_cases hedge with ⟨origin, horigin, hsame⟩ | ⟨own, hown, hsame⟩
  · -- The walk records no local edge.
    unfold SameEdge at hsame
    rw [hsame] at hkind
    exact absurd hkind (h.pass.attributed.edges origin horigin).1
  · unfold SameEdge at hsame
    rw [hsame]
    obtain ⟨child, hchild, hresolved⟩ := (h.edges own hown).resolved
    obtain ⟨declared, hdeclared, hname⟩ := h.child_iff.mpr ⟨child, hchild, rfl⟩
    refine ⟨rfl, declared, hdeclared, ?_⟩
    show some own.resolvedPackageName = _
    rw [hresolved, hname]

/-- The AUR edges of a finished plan come from planned parents. -/
theorem RunFrom.aur_planned
    (h : RunFrom metadata localUnit run settings roots decide resolved internalEdges) :
    AurEdgesPlanned run.plan.buildPlan := by
  intro edge hedge haur
  rcases h.finished.edge_cases hedge with ⟨origin, horigin, hsame⟩ | ⟨own, hown, hsame⟩
  · obtain ⟨target, hmem, hname, -⟩ := h.walked_parent horigin hsame
    exact ⟨target, hmem, hname⟩
  · apply absurd _ haur
    show resolvedAurDependencyName edge = none
    rw [hsame.resolvedAurDependencyName]
    rfl

theorem RunFrom.cycles
    (h : RunFrom metadata localUnit run settings roots decide resolved internalEdges) :
    ∀ edge ∈ run.plan.internalEdges, edge.isCycle = true ↔
      (¬ ∃ child ∈ metadata.children, child.name = edge.parentPackageName) ∨
        DependencyPath run.plan.buildPlan run.plan.internalEdges edge.resolvedPackageName
          edge.parentPackageName := by
  obtain ⟨merged, marked, -, -, -, hsame, hinternal⟩ := h.finished.annotated
  have hroles := aggregateLocalRoles_same marked internalEdges localUnit.children
  have hfinal : SamePackages (aggregateLocalRoles marked internalEdges localUnit.children)
      run.plan.buildPlan := hroles.symm.trans hsame
  have hplanned : AurEdgesPlanned
      (aggregateLocalRoles marked internalEdges localUnit.children) := by
    intro edge hedge haur
    rw [← hfinal.edges] at hedge
    exact hfinal.symm.named (h.aur_planned edge hedge haur)
  intro edge hedge
  rw [h.child_iff]
  rw [hinternal] at hedge ⊢
  rw [markCycles_iff hplanned h.edges hedge]
  apply or_congr Iff.rfl
  constructor
  · exact hfinal.path
  · exact hfinal.symm.path

end Returned

/-- A package that depends on an AUR package, which depends on it again. -/
def backEdgeMetadata : LocalPackageMetadata where
  packageBase := ascii "app"
  pkgver := ascii "1"
  pkgrel := ascii "1"
  architectures := [ascii "any"]
  children := [{ name := ascii "app" }]
  relations := [{
    kind := .depends
    rawValue := ascii "plugin"
    target := some { kind := .package, name := ascii "plugin" }
    scope := ⟨.packageBase, none⟩ }]

def backEdgeEnvironment : MetadataEnvironment :=
  .ofAurRecords [{
    name := ascii "plugin"
    packageBase := ascii "plugin"
    version := ascii "1-1"
    depends := [ascii "app"] }]

end Moguet.Local.Attribution
