import Moguet.Local.Attribution
import Moguet.Local.Offered

/-!
# Local first

What a returned plan says of the names the children offer: an edge on such a
name is a local one, and a child's dependency on it is answered by a local edge
or reported. With a child of another architecture the roots lose their
dependencies, so the resolution ends without a lookup.
-/

namespace Moguet.Local.LocalFirst

open Verified.ByteString Verified.Checked Verified.Upsert Plan.Metadata Plan.Model Plan.Discovery
open Plan.Dependency Plan.Order Plan.Resolver Plan.Resolution Plan.Interaction Metadata Projection
open Answers Walk Pass Preflight Attribution Offered

variable {env : MetadataEnvironment} {vercmp : Bytes → Bytes → Int}

variable {resolver : Option LocalDependencyResolver} {callback : Option ProviderSelectionCallback}
  {specification : Bytes} {own : MetadataEnvironment} {plan : BuildPlan} {result : PassResult}
  {interaction : InteractionResult} {preflight : LocalPreflight} {child : LocalPackageMetadataChild}
  {declaration : TypedPackageDependency}

/-! ## Roots that ask nothing -/

/-- The state after roots without dependencies were entered. -/
def enteredRoots (items : List (RootPackage × Nat)) (state : WalkState) : WalkState :=
  items.foldl (fun current item =>
    current.withPlan (enterRootPackage item.1 ⟨item.2, item.1.packageName⟩ current.plan)) state

theorem foldlM_collectRootPackage_bare (settings : ResolverSettings) :
    ∀ {items : List (RootPackage × Nat)} (state : WalkState),
      (∀ item ∈ items, item.1.dependencies = []) →
        items.foldlM (collectRootPackage settings) state = .ok (enteredRoots items state) := by
  intro items
  induction items with
  | nil => exact fun state _ => rfl
  | cons item rest ih =>
    intro state hbare
    have hown : collectRootPackage settings state item = .ok (state.withPlan
        (enterRootPackage item.1 ⟨item.2, item.1.packageName⟩ state.plan)) := by
      unfold collectRootPackage
      dsimp only
      rw [hbare item List.mem_cons_self]
      rfl
    rw [List.foldlM_cons, hown]
    exact ih _ fun other hother => hbare other (List.mem_cons_of_mem _ hother)

theorem enteredRoots_frame (items : List (RootPackage × Nat)) (state : WalkState) :
    (enteredRoots items state).plan.dependencyEdges = state.plan.dependencyEdges ∧
      (enteredRoots items state).localRequests = state.localRequests := by
  induction items generalizing state with
  | nil => exact ⟨rfl, rfl⟩
  | cons item rest ih =>
    have hown : (enterRootPackage item.1 ⟨item.2, item.1.packageName⟩
        state.plan).dependencyEdges = state.plan.dependencyEdges := by
      unfold enterRootPackage addBuildPlanMetadataRisk addBuildPlanSplitPackageTarget
      dsimp only
      split <;> split <;> rfl
    obtain ⟨hedges, hcalls⟩ := ih (state.withPlan
      (enterRootPackage item.1 ⟨item.2, item.1.packageName⟩ state.plan))
    exact ⟨hedges.trans hown, hcalls⟩

/-- A plan without edges has no contradicting requirements. -/
theorem projectBuildPlanConstraintConflicts_bare (env : MetadataEnvironment)
    (h : plan.dependencyEdges = []) : projectBuildPlanConstraintConflicts env plan = .ok plan := by
  have hgroups : constraintGroups plan = [] := by
    unfold constraintGroups
    rw [h]
    rfl
  unfold projectBuildPlanConstraintConflicts
  rw [hgroups]
  rfl

theorem finishBuildPlan_bare (env other : MetadataEnvironment) (h : plan.dependencyEdges = []) :
    finishBuildPlan env plan = finishBuildPlan other plan := by
  unfold finishBuildPlan
  cases hordered : orderBuildPlanEntries plan with
  | error thrown => rfl
  | ok ordered =>
    have hedges : (propagateResolutionFailureRootIdentities
        (propagateRootIdentities ordered)).dependencyEdges = [] := by
      show (propagateRootIdentities ordered).dependencyEdges = []
      rw [propagateRootIdentities_frame, orderBuildPlanEntries_frame hordered]
      exact h
    show (projectBuildPlanConstraintConflicts env _ >>= _) =
      (projectBuildPlanConstraintConflicts other _ >>= _)
    rw [projectBuildPlanConstraintConflicts_bare env hedges,
      projectBuildPlanConstraintConflicts_bare other hedges]

section Bare

variable {roots : List RootPackage} {bases : List Bytes}

/-- A pass over such roots reads no metadata. -/
theorem resolveOnce_bare (hbare : ∀ package ∈ roots, package.dependencies = [])
    (env other : MetadataEnvironment) (resolver own : Option LocalDependencyResolver)
    (callback : Option ProviderSelectionCallback) :
    resolveOnce env roots bases resolver callback = resolveOnce other roots bases own callback := by
  have hitems : ∀ item ∈ roots.zipIdx, item.1.dependencies = [] :=
    fun item hitem => hbare item.1 (List.fst_mem_of_mem_zipIdx hitem)
  unfold resolveOnce
  dsimp only
  rw [foldlM_collectRootPackage_bare _ _ hitems, foldlM_collectRootPackage_bare _ _ hitems]
  cases requireRootPackages roots with
  | error thrown => rfl
  | ok _ =>
    show (finishBuildPlan env _ >>= _) = (finishBuildPlan other _ >>= _)
    rw [finishBuildPlan_bare env other (enteredRoots_frame roots.zipIdx {}).1]

/-- And leaves no edge and no call. -/
theorem resolveOnce_bare_ok (hbare : ∀ package ∈ roots, package.dependencies = [])
    (h : resolveOnce env roots bases resolver callback = .ok result) :
    result.plan.dependencyEdges = [] ∧ result.localRequests = [] := by
  have hitems : ∀ item ∈ roots.zipIdx, item.1.dependencies = [] :=
    fun item hitem => hbare item.1 (List.fst_mem_of_mem_zipIdx hitem)
  unfold resolveOnce at h
  dsimp only at h
  rw [foldlM_collectRootPackage_bare _ _ hitems] at h
  simp only [bind_eq_ok] at h
  obtain ⟨_, -, state, hstate, plan, hplan, h⟩ := h
  injection hstate with hstate
  injection h with h
  obtain ⟨hedges, hcalls⟩ := enteredRoots_frame roots.zipIdx {}
  obtain ⟨ordered, hordered, hannotated⟩ := finishBuildPlan_spec hplan
  rw [← h]
  constructor
  · have hforall := hannotated.edges
    rw [orderBuildPlanEntries_frame hordered, ← hstate, hedges] at hforall
    exact List.forall₂_nil_left_iff.mp hforall
  · show state.localRequests = []
    rw [← hstate, hcalls]

end Bare

/-! ## A child of another architecture -/

section Unsupported

variable {vercmp : Bytes → Bytes → Int} {metadata : LocalPackageMetadata}
  {effectiveArchitecture : Bytes}

/-- The preflight, and whether it asks anything. -/
theorem localPreflight_of_unsupported (hunsupported :
      ¬ AllSupported (collectEffectiveChildren metadata effectiveArchitecture)) :
    localPreflight vercmp metadata effectiveArchitecture =
      { localUnit := localUnitOf vercmp metadata effectiveArchitecture
        roots := (collectRootPackages
          (collectEffectiveChildren metadata effectiveArchitecture) metadata.packageBase).map
            fun root => { root with dependencies := [] }
        unresolved := (unsupportedArchitectures
          (collectEffectiveChildren metadata effectiveArchitecture) effectiveArchitecture).2
        cycles := []
        records :=
          { failures := (unsupportedArchitectures
            (collectEffectiveChildren metadata effectiveArchitecture) effectiveArchitecture).1 }
        cachedDecisions := [] } := by
  have hsome : (unsupportedArchitectures (collectEffectiveChildren metadata effectiveArchitecture)
        effectiveArchitecture).2 ≠ [] :=
    fun hnone => hunsupported ((unsupportedArchitectures_eq_nil effectiveArchitecture).mp hnone)
  unfold localPreflight localUnitOf
  dsimp only
  rw [if_neg hsome]

theorem localPreflight_bare (hunsupported :
      ¬ AllSupported (collectEffectiveChildren metadata effectiveArchitecture)) :
    ∀ package ∈ (localPreflight vercmp metadata effectiveArchitecture).roots,
      package.dependencies = [] := by
  intro package hmem
  rw [localPreflight_of_unsupported hunsupported] at hmem
  obtain ⟨own, -, rfl⟩ := List.mem_map.mp hmem
  rfl

/-- The resolution over such roots, its calls and its edges. -/
theorem resolveLocal_bare {env : Nat → MetadataEnvironment} {roots : List RootPackage}
    {bases : List Bytes} {selectProvider : Option ProviderSelectionCallback}
    (hbare : ∀ package ∈ roots, package.dependencies = [])
    (h : resolveLocal env roots bases resolver selectProvider = .ok interaction) :
    interaction.result.plan.dependencyEdges = [] ∧
      interaction.earlierLocalRequests ++ interaction.result.localRequests = [] := by
  obtain ⟨callback, hresult⟩ := resolveWithProviderInteraction_pass h
  obtain ⟨hedges, hcalls⟩ := resolveOnce_bare_ok hbare hresult
  have hearlier : interaction.earlierLocalRequests = [] := by
    rcases resolveWithProviderInteraction_earlier h with hnone |
      ⟨earlier, discovered, hdiscovered, hrequests⟩
    · exact hnone
    · rw [hrequests]
      exact (resolveOnce_bare_ok hbare hdiscovered).2
  rw [hearlier, hcalls]
  exact ⟨hedges, rfl⟩

/-- The end of an invocation whose resolution recorded nothing. -/
theorem finishLocalBuildPlan_bare (env other : MetadataEnvironment) (vercmp : Bytes → Bytes → Int)
    (hedges : interaction.result.plan.dependencyEdges = [])
    (hcalls : interaction.earlierLocalRequests ++ interaction.result.localRequests = [])
    (hrecords : preflight.records.internalEdges = []) :
    finishLocalBuildPlan env metadata effectiveArchitecture preflight interaction =
      finishLocalBuildPlan other metadata effectiveArchitecture
        { preflight with localUnit := { preflight.localUnit with vercmp := vercmp } }
        interaction := by
  have hnone : preflight.recordsAfter [] = preflight.records := rfl
  have hother : LocalPreflight.recordsAfter
      { preflight with localUnit := { preflight.localUnit with vercmp := vercmp } } [] =
        preflight.records := rfl
  unfold finishLocalBuildPlan finalizeBuildPlanConstraints
  dsimp only
  rw [hcalls, hnone, hother, hrecords]
  rw [projectBuildPlanConstraintConflicts_bare env, projectBuildPlanConstraintConflicts_bare other]
  · rfl
  · show interaction.result.plan.dependencyEdges ++ [] = []
    rw [hedges]
    rfl
  · show interaction.result.plan.dependencyEdges ++ [] = []
    rw [hedges]
    rfl

/-- Whatever the environment would say, the outcome is the same. -/
theorem runLocalBuildPlan_unsupported (hunsupported :
      ¬ AllSupported (collectEffectiveChildren metadata effectiveArchitecture))
    (env other : Nat → MetadataEnvironment)
    (selectProvider : Option ProviderSelectionCallback) :
    runLocalBuildPlan env metadata effectiveArchitecture selectProvider =
      runLocalBuildPlan other metadata effectiveArchitecture selectProvider := by
  unfold runLocalBuildPlan
  split
  · rfl
  · dsimp only
    have hpreflight : localPreflight (other 0).vercmp metadata effectiveArchitecture =
        { localPreflight (env 0).vercmp metadata effectiveArchitecture with
          localUnit :=
            { (localPreflight (env 0).vercmp metadata effectiveArchitecture).localUnit with
              vercmp := (other 0).vercmp } } := by
      rw [localPreflight_of_unsupported hunsupported, localPreflight_of_unsupported hunsupported]
      rfl
    have hbare := @localPreflight_bare (env 0).vercmp metadata effectiveArchitecture hunsupported
    have hrecords :
        (localPreflight (env 0).vercmp metadata effectiveArchitecture).records.internalEdges =
          [] := by
      rw [localPreflight_of_unsupported hunsupported]
    generalize hown : localPreflight (env 0).vercmp metadata effectiveArchitecture = preflight
      at hpreflight hbare hrecords ⊢
    rw [hpreflight]
    have hresolved : resolveLocal env preflight.roots [metadata.packageBase]
          (some fun _ context => .ok (preflight.decide context)) selectProvider =
        resolveLocal other preflight.roots [metadata.packageBase]
          (some fun _ context => .ok (LocalPreflight.decide
            { preflight with
              localUnit := { preflight.localUnit with vercmp := (other 0).vercmp } }
            context)) selectProvider := by
      unfold resolveLocal
      congr 1
      funext pass callback
      exact resolveOnce_bare hbare _ _ _ _ _
    rw [hresolved]
    cases hinteraction : resolveLocal other preflight.roots [metadata.packageBase]
        (some fun _ context => .ok (LocalPreflight.decide
          { preflight with
            localUnit := { preflight.localUnit with vercmp := (other 0).vercmp } }
          context)) selectProvider with
    | error thrown =>
      show (Except.error thrown : Except Thrown LocalRun) = Except.error thrown
      rfl
    | ok interaction =>
      obtain ⟨hedges, hcalls⟩ := resolveLocal_bare hbare hinteraction
      exact finishLocalBuildPlan_bare _ _ _ hedges hcalls hrecords

end Unsupported

/-! ## What a finished plan reports -/

theorem aggregateLocalRoles_unresolved (plan : BuildPlan)
    (internalEdges : List LocalDependencyPlanInternalEdge) (children : List EffectiveChild) :
    (aggregateLocalRoles plan internalEdges children).unresolved = plan.unresolved := by
  apply foldl_keeps BuildPlan.unresolved
  intro plan edge
  split <;> rfl

theorem propagateLocalRootIdentities_unresolved (plan : BuildPlan)
    (internalEdges : List LocalDependencyPlanInternalEdge) :
    (propagateLocalRootIdentities plan internalEdges).unresolved = plan.unresolved := by
  show (plan.rootTargets.foldl (propagateLocalRoot internalEdges) plan).unresolved = _
  apply foldl_keeps BuildPlan.unresolved
  intro plan root
  apply foldl_keeps BuildPlan.unresolved
  intro plan name
  rfl

theorem finishLocalBuildPlan_unresolved {metadata : LocalPackageMetadata}
    {effectiveArchitecture : Bytes} {run : LocalRun}
    (h : finishLocalBuildPlan env metadata effectiveArchitecture preflight interaction = .ok run) :
    run.plan.buildPlan.unresolved =
      preflight.unresolved.foldl insertNew interaction.result.plan.unresolved := by
  unfold finishLocalBuildPlan finalizeBuildPlanConstraints at h
  simp only [bind_eq_ok] at h
  obtain ⟨marked, ⟨projected, hprojected, _, -, hmarked⟩, h⟩ := h
  injection hmarked with hmarked
  rw [hmarked] at hprojected
  injection h with h
  rw [← h]
  show (propagateLocalRootIdentities _ _).unresolved = _
  rw [propagateLocalRootIdentities_unresolved]
  show (aggregateLocalRoles _ _ _).unresolved = _
  rw [aggregateLocalRoles_unresolved]
  rw [(projectBuildPlanConstraintConflicts_annotated hprojected).frame]
  rfl

/-! ## The returned plan -/

/-- `X (ambiguous local providers)`. -/
def ambiguousText (specification : Bytes) : Bytes :=
  specification ++ ascii " (ambiguous local providers)"

/-- What a plan of local packages says of the names its children offer. -/
structure AnswersLocally (metadata : LocalPackageMetadata) (effectiveArchitecture : Bytes)
    (plan : BuildPlan) : Prop where
  edges : ∀ edge ∈ plan.dependencyEdges,
    LocallyOffered metadata effectiveArchitecture
      (requiredName ⟨edge.dependencySpec, edge.role, edge.requirement⟩) → edge.kind = .local
  answered : ∀ child ∈ metadata.children, ∀ declaration ∈
    (rootOfName metadata effectiveArchitecture child.name).dependencies,
    LocallyOffered metadata effectiveArchitecture (requiredName declaration) →
      (∃ edge ∈ plan.dependencyEdges, edge.kind = .local ∧
        edge.parentPackageName = child.name ∧
        edge.dependencySpec = declaration.specification ∧ edge.role = declaration.role) ∨
      ambiguousText declaration.specification ∈ plan.unresolved ∨
      ∃ other ∈ metadata.children,
        childSupportsArchitecture metadata other effectiveArchitecture = false
  unsupported : ∀ child ∈ metadata.children,
    childSupportsArchitecture metadata child effectiveArchitecture = false →
      child.name ++ ascii " (unsupported architecture: " ++ effectiveArchitecture ++ ascii ")" ∈
        plan.unresolved

/-- Text that ends visibly stays as it is behind text that starts visibly. -/
theorem trim_append_of_visible {front : Bytes} {last : UInt8} (middle : Bytes)
    (htrimmed : trim front = front) (hne : front ≠ []) (hlast : isBlank last = false) :
    trim (front ++ (middle ++ [last])) = front ++ (middle ++ [last]) := by
  have hhead : ∃ b rest, front = b :: rest ∧ isBlank b = false := by
    cases front with
    | nil => exact absurd rfl hne
    | cons b rest =>
      refine ⟨b, rest, rfl, ?_⟩
      rw [Bool.eq_false_iff]
      intro hblank
      -- A leading blank would have been trimmed.
      have hshort : (trim (b :: rest)).length ≤ rest.length := by
        unfold trim
        rw [List.dropWhile_cons_of_pos hblank]
        exact ((List.rdropWhile_prefix _ _).length_le).trans (List.dropWhile_sublist _).length_le
      rw [htrimmed, List.length_cons] at hshort
      omega
  obtain ⟨b, rest, rfl, hb⟩ := hhead
  unfold trim
  rw [List.cons_append, List.dropWhile_cons_of_neg (by rw [hb]; decide)]
  rw [← List.cons_append, ← List.append_assoc]
  exact List.rdropWhile_concat_neg _ _ _ (by rw [hlast]; decide)

theorem ambiguousText_trimmed (htrimmed : trim specification = specification)
    (hne : specification ≠ []) :
    trim (ambiguousText specification) = ambiguousText specification := by
  have hsplit : ascii " (ambiguous local providers)" =
      ascii " (ambiguous local providers" ++ [byte ')'] := by decide
  unfold ambiguousText
  rw [hsplit]
  exact trim_append_of_visible _ htrimmed hne (by decide)

section Returned

variable {env : Nat → MetadataEnvironment} {metadata : LocalPackageMetadata}
  {effectiveArchitecture : Bytes} {selectProvider : Option ProviderSelectionCallback}
  {run : LocalRun}

/-- What the walk records is not offered locally. -/
theorem walked_not_offered (accepted : Accepted metadata)
    (hsupported : AllSupported (collectEffectiveChildren metadata effectiveArchitecture))
    (hpass : PassAttributed
      (localSettings own (localPreflight vercmp metadata effectiveArchitecture)
        metadata.packageBase callback)
      (localPreflight vercmp metadata effectiveArchitecture).roots
      (localPreflight vercmp metadata effectiveArchitecture).decide result)
    {edge : BuildPlanDependencyEdge} (hedge : edge ∈ result.plan.dependencyEdges) :
    ¬ LocallyOffered metadata effectiveArchitecture
      (requiredName ⟨edge.dependencySpec, edge.role, edge.requirement⟩) := by
  intro hoffered
  obtain ⟨-, context, hcontext, hleft, -, -, declaration, hdeclaration, hspec, hrole,
    hrequirement⟩ := hpass.attributed.edges edge hedge
  rw [hspec, hrole, hrequirement] at hoffered
  obtain ⟨hparent, -⟩ := hpass.attributed.calls context hcontext
  obtain ⟨requirement, htells, hstated⟩ :=
    stated_of_parent accepted hsupported hparent hdeclaration
  cases hdeclared : context.declarations with
  | nil =>
    rw [hdeclared] at hdeclaration
    cases hdeclaration
  | cons first rest =>
    have hfirst := hstated first (by rw [hdeclared]; exact List.mem_cons_self)
    have hsame : requiredName first = requiredName declaration := by
      unfold requiredName parseRequiredDependency
      rw [hfirst, hstated declaration hdeclaration]
      cases requirement <;> rfl
    have htaken := @handled_of_offered vercmp metadata effectiveArchitecture context first
      rest requirement accepted hsupported hdeclared hfirst htells (by rw [hsame]; exact hoffered)
    rw [decide_handled hsupported (fun _ => mem_passSettings_names.mpr) hparent hdeclared,
      htaken] at hleft
    cases hleft

/-- The call for a child's specification that is worked out first, and the one
the pass makes: the same declaration stands first in both. -/
theorem exists_child_calls (accepted : Accepted metadata)
    (hsupported : AllSupported (collectEffectiveChildren metadata effectiveArchitecture))
    (hpass : PassAttributed
      (localSettings own (localPreflight vercmp metadata effectiveArchitecture)
        metadata.packageBase callback)
      (localPreflight vercmp metadata effectiveArchitecture).roots
      (localPreflight vercmp metadata effectiveArchitecture).decide result)
    (hchild : child ∈ metadata.children) (hmem : declaration ∈
      (rootOfName metadata effectiveArchitecture child.name).dependencies) :
    ∃ cached asked first rest others, (declaration.specification, cached) ∈ preclassifiedContexts
          (localPreflight vercmp metadata effectiveArchitecture).roots ∧
        cached.parentPackageName = child.name ∧ declaration ∈ cached.declarations ∧
        cached.declarations = first :: rest ∧ asked ∈ result.localRequests ∧
        asked.declarations = first :: others ∧
        first.specification = declaration.specification ∧ Declared first := by
  obtain ⟨package, hpackage, hname⟩ :=
    (@localPreflight_names vercmp metadata effectiveArchitecture child.name).mpr
      ⟨child, hchild, rfl⟩
  have hroot : package = rootOfName metadata effectiveArchitecture child.name := by
    have hown := hpackage
    rw [(@localPreflight_of_supported vercmp _ _ hsupported).1] at hown
    rw [← hname]
    exact collectRootPackages_rootOfName hsupported hown
  have hdeclares := declared_of_root accepted hmem
  rw [← hroot] at hmem
  obtain ⟨index, hlt, hget⟩ := List.mem_iff_getElem.mp hpackage
  have hitem : (package, index) ∈
      (localPreflight vercmp metadata effectiveArchitecture).roots.zipIdx := by
    rw [List.mk_mem_zipIdx_iff_getElem?, ← hget]
    exact List.getElem?_eq_getElem hlt
  have hspecification : declaration.specification ∈
      package.dependencies.map (·.specification) := List.mem_map_of_mem hmem
  have hasked := hpass.asked (package, index) hitem declaration.specification
    (mem_foldl_addUniqueValue hdeclares.trimmed hdeclares.not_empty [] hspecification)
  have hown : declaration ∈ typedDependenciesForSpecification package.dependencies
      declaration.specification :=
    List.mem_filter.mpr ⟨hmem, by simpa using hdeclares.trimmed⟩
  obtain ⟨first, others, hfirst⟩ := List.exists_cons_of_ne_nil (List.ne_nil_of_mem hown)
  obtain ⟨rest, hhead⟩ := head_declarationsForSpecification hfirst
  have hstated : first.specification = declaration.specification ∧ Declared first := by
    have hmemFirst : first ∈ typedDependenciesForSpecification package.dependencies
        declaration.specification := by
      rw [hfirst]
      exact List.mem_cons_self
    obtain ⟨hfirstOwn, hsame⟩ := List.mem_filter.mp hmemFirst
    rw [hroot] at hfirstOwn
    have hfirstDeclares := declared_of_root accepted hfirstOwn
    exact ⟨hfirstDeclares.trimmed.symm.trans (by simpa using hsame), hfirstDeclares⟩
  refine ⟨⟨package.packageName, package.packageBase,
    declarationsForSpecification package declaration.specification,
    ⟨index, package.packageName⟩⟩, _, first, rest, others, ?_, hname, ?_, ?_, hasked, hfirst,
    hstated⟩
  · apply List.mem_flatMap.mpr
    refine ⟨(package, index), hitem, List.mem_map.mpr ⟨declaration.specification, ?_, rfl⟩⟩
    exact mem_foldl_insertNew.mpr (Or.inr hspecification)
  · exact List.mem_filter.mpr ⟨hmem, by simp⟩
  · show declarationsForSpecification package declaration.specification = _
    rw [← hstated.1]
    exact hhead

/-- The internal edges of the preflight are those of its calls, marked. -/
theorem exists_same_preflight
    (hsupported : AllSupported (collectEffectiveChildren metadata effectiveArchitecture))
    {context : DependencyContext} (hcall : (specification, context) ∈ preclassifiedContexts
      (localPreflight vercmp metadata effectiveArchitecture).roots)
    {edge : LocalDependencyPlanInternalEdge} (hedge : edge ∈ (resolveLocalCandidate
      (localUnitOf vercmp metadata effectiveArchitecture) context).internalEdges)
    (calls : List DependencyContext) :
    ∃ kept ∈ ((localPreflight vercmp metadata effectiveArchitecture).recordsAfter
      calls).internalEdges, sameInternalEdge kept edge = true := by
  have hnone := (unsupportedArchitectures_eq_nil effectiveArchitecture).mpr hsupported
  have hstart : ∃ kept ∈
      (localPreflight vercmp metadata effectiveArchitecture).records.internalEdges,
        sameInternalEdge kept edge = true := by
    rw [(@localPreflight_of_supported vercmp _ _ hsupported).1] at hcall
    have hmem : context ∈ (preclassifiedContexts (collectRootPackages
        (collectEffectiveChildren metadata effectiveArchitecture)
          metadata.packageBase)).map (·.2) :=
      List.mem_map.mpr ⟨(specification, context), hcall, rfl⟩
    obtain ⟨kept, hkept, hsame⟩ := exists_same_recordCalls hedge
      { failures := (unsupportedArchitectures
        (collectEffectiveChildren metadata effectiveArchitecture) effectiveArchitecture).1 } hmem
    unfold localPreflight
    dsimp only
    rw [if_pos (show (unsupportedArchitectures (localUnitOf vercmp metadata
      effectiveArchitecture).children effectiveArchitecture).2 = [] from hnone)]
    refine ⟨_, List.mem_map.mpr ⟨kept, hkept, rfl⟩, ?_⟩
    -- A mark is no part of what makes two edges the same.
    split <;> exact hsame
  obtain ⟨kept, hkept, hsame⟩ := hstart
  exact ⟨kept, subset_recordCalls _ _ _ hkept, hsame⟩

/-- A child's dependency on an offered name has its local edge, or several
children offer it. -/
theorem child_answered (accepted : Accepted metadata)
    (hsupported : AllSupported (collectEffectiveChildren metadata effectiveArchitecture))
    (hpass : PassAttributed (localSettings (env interaction.pass)
        (localPreflight (env 0).vercmp metadata effectiveArchitecture)
        metadata.packageBase callback)
      (localPreflight (env 0).vercmp metadata effectiveArchitecture).roots
      (localPreflight (env 0).vercmp metadata effectiveArchitecture).decide
      interaction.result)
    (hfinish : finishLocalBuildPlan (env interaction.pass) metadata effectiveArchitecture
      (localPreflight (env 0).vercmp metadata effectiveArchitecture) interaction = .ok run)
    (hchild : child ∈ metadata.children) (hmem : declaration ∈
      (rootOfName metadata effectiveArchitecture child.name).dependencies)
    (hoffered : LocallyOffered metadata effectiveArchitecture (requiredName declaration)) :
    (∃ edge ∈ run.plan.buildPlan.dependencyEdges, edge.kind = .local ∧
        edge.parentPackageName = child.name ∧
        edge.dependencySpec = declaration.specification ∧ edge.role = declaration.role) ∨
      ambiguousText declaration.specification ∈ run.plan.buildPlan.unresolved := by
  obtain ⟨cached, asked, first, rest, others, hcall, hname, hown, hfirst, hasked, hhead,
    htext, hdeclaredFirst⟩ := exists_child_calls accepted hsupported hpass hchild hmem
  have hdeclares := declared_of_root accepted hmem
  -- The first declaration states the same requirement.
  obtain ⟨hparent, -⟩ := hpass.attributed.calls asked hasked
  obtain ⟨requirement, hrequirement, htells⟩ := hdeclaredFirst.tells
  have hsame : requiredName first = requiredName declaration := by
    have hequal : first.requirement = declaration.requirement := by
      rw [hdeclaredFirst.requirement, htext, ← hdeclares.requirement]
    unfold requiredName parseRequiredDependency
    rw [hequal, htext]
  rw [← hsame] at hoffered
  have htaken := @handled_of_offered (env 0).vercmp metadata effectiveArchitecture cached first
    rest requirement accepted hsupported hfirst hrequirement htells hoffered
  have hspec := resolveLocalCandidate_spec
    (localUnitOf (env 0).vercmp metadata effectiveArchitecture) cached
  generalize hanswer : resolveLocalCandidate
    (localUnitOf (env 0).vercmp metadata effectiveArchitecture) cached = answer at hspec htaken
  cases hspec with
  | refused => cases htaken
  | taken head tail candidate _ _ =>
    left
    have hedge : internalEdge (localUnitOf (env 0).vercmp metadata effectiveArchitecture)
        cached (parseRequiredDependency head) candidate declaration ∈ (resolveLocalCandidate
            (localUnitOf (env 0).vercmp metadata effectiveArchitecture) cached).internalEdges := by
      rw [hanswer]
      exact List.mem_map_of_mem hown
    obtain ⟨kept, hkept, hlike⟩ := exists_same_preflight hsupported hcall hedge
      (interaction.earlierLocalRequests ++ interaction.result.localRequests)
    obtain ⟨edge, hplanned, hplannedSame⟩ :=
      (finishLocalBuildPlan_spec hfinish).local_edge hkept
    refine ⟨edge, hplanned, ?_⟩
    simp only [sameInternalEdge, Bool.and_eq_true, decide_eq_true_eq] at hlike
    unfold SameEdge at hplannedSame
    rw [hplannedSame]
    exact ⟨rfl, hlike.1.1.1.1.1.trans hname, hlike.1.1.1.1.2, hlike.1.1.1.2⟩
  | ambiguous head tail selectable hdeclared =>
    right
    rw [hfirst] at hdeclared
    injection hdeclared with hhead' _
    obtain ⟨own, others', hown', hdecides⟩ := decide_answers hsupported
      (fun _ => mem_passSettings_names.mpr) hparent hhead
    obtain ⟨hhandled, hreason⟩ := @resolveLocalCandidate_congr
      (localUnitOf (env 0).vercmp metadata effectiveArchitecture) own cached first others'
      rest hown' hfirst
    rw [hanswer] at hhandled hreason
    have hreported : ReportedBy
        (localPreflight (env 0).vercmp metadata effectiveArchitecture).decide asked
        (ambiguousText declaration.specification) := by
      unfold ReportedBy
      rw [hdecides, hhandled, hreason]
      refine ⟨rfl, ?_, ambiguousText_trimmed hdeclares.trimmed hdeclares.not_empty, ?_⟩
      · rw [← htext, hhead']
        rfl
      · intro hempty
        exact hdeclares.not_empty (List.append_eq_nil_iff.mp hempty).1
    rw [finishLocalBuildPlan_unresolved hfinish]
    exact mem_foldl_insertNew.mpr (Or.inl (hpass.attributed.reported asked hasked hreported))

theorem runLocalBuildPlan_answersLocally (accepted : Accepted metadata)
    (h : runLocalBuildPlan env metadata effectiveArchitecture selectProvider = .ok run) :
    AnswersLocally metadata effectiveArchitecture run.plan.buildPlan := by
  obtain ⟨interaction, callback, hinteraction, hpass, hfinish⟩ := runLocalBuildPlan_pass h
  have hfinished := finishLocalBuildPlan_spec hfinish
  have hreports := finishLocalBuildPlan_unresolved hfinish
  by_cases hsupported : AllSupported (collectEffectiveChildren metadata effectiveArchitecture)
  · have hall : ∀ child ∈ metadata.children,
        childSupportsArchitecture metadata child effectiveArchitecture = true :=
      fun child hchild => hsupported _ (List.mem_map.mpr ⟨child, hchild, rfl⟩)
    constructor
    · intro edge hedge hoffered
      rcases hfinished.edge_cases hedge with ⟨origin, horigin, hsame⟩ | ⟨own, hown, hsame⟩
      · unfold SameEdge at hsame
        rw [hsame] at hoffered
        have hwalked := walked_not_offered accepted hsupported hpass horigin
        exact absurd hoffered hwalked
      · unfold SameEdge at hsame
        rw [hsame]
        rfl
    · intro child hchild declaration hmem hoffered
      rcases child_answered accepted hsupported hpass hfinish hchild hmem hoffered with
        hedge | hreported
      · exact Or.inl hedge
      · exact Or.inr (Or.inl hreported)
    · intro child hchild hunsupported
      rw [hall child hchild] at hunsupported
      cases hunsupported
  · obtain ⟨hedges, hcalls⟩ := resolveLocal_bare (localPreflight_bare hsupported) hinteraction
    have hpreflight := @localPreflight_of_unsupported (env 0).vercmp metadata
      effectiveArchitecture hsupported
    constructor
    · intro edge hedge _
      rcases hfinished.edge_cases hedge with ⟨origin, horigin, -⟩ | ⟨own, hown, -⟩
      · rw [hedges] at horigin
        cases horigin
      · rw [hcalls, hpreflight] at hown
        cases hown
    · intro child _ declaration _ _
      right
      right
      unfold AllSupported at hsupported
      push Not at hsupported
      obtain ⟨effective, heffective, hunsupported⟩ := hsupported
      obtain ⟨other, hother, rfl⟩ := List.mem_map.mp heffective
      exact ⟨other, hother, Bool.eq_false_iff.mpr hunsupported⟩
    · intro child hchild hunsupported
      rw [hreports, hpreflight]
      apply mem_foldl_insertNew.mpr
      right
      unfold unsupportedArchitectures
      apply mem_foldl_insertNew.mpr
      right
      refine List.mem_map.mpr ⟨⟨child.name, _, _⟩, List.mem_filter.mpr
        ⟨List.mem_map.mpr ⟨child, hchild, rfl⟩, ?_⟩, rfl⟩
      dsimp only
      rw [hunsupported]
      rfl

end Returned

theorem resolveLocalBuildPlan_localFirst {source : Bytes} {metadata : LocalPackageMetadata}
    (hparsed : parseLocalPackageMetadata source = .ok metadata)
    (env : Nat → MetadataEnvironment) (effectiveArchitecture : Bytes)
    (selectProvider : Option ProviderSelectionCallback) :
    (∀ plan, resolveLocalBuildPlan env metadata effectiveArchitecture selectProvider =
        .ok plan → AnswersLocally metadata effectiveArchitecture plan.buildPlan) ∧
      ((∃ child ∈ metadata.children,
          childSupportsArchitecture metadata child effectiveArchitecture = false) →
        ∀ other : Nat → MetadataEnvironment,
          resolveLocalBuildPlan env metadata effectiveArchitecture selectProvider =
            resolveLocalBuildPlan other metadata effectiveArchitecture selectProvider) := by
  have accepted := parseLocalPackageMetadata_accepted hparsed
  constructor
  · intro plan hplan
    unfold resolveLocalBuildPlan at hplan
    rw [bind_eq_ok] at hplan
    obtain ⟨run, hrun, hplan⟩ := hplan
    injection hplan with hplan
    rw [← hplan]
    exact runLocalBuildPlan_answersLocally accepted hrun
  · rintro ⟨child, hchild, hunsupported⟩ other
    have hnot : ¬ AllSupported (collectEffectiveChildren metadata effectiveArchitecture) := by
      intro hall
      have hsupported := hall _ (List.mem_map.mpr ⟨child, hchild, rfl⟩)
      dsimp only at hsupported
      rw [hunsupported] at hsupported
      cases hsupported
    unfold resolveLocalBuildPlan
    rw [runLocalBuildPlan_unsupported hnot env other selectProvider]

/-- Two children, one of which needs the other; the AUR has a package of that
name too. -/
def siblingSource : Bytes :=
  ascii "pkgbase = app\n\tpkgver = 1\n\tpkgrel = 1\n\tarch = x86_64\n\npkgname = app\n" ++
    ascii "\tdepends = applib\n\npkgname = applib\n"

def siblingMetadata : LocalPackageMetadata where
  packageBase := ascii "app"
  pkgver := ascii "1"
  pkgrel := ascii "1"
  architectures := [ascii "x86_64"]
  children := [{ name := ascii "app" }, { name := ascii "applib" }]
  relations := [{
    kind := .depends
    rawValue := ascii "applib"
    target := some { kind := .package, name := ascii "applib" }
    scope := ⟨.childPackage, some (ascii "app")⟩ }]

def siblingEnvironment : MetadataEnvironment :=
  .ofAurRecords [{
    name := ascii "applib"
    packageBase := ascii "applib"
    version := ascii "9-1" }]

theorem resolveLocalBuildPlan_localFirst_sibling :
    (∃ plan, resolveLocalBuildPlan (fun _ => siblingEnvironment) siblingMetadata
        (ascii "x86_64") none = .ok plan ∧
      AnswersLocally siblingMetadata (ascii "x86_64") plan.buildPlan) ∧
      ∀ other : Nat → MetadataEnvironment,
        resolveLocalBuildPlan (fun _ => siblingEnvironment) siblingMetadata (ascii "i686")
            none =
          resolveLocalBuildPlan other siblingMetadata (ascii "i686") none := by
  have hparsed : parseLocalPackageMetadata siblingSource = .ok siblingMetadata := by
    apply eq_ok_of_toOption
    decide +kernel
  have hseen : (resolveLocalBuildPlan (fun _ => siblingEnvironment) siblingMetadata
      (ascii "x86_64") none).toOption.map (fun plan =>
        plan.buildPlan.dependencyEdges.map (·.kind)) = some [.local] := by decide +kernel
  obtain ⟨plan, hplan, -⟩ := exists_ok_of_view hseen
  constructor
  · exact ⟨plan, hplan, (resolveLocalBuildPlan_localFirst hparsed _ _ _).1 plan hplan⟩
  · apply (resolveLocalBuildPlan_localFirst hparsed _ _ _).2
    exact ⟨{ name := ascii "app" }, List.mem_cons_self, by decide⟩

end Moguet.Local.LocalFirst
