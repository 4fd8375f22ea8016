import Moguet.Local.Projection

/-!
# Answers of the local resolver

Which dependencies the local resolver takes, and what its answers leave in the
two lists of an invocation. A child that bears the required name, or that
publishes it, is enough for the dependency to be taken; the constraint of the
dependency plays no part in that.
-/

namespace Moguet.Local.Answers

open Verified.ByteString Verified.Upsert Plan.Constraint Plan.Model Plan.Resolver Plan.Resolution
open Metadata Projection

variable {candidates : List Candidate}

variable {dependency : RequiredDependency} {packageVersion : Bytes} {candidate : Candidate}
  {children : List EffectiveChild} {child : EffectiveChild} {localUnit : LocalUnit}
  {context : DependencyContext} {edge : LocalDependencyPlanInternalEdge}

theorem exactCandidate_child
    (h : exactCandidate children dependency packageVersion = some candidate) :
    ∃ child ∈ children, candidate.packageName = child.packageName ∧
      candidate.architectureSupported = child.architectureSupported := by
  unfold exactCandidate at h
  split at h
  · cases h
  · obtain ⟨child, hfound, rfl⟩ := Option.map_eq_some_iff.mp h
    exact ⟨child, List.mem_of_find?_eq_some hfound, rfl, rfl⟩

/-- Every candidate is one of the children. -/
theorem localCandidates_child (h : candidate ∈ localCandidates children dependency packageVersion) :
    ∃ child ∈ children, candidate.packageName = child.packageName ∧
      candidate.architectureSupported = child.architectureSupported := by
  unfold localCandidates at h
  split at h
  · rename_i exact hexact
    rw [List.mem_singleton.mp h]
    exact exactCandidate_child hexact
  · unfold addProvidedCandidates at h
    rcases mem_of_mem_foldl_insertUnlike h with h | h
    · cases h
    · obtain ⟨child, hchild, h⟩ := List.mem_flatMap.mp h
      obtain ⟨relation, -, rfl⟩ := List.mem_map.mp h
      exact ⟨child, hchild, rfl, rfl⟩

theorem localCandidates_of_name (packageVersion : Bytes) (hkind : dependency.kind = .package)
    (hchild : child ∈ children) (hname : child.packageName = dependency.name) :
    localCandidates children dependency packageVersion ≠ [] := by
  have hfound : exactCandidate children dependency packageVersion ≠ none := by
    unfold exactCandidate
    rw [if_neg (not_not_intro hkind)]
    intro hnone
    rw [Option.map_eq_none_iff, List.find?_eq_none] at hnone
    apply hnone child hchild
    simpa using hname
  unfold localCandidates
  split
  · exact List.cons_ne_nil _ _
  · rename_i hnone
    exact absurd hnone hfound

theorem sameCandidateIdentity_self (candidate : Candidate) :
    sameCandidateIdentity candidate candidate = true := by
  simp [sameCandidateIdentity]

theorem localCandidates_of_provides (packageVersion : Bytes) {relation : Relation}
    (hchild : child ∈ children) (hrelation : relation ∈ child.relations)
    (hprovides : providesDependency dependency relation = true) :
    localCandidates children dependency packageVersion ≠ [] := by
  unfold localCandidates
  split
  · exact List.cons_ne_nil _ _
  · have hoffered : providedCandidate dependency child relation ∈ children.flatMap fun child =>
          (child.relations.filter (providesDependency dependency)).map
            (providedCandidate dependency child) := by
      apply List.mem_flatMap.mpr
      refine ⟨child, hchild, List.mem_map.mpr ⟨relation, ?_, rfl⟩⟩
      exact List.mem_filter.mpr ⟨hrelation, hprovides⟩
    obtain ⟨kept, hkept, -⟩ :=
      exists_same_foldl_insertUnlike sameCandidateIdentity_self [] hoffered
    exact List.ne_nil_of_mem hkept

theorem mem_selectableCandidates (h : candidate ∈ selectableCandidates candidates) :
    candidate ∈ candidates := by
  rcases mem_of_mem_foldl_insertUnlike h with h | h
  · cases h
  · exact List.mem_of_mem_filter h

theorem selectableCandidates_ne_nil
    (hsupported : ∀ candidate ∈ candidates, candidate.architectureSupported = true)
    (h : candidates ≠ []) : selectableCandidates candidates ≠ [] := by
  obtain ⟨candidate, hmem⟩ := List.exists_mem_of_ne_nil candidates h
  have hkept : candidate ∈ candidates.filter (·.architectureSupported) :=
    List.mem_filter.mpr ⟨hmem, hsupported candidate hmem⟩
  have hrefl : ∀ other : Candidate,
      decide (other.packageName = other.packageName) = true := fun _ => by simp
  obtain ⟨other, hother, -⟩ := @exists_same_foldl_insertUnlike Candidate
    (fun lhs rhs => lhs.packageName = rhs.packageName) hrefl candidate _ [] hkept
  exact List.ne_nil_of_mem hother

def AllSupported (children : List EffectiveChild) : Prop :=
  ∀ child ∈ children, child.architectureSupported = true

/-- What the local resolver can answer. -/
inductive AnswerSpec (localUnit : LocalUnit) (context : DependencyContext) :
    LocalAnswer → Prop
  | refused : AnswerSpec localUnit context notHandled
  | taken (first : TypedPackageDependency) (rest : List TypedPackageDependency)
      (candidate : Candidate) (hdeclared : context.declarations = first :: rest)
      (hchild : ∃ child ∈ localUnit.children,
        candidate.packageName = child.packageName) :
      AnswerSpec localUnit context
        (takeCandidate localUnit context first.specification
          (parseRequiredDependency first) candidate)
  | ambiguous (first : TypedPackageDependency) (rest : List TypedPackageDependency)
      (selectable : List Candidate) (hdeclared : context.declarations = first :: rest) :
      AnswerSpec localUnit context
        (reportAmbiguous localUnit context first.specification
          (parseRequiredDependency first) selectable)

theorem resolveLocalCandidate_spec (localUnit : LocalUnit) (context : DependencyContext) :
    AnswerSpec localUnit context (resolveLocalCandidate localUnit context) := by
  unfold resolveLocalCandidate
  split
  · exact .refused
  · rename_i first rest hdeclared
    dsimp only
    split
    · exact .refused
    · split
      · exact .refused
      · rename_i candidate hselectable
        apply AnswerSpec.taken first rest candidate hdeclared
        have hmem := mem_selectableCandidates
          (by rw [hselectable]; exact List.mem_singleton.mpr rfl)
        obtain ⟨child, hchild, hname, -⟩ := localCandidates_child hmem
        exact ⟨child, hchild, hname⟩
      · exact .ambiguous first rest _ hdeclared

/-- A dependency with a candidate is taken when every child can be built. -/
theorem handled_of_candidates {first : TypedPackageDependency} {rest : List TypedPackageDependency}
    (hsupported : AllSupported localUnit.children)
    (hdeclared : context.declarations = first :: rest)
    (hformed : (parseRequiredDependency first).malformedConstraint = false)
    (hcandidates : localCandidates localUnit.children (parseRequiredDependency first)
      localUnit.packageVersion ≠ []) :
    (resolveLocalCandidate localUnit context).decision.handledLocally = true := by
  have hselectable := selectableCandidates_ne_nil (fun candidate hmem => by
    obtain ⟨child, hchild, -, hsame⟩ := localCandidates_child hmem
    rw [hsame]
    exact hsupported child hchild) hcandidates
  unfold resolveLocalCandidate
  rw [hdeclared]
  dsimp only
  rw [hformed, if_neg Bool.false_ne_true]
  split
  · rename_i hnone
    exact absurd hnone hselectable
  · rfl
  · rfl

/-- A requirement on a child is taken. -/
theorem handled_of_child {localUnit : LocalUnit} {context : DependencyContext}
    {first : TypedPackageDependency} {rest : List TypedPackageDependency}
    {consumer : ConsumerDependencyRequirement} {child : EffectiveChild}
    (hsupported : AllSupported localUnit.children)
    (hdeclared : context.declarations = first :: rest)
    (hrequires : first.requirement = some (.consumer consumer))
    (hchild : child ∈ localUnit.children)
    (hname : child.packageName = consumer.packageName) :
    (resolveLocalCandidate localUnit context).decision.handledLocally = true := by
  have hparsed : parseRequiredDependency first =
      ⟨.package, consumer.packageName, some consumer, false⟩ := by
    unfold parseRequiredDependency
    rw [hrequires]
  apply handled_of_candidates hsupported hdeclared
  · rw [hparsed]
  · rw [hparsed]
    exact localCandidates_of_name _ rfl hchild hname

/-- The decision rests on the first declaration: which parent it belongs to
only decides about the cycle. -/
theorem resolveLocalCandidate_congr {localUnit : LocalUnit} {context other : DependencyContext}
    {first : TypedPackageDependency} {rest others : List TypedPackageDependency}
    (hdeclared : context.declarations = first :: rest)
    (hother : other.declarations = first :: others) :
    (resolveLocalCandidate localUnit context).decision.handledLocally =
        (resolveLocalCandidate localUnit other).decision.handledLocally ∧
      (resolveLocalCandidate localUnit context).decision.unresolvedReason =
        (resolveLocalCandidate localUnit other).decision.unresolvedReason := by
  unfold resolveLocalCandidate
  rw [hdeclared, hother]
  dsimp only
  split
  · exact ⟨rfl, rfl⟩
  · split <;> exact ⟨rfl, rfl⟩

/-- An internal edge of an answer joins the parent to a child. -/
theorem mem_answer_edges (h : edge ∈ (resolveLocalCandidate localUnit context).internalEdges) :
    edge.parentPackageName = context.parentPackageName ∧
      (∃ child ∈ localUnit.children, edge.resolvedPackageName = child.packageName) ∧
      edge.isCycle = (decide (context.parentPackageBase ≠ localUnit.packageBase) ||
        decide (edge.parentPackageName = edge.resolvedPackageName)) := by
  have hspec := resolveLocalCandidate_spec localUnit context
  generalize resolveLocalCandidate localUnit context = answer at h hspec
  cases hspec with
  | refused => cases h
  | ambiguous => cases h
  | taken first rest candidate _ hchild =>
    obtain ⟨declaration, -, rfl⟩ := List.mem_map.mp h
    exact ⟨rfl, hchild, rfl⟩

/-- Exactly one child satisfies the dependency of a call. -/
def hasSingleCandidate (localUnit : LocalUnit) (context : DependencyContext) : Bool :=
  match context.declarations with
  | [] => false
  | first :: _ =>
    let dependency := parseRequiredDependency first
    !dependency.malformedConstraint &&
      (selectableCandidates (localCandidates localUnit.children dependency
        localUnit.packageVersion)).length = 1

/-- Only a single candidate leaves internal edges. -/
theorem answer_edges_ne_nil_iff : (resolveLocalCandidate localUnit context).internalEdges ≠ [] ↔
      hasSingleCandidate localUnit context = true := by
  cases hdeclared : context.declarations with
  | nil => simp [resolveLocalCandidate, hasSingleCandidate, hdeclared, notHandled]
  | cons first rest =>
    unfold resolveLocalCandidate hasSingleCandidate
    simp only [hdeclared]
    split
    · rename_i hmalformed
      simp [notHandled, hmalformed]
    · rename_i hformed
      split
      · rename_i hnone
        simp [notHandled, hnone]
      · rename_i candidate hone
        simp [takeCandidate, hformed, hone, hdeclared]
      · rename_i hnone hsome
        have hlength : (selectableCandidates (localCandidates localUnit.children
            (parseRequiredDependency first) localUnit.packageVersion)).length ≠ 1 := by
          intro hlength
          obtain ⟨candidate, hone⟩ := List.length_eq_one_iff.mp hlength
          exact hsome candidate hone
        simp [reportAmbiguous, hlength]

theorem sameInternalEdge_self (edge : LocalDependencyPlanInternalEdge) :
    sameInternalEdge edge edge = true := by
  simp [sameInternalEdge]

theorem sameInternalEdge_parent {lhs rhs : LocalDependencyPlanInternalEdge}
    (h : sameInternalEdge lhs rhs = true) :
    lhs.parentPackageName = rhs.parentPackageName := by
  simp only [sameInternalEdge, Bool.and_eq_true, decide_eq_true_eq] at h
  exact h.1.1.1.1.1

/-- What the calls leave was there before, or is an edge of an answer. -/
theorem mem_recordCalls : ∀ {contexts : List DependencyContext} {records : LocalRecords},
      edge ∈ (recordCalls localUnit contexts records).internalEdges →
        edge ∈ records.internalEdges ∨ ∃ context ∈ contexts,
          edge ∈ (resolveLocalCandidate localUnit context).internalEdges := by
  intro contexts
  induction contexts with
  | nil => exact fun h => Or.inl h
  | cons context rest ih =>
    intro records h
    rcases ih h with h | ⟨other, hother, h⟩
    · rcases mem_of_mem_foldl_insertUnlike h with h | h
      · exact Or.inl h
      · exact Or.inr ⟨context, List.mem_cons_self, h⟩
    · exact Or.inr ⟨other, List.mem_cons_of_mem _ hother, h⟩

theorem subset_recordCalls (localUnit : LocalUnit) :
    ∀ (contexts : List DependencyContext) (records : LocalRecords),
      records.internalEdges ⊆ (recordCalls localUnit contexts records).internalEdges := by
  intro contexts
  induction contexts with
  | nil => exact fun records => List.Subset.refl _
  | cons context rest ih =>
    intro records
    have hown : records.internalEdges ⊆
        (records.add (resolveLocalCandidate localUnit context)).internalEdges :=
      subset_foldl_insertUnlike _ _ _
    exact List.Subset.trans hown (ih _)

/-- Every edge of an answer has its like in the list. -/
theorem exists_same_recordCalls
    (hedge : edge ∈ (resolveLocalCandidate localUnit context).internalEdges) :
    ∀ {contexts : List DependencyContext} (records : LocalRecords), context ∈ contexts →
      ∃ kept ∈ (recordCalls localUnit contexts records).internalEdges,
        sameInternalEdge kept edge = true := by
  intro contexts
  induction contexts with
  | nil =>
    intro records h
    cases h
  | cons first rest ih =>
    intro records h
    rcases List.mem_cons.mp h with rfl | h
    · obtain ⟨kept, hkept, hsame⟩ :=
        exists_same_foldl_insertUnlike sameInternalEdge_self records.internalEdges hedge
      exact ⟨kept, subset_recordCalls localUnit rest _ hkept, hsame⟩
    · exact ih _ h

/-- A preclassified call carries the declarations of a root. -/
theorem mem_preclassifiedContexts {roots : List RootPackage} {specification : Bytes}
    (h : (specification, context) ∈ preclassifiedContexts roots) :
    ∃ package ∈ roots, context.parentPackageName = package.packageName ∧
      context.parentPackageBase = package.packageBase ∧
      context.declarations = declarationsForSpecification package specification := by
  unfold preclassifiedContexts at h
  obtain ⟨item, hitem, h⟩ := List.mem_flatMap.mp h
  obtain ⟨own, -, h⟩ := List.mem_map.mp h
  injection h with hown hcontext
  rw [← hcontext, ← hown]
  exact ⟨item.1, List.fst_mem_of_mem_zipIdx hitem, rfl, rfl, rfl⟩

end Moguet.Local.Answers
