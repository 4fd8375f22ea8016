import Moguet.Local.Preflight
import Moguet.Plan.EdgeOrigin

/-!
# What the children offer

A requirement on a package never contains a colon and one on a component always
does, so a name is enough to tell what is required; and the declarations of one
text all state the same requirement, so one answer serves all of them.

* `stated_of_parent` — the one requirement of a call;
* `handled_of_offered` — a dependency on an offered name is taken.
-/

namespace Moguet.Local.Offered

open Verified.ByteString Verified.Checked Plan.Constraint Plan.Model Plan.Dependency Plan.Resolver
open Plan.Resolution Plan.EdgeOrigin Metadata Projection Answers Walk Pass Preflight

variable {metadata : LocalPackageMetadata} {effectiveArchitecture : Bytes}

variable {text packageName : Bytes} {kind : RelationKind} {target : Target} {relation : Relation}
  {declaration : TypedPackageDependency}

/-- No byte of a package name is a colon. -/
theorem colon_not_mem_of_identity {name : Bytes} (h : isValidPackageIdentity name = true) :
    byte ':' ∉ name := by
  intro hmem
  unfold isValidPackageIdentity at h
  split at h
  · cases h
  · have hcolon := List.all_eq_true.mp h (byte ':') hmem
    revert hcolon
    decide

/-- A requirement on a package has no colon in its name, one on a component
has. -/
def TellsKind : DependencyRequirement → Prop
  | .consumer consumer => byte ':' ∉ consumer.packageName
  | .soname soname => byte ':' ∈ soname.soname

theorem tellsKind_of_parse {specification : Bytes} {requirement : DependencyRequirement}
    (h : parseDependencyRequirement specification = .ok requirement) :
    TellsKind requirement := by
  unfold parseDependencyRequirement requireVersion at h
  dsimp only at h
  split at h
  · cases h
  · split at h
    · split at h
      · rename_i hsplit
        split at h
        · cases h
        · injection h with h
          rw [← h]
          show byte ':' ∈ trim specification
          obtain ⟨b, hmem, hb⟩ := mem_of_splitAtFirst hsplit
          rw [← decide_eq_true_iff.mp hb]
          exact hmem
      · split at h
        · cases h
        · rename_i hvalid
          injection h with h
          rw [← h]
          exact colon_not_mem_of_identity (by simpa using hvalid)
    · split at h
      · cases h
      · rename_i hvalid
        split at h
        · cases h
        · rw [bind_eq_ok] at h
          obtain ⟨version, -, h⟩ := h
          injection h with h
          rw [← h]
          exact colon_not_mem_of_identity (by simpa using hvalid)

/-- The text of a component holds a colon and no operator. -/
theorem colon_mem_of_isSonameText (h : isSonameText kind text = true) : byte ':' ∈ text := by
  unfold isSonameText at h
  rw [Bool.and_eq_true] at h
  have hsplit := h.2
  split at hsplit
  · cases hsplit
  · rename_i library rest hfirst
    obtain ⟨b, hmem, hb⟩ := mem_of_splitAtFirst hfirst
    rw [← decide_eq_true_iff.mp hb]
    exact hmem

/-- The target a text names, by the branch that read it. -/
inductive TargetSpec (kind : RelationKind) (text : Bytes) : Target → Prop
  | soname (h : isSonameText kind text = true) :
      TargetSpec kind text ⟨.soname, text, none, none⟩
  | plain (hidentity : isValidPackageIdentity text = true) :
      TargetSpec kind text ⟨.package, text, none, none⟩
  | versioned {name version : Bytes} {comparison : Comparison}
      (hidentity : isValidPackageIdentity name = true) :
      TargetSpec kind text ⟨.package, name, some comparison, some version⟩

theorem parseRelationTarget_spec (h : parseRelationTarget kind text = some target) :
    TargetSpec kind text target := by
  unfold parseRelationTarget at h
  split at h
  · cases h
  · split at h
    · rename_i hsoname
      injection h with h
      rw [← h]
      exact .soname hsoname
    · split at h
      · split at h
        · rename_i hvalid
          injection h with h
          rw [← h]
          exact .plain hvalid
        · cases h
      · split at h
        · cases h
        · rename_i hvalid
          split at h
          · cases h
          · split at h
            · cases h
            · split at h
              · cases h
              · injection h with h
                rw [← h]
                exact .versioned (by simpa using hvalid)

/-- The kind of a target is told by its name. -/
theorem TargetSpec.kind_iff (h : TargetSpec kind text target) :
    target.kind = .soname ↔ byte ':' ∈ target.name := by
  cases h with
  | soname hsoname =>
    constructor
    · exact fun _ => colon_mem_of_isSonameText hsoname
    · exact fun _ => rfl
  | plain hidentity =>
    constructor
    · exact nofun
    · exact fun hcolon => absurd hcolon (colon_not_mem_of_identity hidentity)
  | versioned hidentity =>
    constructor
    · exact nofun
    · exact fun hcolon => absurd hcolon (colon_not_mem_of_identity hidentity)

/-- Another dependency field reads a text as `depends` does: only `depends`
reads components, whose text no other field accepts. -/
theorem parseRelationTarget_depends (hkind : (packageRole kind).isSome = true)
    (h : parseRelationTarget kind text = some target) :
    parseRelationTarget .depends text = some target := by
  by_cases hdepends : kind = .depends
  · rw [← hdepends]
    exact h
  · have hprovides : kind ≠ .provides := by
      rintro rfl
      cases hkind
    have hown : isSonameText kind text = false := by
      unfold isSonameText
      simp [hdepends, hprovides]
    have hplain : isSonameText .depends text = false := by
      rw [Bool.eq_false_iff]
      intro hsoname
      have hcolon := colon_mem_of_isSonameText hsoname
      have hoperator : splitAtFirst isOperatorByte text = none := by
        by_contra hsome
        obtain ⟨⟨front, rest⟩, hsplit⟩ := Option.ne_none_iff_exists'.mp hsome
        obtain ⟨b, hmem, hb⟩ := mem_of_splitAtFirst hsplit
        unfold isSonameText at hsoname
        simp only [Bool.and_eq_true, Bool.not_eq_true', List.any_eq_false] at hsoname
        exact hsoname.1.2 b hmem hb
      unfold parseRelationTarget at h
      rw [hown, hoperator] at h
      simp only [Bool.false_eq_true, if_false] at h
      split at h
      · cases h
      · split at h
        · rename_i hvalid
          exact colon_not_mem_of_identity hvalid hcolon
        · cases h
    unfold parseRelationTarget at h ⊢
    rw [hown] at h
    rw [hplain]
    simp only [hprovides, false_and, if_false, reduceCtorEq] at h ⊢
    exact h

/-- The requirement a dependency text of a local package states. -/
def statedRequirement (text : Bytes) : Option DependencyRequirement :=
  typedRequirementFromRelation
    { kind := .depends, rawValue := text, target := parseRelationTarget .depends text,
      scope := ⟨.packageBase, none⟩ }

theorem statedRequirement_tells (h : parseRelationTarget .depends text = some target) :
    ∃ requirement, statedRequirement text = some requirement ∧ TellsKind requirement := by
  unfold statedRequirement typedRequirementFromRelation
  rw [h]
  cases parseRelationTarget_spec h with
  | soname hsoname => exact ⟨_, rfl, colon_mem_of_isSonameText hsoname⟩
  | plain hidentity => exact ⟨_, rfl, colon_not_mem_of_identity hidentity⟩
  | versioned hidentity => exact ⟨_, rfl, colon_not_mem_of_identity hidentity⟩

/-- A dependency as an accepted relation declares it. -/
structure Declared (declaration : TypedPackageDependency) : Prop where
  trimmed : trim declaration.specification = declaration.specification
  not_empty : declaration.specification ≠ []
  requirement : declaration.requirement = statedRequirement declaration.specification
  tells : ∃ requirement, declaration.requirement = some requirement ∧ TellsKind requirement

theorem declared_of_readFrom {role : PackageRole} (h : ReadFrom relation)
    (hset : relation.isExplicitUnset = false) (hrole : packageRole relation.kind = some role) :
    Declared ⟨relation.rawValue, role, typedRequirementFromRelation relation⟩ := by
  obtain ⟨htrimmed, hread⟩ := h
  rw [hset] at hread
  obtain ⟨target, description, hparsed, htarget⟩ := hread.resolve_left Bool.false_ne_true
  have hkind : (packageRole relation.kind).isSome = true := by
    rw [hrole]
    rfl
  have hown : parseRelationTarget relation.kind relation.rawValue = some target := by
    unfold parseRelationValue relationTargetText at hparsed
    have hoptional : relation.kind ≠ .optdepends := by
      intro hsame
      rw [hsame] at hrole
      cases hrole
    rw [if_pos hoptional] at hparsed
    obtain ⟨read, hread, hsame⟩ := Option.map_eq_some_iff.mp hparsed
    injection hsame with hsame _
    rw [← hsame]
    exact hread
  have hdepends := parseRelationTarget_depends hkind hown
  have hstated : typedRequirementFromRelation relation = statedRequirement relation.rawValue := by
    unfold statedRequirement typedRequirementFromRelation
    rw [htarget, hdepends]
  constructor
  · exact htrimmed
  · intro hempty
    change relation.rawValue = [] at hempty
    rw [hempty] at hown
    cases hown
  · exact hstated
  · show ∃ requirement, typedRequirementFromRelation relation = some requirement ∧ _
    rw [hstated]
    exact statedRequirement_tells hdepends

theorem mem_foldl_addRootRelation : ∀ {relations : List Relation} {root : RootPackage},
      declaration ∈ (relations.foldl addRootRelation root).dependencies →
        declaration ∈ root.dependencies ∨ ∃ relation ∈ relations, ∃ role,
          packageRole relation.kind = some role ∧
            declaration = ⟨relation.rawValue, role, typedRequirementFromRelation relation⟩ := by
  intro relations
  induction relations with
  | nil => exact fun h => Or.inl h
  | cons relation rest ih =>
    intro root h
    rcases ih h with h | ⟨other, hother, hdeclared⟩
    · unfold addRootRelation at h
      split at h
      · rename_i role hrole
        unfold Projection.addTypedDependency at h
        dsimp only at h
        split at h
        · exact Or.inl h
        · rcases List.mem_append.mp h with h | h
          · exact Or.inl h
          · exact Or.inr ⟨relation, List.mem_cons_self, role, hrole, List.mem_singleton.mp h⟩
      · split at h <;> exact Or.inl h
    · exact Or.inr ⟨other, List.mem_cons_of_mem _ hother, hdeclared⟩

theorem declared_of_root (accepted : Accepted metadata)
    (h : declaration ∈ (rootOfName metadata effectiveArchitecture packageName).dependencies) :
    Declared declaration := by
  rcases mem_foldl_addRootRelation h with h | ⟨relation, hrelation, role, hrole, rfl⟩
  · cases h
  · unfold effectiveRelations at hrelation
    obtain ⟨hmem, hkept⟩ := List.mem_filter.mp hrelation
    rw [Bool.and_eq_true] at hkept
    exact declared_of_readFrom (accepted.relations relation hmem) (by simpa using hkept.2) hrole

section Calls

variable {vercmp : Bytes → Bytes → Int} {metadata : LocalPackageMetadata}
  {effectiveArchitecture : Bytes} {settings : ResolverSettings} {context : DependencyContext}

/-- All declarations of a call state one requirement. -/
theorem stated_of_parent (accepted : Accepted metadata)
    (hsupported : AllSupported (collectEffectiveChildren metadata effectiveArchitecture))
    (hparent : Parent settings (localPreflight vercmp metadata effectiveArchitecture).roots context)
    {first : TypedPackageDependency} (hfirst : first ∈ context.declarations) :
    ∃ requirement, TellsKind requirement ∧
      ∀ declaration ∈ context.declarations, declaration.requirement = some requirement := by
  cases hparent with
  | remote specification _ hread =>
    obtain ⟨htext, requirement, -, hparsed⟩ := hread first hfirst
    refine ⟨requirement, tellsKind_of_parse hparsed, ?_⟩
    intro declaration hdeclaration
    obtain ⟨hother, own, hown, hreading⟩ := hread declaration hdeclaration
    rw [parseDependencyRequirement_of_trim (hother.trans htext.symm), hparsed] at hreading
    injection hreading with hreading
    rw [hown, hreading]
  | root package specification hmem _ _ hdeclared =>
    rw [(@localPreflight_of_supported vercmp _ _ hsupported).1] at hmem
    have hpackage := collectRootPackages_rootOfName hsupported hmem
    have hall : ∀ declaration ∈ context.declarations, Declared declaration ∧
        declaration.specification = specification := by
      intro declaration hdeclaration
      rw [hdeclared] at hdeclaration
      obtain ⟨hown, htext⟩ := List.mem_filter.mp hdeclaration
      rw [hpackage] at hown
      have hdeclares := declared_of_root accepted hown
      exact ⟨hdeclares, hdeclares.trimmed.symm.trans (by simpa using htext)⟩
    obtain ⟨hdeclares, htext⟩ := hall first hfirst
    obtain ⟨requirement, hrequirement, htells⟩ := hdeclares.tells
    refine ⟨requirement, htells, ?_⟩
    intro declaration hdeclaration
    obtain ⟨hother, hsame⟩ := hall declaration hdeclaration
    rw [hother.requirement, hsame, ← htext, ← hdeclares.requirement, hrequirement]

end Calls

/-- A child bears the name, or provides a component of that name in a relation
that applies to it. -/
inductive LocallyOffered (metadata : LocalPackageMetadata) (effectiveArchitecture : Bytes)
    (name : Bytes) : Prop
  | child (child : LocalPackageMetadataChild) (hmem : child ∈ metadata.children)
      (hname : child.name = name)
  | provided (child : LocalPackageMetadataChild) (hmem : child ∈ metadata.children)
      (relation : Relation)
      (hrelation : relation ∈ effectiveRelations metadata child.name effectiveArchitecture)
      (hkind : relation.kind = .provides) (target : Target)
      (htarget : relation.target = some target) (hname : target.name = name)

/-- The name a declaration requires. -/
def requiredName (declaration : TypedPackageDependency) : Bytes :=
  (parseRequiredDependency declaration).name

/-- An accepted provides relation was read as one. -/
theorem providedTarget_spec (accepted : Accepted metadata)
    (hrelation : relation ∈ effectiveRelations metadata packageName effectiveArchitecture)
    (hkind : relation.kind = .provides) (htarget : relation.target = some target) :
    target.kind = .soname ↔ byte ':' ∈ target.name := by
  obtain ⟨hmem, hkept⟩ := List.mem_filter.mp hrelation
  rw [Bool.and_eq_true] at hkept
  have hset : relation.isExplicitUnset = false := by simpa using hkept.2
  obtain ⟨-, hread⟩ := accepted.relations relation hmem
  rw [hset] at hread
  obtain ⟨own, description, hparsed, hown⟩ := hread.resolve_left Bool.false_ne_true
  rw [htarget] at hown
  injection hown with hown
  unfold parseRelationValue relationTargetText at hparsed
  rw [hkind, if_pos (by decide)] at hparsed
  obtain ⟨read, hread, hsame⟩ := Option.map_eq_some_iff.mp hparsed
  injection hsame with hsame _
  rw [hown, ← hsame]
  exact (parseRelationTarget_spec hread).kind_iff

/-- What is offered is taken. -/
theorem handled_of_offered {vercmp : Bytes → Bytes → Int} {metadata : LocalPackageMetadata}
    {effectiveArchitecture : Bytes} {context : DependencyContext}
    {first : TypedPackageDependency} {rest : List TypedPackageDependency}
    {requirement : DependencyRequirement} (accepted : Accepted metadata)
    (hsupported : AllSupported (collectEffectiveChildren metadata effectiveArchitecture))
    (hdeclared : context.declarations = first :: rest)
    (hrequires : first.requirement = some requirement) (htells : TellsKind requirement)
    (hoffered : LocallyOffered metadata effectiveArchitecture (requiredName first)) :
    (resolveLocalCandidate (localUnitOf vercmp metadata effectiveArchitecture)
      context).decision.handledLocally = true := by
  have hkind : (parseRequiredDependency first).malformedConstraint = false ∧
      ((parseRequiredDependency first).kind = .soname ↔ byte ':' ∈ requiredName first) := by
    unfold requiredName parseRequiredDependency
    rw [hrequires]
    cases requirement with
    | consumer consumer =>
      refine ⟨rfl, nofun, ?_⟩
      intro hcolon
      exact absurd hcolon htells
    | soname soname => exact ⟨rfl, fun _ => htells, fun _ => rfl⟩
  obtain ⟨hformed, hcolon⟩ := hkind
  apply handled_of_candidates hsupported hdeclared hformed
  cases hoffered with
  | child child hmem hname =>
    have hpackage : (parseRequiredDependency first).kind = .package := by
      have hplain := colon_not_mem_of_identity (accepted.children child hmem)
      rw [hname, ← hcolon] at hplain
      cases hkind : (parseRequiredDependency first).kind with
      | package => rfl
      | soname => exact absurd hkind hplain
    have heffective : ∃ own ∈ collectEffectiveChildren metadata effectiveArchitecture,
        own.packageName = requiredName first :=
      collectEffectiveChildren_names.mpr ⟨child, hmem, hname⟩
    obtain ⟨own, hown, hsame⟩ := heffective
    exact localCandidates_of_name _ hpackage hown hsame
  | provided child hmem relation hrelation hprovides target htarget hname =>
    have hkinds := providedTarget_spec accepted hrelation hprovides htarget
    rw [hname, ← hcolon] at hkinds
    have hsame : target.kind = (parseRequiredDependency first).kind := by
      cases hown : target.kind <;> cases hrequired : (parseRequiredDependency first).kind <;>
        simp_all
    have hmatches : providesDependency (parseRequiredDependency first) relation = true := by
      unfold providesDependency
      rw [hprovides, htarget]
      simp only [hsame, hname, requiredName, decide_true, Bool.and_self]
    exact localCandidates_of_provides _ (List.mem_map.mpr ⟨child, hmem, rfl⟩) hrelation hmatches

end Moguet.Local.Offered
