import Moguet.Local.Answers
import Moguet.Local.Pass

/-!
# The preflight of a local resolution

The roots a local package base gives to the resolution, and the resolver it
answers with. A root's dependencies depend on its name only, so the decision
that was cached for a root and a specification is the one the walk would be
given now; a remote parent has no child's name and is never answered from the
cache.

* `localPreflight_rootsOf` — the roots are of one base, with names of their own;
* `localPreflight_decides` — the resolver leaves no child to a remote lookup.
-/

namespace Moguet.Local.Preflight

open Verified.ByteString Verified.Upsert Plan.Model Plan.Discovery Plan.Dependency Plan.Resolver
open Plan.Resolution Metadata Projection Answers Walk Pass

variable {children : List EffectiveChild}

variable {package : RootPackage} {first : TypedPackageDependency}
  {rest : List TypedPackageDependency} {context : DependencyContext} {settings : ResolverSettings}

theorem addRootRelation_identity (root : RootPackage) (relation : Relation) :
    (addRootRelation root relation).packageName = root.packageName ∧
      (addRootRelation root relation).packageBase = root.packageBase := by
  unfold addRootRelation
  split
  · exact ⟨rfl, rfl⟩
  · split <;> exact ⟨rfl, rfl⟩

theorem foldl_addRootRelation_identity : ∀ (relations : List Relation) (root : RootPackage),
      (relations.foldl addRootRelation root).packageName = root.packageName ∧
        (relations.foldl addRootRelation root).packageBase = root.packageBase := by
  intro relations
  induction relations with
  | nil => exact fun root => ⟨rfl, rfl⟩
  | cons relation rest ih =>
    intro root
    obtain ⟨hname, hbase⟩ := addRootRelation_identity root relation
    obtain ⟨hname', hbase'⟩ := ih (addRootRelation root relation)
    exact ⟨hname'.trans hname, hbase'.trans hbase⟩

theorem collectRootPackages_identity {packageBase : Bytes}
    (h : package ∈ collectRootPackages children packageBase) :
    package.packageBase = packageBase ∧
      ∃ child ∈ children, package.packageName = child.packageName := by
  obtain ⟨child, hchild, rfl⟩ := List.mem_map.mp h
  dsimp only
  split
  · obtain ⟨hname, hbase⟩ := foldl_addRootRelation_identity child.relations
      ⟨child.packageName, packageBase, [], [], []⟩
    exact ⟨hbase, child, hchild, hname⟩
  · exact ⟨rfl, child, hchild, rfl⟩

theorem collectRootPackages_child (packageBase : Bytes) {child : EffectiveChild}
    (h : child ∈ children) :
    ∃ package ∈ collectRootPackages children packageBase,
      package.packageName = child.packageName := by
  refine ⟨_, List.mem_map.mpr ⟨child, h, rfl⟩, ?_⟩
  dsimp only
  split
  · exact (foldl_addRootRelation_identity child.relations _).1
  · rfl

/-- The root of a supported child of the name. -/
def rootOfName (metadata : LocalPackageMetadata) (effectiveArchitecture packageName : Bytes) :
    RootPackage :=
  (effectiveRelations metadata packageName effectiveArchitecture).foldl addRootRelation
    ⟨packageName, metadata.packageBase, [], [], []⟩

section Preflight

variable {vercmp : Bytes → Bytes → Int} {metadata : LocalPackageMetadata}
  {effectiveArchitecture : Bytes}

theorem collectEffectiveChildren_names {name : Bytes} :
    (∃ child ∈ collectEffectiveChildren metadata effectiveArchitecture,
        child.packageName = name) ↔ ∃ child ∈ metadata.children, child.name = name := by
  unfold collectEffectiveChildren
  constructor
  · rintro ⟨child, hmem, hname⟩
    obtain ⟨own, hown, rfl⟩ := List.mem_map.mp hmem
    exact ⟨own, hown, hname⟩
  · rintro ⟨own, hown, hname⟩
    exact ⟨_, List.mem_map.mpr ⟨own, hown, rfl⟩, hname⟩

/-- The root of a supported child is told by the name of the child. -/
theorem collectRootPackages_rootOfName
    (hsupported : AllSupported (collectEffectiveChildren metadata effectiveArchitecture))
    (h : package ∈ collectRootPackages
      (collectEffectiveChildren metadata effectiveArchitecture) metadata.packageBase) :
    package = rootOfName metadata effectiveArchitecture package.packageName := by
  obtain ⟨child, hchild, rfl⟩ := List.mem_map.mp h
  obtain ⟨own, hown, hsame⟩ := List.mem_map.mp hchild
  dsimp only
  rw [if_pos (hsupported child hchild),
    (foldl_addRootRelation_identity child.relations _).1, ← hsame]
  rfl

/-- No child is of another architecture exactly when nothing is reported. -/
theorem unsupportedArchitectures_eq_nil (effectiveArchitecture : Bytes) :
    (unsupportedArchitectures children effectiveArchitecture).2 = [] ↔ AllSupported children := by
  unfold unsupportedArchitectures AllSupported
  dsimp only
  constructor
  · intro hnone child hchild
    by_contra hunsupported
    have hmem : unsupportedArchitectureText child effectiveArchitecture ∈
        ((children.filter fun child => !child.architectureSupported).map
          (unsupportedArchitectureText · effectiveArchitecture)).foldl insertNew [] := by
      rw [mem_foldl_insertNew]
      refine Or.inr (List.mem_map.mpr ⟨child, ?_, rfl⟩)
      rw [List.mem_filter]
      exact ⟨hchild, by simpa using hunsupported⟩
    rw [hnone] at hmem
    cases hmem
  · intro hall
    have hfilter : (children.filter fun child => !child.architectureSupported) = [] := by
      rw [List.filter_eq_nil_iff]
      intro child hchild
      rw [hall child hchild]
      decide
    rw [hfilter]
    rfl

theorem localPreflight_unit : (localPreflight vercmp metadata effectiveArchitecture).localUnit =
      localUnitOf vercmp metadata effectiveArchitecture := by
  unfold localPreflight
  dsimp only
  split <;> rfl

/-- With every child buildable the roots keep their dependencies, and the calls
for them are cached. -/
theorem localPreflight_of_supported
    (hsupported : AllSupported (collectEffectiveChildren metadata effectiveArchitecture)) :
    (localPreflight vercmp metadata effectiveArchitecture).roots =
        collectRootPackages (collectEffectiveChildren metadata effectiveArchitecture)
          metadata.packageBase ∧
      (localPreflight vercmp metadata effectiveArchitecture).cachedDecisions =
        preclassifyLocalDependencies (localUnitOf vercmp metadata effectiveArchitecture)
          (localPreflight vercmp metadata effectiveArchitecture).roots := by
  have hnone := (unsupportedArchitectures_eq_nil effectiveArchitecture).mpr hsupported
  unfold localPreflight
  dsimp only
  split
  · exact ⟨rfl, rfl⟩
  · rename_i hsome
    exact absurd hnone hsome

/-- Every root of the preflight is a root of the children, perhaps without its
dependencies. -/
theorem localPreflight_root
    (h : package ∈ (localPreflight vercmp metadata effectiveArchitecture).roots) :
    ∃ own ∈ collectRootPackages (collectEffectiveChildren metadata effectiveArchitecture)
        metadata.packageBase,
      package.packageName = own.packageName ∧ package.packageBase = own.packageBase := by
  unfold localPreflight at h
  dsimp only at h
  split at h
  · exact ⟨package, h, rfl, rfl⟩
  · obtain ⟨own, hown, rfl⟩ := List.mem_map.mp h
    exact ⟨own, hown, rfl, rfl⟩

/-- The roots bear the names of the children. -/
theorem localPreflight_names {name : Bytes} :
    (∃ package ∈ (localPreflight vercmp metadata effectiveArchitecture).roots,
        package.packageName = name) ↔ ∃ child ∈ metadata.children, child.name = name := by
  rw [← @collectEffectiveChildren_names metadata effectiveArchitecture]
  constructor
  · rintro ⟨package, hmem, rfl⟩
    obtain ⟨own, hown, hname, -⟩ := localPreflight_root hmem
    obtain ⟨-, child, hchild, hsame⟩ := collectRootPackages_identity hown
    exact ⟨child, hchild, (hname.trans hsame).symm⟩
  · rintro ⟨child, hchild, rfl⟩
    obtain ⟨own, hown, hname⟩ :=
      collectRootPackages_child metadata.packageBase hchild
    unfold localPreflight
    dsimp only
    split
    · exact ⟨own, hown, hname⟩
    · exact ⟨_, List.mem_map.mpr ⟨own, hown, rfl⟩, hname⟩

theorem localPreflight_base
    (h : package ∈ (localPreflight vercmp metadata effectiveArchitecture).roots) :
    package.packageBase = metadata.packageBase := by
  obtain ⟨own, hown, -, hbase⟩ := localPreflight_root h
  exact hbase.trans (collectRootPackages_identity hown).1

/-- The settings of a pass of a local resolution. -/
abbrev localSettings (env : MetadataEnvironment) (preflight : LocalPreflight)
    (packageBase : Bytes) (selectProvider : Option ProviderSelectionCallback) :
    ResolverSettings :=
  passSettings env preflight.roots [packageBase] preflight.decide selectProvider

theorem localPreflight_rootsOf (env : MetadataEnvironment)
    (selectProvider : Option ProviderSelectionCallback) :
    RootsOf (localSettings env (localPreflight vercmp metadata effectiveArchitecture)
        metadata.packageBase selectProvider)
      (localPreflight vercmp metadata effectiveArchitecture).roots metadata.packageBase where
  captures := rfl
  base_eq := fun package hmem => localPreflight_base hmem
  base_local := List.mem_singleton.mpr rfl
  name_local := fun package hmem => mem_passSettings_names.mpr ⟨package, hmem, rfl⟩

/-- The first declaration of a specification is the first of its text. -/
theorem head_declarationsForSpecification {specification : Bytes}
    (h : typedDependenciesForSpecification package.dependencies specification =
      first :: rest) :
    ∃ others, declarationsForSpecification package first.specification = first :: others := by
  unfold typedDependenciesForSpecification at h
  unfold declarationsForSpecification
  have hfirst : trim first.specification = specification := by
    have hmem : first ∈ package.dependencies.filter fun dependency =>
        trim dependency.specification = specification := by
      rw [h]
      exact List.mem_cons_self
    simpa using (List.mem_filter.mp hmem).2
  generalize package.dependencies = dependencies at h ⊢
  induction dependencies with
  | nil => cases h
  | cons dependency others ih =>
    by_cases hmatches : trim dependency.specification = specification
    · rw [List.filter_cons_of_pos (by simpa using hmatches)] at h
      injection h with hhead _
      rw [hhead, List.filter_cons_of_pos (by simp)]
      exact ⟨_, rfl⟩
    · rw [List.filter_cons_of_neg (by simpa using hmatches)] at h
      have hother : dependency.specification ≠ first.specification := by
        intro hsame
        rw [hsame] at hmatches
        exact hmatches hfirst
      rw [List.filter_cons_of_neg (by simpa using hother)]
      exact ih h

/-- What a cached decision was worked out for. -/
theorem findCachedDecision_spec {localUnit : LocalUnit} {roots : List RootPackage}
    {decision : DependencyDecision} (hdeclared : context.declarations = first :: rest)
    (h : findCachedDecision (preclassifyLocalDependencies localUnit roots) context =
      some decision) :
    ∃ own, (first.specification, own) ∈ preclassifiedContexts roots ∧
      own.parentPackageName = context.parentPackageName ∧
      decision = (resolveLocalCandidate localUnit own).decision := by
  unfold findCachedDecision at h
  rw [hdeclared] at h
  obtain ⟨cached, hfound, rfl⟩ := Option.map_eq_some_iff.mp h
  obtain ⟨call, hcall, rfl⟩ := List.mem_map.mp (List.mem_of_find?_eq_some hfound)
  have hkey := List.find?_some hfound
  simp only [Bool.and_eq_true, decide_eq_true_eq] at hkey
  refine ⟨call.2, ?_, hkey.1, rfl⟩
  rw [← hkey.2]
  exact hcall

/-- The decisions of a preflight with buildable children: each is what
`resolve_local_candidate` says of a call with the same first declaration. -/
theorem decide_answers
    (hsupported : AllSupported (collectEffectiveChildren metadata effectiveArchitecture))
    (hnames : ∀ name, (∃ package ∈ (localPreflight vercmp metadata effectiveArchitecture).roots,
        package.packageName = name) → name ∈ settings.localPackageNames) (hparent : Parent settings
      (localPreflight vercmp metadata effectiveArchitecture).roots context)
    (hdeclared : context.declarations = first :: rest) :
    ∃ own others, own.declarations = first :: others ∧
      (localPreflight vercmp metadata effectiveArchitecture).decide context =
        (resolveLocalCandidate (localUnitOf vercmp metadata effectiveArchitecture)
          own).decision := by
  obtain ⟨hroots, hcache⟩ := @localPreflight_of_supported vercmp _ _ hsupported
  unfold LocalPreflight.decide
  rw [localPreflight_unit]
  cases hcached : findCachedDecision
      (localPreflight vercmp metadata effectiveArchitecture).cachedDecisions context with
  | none => exact ⟨context, rest, hdeclared, rfl⟩
  | some decision =>
    rw [hcache] at hcached
    obtain ⟨own, hown, hsame, rfl⟩ := findCachedDecision_spec hdeclared hcached
    obtain ⟨package, hpackage, hname, -, hdeclarations⟩ := mem_preclassifiedContexts hown
    cases hparent with
    | remote specification hremote _ =>
      -- A remote package does not have the name of a root.
      exact absurd (hnames _ ⟨package, hpackage, hname.symm.trans hsame⟩) hremote.name_new
    | root other specification hother hotherName _ hotherDeclared =>
      rw [hroots] at hpackage hother
      have hpackages : package = other := by
        rw [collectRootPackages_rootOfName hsupported hpackage,
          collectRootPackages_rootOfName hsupported hother]
        rw [← hname, hsame, hotherName]
      rw [hotherDeclared] at hdeclared
      obtain ⟨others, hhead⟩ := head_declarationsForSpecification hdeclared
      rw [hpackages, hhead] at hdeclarations
      exact ⟨own, others, hdeclarations, rfl⟩

/-- Whether a dependency is taken is what `resolve_local_candidate` says of
it. -/
theorem decide_handled
    (hsupported : AllSupported (collectEffectiveChildren metadata effectiveArchitecture))
    (hnames : ∀ name, (∃ package ∈ (localPreflight vercmp metadata effectiveArchitecture).roots,
        package.packageName = name) → name ∈ settings.localPackageNames) (hparent : Parent settings
      (localPreflight vercmp metadata effectiveArchitecture).roots context)
    (hdeclared : context.declarations = first :: rest) :
    ((localPreflight vercmp metadata effectiveArchitecture).decide context).handledLocally =
      (resolveLocalCandidate (localUnitOf vercmp metadata effectiveArchitecture)
        context).decision.handledLocally := by
  obtain ⟨own, others, hown, hdecides⟩ := decide_answers hsupported hnames hparent hdeclared
  rw [hdecides]
  exact (resolveLocalCandidate_congr hown hdeclared).1

/-- A root with a dependency is a root of buildable children. -/
theorem localPreflight_supported
    (hmem : package ∈ (localPreflight vercmp metadata effectiveArchitecture).roots)
    (hdependencies : package.dependencies ≠ []) :
    AllSupported (collectEffectiveChildren metadata effectiveArchitecture) := by
  unfold localPreflight at hmem
  dsimp only at hmem
  split at hmem
  · rename_i hnone
    exact (unsupportedArchitectures_eq_nil effectiveArchitecture).mp hnone
  · obtain ⟨own, -, rfl⟩ := List.mem_map.mp hmem
    exact absurd rfl hdependencies

/-- The resolver leaves no child to a remote lookup. -/
theorem localPreflight_decides (env : MetadataEnvironment)
    (selectProvider : Option ProviderSelectionCallback)
    (hsupported : AllSupported (collectEffectiveChildren metadata effectiveArchitecture)) :
    Decides (localSettings env (localPreflight vercmp metadata effectiveArchitecture)
        metadata.packageBase selectProvider)
      (localPreflight vercmp metadata effectiveArchitecture).roots
      (localPreflight vercmp metadata effectiveArchitecture).decide where
  captures := rfl
  resolver := rfl
  keeps := by
    intro context first rest consumer hparent hdeclared hleft hrequires hname
    obtain ⟨child, hchild, hsame⟩ :=
      (@collectEffectiveChildren_names metadata effectiveArchitecture _).mpr
        (localPreflight_names.mp (mem_passSettings_names.mp hname))
    rw [decide_handled hsupported (fun _ => mem_passSettings_names.mpr) hparent hdeclared] at hleft
    have htaken := @handled_of_child (localUnitOf vercmp metadata effectiveArchitecture)
      context first rest consumer child hsupported hdeclared hrequires hchild hsame
    rw [htaken] at hleft
    cases hleft

end Preflight

end Moguet.Local.Preflight
