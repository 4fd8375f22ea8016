import Mathlib.Data.List.Forall2
import Moguet.Local.Metadata
import Moguet.Verified.KeyedList
import Moguet.Source.Srcinfo

/-!
# Sections of local metadata

The lines of a `.SRCINFO` come in sections, of the base and then of each child,
and some checks have to wait for the end: an architecture of a child against
those of the base, a qualifier against the architectures of its section. The
parser keeps the line and the section of what it has read in lists of their own,
parallel to the metadata.
-/

namespace Moguet.Local.Sections

open Verified.ByteString Verified.Checked Verified.KeyedList Metadata
open Source.Srcinfo (declaredBase declaredBase_blank declaredBase_assignment
  parseSrcinfoSourceMetadata parseSrcinfoSourceMetadata_packageBase)

variable {line : Nat} {state : ParseState}

variable {architectures : List Bytes} {index : Option Nat} {lines : List Nat} {relation : Relation}
  {child own : LocalPackageMetadataChild} {metadata : LocalPackageMetadata}

/-! ## What is kept -/

/-- No architecture is repeated, and `any` stands alone. -/
structure Exclusive (architectures : List Bytes) : Prop where
  nodup : architectures.Nodup
  any_alone : ascii "any" ∈ architectures → architectures = [ascii "any"]

theorem Exclusive.nil : Exclusive [] := ⟨List.nodup_nil, nofun⟩

theorem addArchitecture_exclusive {added : List Bytes} {architecture : Bytes}
    (hkept : Exclusive architectures)
    (h : addArchitecture architectures architecture line = .ok added) :
    added = architectures ++ [architecture] ∧ Exclusive added := by
  unfold addArchitecture reject at h
  split at h
  · cases h
  · split at h
    · cases h
    · rename_i hfresh
      split at h
      · cases h
      · rename_i halone
        rw [not_or, not_and_or, not_and_or, not_not] at halone
        obtain ⟨hany, hother⟩ := halone
        have hnew : architecture ∉ architectures := by simpa using hfresh
        injection h with h
        rw [← h]
        refine ⟨rfl, ?_, ?_⟩
        · rw [List.nodup_append]
          refine ⟨hkept.nodup, List.nodup_singleton _, ?_⟩
          intro first hfirst second hsecond hsame
          rw [List.mem_singleton.mp hsecond] at hsame
          rw [hsame] at hfirst
          exact hnew hfirst
        · intro hmem
          rcases List.mem_append.mp hmem with hmem | hmem
          · -- an `any` that is there already lets nothing follow it
            exfalso
            rcases hother with hsame | hnone
            · rw [not_not.mp hsame] at hnew
              exact hnew hmem
            · exact hnone (by simpa using hmem)
          · have hsame : ascii "any" = architecture := List.mem_singleton.mp hmem
            rcases hany with hno | hempty
            · exact absurd hsame.symm hno
            · rw [hempty, hsame]
              rfl

/-- The section a relation was declared in, by the names of the children. -/
def DeclaredIn (names : List Bytes) (relation : Relation) : Option Nat → Prop
  | none => relation.scope = ⟨.packageBase, none⟩
  | some index => ∃ name, names[index]? = some name ∧
      relation.scope = ⟨.childPackage, some name⟩

theorem DeclaredIn.append {names more : List Bytes} (h : DeclaredIn names relation index) :
    DeclaredIn (names ++ more) relation index := by
  cases index with
  | none => exact h
  | some index =>
    obtain ⟨name, hname, hscope⟩ := h
    refine ⟨name, ?_, hscope⟩
    have hlt : index < names.length := (List.getElem?_eq_some_iff.mp hname).1
    rw [List.getElem?_append_left hlt]
    exact hname

/-- A child and the lines its architectures were declared on. -/
structure ChildSound (child : LocalPackageMetadataChild) (lines : List Nat) : Prop where
  exclusive : Exclusive child.architectures
  parallel : child.architectures.length = lines.length
  inherits : child.hasArchitectureOverride = false → child.architectures = []

def childNames (metadata : LocalPackageMetadata) : List Bytes := metadata.children.map (·.name)

/-- A qualifier names one architecture. -/
def Concrete (relation : Relation) : Prop :=
  ∀ qualifier ∈ relation.architectureQualifier,
    isValidArchitecture qualifier = true ∧ qualifier ≠ ascii "any"

/-- What holds after every line: the parallel lists are parallel. -/
structure Sound (state : ParseState) : Prop where
  names : (childNames state.metadata).Nodup
  architectures : Exclusive state.metadata.architectures
  children : List.Forall₂ ChildSound state.metadata.children state.childArchitectureLines
  current : ∀ index ∈ state.currentChildIndex, index < state.metadata.children.length
  lines : state.relationLines.length = state.metadata.relations.length
  sections : List.Forall₂ (DeclaredIn (childNames state.metadata)) state.metadata.relations
    state.relationChildIndices
  qualifiers : ∀ relation ∈ state.metadata.relations, Concrete relation

theorem Sound.initial : Sound {} where
  names := List.nodup_nil
  architectures := Exclusive.nil
  children := List.Forall₂.nil
  current := nofun
  lines := rfl
  sections := List.Forall₂.nil
  qualifiers := List.forall_mem_nil _

/-! ## One field -/

section Fields

variable {rawValue : Bytes} {line : Nat} {state after : ParseState}

theorem readPackageBase_sound (h : Sound state)
    (hread : readPackageBase rawValue line state = .ok after) :
    Sound after ∧ after.metadata.packageBase = rawValue := by
  unfold readPackageBase reject at hread
  split at hread
  · cases hread
  · split at hread
    · cases hread
    · injection hread with hread
      rw [← hread]
      exact ⟨⟨h.names, h.architectures, h.children, h.current, h.lines, h.sections,
        h.qualifiers⟩, rfl⟩

theorem readPackageName_sound (h : Sound state)
    (hread : readPackageName rawValue line state = .ok after) :
    Sound after ∧ after.metadata.packageBase = state.metadata.packageBase := by
  unfold readPackageName reject at hread
  split at hread
  · cases hread
  · split at hread
    · cases hread
    · rename_i hfresh
      injection hread with hread
      rw [← hread]
      have hnames : childNames { state.metadata with
          children := state.metadata.children ++ [{ name := rawValue }] } =
          childNames state.metadata ++ [rawValue] := List.map_append
      refine ⟨⟨?_, h.architectures, ?_, ?_, h.lines, ?_, h.qualifiers⟩, rfl⟩
      · rw [hnames, List.nodup_append]
        refine ⟨h.names, List.nodup_singleton _, ?_⟩
        intro first hfirst second hsecond hsame
        obtain ⟨child, hchild, hname⟩ := List.mem_map.mp hfirst
        rw [List.mem_singleton.mp hsecond] at hsame
        apply hfresh
        rw [List.any_eq_true]
        exact ⟨child, hchild, decide_eq_true (hname.trans hsame)⟩
      · exact List.rel_append h.children
          (List.Forall₂.cons ⟨Exclusive.nil, rfl, fun _ => rfl⟩ List.Forall₂.nil)
      · intro index hindex
        rw [← Option.some.inj hindex]
        show _ < (state.metadata.children ++ [_]).length
        rw [List.length_append]
        exact Nat.lt_succ_self _
      · rw [hnames]
        exact h.sections.imp fun _ _ => DeclaredIn.append

theorem readVersionField_sound {field : VersionField}
    (hstore : ∀ value metadata, (field.store value metadata).children = metadata.children ∧
      (field.store value metadata).relations = metadata.relations ∧
      (field.store value metadata).architectures = metadata.architectures ∧
      (field.store value metadata).packageBase = metadata.packageBase)
    (h : Sound state) (hread : readVersionField field rawValue line state = .ok after) :
    Sound after ∧ after.metadata.packageBase = state.metadata.packageBase := by
  unfold readVersionField reject at hread
  split at hread
  · cases hread
  · split at hread
    · cases hread
    · split at hread
      · cases hread
      · split at hread
        · cases hread
        · injection hread with hread
          rw [← hread]
          obtain ⟨hchildren, hrelations, harchitectures, hbase⟩ :=
            hstore rawValue state.metadata
          have hnames : childNames (field.store rawValue state.metadata) =
              childNames state.metadata := congrArg (List.map LocalPackageMetadataChild.name) hchildren
          refine ⟨⟨?_, ?_, ?_, ?_, ?_, ?_, ?_⟩, hbase⟩
          · exact hnames ▸ h.names
          · exact harchitectures ▸ h.architectures
          · exact hchildren ▸ h.children
          · intro index hindex
            show index < (field.store rawValue state.metadata).children.length
            rw [hchildren]
            exact h.current index hindex
          · show state.relationLines.length = (field.store rawValue state.metadata).relations.length
            rw [hrelations]
            exact h.lines
          · show List.Forall₂ (DeclaredIn (childNames (field.store rawValue state.metadata)))
              (field.store rawValue state.metadata).relations _
            rw [hnames, hrelations]
            exact h.sections
          · show ∀ relation ∈ (field.store rawValue state.metadata).relations, Concrete relation
            rw [hrelations]
            exact h.qualifiers

/-- A child that takes an architecture keeps its name and the lines of its own. -/
theorem readChildArchitecture_sound (h : ChildSound child lines)
    (hread : readChildArchitecture child rawValue line = .ok own) :
    own.name = child.name ∧ ChildSound own (if rawValue = [] then lines else lines ++ [line]) := by
  refine ⟨readChildArchitecture_name hread, ?_⟩
  unfold readChildArchitecture reject at hread
  split at hread
  · rename_i hempty
    rw [if_pos hempty]
    split at hread
    · cases hread
    · split at hread
      · cases hread
      · injection hread with hread
        rw [← hread]
        exact ⟨h.exclusive, h.parallel, nofun⟩
  · rename_i hvalue
    rw [if_neg hvalue]
    rw [bind_eq_ok] at hread
    obtain ⟨architectures, hadded, hread⟩ := hread
    obtain ⟨hlist, hexclusive⟩ := addArchitecture_exclusive h.exclusive hadded
    injection hread with hread
    rw [← hread]
    refine ⟨hexclusive, ?_, nofun⟩
    show architectures.length = _
    rw [hlist, List.length_append, List.length_append, h.parallel]
    rfl

/-- One element of each of two parallel lists is replaced. -/
theorem forall₂_set_modify {α β : Type} {R : α → β → Prop} (change : β → β) :
    ∀ {items : List α} {others : List β} {index : Nat} {item new : α},
      List.Forall₂ R items others → items[index]? = some item →
      (∀ other, R item other → R new (change other)) →
      List.Forall₂ R (items.set index new) (others.modify index change) := by
  intro items others index item new h
  induction h generalizing index with
  | nil =>
    intro hitem
    cases hitem
  | cons hhead htail ih =>
    intro hitem hnew
    cases index with
    | zero =>
      injection hitem with hitem
      rw [hitem] at hhead
      exact List.Forall₂.cons (hnew _ hhead) htail
    | succ index => exact List.Forall₂.cons hhead (ih hitem hnew)

theorem childNames_set {children : List LocalPackageMetadataChild} {index : Nat}
    (hchild : children[index]? = some child) (hname : own.name = child.name) :
    (children.set index own).map (·.name) = children.map (·.name) := by
  rw [List.map_set, hname]
  apply List.ext_getElem?
  intro position
  rw [List.getElem?_set]
  by_cases hsame : index = position
  · rw [if_pos hsame, ← hsame, List.getElem?_map, hchild]
    split
    · rfl
    · rename_i hlength
      rw [List.length_map] at hlength
      exact absurd (List.getElem?_eq_some_iff.mp hchild).1 hlength
  · rw [if_neg hsame]

theorem readArchitecture_sound (h : Sound state)
    (hread : readArchitecture rawValue line state = .ok after) :
    Sound after ∧ after.metadata.packageBase = state.metadata.packageBase := by
  unfold readArchitecture reject at hread
  split at hread
  · split at hread
    · cases hread
    · rw [bind_eq_ok] at hread
      obtain ⟨architectures, hadded, hread⟩ := hread
      obtain ⟨-, hexclusive⟩ := addArchitecture_exclusive h.architectures hadded
      injection hread with hread
      rw [← hread]
      exact ⟨⟨h.names, hexclusive, h.children, h.current, h.lines, h.sections, h.qualifiers⟩,
        rfl⟩
  · rename_i index _
    split at hread
    · injection hread with hread
      rw [← hread]
      exact ⟨h, rfl⟩
    · rename_i child hchild
      rw [bind_eq_ok] at hread
      obtain ⟨own, hown, hread⟩ := hread
      have hname := readChildArchitecture_name hown
      have hnames : childNames { state.metadata with
          children := state.metadata.children.set index own } = childNames state.metadata :=
        childNames_set hchild hname
      injection hread with hread
      rw [← hread]
      refine ⟨⟨?_, h.architectures, ?_, ?_, h.lines, ?_, h.qualifiers⟩, rfl⟩
      · rw [hnames]
        exact h.names
      · show List.Forall₂ ChildSound (state.metadata.children.set index own)
          (if rawValue = [] then _ else _)
        split
        · rename_i hempty
          have hset := forall₂_set_modify id h.children hchild fun lines hlines => by
            have hsound := (readChildArchitecture_sound hlines hown).2
            rw [if_pos hempty] at hsound
            exact hsound
          rwa [List.modify_id] at hset
        · rename_i hvalue
          exact forall₂_set_modify (· ++ [line]) h.children hchild fun lines hlines => by
            have hsound := (readChildArchitecture_sound hlines hown).2
            rw [if_neg hvalue] at hsound
            exact hsound
      · intro other hother
        show other < (state.metadata.children.set index own).length
        rw [List.length_set]
        exact h.current other hother
      · rw [hnames]
        exact h.sections

/-- The scope of a new relation is the section that is open. -/
theorem makeScope_declared (h : Sound state) (hscope : relation.scope = makeScope state) :
    DeclaredIn (childNames state.metadata) relation state.currentChildIndex := by
  unfold makeScope at hscope
  cases hcurrent : state.currentChildIndex with
  | none =>
    rw [hcurrent] at hscope
    exact hscope
  | some index =>
    rw [hcurrent] at hscope
    have hlt := h.current index hcurrent
    refine ⟨(state.metadata.children[index]).name, ?_, ?_⟩
    · unfold childNames
      rw [List.getElem?_map, List.getElem?_eq_getElem hlt]
      rfl
    · rw [hscope]
      dsimp only
      rw [List.getElem?_eq_getElem hlt]
      rfl

theorem readRelation_sound {kind : RelationKind} {qualifier : Option Bytes} (h : Sound state)
    (hread : readRelation kind qualifier rawValue line state = .ok after) :
    Sound after ∧ after.metadata.packageBase = state.metadata.packageBase := by
  unfold readRelation reject at hread
  split at hread
  · cases hread
  · rename_i hqualifier
    have hconcrete : ∀ known ∈ qualifier,
        isValidArchitecture known = true ∧ known ≠ ascii "any" := by
      intro known hknown
      rw [Option.mem_def.mp hknown, Option.any_some, Bool.or_eq_true, not_or] at hqualifier
      exact ⟨by simpa using hqualifier.1, by simpa using hqualifier.2⟩
    split at hread
    · cases hread
    · split at hread
      · cases hread
      · dsimp only at hread
        -- every branch appends one relation to the parallel lists
        have hpush : ∀ target description, Sound { state with
            metadata := { state.metadata with
              relations := state.metadata.relations ++
                [⟨kind, rawValue, target, makeScope state, qualifier, description, rawValue = []⟩] }
            relationLines := state.relationLines ++ [line]
            relationChildIndices := state.relationChildIndices ++
              [state.currentChildIndex] } := by
          intro target description
          refine ⟨h.names, h.architectures, h.children, h.current, ?_, ?_, ?_⟩
          · show (state.relationLines ++ [line]).length = (state.metadata.relations ++ [_]).length
            rw [List.length_append, List.length_append, h.lines]
            rfl
          · exact List.rel_append h.sections
              (List.Forall₂.cons (makeScope_declared h rfl) List.Forall₂.nil)
          · intro relation hrelation
            rcases List.mem_append.mp hrelation with hrelation | hrelation
            · exact h.qualifiers relation hrelation
            · rw [List.mem_singleton.mp hrelation]
              exact hconcrete
        split at hread
        · injection hread with hread
          rw [← hread]
          exact ⟨hpush none none, rfl⟩
        · split at hread
          · cases hread
          · injection hread with hread
            rw [← hread]
            exact ⟨hpush _ _, rfl⟩

theorem readField_sound {fieldName : Bytes} (h : Sound state)
    (hread : readField fieldName rawValue line state = .ok after) :
    Sound after ∧ after.metadata.packageBase =
      if fieldName = ascii "pkgbase" then rawValue else state.metadata.packageBase := by
  unfold readField reject at hread
  split at hread
  · cases hread
  · split at hread
    · rename_i hfield
      rw [if_pos hfield]
      exact readPackageBase_sound h hread
    · rename_i hfield
      rw [if_neg hfield]
      split at hread
      · exact readPackageName_sound h hread
      · split at hread
        · exact readVersionField_sound (fun _ _ => ⟨rfl, rfl, rfl, rfl⟩) h hread
        · split at hread
          · exact readVersionField_sound (fun _ _ => ⟨rfl, rfl, rfl, rfl⟩) h hread
          · split at hread
            · exact readVersionField_sound (fun _ _ => ⟨rfl, rfl, rfl, rfl⟩) h hread
            · split at hread
              · exact readArchitecture_sound h hread
              · split at hread
                · injection hread with hread
                  rw [← hread]
                  exact ⟨h, rfl⟩
                · exact readRelation_sound h hread

/-- One line keeps the state sound and declares the package base or leaves it. -/
theorem readLine_sound {item : Bytes × Nat} (h : Sound state)
    (hread : readLine state item = .ok after) :
    Sound after ∧ after.metadata.packageBase = declaredBase state.metadata.packageBase item.1 := by
  unfold readLine reject at hread
  dsimp only at hread
  split at hread
  · cases hread
  · split at hread
    · rename_i hblank
      injection hread with hread
      rw [← hread, declaredBase_blank hblank]
      exact ⟨h, rfl⟩
    · rename_i hassigned
      split at hread
      · cases hread
      · rename_i front rest hsplit
        split at hread
        · cases hread
        · rw [declaredBase_assignment hassigned hsplit]
          exact readField_sound h hread

end Fields

/-! ## The whole text -/

/-- The architectures a section is built for. -/
def architecturesInForce (metadata : LocalPackageMetadata) (scope : Scope) : List Bytes :=
  match scope.packageName with
  | none => metadata.architectures
  | some name =>
    match lookup (·.name) metadata.children name with
    | none => []
    | some child =>
      if child.hasArchitectureOverride then child.architectures
      else metadata.architectures

/-- A scope names the base or a child. -/
inductive KnownScope (metadata : LocalPackageMetadata) : Scope → Prop
  | base : KnownScope metadata ⟨.packageBase, none⟩
  | child {child : LocalPackageMetadataChild} (hchild : child ∈ metadata.children) :
      KnownScope metadata ⟨.childPackage, some child.name⟩

/-- What holds of accepted metadata, however its sections were ordered. -/
structure SectionsAccepted (metadata : LocalPackageMetadata) : Prop where
  names : (childNames metadata).Nodup
  scopes : ∀ relation ∈ metadata.relations, KnownScope metadata relation.scope
  architectures : Exclusive metadata.architectures
  overrides : ∀ child ∈ metadata.children, Exclusive child.architectures
  inherited : ∀ child ∈ metadata.children, ascii "any" ∈ child.architectures ∨
    ∀ architecture ∈ child.architectures, architecture ∈ metadata.architectures
  qualifiers : ∀ relation ∈ metadata.relations,
    ∀ qualifier ∈ relation.architectureQualifier, isValidArchitecture qualifier = true ∧
      qualifier ≠ ascii "any" ∧ qualifier ∈ architecturesInForce metadata relation.scope

theorem checkChildArchitectures_ok (h : ChildSound child lines)
    (hcheck : checkChildArchitectures metadata (child, lines) = .ok ()) :
    ascii "any" ∈ child.architectures ∨
      ∀ architecture ∈ child.architectures, architecture ∈ metadata.architectures := by
  unfold checkChildArchitectures at hcheck
  split at hcheck
  · rename_i hskipped
    rw [Bool.or_eq_true] at hskipped
    rcases hskipped with hinherits | hany
    · right
      rw [h.inherits (by simpa using hinherits)]
      exact List.forall_mem_nil _
    · exact Or.inl (by simpa using hany)
  · right
    intro architecture harchitecture
    have hfst := List.map_fst_zip (Nat.le_of_eq h.parallel)
    rw [← hfst] at harchitecture
    obtain ⟨pair, hpair, rfl⟩ := List.mem_map.mp harchitecture
    have hone := forM_ok_mem hcheck pair hpair
    split at hone
    · rename_i hmem
      simpa using hmem
    · cases hone

/-- A child is found by the name of its section. -/
theorem architecturesInForce_child (hnames : (childNames metadata).Nodup)
    (hchild : child ∈ metadata.children) :
    architecturesInForce metadata ⟨.childPackage, some child.name⟩ =
      if child.hasArchitectureOverride then child.architectures
      else metadata.architectures := by
  simp only [architecturesInForce, lookup_of_mem hnames hchild]

theorem mem_of_contained {qualifier : Bytes}
    (h : (if architectures.contains qualifier = true then .ok ()
      else reject .invalidArchitectureQualifier line : Parsing Unit) = .ok ()) :
    qualifier ∈ architectures := by
  split at h
  · rename_i hmem
    simpa using hmem
  · cases h

theorem checkQualifier_ok (hnames : (childNames metadata).Nodup)
    (hsection : DeclaredIn (childNames metadata) relation index)
    (hcheck : checkQualifier metadata (relation, line, index) = .ok ()) :
    KnownScope metadata relation.scope ∧ ∀ qualifier ∈ relation.architectureQualifier,
        qualifier ∈ architecturesInForce metadata relation.scope := by
  cases index with
  | none =>
    rw [hsection]
    refine ⟨.base, ?_⟩
    intro qualifier hqualifier
    unfold checkQualifier at hcheck
    rw [Option.mem_def.mp hqualifier] at hcheck
    exact mem_of_contained hcheck
  | some index =>
    obtain ⟨name, hname, hscope⟩ := hsection
    unfold childNames at hname
    rw [List.getElem?_map] at hname
    obtain ⟨child, hfound, rfl⟩ := Option.map_eq_some_iff.mp hname
    have hchild : child ∈ metadata.children := List.mem_of_getElem? hfound
    rw [hscope]
    refine ⟨.child hchild, ?_⟩
    intro qualifier hqualifier
    rw [architecturesInForce_child hnames hchild]
    unfold checkQualifier at hcheck
    rw [Option.mem_def.mp hqualifier] at hcheck
    dsimp only [Option.bind_some] at hcheck
    rw [hfound] at hcheck
    exact mem_of_contained hcheck

/-- The last checks look at every child and every relation, with its own line
and section. -/
theorem sound_accepted (h : Sound state)
    (hchildren : (state.metadata.children.zip state.childArchitectureLines).forM
      (checkChildArchitectures state.metadata) = .ok ()) (hrelations : (state.metadata.relations.zip
        (state.relationLines.zip state.relationChildIndices)).forM
      (checkQualifier state.metadata) = .ok ()) : SectionsAccepted state.metadata := by
  have hparallel := List.forall₂_iff_zip.mp h.children
  have hchild : ∀ child ∈ state.metadata.children, ∃ lines,
      (child, lines) ∈ state.metadata.children.zip state.childArchitectureLines ∧
        ChildSound child lines := by
    intro child hmem
    have hfst := List.map_fst_zip (Nat.le_of_eq hparallel.1)
    rw [← hfst] at hmem
    obtain ⟨⟨child', lines⟩, hpair, rfl⟩ := List.mem_map.mp hmem
    exact ⟨lines, hpair, hparallel.2 hpair⟩
  have hrelation : ∀ relation ∈ state.metadata.relations, KnownScope state.metadata relation.scope ∧
        ∀ qualifier ∈ relation.architectureQualifier,
          qualifier ∈ architecturesInForce state.metadata relation.scope := by
    intro relation hmem
    obtain ⟨position, hposition, rfl⟩ := List.mem_iff_getElem.mp hmem
    have hlength := h.sections.length_eq
    have hlines := h.lines
    have hboth : position < (state.metadata.relations.zip
        (state.relationLines.zip state.relationChildIndices)).length := by
      rw [List.length_zip, List.length_zip]
      omega
    have hentry := forM_ok_mem hrelations _ (List.getElem_mem hboth)
    rw [List.getElem_zip, List.getElem_zip] at hentry
    have hdeclared := h.sections.get hposition (by omega)
    exact checkQualifier_ok h.names hdeclared hentry
  refine ⟨h.names, fun relation hmem => (hrelation relation hmem).1, h.architectures, ?_, ?_, ?_⟩
  · intro child hmem
    obtain ⟨lines, -, hsound⟩ := hchild child hmem
    exact hsound.exclusive
  · intro child hmem
    obtain ⟨lines, hpair, hsound⟩ := hchild child hmem
    exact checkChildArchitectures_ok hsound (forM_ok_mem hchildren _ hpair)
  · intro relation hmem qualifier hqualifier
    obtain ⟨hvalid, hconcrete⟩ := h.qualifiers relation hmem qualifier hqualifier
    exact ⟨hvalid, hconcrete, (hrelation relation hmem).2 qualifier hqualifier⟩

/-- The run over the lines: the state stays sound, and its package base is the
one the lines declare. -/
theorem readLines_sound {lines : List (Bytes × Nat)} (h : lines.foldlM readLine {} = .ok state) :
    Sound state ∧ state.metadata.packageBase =
      lines.foldl (fun base item => declaredBase base item.1) [] := by
  have hrun : ∀ {items : List (Bytes × Nat)} {start after : ParseState}, Sound start →
      items.foldlM readLine start = .ok after →
      Sound after ∧ after.metadata.packageBase =
        items.foldl (fun base item => declaredBase base item.1) start.metadata.packageBase := by
    intro items
    induction items with
    | nil =>
      intro start after hstart hread
      injection hread with hread
      rw [← hread]
      exact ⟨hstart, rfl⟩
    | cons item items ih =>
      intro start after hstart hread
      rw [List.foldlM_cons, bind_eq_ok] at hread
      obtain ⟨next, hnext, hread⟩ := hread
      obtain ⟨hsound, hbase⟩ := readLine_sound hstart hnext
      rw [List.foldl_cons, ← hbase]
      exact ih hsound hread
  exact hrun Sound.initial h

/-- Both readers of a `.SRCINFO` report one package base, and what the reader
of local metadata accepts is in order, section by section. -/
theorem accepted_sections :
    (∀ source metadata sources, parseLocalPackageMetadata source = .ok metadata →
      parseSrcinfoSourceMetadata source = .ok sources →
      metadata.packageBase = sources.packageBase) ∧
    ∀ source metadata, parseLocalPackageMetadata source = .ok metadata →
      SectionsAccepted metadata := by
  constructor
  · intro source metadata sources h hsources
    unfold parseLocalPackageMetadata at h
    simp only [bind_eq_ok] at h
    obtain ⟨state, hstate, _, -, _, -, _, -, h⟩ := h
    injection h with h
    rw [← h, (readLines_sound hstate).2]
    exact (parseSrcinfoSourceMetadata_packageBase hsources).symm
  · intro source metadata h
    unfold parseLocalPackageMetadata at h
    simp only [bind_eq_ok] at h
    obtain ⟨state, hstate, _, -, _, hchildren, _, hrelations, h⟩ := h
    injection h with h
    rw [← h]
    exact sound_accepted (readLines_sound hstate).1 hchildren hrelations

end Moguet.Local.Sections
