import Moguet.Plan.Model
import Moguet.Verified.Checked

/-!
# Local package metadata

The typed `.SRCINFO` of a local package base (`local_package_metadata.hpp`)
and its parser (`local_package_metadata.cpp`). Relations are kept in
declaration order, each with the scope it was declared in, so the inheritance
of a child stays a later decision.

The parser reads the text line by line into the metadata and the line numbers
its last checks report. Its file-local copies of the package grammar are those
of `dependency_constraint.cpp`.
-/

namespace Moguet.Local.Metadata

open Verified.ByteString Verified.Checked Plan.Constraint

variable {p : UInt8 → Bool}

/-! ## Data -/

inductive RelationKind
  | depends
  | makedepends
  | checkdepends
  | optdepends
  | provides
  | conflicts
  | replaces
  deriving DecidableEq

inductive ScopeKind
  | packageBase
  | childPackage
  deriving DecidableEq

inductive TargetKind
  | package
  | soname
  deriving DecidableEq

inductive Comparison
  | lessThan
  | lessThanOrEqual
  | equal
  | greaterThanOrEqual
  | greaterThan
  deriving DecidableEq

structure Scope where
  kind : ScopeKind
  packageName : Option Bytes
  deriving DecidableEq

/-- `LocalPackageMetadataRelationTarget`. -/
structure Target where
  kind : TargetKind
  name : Bytes
  comparison : Option Comparison := none
  version : Option Bytes := none
  deriving DecidableEq

/-- `LocalPackageMetadataRelation`. -/
structure Relation where
  kind : RelationKind
  rawValue : Bytes
  target : Option Target
  scope : Scope
  architectureQualifier : Option Bytes := none
  optdependsDescription : Option Bytes := none
  isExplicitUnset : Bool := false
  deriving DecidableEq

structure LocalPackageMetadataChild where
  name : Bytes
  hasArchitectureOverride : Bool := false
  clearsInheritedArchitectures : Bool := false
  architectures : List Bytes := []
  deriving DecidableEq

structure LocalPackageMetadata where
  packageBase : Bytes := []
  epoch : Option Bytes := none
  pkgver : Bytes := []
  pkgrel : Bytes := []
  architectures : List Bytes := []
  children : List LocalPackageMetadataChild := []
  relations : List Relation := []
  deriving DecidableEq

inductive LocalPackageMetadataParseErrorCode
  | malformedLine
  | controlCharacter
  | invalidPackageIdentity
  | invalidFieldScope
  | invalidEpoch
  | invalidPkgver
  | invalidPkgrel
  | invalidArchitecture
  | duplicateArchitecture
  | conflictingArchitecture
  | invalidArchitectureQualifier
  | invalidRelation
  | emptyRequiredValue
  | duplicatePackageBase
  | conflictingPackageBase
  | duplicatePackageName
  | duplicateEpoch
  | duplicatePkgver
  | duplicatePkgrel
  | missingPackageBase
  | missingPkgver
  | missingPkgrel
  | missingArchitecture
  | missingPackageName
  deriving DecidableEq

structure LocalPackageMetadataParseFailure where
  code : LocalPackageMetadataParseErrorCode
  line : Nat

/-! ## Lines -/

def isAssignmentBlank (b : UInt8) : Bool := b = 32 || b = 9

def trimAssignmentWhitespace (value : Bytes) : Bytes :=
  (value.dropWhile isAssignmentBlank).rdropWhile isAssignmentBlank

def isDisallowedControl (b : UInt8) : Bool := (b < 0x20 && b != 9) || b = 0x7f

def hasDisallowedControlCharacter (line : Bytes) : Bool := line.any isDisallowedControl

def isValidFieldName (fieldName : Bytes) : Bool :=
  match fieldName with
  | [] => false
  | first :: rest =>
    isAsciiLower first && rest.all fun b => isAsciiAlphanumeric b || b = byte '_'

def isValidArchitecture (architecture : Bytes) : Bool :=
  architecture != [] && architecture.all fun b => isAsciiAlphanumeric b || b = byte '_'

/-- The lines of the source; a final newline opens no further line. -/
def sourceLines (source : Bytes) : List Bytes :=
  let pieces := source.splitOn 10
  if pieces.getLast? = some [] then pieces.dropLast else pieces

/-- One carriage return before the newline is not part of the line. -/
def dropCarriageReturn (line : Bytes) : Bytes :=
  if line.getLast? = some 13 then line.dropLast else line

/-! ## Relation values -/

/-- The fields a relation is declared by, in the order they are tried. -/
def relationFields : List (Bytes × RelationKind) :=
  [(ascii "depends", .depends), (ascii "makedepends", .makedepends),
    (ascii "checkdepends", .checkdepends), (ascii "optdepends", .optdepends),
    (ascii "provides", .provides), (ascii "conflicts", .conflicts),
    (ascii "replaces", .replaces)]

/-- The kind a field declares, and the architecture its name ends in. -/
def matchRelationField (fieldName : Bytes) : Option (RelationKind × Option Bytes) :=
  relationFields.findSome? fun field =>
    if fieldName = field.1 then some (field.2, none)
    else if (field.1 ++ ascii "_").isPrefixOf fieldName then
      some (field.2, some (fieldName.drop (field.1.length + 1)))
    else none

/-- The comparison an operator text starts with, and the text after it. -/
def parseComparison (operator : Bytes) : Option (Comparison × Bytes) :=
  match operator with
  | [] => none
  | b :: rest =>
    if b = byte '<' then
      if rest.head? = some (byte '=') then some (.lessThanOrEqual, rest.tail)
      else some (.lessThan, rest)
    else if b = byte '=' then some (.equal, rest)
    else if b = byte '>' then
      if rest.head? = some (byte '=') then some (.greaterThanOrEqual, rest.tail)
      else some (.greaterThan, rest)
    else none

/-- The text before the first colon that a blank follows, and the text after
that colon. -/
def splitOptdependsDescription : Bytes → Option (Bytes × Bytes)
  | [] => none
  | b :: rest =>
    if b = byte ':' ∧ (rest.head?.any isAssignmentBlank) = true then some ([], rest)
    else (splitOptdependsDescription rest).map fun parts => (b :: parts.1, parts.2)

/-- The text that names the target, and the description after it. -/
def relationTargetText (kind : RelationKind) (rawValue : Bytes) :
    Option (Bytes × Option Bytes) :=
  if kind ≠ .optdepends then some (rawValue, none)
  else
    match splitOptdependsDescription rawValue with
    | none => some (rawValue, none)
    | some (text, rest) =>
      let description := trimAssignmentWhitespace rest
      if description = [] then none else some (text, some description)

/-- `libfoo:libfoo.so`, in the two kinds of relation that may name it. -/
def isSonameText (kind : RelationKind) (targetText : Bytes) : Bool :=
  (kind = .depends || kind = .provides) && !targetText.any isOperatorByte &&
    match splitAtFirst (· = byte ':') targetText with
    | none => false
    | some (library, rest) =>
      !rest.tail.contains (byte ':') && isValidPackageIdentity library &&
        isValidSonamePayload rest.tail

/-- The target a text names. -/
def parseRelationTarget (kind : RelationKind) (targetText : Bytes) : Option Target :=
  if targetText = [] then none
  else if isSonameText kind targetText then some ⟨.soname, targetText, none, none⟩
  else
    match splitAtFirst isOperatorByte targetText with
    | none =>
      if isValidPackageIdentity targetText then some ⟨.package, targetText, none, none⟩
      else none
    | some (name, operator) =>
      if !isValidPackageIdentity name then none
      else
        match parseComparison operator with
        | none => none
        | some (comparison, version) =>
          if kind = .provides ∧ comparison ≠ .equal then none
          else if !isValidPackageVersion version then none
          else some ⟨.package, name, some comparison, some version⟩

/-- `parse_relation_value`. -/
def parseRelationValue (kind : RelationKind) (rawValue : Bytes) :
    Option (Target × Option Bytes) :=
  match relationTargetText kind rawValue with
  | none => none
  | some (text, description) =>
    (parseRelationTarget kind text).map fun target => (target, description)

/-! ## Fields -/

/-- What is read so far, with the line numbers the last checks report. -/
structure ParseState where
  metadata : LocalPackageMetadata := {}
  currentChildIndex : Option Nat := none
  childArchitectureLines : List (List Nat) := []
  relationLines : List Nat := []
  relationChildIndices : List (Option Nat) := []

abbrev Parsing := Except LocalPackageMetadataParseFailure

def reject {α : Type} (code : LocalPackageMetadataParseErrorCode) (line : Nat) : Parsing α :=
  .error ⟨code, line⟩

def readPackageBase (rawValue : Bytes) (line : Nat) (state : ParseState) :
    Parsing ParseState :=
  if !isValidPackageIdentity rawValue then reject .invalidPackageIdentity line
  else if state.metadata.packageBase ≠ [] then
    reject
      (if rawValue = state.metadata.packageBase then .duplicatePackageBase
      else .conflictingPackageBase) line
  else .ok { state with metadata := { state.metadata with packageBase := rawValue } }

/-- A child opens its section. -/
def readPackageName (rawValue : Bytes) (line : Nat) (state : ParseState) :
    Parsing ParseState :=
  if !isValidPackageIdentity rawValue then reject .invalidPackageIdentity line
  else if state.metadata.children.any (·.name = rawValue) then
    reject .duplicatePackageName line
  else
    .ok { state with
      metadata := { state.metadata with
        children := state.metadata.children ++ [{ name := rawValue }] }
      childArchitectureLines := state.childArchitectureLines ++ [[]]
      currentChildIndex := some state.metadata.children.length }

/-- A part of the version of the base: its own duplicate, its own grammar, its
own place. -/
structure VersionField where
  isPresent : LocalPackageMetadata → Bool
  duplicateCode : LocalPackageMetadataParseErrorCode
  isValid : Bytes → Bool
  invalidCode : LocalPackageMetadataParseErrorCode
  store : Bytes → LocalPackageMetadata → LocalPackageMetadata

def epochField : VersionField where
  isPresent := fun metadata => metadata.epoch.isSome
  duplicateCode := .duplicateEpoch
  isValid := containsOnlyAsciiDigits
  invalidCode := .invalidEpoch
  store := fun value metadata => { metadata with epoch := some value }

def pkgverField : VersionField where
  isPresent := fun metadata => metadata.pkgver != []
  duplicateCode := .duplicatePkgver
  isValid := isValidPkgver
  invalidCode := .invalidPkgver
  store := fun value metadata => { metadata with pkgver := value }

def pkgrelField : VersionField where
  isPresent := fun metadata => metadata.pkgrel != []
  duplicateCode := .duplicatePkgrel
  isValid := isValidPkgrel
  invalidCode := .invalidPkgrel
  store := fun value metadata => { metadata with pkgrel := value }

def readVersionField (field : VersionField) (rawValue : Bytes) (line : Nat)
    (state : ParseState) : Parsing ParseState :=
  if state.currentChildIndex.isSome then reject .invalidFieldScope line
  else if field.isPresent state.metadata then reject field.duplicateCode line
  else if rawValue = [] then reject .emptyRequiredValue line
  else if !field.isValid rawValue then reject field.invalidCode line
  else .ok { state with metadata := field.store rawValue state.metadata }

def addArchitecture (architectures : List Bytes) (architecture : Bytes) (line : Nat) :
    Parsing (List Bytes) :=
  if !isValidArchitecture architecture then reject .invalidArchitecture line
  else if architectures.contains architecture then reject .duplicateArchitecture line
  else if (architecture = ascii "any" ∧ architectures ≠ []) ∨
      (architecture ≠ ascii "any" ∧ architectures.contains (ascii "any")) then
    reject .conflictingArchitecture line
  else .ok (architectures ++ [architecture])

/-- An empty value clears what a child inherits, once and before any
architecture of its own. -/
def readChildArchitecture (child : LocalPackageMetadataChild) (rawValue : Bytes)
    (line : Nat) : Parsing LocalPackageMetadataChild :=
  if rawValue = [] then
    if child.clearsInheritedArchitectures then reject .duplicateArchitecture line
    else if child.hasArchitectureOverride then reject .conflictingArchitecture line
    else
      .ok { child with
        hasArchitectureOverride := true, clearsInheritedArchitectures := true }
  else do
    let architectures ← addArchitecture child.architectures rawValue line
    .ok { child with hasArchitectureOverride := true, architectures := architectures }

def readArchitecture (rawValue : Bytes) (line : Nat) (state : ParseState) :
    Parsing ParseState :=
  match state.currentChildIndex with
  | none =>
    if rawValue = [] then reject .emptyRequiredValue line
    else do
      let architectures ← addArchitecture state.metadata.architectures rawValue line
      .ok { state with
        metadata := { state.metadata with architectures := architectures } }
  | some index =>
    match state.metadata.children[index]? with
    | none => .ok state
    | some child => do
        let child ← readChildArchitecture child rawValue line
        .ok { state with
          metadata := { state.metadata with
            children := state.metadata.children.set index child }
          childArchitectureLines :=
            if rawValue = [] then state.childArchitectureLines
            else state.childArchitectureLines.modify index (· ++ [line]) }

/-- The scope of what is declared now. -/
def makeScope (state : ParseState) : Scope :=
  match state.currentChildIndex with
  | none => ⟨.packageBase, none⟩
  | some index => ⟨.childPackage, (state.metadata.children[index]?).map (·.name)⟩

def readRelation (kind : RelationKind) (architectureQualifier : Option Bytes)
    (rawValue : Bytes) (line : Nat) (state : ParseState) : Parsing ParseState :=
  if architectureQualifier.any fun qualifier =>
      !isValidArchitecture qualifier || qualifier = ascii "any" then
    reject .invalidArchitectureQualifier line
  else if state.currentChildIndex.isSome ∧ kind = .makedepends then
    reject .invalidFieldScope line
  else if rawValue = [] ∧ state.currentChildIndex = none then
    reject .emptyRequiredValue line
  else
    let push (target : Option Target) (description : Option Bytes) : ParseState :=
      { state with
        metadata := { state.metadata with
          relations := state.metadata.relations ++
            [⟨kind, rawValue, target, makeScope state, architectureQualifier, description,
              rawValue = []⟩] }
        relationLines := state.relationLines ++ [line]
        relationChildIndices := state.relationChildIndices ++ [state.currentChildIndex] }
    if rawValue = [] then .ok (push none none)
    else
      match parseRelationValue kind rawValue with
      | none => reject .invalidRelation line
      | some (target, description) => .ok (push (some target) description)

/-- One assignment. A valid field the projection has no use for changes
nothing. -/
def readField (fieldName rawValue : Bytes) (line : Nat) (state : ParseState) :
    Parsing ParseState :=
  if state.metadata.packageBase = [] ∧ fieldName ≠ ascii "pkgbase" then
    reject .invalidFieldScope line
  else if fieldName = ascii "pkgbase" then readPackageBase rawValue line state
  else if fieldName = ascii "pkgname" then readPackageName rawValue line state
  else if fieldName = ascii "epoch" then readVersionField epochField rawValue line state
  else if fieldName = ascii "pkgver" then readVersionField pkgverField rawValue line state
  else if fieldName = ascii "pkgrel" then readVersionField pkgrelField rawValue line state
  else if fieldName = ascii "arch" then readArchitecture rawValue line state
  else
    match matchRelationField fieldName with
    | none => .ok state
    | some (kind, qualifier) => readRelation kind qualifier rawValue line state

/-- One line: a blank, a comment or an assignment. -/
def readLine (state : ParseState) (item : Bytes × Nat) : Parsing ParseState :=
  let line := dropCarriageReturn item.1
  if hasDisallowedControlCharacter line then reject .controlCharacter item.2
  else
    let trimmed := trimAssignmentWhitespace line
    if trimmed = [] ∨ trimmed.head? = some (byte '#') then .ok state
    else
      match splitAtFirst (· = byte '=') trimmed with
      | none => reject .malformedLine item.2
      | some (front, rest) =>
        let fieldName := trimAssignmentWhitespace front
        let rawValue := trimAssignmentWhitespace rest.tail
        if !isValidFieldName fieldName then reject .malformedLine item.2
        else readField fieldName rawValue item.2 state

/-! ## The text -/

/-- What has to be there at the end. -/
def requirePresent (metadata : LocalPackageMetadata) (line : Nat) : Parsing Unit :=
  if metadata.packageBase = [] then reject .missingPackageBase line
  else if metadata.pkgver = [] then reject .missingPkgver line
  else if metadata.pkgrel = [] then reject .missingPkgrel line
  else if metadata.architectures = [] then reject .missingArchitecture line
  else if metadata.children = [] then reject .missingPackageName line
  else .ok ()

/-- The architectures of a child are among those of the base. -/
def checkChildArchitectures (metadata : LocalPackageMetadata)
    (item : LocalPackageMetadataChild × List Nat) : Parsing Unit :=
  if !item.1.hasArchitectureOverride || item.1.architectures.contains (ascii "any") then
    .ok ()
  else
    (item.1.architectures.zip item.2).forM fun architecture =>
      if metadata.architectures.contains architecture.1 then .ok ()
      else reject .conflictingArchitecture architecture.2

/-- A qualifier is one of the architectures its section is built for. -/
def checkQualifier (metadata : LocalPackageMetadata)
    (item : Relation × Nat × Option Nat) : Parsing Unit :=
  match item.1.architectureQualifier with
  | none => .ok ()
  | some qualifier =>
    let architectures :=
      match item.2.2.bind (metadata.children[·]?) with
      | none => metadata.architectures
      | some child =>
        if child.hasArchitectureOverride then child.architectures
        else metadata.architectures
    if architectures.contains qualifier then .ok ()
    else reject .invalidArchitectureQualifier item.2.1

def parseLocalPackageMetadata (source : Bytes) : Parsing LocalPackageMetadata := do
  let lines := sourceLines source
  let state ← (lines.zipIdx 1).foldlM readLine {}
  requirePresent state.metadata (lines.length + 1)
  (state.metadata.children.zip state.childArchitectureLines).forM
    (checkChildArchitectures state.metadata)
  (state.metadata.relations.zip (state.relationLines.zip state.relationChildIndices)).forM
    (checkQualifier state.metadata)
  .ok state.metadata

/-! ## Accepted metadata -/

/-- A relation that was read from its own text. -/
def ReadFrom (relation : Relation) : Prop :=
  trim relation.rawValue = relation.rawValue ∧
    (relation.isExplicitUnset = true ∨ ∃ target description,
      parseRelationValue relation.kind relation.rawValue = some (target, description) ∧
        relation.target = some target)

/-- What an accepted text gives. -/
structure Accepted (metadata : LocalPackageMetadata) : Prop where
  children : ∀ child ∈ metadata.children, isValidPackageIdentity child.name = true
  relations : ∀ relation ∈ metadata.relations, ReadFrom relation

theorem dropWhile_congr {q : UInt8 → Bool} :
    ∀ {s : Bytes}, (∀ b ∈ s, p b = q b) → s.dropWhile p = s.dropWhile q := by
  intro s
  induction s with
  | nil => exact fun _ => rfl
  | cons b rest ih =>
    intro h
    have hrest := ih fun other hother => h other (List.mem_cons_of_mem _ hother)
    have hb := h b List.mem_cons_self
    by_cases hp : p b = true
    · rw [List.dropWhile_cons_of_pos hp, List.dropWhile_cons_of_pos (hb ▸ hp), hrest]
    · rw [List.dropWhile_cons_of_neg hp, List.dropWhile_cons_of_neg (hb ▸ hp)]

/-- In a line without line ends the two kinds of trimming agree. -/
theorem trimAssignmentWhitespace_eq_trim {s : Bytes}
    (h : ∀ b ∈ s, isDisallowedControl b = false) : trimAssignmentWhitespace s = trim s := by
  have hsame : ∀ b ∈ s, isAssignmentBlank b = isBlank b := by
    intro b hb
    have hcontrol := h b hb
    unfold isAssignmentBlank isBlank
    by_cases hten : b = 10
    · rw [hten] at hcontrol
      exact absurd hcontrol (by decide)
    · by_cases hthirteen : b = 13
      · rw [hthirteen] at hcontrol
        exact absurd hcontrol (by decide)
      · simp [hten, hthirteen]
  have hfront := dropWhile_congr hsame
  unfold trimAssignmentWhitespace trim
  rw [hfront]
  unfold List.rdropWhile
  congr 1
  apply dropWhile_congr
  intro b hb
  apply hsame
  exact (List.dropWhile_sublist _).subset (List.mem_reverse.mp hb)

theorem trimAssignmentWhitespace_subset (s : Bytes) : trimAssignmentWhitespace s ⊆ s := by
  unfold trimAssignmentWhitespace
  exact List.Subset.trans (List.rdropWhile_prefix _ _).subset (List.dropWhile_sublist _).subset

theorem subset_of_splitAtFirst {s front rest : Bytes} (h : splitAtFirst p s = some (front, rest)) :
    rest ⊆ s := by
  unfold splitAtFirst at h
  split at h
  · cases h
  · rename_i b others hdrop
    injection h with h
    injection h with _ h
    rw [← h, ← hdrop]
    exact (List.dropWhile_sublist _).subset

/-! ### Each field keeps what is accepted -/

section Fields

variable {rawValue : Bytes} {line : Nat} {state after : ParseState}

theorem readPackageBase_accepted (h : Accepted state.metadata)
    (hread : readPackageBase rawValue line state = .ok after) : Accepted after.metadata := by
  unfold readPackageBase reject at hread
  split at hread
  · cases hread
  · split at hread
    · cases hread
    · injection hread with hread
      rw [← hread]
      exact ⟨h.children, h.relations⟩

theorem readPackageName_accepted (h : Accepted state.metadata)
    (hread : readPackageName rawValue line state = .ok after) : Accepted after.metadata := by
  unfold readPackageName reject at hread
  split at hread
  · cases hread
  · rename_i hvalid
    split at hread
    · cases hread
    · injection hread with hread
      rw [← hread]
      refine ⟨?_, h.relations⟩
      intro child hchild
      rcases List.mem_append.mp hchild with hchild | hchild
      · exact h.children child hchild
      · rw [List.mem_singleton.mp hchild]
        simpa using hvalid

theorem readVersionField_accepted {field : VersionField}
    (hstore : ∀ value metadata, (field.store value metadata).children = metadata.children ∧
      (field.store value metadata).relations = metadata.relations)
    (h : Accepted state.metadata)
    (hread : readVersionField field rawValue line state = .ok after) :
    Accepted after.metadata := by
  unfold readVersionField reject at hread
  split at hread
  · cases hread
  · split at hread
    · cases hread
    · split at hread
      · cases hread
      · split at hread
        · cases hread
        · injection hread with hread
          rw [← hread]
          obtain ⟨hchildren, hrelations⟩ := hstore rawValue state.metadata
          constructor
          · rw [hchildren]
            exact h.children
          · rw [hrelations]
            exact h.relations

theorem readChildArchitecture_name {child own : LocalPackageMetadataChild}
    (h : readChildArchitecture child rawValue line = .ok own) : own.name = child.name := by
  unfold readChildArchitecture reject at h
  split at h
  · split at h
    · cases h
    · split at h
      · cases h
      · injection h with h
        rw [← h]
  · rw [bind_eq_ok] at h
    obtain ⟨architectures, -, h⟩ := h
    injection h with h
    rw [← h]

theorem readArchitecture_accepted (h : Accepted state.metadata)
    (hread : readArchitecture rawValue line state = .ok after) : Accepted after.metadata := by
  unfold readArchitecture at hread
  split at hread
  · split at hread
    · cases hread
    · rw [bind_eq_ok] at hread
      obtain ⟨architectures, -, hread⟩ := hread
      injection hread with hread
      rw [← hread]
      exact ⟨h.children, h.relations⟩
  · rename_i index _
    split at hread
    · injection hread with hread
      rw [← hread]
      exact h
    · rename_i child hchild
      rw [bind_eq_ok] at hread
      obtain ⟨own, hown, hread⟩ := hread
      injection hread with hread
      rw [← hread]
      refine ⟨?_, h.relations⟩
      intro other hother
      rcases List.mem_or_eq_of_mem_set hother with hother | rfl
      · exact h.children other hother
      · rw [readChildArchitecture_name hown]
        exact h.children child (List.mem_of_getElem? hchild)

theorem readRelation_accepted {kind : RelationKind} {qualifier : Option Bytes}
    (htrimmed : trim rawValue = rawValue) (h : Accepted state.metadata)
    (hread : readRelation kind qualifier rawValue line state = .ok after) :
    Accepted after.metadata := by
  unfold readRelation reject at hread
  split at hread
  · cases hread
  · split at hread
    · cases hread
    · split at hread
      · cases hread
      · dsimp only at hread
        have hpush : ∀ relation, ReadFrom relation →
            ∀ other ∈ state.metadata.relations ++ [relation], ReadFrom other := by
          intro relation hrelation other hother
          rcases List.mem_append.mp hother with hother | hother
          · exact h.relations other hother
          · rw [List.mem_singleton.mp hother]
            exact hrelation
        split at hread
        · rename_i hempty
          injection hread with hread
          rw [← hread]
          exact ⟨h.children, hpush _ ⟨htrimmed, Or.inl (decide_eq_true hempty)⟩⟩
        · split at hread
          · cases hread
          · rename_i target description hparsed
            injection hread with hread
            rw [← hread]
            exact ⟨h.children, hpush _ ⟨htrimmed, Or.inr ⟨target, description, hparsed, rfl⟩⟩⟩

theorem readField_accepted {fieldName : Bytes} (htrimmed : trim rawValue = rawValue)
    (h : Accepted state.metadata)
    (hread : readField fieldName rawValue line state = .ok after) :
    Accepted after.metadata := by
  unfold readField reject at hread
  split at hread
  · cases hread
  · split at hread
    · exact readPackageBase_accepted h hread
    · split at hread
      · exact readPackageName_accepted h hread
      · split at hread
        · exact readVersionField_accepted (fun _ _ => ⟨rfl, rfl⟩) h hread
        · split at hread
          · exact readVersionField_accepted (fun _ _ => ⟨rfl, rfl⟩) h hread
          · split at hread
            · exact readVersionField_accepted (fun _ _ => ⟨rfl, rfl⟩) h hread
            · split at hread
              · exact readArchitecture_accepted h hread
              · split at hread
                · injection hread with hread
                  rw [← hread]
                  exact h
                · exact readRelation_accepted htrimmed h hread

theorem readLine_accepted {item : Bytes × Nat} (h : Accepted state.metadata)
    (hread : readLine state item = .ok after) : Accepted after.metadata := by
  unfold readLine reject at hread
  dsimp only at hread
  split at hread
  · cases hread
  · rename_i hcontrol
    split at hread
    · injection hread with hread
      rw [← hread]
      exact h
    · split at hread
      · cases hread
      · rename_i front rest hsplit
        split at hread
        · cases hread
        · apply readField_accepted _ h hread
          -- The value is a part of a line without line ends.
          have hsubset : rest.tail ⊆ dropCarriageReturn item.1 :=
            List.Subset.trans (List.tail_sublist rest).subset (List.Subset.trans
              (subset_of_splitAtFirst hsplit) (trimAssignmentWhitespace_subset _))
          have hclean : ∀ b ∈ rest.tail, isDisallowedControl b = false := by
            intro b hb
            unfold hasDisallowedControlCharacter at hcontrol
            rw [List.any_eq_true] at hcontrol
            push Not at hcontrol
            exact Bool.eq_false_iff.mpr (hcontrol b (hsubset hb))
          rw [trimAssignmentWhitespace_eq_trim hclean]
          exact trim_trim _

end Fields

/-- Every accepted text gives valid names and relations read from their own
text. -/
theorem parseLocalPackageMetadata_accepted {source : Bytes} {metadata : LocalPackageMetadata}
    (h : parseLocalPackageMetadata source = .ok metadata) : Accepted metadata := by
  unfold parseLocalPackageMetadata at h
  simp only [bind_eq_ok] at h
  obtain ⟨state, hstate, _, -, _, -, _, -, h⟩ := h
  injection h with h
  rw [← h]
  refine foldlM_inv (P := fun state => Accepted state.metadata) ?_ ?_ hstate
  · intro item _ current next hcurrent hstep
    exact readLine_accepted hcurrent hstep
  · exact ⟨List.forall_mem_nil _, List.forall_mem_nil _⟩

end Moguet.Local.Metadata
