import Moguet.Local.Metadata
import Moguet.Source.Entry

/-!
# The sources of a `.SRCINFO`

The source-only reading of a `.SRCINFO` (`srcinfo_source_metadata.cpp`): its
package base and its source entries. The lines, the assignments on them and the
identifiers are those of the reader of local metadata, of which this file keeps
its own copies.
-/

namespace Moguet.Source.Srcinfo

open Verified.ByteString Verified.Checked Plan.Constraint Entry
open Local.Metadata (trimAssignmentWhitespace dropCarriageReturn sourceLines
  isValidFieldName isValidArchitecture)

variable {packageBase text rawValue : Bytes} {line : Nat}

structure ParsedSrcinfoSourceEntry where
  rawValue : Bytes
  architectureQualifier : Option Bytes
  parsedSource : ParsedSourceEntry

structure ParsedSrcinfoSourceMetadata where
  packageBase : Bytes := []
  sourceEntries : List ParsedSrcinfoSourceEntry := []

inductive SrcinfoSourceMetadataParseErrorCode
  | malformedLine
  | invalidUtf8
  | controlCharacter
  | invalidPackageIdentity
  | invalidFieldScope
  | emptySourceValue
  | invalidArchitectureQualifier
  | invalidSourceEntry
  | duplicatePackageBase
  | conflictingPackageBase
  | duplicatePackageName
  | missingPackageBase
  deriving DecidableEq

structure SrcinfoSourceMetadataParseFailure where
  code : SrcinfoSourceMetadataParseErrorCode
  line : Nat
  sourceEntryError : Option SourceEntryParseErrorCode := none

structure SrcinfoState where
  metadata : ParsedSrcinfoSourceMetadata := {}
  packageNames : List Bytes := []
  isChildSection : Bool := false

variable {state after : SrcinfoState}

abbrev Reading := Except SrcinfoSourceMetadataParseFailure

def refuse {α : Type} (code : SrcinfoSourceMetadataParseErrorCode) (line : Nat) : Reading α :=
  .error ⟨code, line, none⟩

def isValidArchitectureQualifier (qualifier : Bytes) : Bool :=
  isValidArchitecture qualifier && qualifier ≠ ascii "any"

/-- Whether a field declares a source, and the architecture its name ends in. -/
def matchSourceField (fieldName : Bytes) : Option (Option Bytes) :=
  if fieldName = ascii "source" then some none
  else if (ascii "source_").isPrefixOf fieldName then
    some (some (fieldName.drop (ascii "source_").length))
  else none

def readPackageBase (rawValue : Bytes) (line : Nat) (state : SrcinfoState) :
    Reading SrcinfoState :=
  if !isValidPackageIdentity rawValue then refuse .invalidPackageIdentity line
  else if state.metadata.packageBase ≠ [] then
    refuse
      (if rawValue = state.metadata.packageBase then .duplicatePackageBase
      else .conflictingPackageBase) line
  else .ok { state with metadata := { state.metadata with packageBase := rawValue } }

def readPackageName (rawValue : Bytes) (line : Nat) (state : SrcinfoState) :
    Reading SrcinfoState :=
  if !isValidPackageIdentity rawValue then refuse .invalidPackageIdentity line
  else if state.packageNames.contains rawValue then refuse .duplicatePackageName line
  else
    .ok { state with packageNames := state.packageNames ++ [rawValue], isChildSection := true }

/-- Sources belong to the package base, never to a child. -/
def readSource (architectureQualifier : Option Bytes) (rawValue : Bytes) (line : Nat)
    (state : SrcinfoState) : Reading SrcinfoState :=
  if state.isChildSection then refuse .invalidFieldScope line
  else if rawValue = [] then refuse .emptySourceValue line
  else if architectureQualifier.any fun qualifier =>
      !isValidArchitectureQualifier qualifier then
    refuse .invalidArchitectureQualifier line
  else
    match parseSourceEntry rawValue with
    | .error code => .error ⟨.invalidSourceEntry, line, some code⟩
    | .ok entry =>
      .ok { state with
        metadata := { state.metadata with
          sourceEntries := state.metadata.sourceEntries ++
            [⟨rawValue, architectureQualifier, entry⟩] } }

/-- One assignment. Other valid fields are outside this projection. -/
def readField (fieldName rawValue : Bytes) (line : Nat) (state : SrcinfoState) :
    Reading SrcinfoState :=
  if state.metadata.packageBase = [] ∧ fieldName ≠ ascii "pkgbase" then
    refuse .invalidFieldScope line
  else if fieldName = ascii "pkgbase" then readPackageBase rawValue line state
  else if fieldName = ascii "pkgname" then readPackageName rawValue line state
  else
    match matchSourceField fieldName with
    | none => .ok state
    | some qualifier => readSource qualifier rawValue line state

/-- One line: a blank, a comment or an assignment. -/
def readLine (state : SrcinfoState) (item : Bytes × Nat) : Reading SrcinfoState :=
  let line := dropCarriageReturn item.1
  match validateSourceSyntaxText line with
  | .invalidUtf8 => refuse .invalidUtf8 item.2
  | .refusedCodePoint => refuse .controlCharacter item.2
  | .valid =>
    let trimmed := trimAssignmentWhitespace line
    if trimmed = [] ∨ trimmed.head? = some (byte '#') then .ok state
    else
      match splitAtFirst (· = byte '=') trimmed with
      | none => refuse .malformedLine item.2
      | some (front, rest) =>
        let fieldName := trimAssignmentWhitespace front
        let rawValue := trimAssignmentWhitespace rest.tail
        if !isValidFieldName fieldName then refuse .malformedLine item.2
        else readField fieldName rawValue item.2 state

def parseSrcinfoSourceMetadata (source : Bytes) : Reading ParsedSrcinfoSourceMetadata := do
  let lines := sourceLines source
  let state ← (lines.zipIdx 1).foldlM readLine {}
  if state.metadata.packageBase = [] then refuse .missingPackageBase (lines.length + 1)
  else .ok state.metadata

/-- The field and the value a line assigns. -/
def lineAssignment (text : Bytes) : Option (Bytes × Bytes) :=
  let trimmed := trimAssignmentWhitespace (dropCarriageReturn text)
  if trimmed = [] ∨ trimmed.head? = some (byte '#') then none
  else
    (splitAtFirst (· = byte '=') trimmed).map fun parts =>
      (trimAssignmentWhitespace parts.1, trimAssignmentWhitespace parts.2.tail)

/-- The package base after a line. -/
def declaredBase (packageBase text : Bytes) : Bytes :=
  match lineAssignment text with
  | some (fieldName, rawValue) =>
    if fieldName = ascii "pkgbase" then rawValue else packageBase
  | none => packageBase

theorem declaredBase_blank (h : trimAssignmentWhitespace (dropCarriageReturn text) = [] ∨
      (trimAssignmentWhitespace (dropCarriageReturn text)).head? = some (byte '#')) :
    declaredBase packageBase text = packageBase := by
  unfold declaredBase lineAssignment
  dsimp only
  rw [if_pos h]

theorem declaredBase_assignment {front rest : Bytes}
    (h : ¬ (trimAssignmentWhitespace (dropCarriageReturn text) = [] ∨
      (trimAssignmentWhitespace (dropCarriageReturn text)).head? = some (byte '#')))
    (hsplit : splitAtFirst (· = byte '=')
      (trimAssignmentWhitespace (dropCarriageReturn text)) = some (front, rest)) :
    declaredBase packageBase text =
      if trimAssignmentWhitespace front = ascii "pkgbase" then
        trimAssignmentWhitespace rest.tail
      else packageBase := by
  unfold declaredBase lineAssignment
  dsimp only
  rw [if_neg h, hsplit]
  rfl

theorem readPackageBase_base (h : readPackageBase rawValue line state = .ok after) :
    after.metadata.packageBase = rawValue := by
  unfold readPackageBase refuse at h
  split at h
  · cases h
  · split at h
    · cases h
    · injection h with h
      rw [← h]

theorem readPackageName_base (h : readPackageName rawValue line state = .ok after) :
    after.metadata.packageBase = state.metadata.packageBase := by
  unfold readPackageName refuse at h
  split at h
  · cases h
  · split at h
    · cases h
    · injection h with h
      rw [← h]

theorem readSource_base {qualifier : Option Bytes}
    (h : readSource qualifier rawValue line state = .ok after) :
    after.metadata.packageBase = state.metadata.packageBase := by
  unfold readSource refuse at h
  split at h
  · cases h
  · split at h
    · cases h
    · split at h
      · cases h
      · split at h
        · cases h
        · injection h with h
          rw [← h]

theorem readField_base {fieldName : Bytes} (h : readField fieldName rawValue line state = .ok after)
    :
    after.metadata.packageBase =
      if fieldName = ascii "pkgbase" then rawValue else state.metadata.packageBase := by
  unfold readField refuse at h
  split at h
  · cases h
  · split at h
    · rename_i hfield
      rw [if_pos hfield]
      exact readPackageBase_base h
    · rename_i hfield
      rw [if_neg hfield]
      split at h
      · exact readPackageName_base h
      · split at h
        · injection h with h
          rw [← h]
        · exact readSource_base h

theorem readLine_packageBase {item : Bytes × Nat} (h : readLine state item = .ok after) :
    after.metadata.packageBase = declaredBase state.metadata.packageBase item.1 := by
  unfold readLine refuse at h
  dsimp only at h
  split at h
  · cases h
  · cases h
  · split at h
    · rename_i hblank
      injection h with h
      rw [← h, declaredBase_blank hblank]
    · rename_i hassigned
      split at h
      · cases h
      · rename_i front rest hsplit
        split at h
        · cases h
        · rw [readField_base h, declaredBase_assignment hassigned hsplit]

/-- The package base of an accepted text is declared by its lines. -/
theorem parseSrcinfoSourceMetadata_packageBase {source : Bytes}
    {metadata : ParsedSrcinfoSourceMetadata}
    (h : parseSrcinfoSourceMetadata source = .ok metadata) :
    metadata.packageBase =
      ((sourceLines source).zipIdx 1).foldl (fun base item => declaredBase base item.1) [] := by
  unfold parseSrcinfoSourceMetadata at h
  dsimp only at h
  rw [bind_eq_ok] at h
  obtain ⟨state, hstate, h⟩ := h
  split at h
  · cases h
  · injection h with h
    rw [← h]
    exact foldlM_view (fun state => state.metadata.packageBase)
      (fun base item => declaredBase base item.1)
      (fun _ _ _ hread => readLine_packageBase hread) hstate

end Moguet.Source.Srcinfo
