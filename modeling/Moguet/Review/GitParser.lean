import Mathlib.Data.List.Sort
import Moguet.Verified.Checked
import Moguet.Verified.Decimal
import Moguet.Verified.Fields
import Moguet.Review.Projection

/-!
# Reading Git machine output

The output of `git ls-tree`, `git diff-tree --name-status` and `git diff-tree
--numstat` is untrusted. The readers accept exactly their record formats, and
`assembleReviewedSourceChanges` cross-checks the three: every status record
must agree with its numstat record and with the two inventories, and at the
end every path that differs must have been listed and no other.
-/

namespace Moguet.Review.GitParser

open Verified ByteString KeyedList Decimal Fields Projection

inductive ReviewedSourceMachineStream
  | commitResolution
  | baselineTree
  | targetTree
  | nameStatus
  | numstat
  | crossStream
  | resourcePreflight
  deriving DecidableEq

inductive ReviewedSourceProjectionFailureReason
  | malformedMachineOutput
  | inconsistentMachineOutput
  | renameCandidateLimitExceeded
  | singleBlobSizeLimitExceeded
  | aggregateBlobSizeLimitExceeded
  deriving DecidableEq

structure ReviewedSourceProjectionFailure where
  reason : ReviewedSourceProjectionFailureReason
  stream : ReviewedSourceMachineStream
  recordIndex : Nat := 0
  observed : Nat := 0
  limit : Nat := 0

abbrev Projected := Except ReviewedSourceProjectionFailure

def malformed (stream : ReviewedSourceMachineStream) (recordIndex : Nat) :
    ReviewedSourceProjectionFailure :=
  ⟨.malformedMachineOutput, stream, recordIndex, 0, 0⟩

def inconsistent (recordIndex : Nat) : ReviewedSourceProjectionFailure :=
  ⟨.inconsistentMachineOutput, .crossStream, recordIndex, 0, 0⟩

/-- The status letters of a record: `A`, `M`, `D`, `T` and `R`. -/
inductive StatusCode
  | added
  | modified
  | deleted
  | typeChanged
  | renamed
  deriving DecidableEq

structure StatusRecord where
  code : StatusCode
  similarity : Option Nat
  oldPath : Bytes
  newPath : Bytes

def plainStatusCode (status : Bytes) : Option StatusCode :=
  if status = ascii "A" then some .added
  else if status = ascii "M" then some .modified
  else if status = ascii "D" then some .deleted
  else if status = ascii "T" then some .typeChanged
  else none

/-- The two paths of a rename. -/
def takePathPair (text : Bytes) : Option ((Bytes × Bytes) × Bytes) := do
  let (oldPath, text) ← takeField 0 text
  let (newPath, text) ← takeField 0 text
  guard (oldPath ≠ [] ∧ newPath ≠ [] ∧ oldPath ≠ newPath)
  some ((oldPath, newPath), text)

def takePath (text : Bytes) : Option (Bytes × Bytes) := do
  let (path, text) ← takeField 0 text
  guard (path ≠ [])
  some (path, text)

def readRenameStatus (detectRenames : Bool) (score text : Bytes) :
    Option (StatusRecord × Bytes) := do
  guard (detectRenames = true)
  let similarity ← parseUnsigned (2 ^ 32) score
  guard (50 ≤ similarity ∧ similarity ≤ 100)
  let (paths, text) ← takePathPair text
  some (⟨.renamed, some similarity, paths.1, paths.2⟩, text)

def readPlainStatus (status text : Bytes) : Option (StatusRecord × Bytes) := do
  let code ← plainStatusCode status
  let (path, text) ← takePath text
  some (⟨code, none, path, path⟩, text)

def readStatusRecord (detectRenames : Bool) (text : Bytes) :
    Option (StatusRecord × Bytes) :=
  match takeField 0 text with
  | none => none
  | some ([], _) => none
  | some (code :: score, rest) =>
    if code = byte 'R' then readRenameStatus detectRenames score rest
    else readPlainStatus (code :: score) rest

def parseNameStatus (output : Bytes) (detectRenames : Bool) :
    Projected (List StatusRecord) :=
  readRecords (malformed .nameStatus) (readStatusRecord detectRenames) output.length 0
    output

structure NumstatRecord where
  oldPath : Bytes
  newPath : Bytes
  content : ReviewedSourceContentChange

def parseLineCounts (added deleted : Bytes) : Option ReviewedSourceContentChange :=
  if added = ascii "-" ∧ deleted = ascii "-" then some .binary
  else if added = ascii "-" ∨ deleted = ascii "-" then none
  else do
    let addedLines ← parseUnsigned (2 ^ 64) added
    let deletedLines ← parseUnsigned (2 ^ 64) deleted
    some (.text addedLines deletedLines)

/-- The paths of a numstat record: a NUL byte announces a rename. -/
def takeNumstatPaths (text : Bytes) : Option ((Bytes × Bytes) × Bytes) :=
  match text with
  | 0 :: rest => takePathPair rest
  | _ => (takePath text).map fun taken => ((taken.1, taken.1), taken.2)

def readNumstatRecord (text : Bytes) : Option (NumstatRecord × Bytes) := do
  let (added, text) ← takeField (byte '\t') text
  let (deleted, text) ← takeField (byte '\t') text
  let content ← parseLineCounts added deleted
  let (paths, text) ← takeNumstatPaths text
  some (⟨paths.1, paths.2, content⟩, text)

def parseNumstat (output : Bytes) : Projected (List NumstatRecord) :=
  readRecords (malformed .numstat) readNumstatRecord output.length 0 output

def parseMode (value : Bytes) : Option ReviewedSourceFileMode :=
  if value = ascii "100644" then some .regular
  else if value = ascii "100755" then some .executable
  else if value = ascii "120000" then some .symbolicLink
  else if value = ascii "160000" then some .gitlink
  else none

def objectTypeMatchesMode (objectType : Bytes) (mode : ReviewedSourceFileMode) : Bool :=
  if mode = .gitlink then objectType = ascii "commit" else objectType = ascii "blob"

/-- The size field: `-` for a submodule link, a number for a blob. -/
def parseBlobSize (mode : ReviewedSourceFileMode) (size : Bytes) : Option (Option Nat) :=
  if mode = .gitlink then
    if size = ascii "-" then some none else none
  else (parseUnsigned (2 ^ 64) size).map some

/-- One entry: four metadata fields and the path of the parallel stream. -/
def readTreeEntry (objectFormat : GitObjectFormat) (metadata paths : Bytes) :
    Option (ReviewedSourceFileVersion × Bytes × Bytes) := do
  let (modeField, metadata) ← takeField 0 metadata
  let (typeField, metadata) ← takeField 0 metadata
  let (objectField, metadata) ← takeField 0 metadata
  let (sizeField, metadata) ← takeField 0 metadata
  let (pathField, paths) ← takePath paths
  let mode ← parseMode modeField
  guard (objectTypeMatchesMode typeField mode = true)
  let blobSize ← parseBlobSize mode sizeField
  let objectId ← ReviewedSourceObjectId.make objectField
  guard (objectId.format = objectFormat)
  let path ← ReviewedSourcePath.make pathField
  let version ← ReviewedSourceFileVersion.make path mode objectId blobSize
  some (version, metadata, paths)

/-- The entries so far, and what is left of the two streams. A path that was
listed before is refused. -/
def readTreeEntries (objectFormat : GitObjectFormat)
    (stream : ReviewedSourceMachineStream) :
    Nat → ReviewedSourceTreeInventory → Bytes → Bytes →
      Projected ReviewedSourceTreeInventory
  | _, inventory, [], paths =>
    if paths = [] then .ok inventory
    else .error (malformed stream inventory.entries.length)
  | 0, inventory, _ :: _, _ => .error (malformed stream inventory.entries.length)
  | fuel + 1, inventory, b :: metadata, paths =>
    match readTreeEntry objectFormat (b :: metadata) paths with
    | none => .error (malformed stream inventory.entries.length)
    | some (version, metadata, paths) =>
      if hfresh : findEntry inventory version.rawPath = none then
        readTreeEntries objectFormat stream fuel
          ⟨inventory.entries ++ [version],
            unique_concat inventory.unique_paths hfresh⟩ metadata paths
      else .error (malformed stream inventory.entries.length)

def ReviewedSourceTreeInventory.empty : ReviewedSourceTreeInventory :=
  ⟨[], List.nodup_nil⟩

def parseReviewedSourceTreeOutput (metadataOutput pathOutput : Bytes)
    (objectFormat : GitObjectFormat) (stream : ReviewedSourceMachineStream) :
    Projected ReviewedSourceTreeInventory :=
  readTreeEntries objectFormat stream metadataOutput.length
    ReviewedSourceTreeInventory.empty metadataOutput pathOutput

/-- The paths accounted for on either side, and the changes so far. -/
structure AssemblyState where
  consumedOld : List Bytes := []
  consumedNew : List Bytes := []
  changes : List ReviewedSourceFileChange := []

/-- The versions a status record is about, with the paths each case must not
have consumed before. -/
def assembleChange (baseline target : ReviewedSourceTreeInventory)
    (state : AssemblyState) (status : StatusRecord)
    (content : ReviewedSourceContentChange) : Option AssemblyState :=
  match status.code, findEntry baseline status.oldPath,
      findEntry target status.newPath with
  | .added, none, some newEntry =>
    if status.newPath ∈ state.consumedNew then none
    else some {
      consumedOld := state.consumedOld
      consumedNew := status.newPath :: state.consumedNew
      changes := state.changes ++ [.added newEntry content] }
  | .deleted, some oldEntry, none =>
    if status.oldPath ∈ state.consumedOld then none
    else some {
      consumedOld := status.oldPath :: state.consumedOld
      consumedNew := state.consumedNew
      changes := state.changes ++ [.deleted oldEntry content] }
  | .modified, some oldEntry, some newEntry =>
    if oldEntry = newEntry ∨
        reviewedSourceFileType oldEntry.mode ≠ reviewedSourceFileType newEntry.mode ∨
        status.oldPath ∈ state.consumedOld ∨ status.newPath ∈ state.consumedNew then
      none
    else some {
      consumedOld := status.oldPath :: state.consumedOld
      consumedNew := status.newPath :: state.consumedNew
      changes := state.changes ++ [.modified oldEntry newEntry content] }
  | .typeChanged, some oldEntry, some newEntry =>
    if reviewedSourceFileType oldEntry.mode = reviewedSourceFileType newEntry.mode ∨
        status.oldPath ∈ state.consumedOld ∨ status.newPath ∈ state.consumedNew then
      none
    else some {
      consumedOld := status.oldPath :: state.consumedOld
      consumedNew := status.newPath :: state.consumedNew
      changes := state.changes ++ [.typeChanged oldEntry newEntry content] }
  | .renamed, some oldEntry, some newEntry =>
    match status.similarity with
    | none => none
    | some similarity =>
      if (findEntry target status.oldPath).isSome ∨
          (findEntry baseline status.newPath).isSome ∨
          status.oldPath ∈ state.consumedOld ∨
          status.newPath ∈ state.consumedNew then none
      else some {
        consumedOld := status.oldPath :: state.consumedOld
        consumedNew := status.newPath :: state.consumedNew
        changes := state.changes ++ [.renamed oldEntry newEntry similarity content] }
  | _, _, _ => none

/-- One turn of the loop: the record of both streams at an index. -/
def assembleRecord (baseline target : ReviewedSourceTreeInventory)
    (state : AssemblyState) (item : (StatusRecord × NumstatRecord) × Nat) :
    Projected AssemblyState :=
  let status := item.1.1
  let numstat := item.1.2
  if status.oldPath ≠ numstat.oldPath ∨ status.newPath ≠ numstat.newPath then
    .error (inconsistent item.2)
  else
    match assembleChange baseline target state status numstat.content with
    | none => .error (inconsistent item.2)
    | some state => .ok state

/-- Whether the entry of a path is another one, or missing, in the other
inventory. -/
def entryChanged (other : ReviewedSourceTreeInventory)
    (entry : ReviewedSourceFileVersion) : Bool :=
  findEntry other entry.rawPath ≠ some entry

/-- The changed entries of one side are exactly those that were consumed. -/
def requireCoverage (entries : List ReviewedSourceFileVersion)
    (other : ReviewedSourceTreeInventory) (consumed : List Bytes) (count : Nat) :
    Projected Unit :=
  if entries.all fun entry =>
      entryChanged other entry = decide (entry.rawPath ∈ consumed) then .ok ()
  else .error (inconsistent count)

def assembleReviewedSourceChanges (baseline target : ReviewedSourceTreeInventory)
    (nameStatusOutput numstatOutput : Bytes) (detectRenames : Bool) :
    Projected (List ReviewedSourceFileChange) := do
  let statuses ← parseNameStatus nameStatusOutput detectRenames
  let numstats ← parseNumstat numstatOutput
  if statuses.length ≠ numstats.length then .error (inconsistent 0)
  else do
    let state ← (statuses.zip numstats).zipIdx.foldlM (assembleRecord baseline target) {}
    requireCoverage baseline.entries target state.consumedOld state.changes.length
    requireCoverage target.entries baseline state.consumedNew state.changes.length
    .ok state.changes

end Moguet.Review.GitParser
