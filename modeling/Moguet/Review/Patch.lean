import Moguet.Verified.Checked
import Moguet.Verified.Decimal
import Moguet.Verified.Fields
import Moguet.Review.Projection

/-!
# Reading and verifying a text patch

The patch of a changed blob is untrusted output of `git diff`. It is read as
four fixed header lines and a row of hunks, and then replayed: the hunks are
walked over the lines of both blobs with an index on either side, and the bytes
collected on the way must be the new blob.
-/

namespace Moguet.Review.Patch

open Verified.ByteString Verified.Decimal Verified.Fields Projection

def reviewedSourceLogicalLineLimit : Nat := 1 * 1024 * 1024

def reviewedSourceSingleRawPatchLimit : Nat := 16 * 1024 * 1024

structure ReviewedSourceTextLine where
  bytes : Bytes
  hasNewline : Bool := true
  deriving DecidableEq

inductive ReviewedSourcePatchLineKind
  | context
  | removed
  | added
  deriving DecidableEq

structure ReviewedSourcePatchLine where
  kind : ReviewedSourcePatchLineKind
  line : ReviewedSourceTextLine
  deriving DecidableEq

structure ReviewedSourcePatchHunk where
  oldStart : Nat
  oldCount : Nat
  newStart : Nat
  newCount : Nat
  lines : List ReviewedSourcePatchLine := []
  deriving DecidableEq

structure ReviewedSourceTextPatch where
  oldObjectId : ReviewedSourceObjectId
  newObjectId : ReviewedSourceObjectId
  hunks : List ReviewedSourcePatchHunk
  deriving DecidableEq

inductive ReviewedSourcePatchFailureReason
  | rawPatchLimitExceeded
  | logicalLineLimitExceeded
  | malformedPatchOutput
  | replayMismatch
  deriving DecidableEq

structure ReviewedSourcePatchFailure where
  reason : ReviewedSourcePatchFailureReason
  hunkIndex : Nat := 0
  observed : Nat := 0
  limit : Nat := 0
  deriving DecidableEq

abbrev Verified := Except ReviewedSourcePatchFailure

def malformedPatch (hunkIndex : Nat) : ReviewedSourcePatchFailure :=
  ⟨.malformedPatchOutput, hunkIndex, 0, 0⟩

/-- A line ends with a newline: the rest without one is not a line. -/
def takeLine (text : Bytes) : Option (Bytes × Bytes) := takeField (byte '\n') text

def takeExactLine (expected text : Bytes) : Option Bytes := do
  let (line, rest) ← takeLine text
  guard (line = expected)
  some rest

/-- `std::from_chars` into a `size_t`. -/
def parseSize (value : Bytes) : Option Nat := parseUnsigned (2 ^ 64) value

/-- `start,count`, or `start` alone for a count of one. -/
def parseRange (value : Bytes) : Option (Nat × Nat) :=
  match takeField (byte ',') value with
  | none => do
      let start ← parseSize value
      some (start, 1)
  | some (front, rest) => do
      guard (byte ',' ∉ rest)
      let start ← parseSize front
      let count ← parseSize rest
      some (start, count)

def hunkHeaderOpen : Bytes := ascii "@@ -"

def hunkHeaderClose : Bytes := ascii " @@"

def hunkHeaderSeparator : Bytes := ascii " +"

/-- `@@ -ranges +ranges @@`, then nothing or a blank and a section heading. -/
def parseHunkHeader (line : Bytes) : Option ReviewedSourcePatchHunk := do
  guard (hunkHeaderOpen.isPrefixOf line)
  let (ranges, heading) ←
    splitAtText hunkHeaderClose (line.drop hunkHeaderOpen.length)
  guard (heading = [] ∨ heading.head? = some (byte ' '))
  let (oldRange, newRange) ← splitAtText hunkHeaderSeparator ranges
  guard (splitAtText hunkHeaderSeparator newRange = none)
  let (oldStart, oldCount) ← parseRange oldRange
  let (newStart, newCount) ← parseRange newRange
  some { oldStart, oldCount, newStart, newCount }

def splitBlobLinesFrom : Bytes → Bytes → List ReviewedSourceTextLine
  | [], [] => []
  | [], b :: line => [⟨b :: line, false⟩]
  | c :: blob, line =>
    if c = byte '\n' then ⟨line, true⟩ :: splitBlobLinesFrom blob []
    else splitBlobLinesFrom blob (line ++ [c])

/-- The lines of a blob; only the last can be without its newline. -/
def splitBlobLines (blob : Bytes) : List ReviewedSourceTextLine :=
  splitBlobLinesFrom blob []

/-- `append_line`: the bytes of a line. -/
def ReviewedSourceTextLine.raw (line : ReviewedSourceTextLine) : Bytes :=
  line.bytes ++ if line.hasNewline then [byte '\n'] else []

/-- The index before which a range starts: a range of no lines starts after
the line it names. -/
def hunkPosition (start count : Nat) : Option Nat :=
  if count = 0 then some start
  else if start = 0 then none
  else some (start - 1)

def noNewlineMarker : Bytes := ascii "\\ No newline at end of file"

/-- Whether the end of a blob without a final newline was reached. -/
structure ClosedSides where
  old : Bool := false
  new : Bool := false

/-- The lines of a hunk read so far. -/
structure HunkLines where
  observedOld : Nat := 0
  observedNew : Nat := 0
  canMarkNoNewline : Bool := false
  hasChange : Bool := false
  lines : List ReviewedSourcePatchLine := []
  closed : ClosedSides

/-- The sides a line without newline closes. -/
def ClosedSides.close (closed : ClosedSides) :
    ReviewedSourcePatchLineKind → ClosedSides
  | .context => ⟨true, true⟩
  | .removed => { closed with old := true }
  | .added => { closed with new := true }

/-- The last line loses its newline. -/
def applyNoNewlineMarker (state : HunkLines) : Option HunkLines :=
  match state.lines.getLast? with
  | none => none
  | some last =>
    if last.line.hasNewline then
      some { state with
        lines := state.lines.dropLast ++ [{ last with
          line := { last.line with hasNewline := false } }]
        closed := state.closed.close last.kind }
    else none

/-- The marker stands once, right after the line it is about. -/
def readNoNewlineMarker (hunkIndex : Nat) (state : HunkLines) : Verified HunkLines :=
  if state.canMarkNoNewline then
    match applyNoNewlineMarker state with
    | none => .error (malformedPatch hunkIndex)
    | some state => .ok { state with canMarkNoNewline := false }
  else .error (malformedPatch hunkIndex)

/-- The kind of a line by its first byte, refused when its side is closed, and
the counts after it. -/
def countPatchLine (state : HunkLines) (mark : UInt8) :
    Option (ReviewedSourcePatchLineKind × HunkLines) :=
  if mark = byte ' ' then
    if state.closed.old || state.closed.new then none
    else some (.context, { state with
      observedOld := state.observedOld + 1
      observedNew := state.observedNew + 1 })
  else if mark = byte '-' then
    if state.closed.old then none
    else some (.removed, { state with
      observedOld := state.observedOld + 1
      hasChange := true })
  else if mark = byte '+' then
    if state.closed.new then none
    else some (.added, { state with
      observedNew := state.observedNew + 1
      hasChange := true })
  else none

def readContentLine (hunkIndex : Nat) (hunk : ReviewedSourcePatchHunk)
    (state : HunkLines) (mark : UInt8) (content : Bytes) : Verified HunkLines :=
  match countPatchLine state mark with
  | none => .error (malformedPatch hunkIndex)
  | some (kind, state) =>
    if hunk.oldCount < state.observedOld ∨ hunk.newCount < state.observedNew then
      .error (malformedPatch hunkIndex)
    else if reviewedSourceLogicalLineLimit < content.length then
      .error ⟨.logicalLineLimitExceeded, hunkIndex, content.length,
        reviewedSourceLogicalLineLimit⟩
    else .ok { state with
      canMarkNoNewline := true
      lines := state.lines ++ [⟨kind, content, true⟩] }

def readHunkLine (hunkIndex : Nat) (hunk : ReviewedSourcePatchHunk)
    (state : HunkLines) (line : Bytes) : Verified HunkLines :=
  if line = noNewlineMarker then readNoNewlineMarker hunkIndex state
  else
    match line with
    | [] => .error (malformedPatch hunkIndex)
    | mark :: content => readContentLine hunkIndex hunk state mark content

/-- Lines are read until both counts of the header are reached. A line takes
at least one byte, so the length of the text is enough fuel. -/
def readHunkLines (hunkIndex : Nat) (hunk : ReviewedSourcePatchHunk) :
    Nat → HunkLines → Bytes → Verified (HunkLines × Bytes)
  | fuel, state, text =>
    if state.observedOld < hunk.oldCount ∨ state.observedNew < hunk.newCount then
      match fuel, takeLine text with
      | fuel + 1, some (line, rest) => do
          let state ← readHunkLine hunkIndex hunk state line
          readHunkLines hunkIndex hunk fuel state rest
      | _, _ => .error (malformedPatch hunkIndex)
    else .ok (state, text)

/-- The marker that may follow the last line of a hunk. -/
def readTrailingMarker (hunkIndex : Nat) (state : HunkLines) (text : Bytes) :
    Verified (HunkLines × Bytes) :=
  match takeLine text with
  | none => .ok (state, text)
  | some (line, rest) =>
    if line = noNewlineMarker then do
      let state ← readNoNewlineMarker hunkIndex state
      .ok (state, rest)
    else .ok (state, text)

/-- The hunks read so far, and where the last empty range stood on each side. -/
structure HunksRead where
  hunks : List ReviewedSourcePatchHunk := []
  previousZeroWidthOldPosition : Option Nat := none
  previousZeroWidthNewPosition : Option Nat := none
  closed : ClosedSides := {}

/-- Two empty ranges at one position are refused; the position of an empty
range is kept. -/
def zeroWidthPosition (previous : Option Nat) (count position : Nat) :
    Option (Option Nat) :=
  if count = 0 then
    if previous = some position then none else some (some position)
  else some previous

def finishHunk (state : HunksRead) (hunk : ReviewedSourcePatchHunk)
    (read : HunkLines) : Option HunksRead := do
  guard (read.lines ≠ [] ∧ read.hasChange = true)
  let oldPosition ← hunkPosition hunk.oldStart hunk.oldCount
  let newPosition ← hunkPosition hunk.newStart hunk.newCount
  let previousOld ←
    zeroWidthPosition state.previousZeroWidthOldPosition hunk.oldCount oldPosition
  let previousNew ←
    zeroWidthPosition state.previousZeroWidthNewPosition hunk.newCount newPosition
  some {
    hunks := state.hunks ++ [{ hunk with lines := read.lines }]
    previousZeroWidthOldPosition := previousOld
    previousZeroWidthNewPosition := previousNew
    closed := read.closed }

def readHunk (state : HunksRead) (text : Bytes) : Verified (HunksRead × Bytes) :=
  let hunkIndex := state.hunks.length
  match takeLine text with
  | none => .error (malformedPatch hunkIndex)
  | some (header, text) =>
    match parseHunkHeader header with
    | none => .error (malformedPatch hunkIndex)
    | some hunk => do
        let (read, text) ←
          readHunkLines hunkIndex hunk text.length { closed := state.closed } text
        let (read, text) ← readTrailingMarker hunkIndex read text
        match finishHunk state hunk read with
        | none => .error (malformedPatch hunkIndex)
        | some state => .ok (state, text)

def readHunks : Nat → HunksRead → Bytes → Verified HunksRead
  | _, state, [] => .ok state
  | 0, state, _ :: _ => .error (malformedPatch state.hunks.length)
  | fuel + 1, state, b :: text => do
      let (state, text) ← readHunk state (b :: text)
      readHunks fuel state text

/-- The next line of either blob, and the bytes replayed so far. -/
structure Replay where
  oldIndex : Nat := 0
  newIndex : Nat := 0
  replayed : Bytes := []

section

variable (oldLines newLines : List ReviewedSourceTextLine)

/-- Lines outside the hunks must be the same on both sides. -/
def copyUnchanged : Nat → Replay → Option Replay
  | 0, state => some state
  | count + 1, state => do
      let oldLine ← oldLines[state.oldIndex]?
      let newLine ← newLines[state.newIndex]?
      guard (oldLine = newLine)
      copyUnchanged count {
        oldIndex := state.oldIndex + 1
        newIndex := state.newIndex + 1
        replayed := state.replayed ++ oldLine.raw }

def replayPatchLine (state : Replay) (patchLine : ReviewedSourcePatchLine) :
    Option Replay :=
  match patchLine.kind with
  | .context =>
    if oldLines[state.oldIndex]? = some patchLine.line ∧
        newLines[state.newIndex]? = some patchLine.line then
      some {
        oldIndex := state.oldIndex + 1
        newIndex := state.newIndex + 1
        replayed := state.replayed ++ patchLine.line.raw }
    else none
  | .removed =>
    if oldLines[state.oldIndex]? = some patchLine.line then
      some { state with oldIndex := state.oldIndex + 1 }
    else none
  | .added =>
    if newLines[state.newIndex]? = some patchLine.line then
      some { state with
        newIndex := state.newIndex + 1
        replayed := state.replayed ++ patchLine.line.raw }
    else none

/-- One hunk: the unchanged lines before it, then its own. The observed counts
of the source are how far the two indices moved. -/
def replayHunk (state : Replay) (hunk : ReviewedSourcePatchHunk) : Option Replay := do
  let oldPosition ← hunkPosition hunk.oldStart hunk.oldCount
  let newPosition ← hunkPosition hunk.newStart hunk.newCount
  guard (state.oldIndex ≤ oldPosition ∧ oldPosition ≤ oldLines.length)
  let before ← copyUnchanged oldLines newLines (oldPosition - state.oldIndex) state
  guard (before.newIndex = newPosition)
  let after ← hunk.lines.foldlM (replayPatchLine oldLines newLines) before
  guard (after.oldIndex - before.oldIndex = hunk.oldCount ∧
    after.newIndex - before.newIndex = hunk.newCount)
  some after

def replayPatchLines (hunks : List ReviewedSourcePatchHunk) : Option Replay := do
  let state ← hunks.foldlM (replayHunk oldLines newLines) {}
  let state ←
    copyUnchanged oldLines newLines (oldLines.length - state.oldIndex) state
  guard (state.newIndex = newLines.length)
  some state

end

def replayPatch (hunks : List ReviewedSourcePatchHunk) (oldBlob newBlob : Bytes) : Bool :=
  match replayPatchLines (splitBlobLines oldBlob) (splitBlobLines newBlob) hunks with
  | none => false
  | some state => state.replayed = newBlob

/-- The four lines before the first hunk. -/
def takePatchHeader (oldObjectId newObjectId : ReviewedSourceObjectId) (text : Bytes) :
    Option Bytes := do
  let text ← takeExactLine
    (ascii "diff --git " ++ oldObjectId.value ++ ascii " " ++ newObjectId.value) text
  let text ← takeExactLine
    (ascii "index " ++ oldObjectId.value ++ ascii ".." ++ newObjectId.value ++
      ascii " 100644") text
  let text ← takeExactLine (ascii "--- " ++ oldObjectId.value) text
  takeExactLine (ascii "+++ " ++ newObjectId.value) text

/-- The hunks of a patch, which has at least one. -/
def parseReviewedSourcePatch (patchOutput : Bytes)
    (oldObjectId newObjectId : ReviewedSourceObjectId) :
    Verified (List ReviewedSourcePatchHunk) :=
  if reviewedSourceSingleRawPatchLimit < patchOutput.length then
    .error ⟨.rawPatchLimitExceeded, 0, patchOutput.length,
      reviewedSourceSingleRawPatchLimit⟩
  else if patchOutput = [] ∨ 0 ∈ patchOutput then .error (malformedPatch 0)
  else
    match takePatchHeader oldObjectId newObjectId patchOutput with
    | none => .error (malformedPatch 0)
    | some text => do
        let state ← readHunks text.length {} text
        if state.hunks = [] then .error (malformedPatch 0) else .ok state.hunks

def parseAndVerifyReviewedSourcePatch (patchOutput : Bytes)
    (oldObjectId newObjectId : ReviewedSourceObjectId) (oldBlob newBlob : Bytes) :
    Verified ReviewedSourceTextPatch := do
  let hunks ← parseReviewedSourcePatch patchOutput oldObjectId newObjectId
  if replayPatch hunks oldBlob newBlob then .ok ⟨oldObjectId, newObjectId, hunks⟩
  else .error ⟨.replayMismatch, 0, 0, 0⟩

end Moguet.Review.Patch
