import Moguet.Review.PatchReplay

/-!
# Patches as they are printed

A patch in the form of Git: the four lines about the two blobs, then every hunk
under its header, line by line. A range of one line is printed without its
count, and a line without its newline is followed by a marker. The reader takes
a printed hunk for what it is, with the markers where its loop meets them or
right behind it.
-/

namespace Moguet.Review.PatchPrint

open Verified ByteString Checked Decimal Fields Patch PatchReplay

variable {hunk : ReviewedSourcePatchHunk} {state : HunkLines} {patchLine : ReviewedSourcePatchLine}
  {hunkIndex : Nat}

variable {fuel : Nat} {separator : UInt8} {text : Bytes}

def writeRange (start count : Nat) : Bytes :=
  if count = 1 then writeUnsigned start
  else writeUnsigned start ++ byte ',' :: writeUnsigned count

/-- The ranges between the two marks. -/
def writeRanges (hunk : ReviewedSourcePatchHunk) : Bytes :=
  writeRange hunk.oldStart hunk.oldCount ++
    (hunkHeaderSeparator ++ writeRange hunk.newStart hunk.newCount)

def writeHunkHeader (hunk : ReviewedSourcePatchHunk) (heading : Bytes) : Bytes :=
  hunkHeaderOpen ++ (writeRanges hunk ++ (hunkHeaderClose ++ heading))

def lineMark : ReviewedSourcePatchLineKind → UInt8
  | .context => byte ' '
  | .removed => byte '-'
  | .added => byte '+'

/-- The marker after a line without its newline. -/
def writeMarker (line : ReviewedSourceTextLine) : Bytes :=
  if line.hasNewline then [] else noNewlineMarker ++ [byte '\n']

def writePatchLine (patchLine : ReviewedSourcePatchLine) : Bytes :=
  lineMark patchLine.kind :: patchLine.line.bytes ++ (byte '\n' :: writeMarker patchLine.line)

def writePatchLines (lines : List ReviewedSourcePatchLine) : Bytes :=
  lines.flatMap writePatchLine

def writeHunk (hunk : ReviewedSourcePatchHunk) (heading : Bytes) : Bytes :=
  writeHunkHeader hunk heading ++ (byte '\n' :: writePatchLines hunk.lines)

/-- Every hunk with the heading of its section. -/
def writeHunks (hunks : List (ReviewedSourcePatchHunk × Bytes)) : Bytes :=
  hunks.flatMap fun item => writeHunk item.1 item.2

/-- A heading is empty, or a blank and a text on the same line. -/
structure IsHeading (heading : Bytes) : Prop where
  start : heading = [] ∨ heading.head? = some (byte ' ')
  one_line : byte '\n' ∉ heading
  no_nul : 0 ∉ heading

theorem not_mem_writeRange (start count : Nat) (h : isAsciiDigit separator = false)
    (hcomma : separator ≠ byte ',') : separator ∉ writeRange start count := by
  unfold writeRange
  split
  · exact not_mem_writeUnsigned start h
  · intro hmem
    rcases List.mem_append.mp hmem with hmem | hmem
    · exact not_mem_writeUnsigned start h hmem
    · rcases List.mem_cons.mp hmem with hsame | hmem
      · exact hcomma hsame
      · exact not_mem_writeUnsigned count h hmem

theorem writeRange_ne_nil (start count : Nat) : writeRange start count ≠ [] := by
  unfold writeRange
  split
  · exact writeUnsigned_ne_nil start
  · exact List.append_ne_nil_of_right_ne_nil _ (List.cons_ne_nil _ _)

/-- A range does not end in a blank. -/
theorem getLast?_writeRange (start count : Nat) :
    (writeRange start count).getLast? ≠ some (byte ' ') := by
  intro hlast
  exact not_mem_writeRange start count (by decide) (by decide) (List.mem_of_getLast? hlast)

theorem parseRange_write {start count : Nat} (hstart : start < 2 ^ 64)
    (hcount : count < 2 ^ 64) : parseRange (writeRange start count) = some (start, count) := by
  unfold parseRange writeRange parseSize
  by_cases hone : count = 1
  · rw [if_pos hone]
    have hnone : takeField (byte ',') (writeUnsigned start) = none := by
      cases htaken : takeField (byte ',') (writeUnsigned start) with
      | none => rfl
      | some parts =>
        obtain ⟨front, rest⟩ := parts
        have htext := (takeField_eq_some_iff.mp htaken).2
        have hnot := not_mem_writeUnsigned start (show isAsciiDigit (byte ',') = false by decide)
        rw [htext] at hnot
        exact absurd (List.mem_append_right _ List.mem_cons_self) hnot
    rw [hnone]
    dsimp only
    rw [parseUnsigned_writeUnsigned hstart, hone]
    rfl
  · rw [if_neg hone, takeField_append (not_mem_writeUnsigned start (by decide))]
    dsimp only
    rw [guard_pos (not_mem_writeUnsigned count (by decide)),
      parseUnsigned_writeUnsigned hstart, parseUnsigned_writeUnsigned hcount]
    rfl

theorem writeRanges_split (hunk : ReviewedSourcePatchHunk) :
    splitAtText hunkHeaderSeparator (writeRanges hunk) =
      some (writeRange hunk.oldStart hunk.oldCount, writeRange hunk.newStart hunk.newCount) ∧
    splitAtText hunkHeaderSeparator (writeRange hunk.newStart hunk.newCount) = none := by
  constructor
  · exact splitAtText_append _ (not_mem_writeRange _ _ (by decide) (by decide))
      (getLast?_writeRange _ _)
  · exact splitAtText_none (not_mem_writeRange _ _ (by decide) (by decide))

/-- The marks of the header do not occur in its ranges. -/
theorem not_mem_writeRanges (hunk : ReviewedSourcePatchHunk) (h : isAsciiDigit separator = false)
    (hcomma : separator ≠ byte ',') (hblank : separator ≠ byte ' ') (hplus : separator ≠ byte '+') :
    separator ∉ writeRanges hunk := by
  intro hmem
  rcases List.mem_append.mp hmem with hmem | hmem
  · exact not_mem_writeRange _ _ h hcomma hmem
  · rcases List.mem_append.mp hmem with hmem | hmem
    · rcases List.mem_cons.mp hmem with hsame | hmem
      · exact hblank hsame
      · exact hplus (List.mem_singleton.mp hmem)
    · exact not_mem_writeRange _ _ h hcomma hmem

theorem getLast?_writeRanges (hunk : ReviewedSourcePatchHunk) :
    (writeRanges hunk).getLast? ≠ some (byte ' ') := by
  unfold writeRanges
  rw [← List.append_assoc, List.getLast?_append_of_ne_nil _ (writeRange_ne_nil _ _)]
  exact getLast?_writeRange _ _

/-- A header is read for any heading: the first closing mark is the one behind
the ranges. -/
theorem parseHunkHeader_write {heading : Bytes}
    (hheading : heading = [] ∨ heading.head? = some (byte ' '))
    (hold : hunk.oldStart < 2 ^ 64 ∧ hunk.oldCount < 2 ^ 64)
    (hnew : hunk.newStart < 2 ^ 64 ∧ hunk.newCount < 2 ^ 64) :
    parseHunkHeader (writeHunkHeader hunk heading) = some { hunk with lines := [] } := by
  have hopen : hunkHeaderOpen.isPrefixOf (writeHunkHeader hunk heading) = true :=
    isPrefixOf_append _ _
  have hdrop : (writeHunkHeader hunk heading).drop hunkHeaderOpen.length =
      writeRanges hunk ++ (hunkHeaderClose ++ heading) := List.drop_left
  have hclose : splitAtText hunkHeaderClose (writeRanges hunk ++ (hunkHeaderClose ++ heading)) =
      some (writeRanges hunk, heading) :=
    splitAtText_append heading
      (not_mem_writeRanges hunk (by decide) (by decide) (by decide) (by decide))
      (getLast?_writeRanges hunk)
  obtain ⟨hranges, honce⟩ := writeRanges_split hunk
  unfold parseHunkHeader
  rw [hdrop]
  simp only [Option.bind_eq_bind, guard_pos hopen, Option.bind_some, hclose, guard_pos hheading,
    hranges, guard_pos honce, parseRange_write hold.1 hold.2, parseRange_write hnew.1 hnew.2]

/-- The state after a line and its marker. -/
def takeLineOf (state : HunkLines) (patchLine : ReviewedSourcePatchLine) : HunkLines where
  observedOld := state.observedOld + (oldSide [patchLine]).length
  observedNew := state.observedNew + (newSide [patchLine]).length
  canMarkNoNewline := patchLine.line.hasNewline
  hasChange := state.hasChange || patchLine.kind ≠ .context
  lines := state.lines ++ [patchLine]
  closed :=
    if patchLine.line.hasNewline then state.closed else state.closed.close patchLine.kind

/-- The state between a line and its marker: the line still has its newline. -/
def openLineOf (state : HunkLines) (patchLine : ReviewedSourcePatchLine) : HunkLines where
  observedOld := state.observedOld + (oldSide [patchLine]).length
  observedNew := state.observedNew + (newSide [patchLine]).length
  canMarkNoNewline := true
  hasChange := state.hasChange || patchLine.kind ≠ .context
  lines := state.lines ++ [⟨patchLine.kind, patchLine.line.bytes, true⟩]
  closed := state.closed

theorem openLineOf_newline (h : patchLine.line.hasNewline = true) :
    openLineOf state patchLine = takeLineOf state patchLine := by
  obtain ⟨kind, bytes, hasNewline⟩ := patchLine
  cases h
  rfl

/-- A side that a line is about is still open. -/
def OpenFor (closed : ClosedSides) : ReviewedSourcePatchLineKind → Prop
  | .context => closed.old = false ∧ closed.new = false
  | .removed => closed.old = false
  | .added => closed.new = false

theorem countPatchLine_write (hopen : OpenFor state.closed patchLine.kind) :
    ∃ counted, countPatchLine state (lineMark patchLine.kind) = some (patchLine.kind, counted) ∧
      counted.lines = state.lines ∧
      openLineOf state patchLine = { counted with
        canMarkNoNewline := true
        lines := counted.lines ++ [⟨patchLine.kind, patchLine.line.bytes, true⟩] } := by
  obtain ⟨kind, line⟩ := patchLine
  unfold countPatchLine openLineOf
  cases kind with
  | context =>
    refine ⟨{ state with
      observedOld := state.observedOld + 1
      observedNew := state.observedNew + 1 }, ?_, rfl, ?_⟩
    · show (if (state.closed.old || state.closed.new) = true then none else _) = _
      rw [hopen.1, hopen.2]
      rfl
    · simp [oldSide, newSide]
  | removed =>
    refine ⟨{ state with
      observedOld := state.observedOld + 1
      hasChange := true }, ?_, rfl, ?_⟩
    · show (if state.closed.old = true then none else _) = _
      rw [show state.closed.old = false from hopen]
      rfl
    · simp [oldSide, newSide]
  | added =>
    refine ⟨{ state with
      observedNew := state.observedNew + 1
      hasChange := true }, ?_, rfl, ?_⟩
    · show (if state.closed.new = true then none else _) = _
      rw [show state.closed.new = false from hopen]
      rfl
    · simp [oldSide, newSide]

/-- The text of a line is read within its counts and its limit. -/
theorem readHunkLine_content (hopen : OpenFor state.closed patchLine.kind)
    (hold : (openLineOf state patchLine).observedOld ≤ hunk.oldCount)
    (hnew : (openLineOf state patchLine).observedNew ≤ hunk.newCount)
    (hlimit : patchLine.line.bytes.length ≤ reviewedSourceLogicalLineLimit) :
    readHunkLine hunkIndex hunk state (lineMark patchLine.kind :: patchLine.line.bytes) =
      .ok (openLineOf state patchLine) := by
  have hmarker : lineMark patchLine.kind :: patchLine.line.bytes ≠ noNewlineMarker := by
    intro hsame
    have hmark : lineMark patchLine.kind ≠ byte '\\' := by
      cases patchLine.kind <;> decide
    injection hsame with hsame _
    exact hmark hsame
  obtain ⟨counted, hcounted, -, hstate⟩ := countPatchLine_write hopen
  rw [hstate] at hold hnew
  unfold readHunkLine
  rw [if_neg hmarker]
  show readContentLine hunkIndex hunk state (lineMark patchLine.kind) patchLine.line.bytes = _
  unfold readContentLine
  rw [hcounted]
  dsimp only
  rw [if_neg (not_or.mpr ⟨Nat.not_lt.mpr hold, Nat.not_lt.mpr hnew⟩),
    if_neg (Nat.not_lt.mpr hlimit), hstate]

/-- The marker takes the newline off the line before it. -/
theorem readNoNewlineMarker_write (h : patchLine.line.hasNewline = false) :
    readNoNewlineMarker hunkIndex (openLineOf state patchLine) =
      .ok (takeLineOf state patchLine) := by
  obtain ⟨kind, bytes, hasNewline⟩ := patchLine
  cases h
  unfold readNoNewlineMarker applyNoNewlineMarker openLineOf takeLineOf
  simp

section

variable {hunkIndex : Nat} {hunk : ReviewedSourcePatchHunk}

theorem readHunkLines_done (hold : state.observedOld = hunk.oldCount)
    (hnew : state.observedNew = hunk.newCount) :
    readHunkLines hunkIndex hunk fuel state text = .ok (state, text) := by
  unfold readHunkLines
  rw [if_neg (by omega)]

theorem readHunkLines_step {next : HunkLines} {line rest : Bytes}
    (hcount : state.observedOld < hunk.oldCount ∨ state.observedNew < hunk.newCount)
    (htake : takeLine text = some (line, rest))
    (hline : readHunkLine hunkIndex hunk state line = .ok next) :
    readHunkLines hunkIndex hunk (fuel + 1) state text =
      readHunkLines hunkIndex hunk fuel next rest := by
  conv_lhs => unfold readHunkLines
  rw [if_pos hcount, htake]
  dsimp only
  rw [hline]
  rfl

end

/-- Only the last line of a blob can be without its newline. -/
def EndsOpen : List ReviewedSourceTextLine → Prop
  | [] => True
  | line :: rest => (line.hasNewline = false → rest = []) ∧ EndsOpen rest

theorem EndsOpen.tail {front rest : List ReviewedSourceTextLine} (h : EndsOpen (front ++ rest)) :
    EndsOpen rest := by
  induction front with
  | nil => exact h
  | cons line front ih => exact ih h.2

/-- A side that is closed has no line left. -/
def NoneLeft (closed : ClosedSides) (oldRest newRest : List ReviewedSourceTextLine) : Prop :=
  (closed.old = true → oldRest = []) ∧ (closed.new = true → newRest = [])

theorem NoneLeft.tail {closed : ClosedSides}
    {oldFront oldRest newFront newRest : List ReviewedSourceTextLine}
    (h : NoneLeft closed (oldFront ++ oldRest) (newFront ++ newRest)) :
    NoneLeft closed oldRest newRest :=
  ⟨fun hclosed => (List.append_eq_nil_iff.mp (h.1 hclosed)).2,
    fun hclosed => (List.append_eq_nil_iff.mp (h.2 hclosed)).2⟩

theorem oldSide_cons (patchLine : ReviewedSourcePatchLine) (lines : List ReviewedSourcePatchLine) :
    oldSide (patchLine :: lines) = oldSide [patchLine] ++ oldSide lines := by
  obtain ⟨kind, line⟩ := patchLine
  cases kind <;> rfl

theorem newSide_cons (patchLine : ReviewedSourcePatchLine) (lines : List ReviewedSourcePatchLine) :
    newSide (patchLine :: lines) = newSide [patchLine] ++ newSide lines := by
  obtain ⟨kind, line⟩ := patchLine
  cases kind <;> rfl

/-- A line is about one side at least. -/
theorem sides_pos (patchLine : ReviewedSourcePatchLine) :
    0 < (oldSide [patchLine]).length + (newSide [patchLine]).length := by
  obtain ⟨kind, line⟩ := patchLine
  cases kind with
  | context => simp
  | removed => simp
  | added => simp

section

variable {patchLine : ReviewedSourcePatchLine} {state : HunkLines}
  {oldRest newRest : List ReviewedSourceTextLine}

/-- The sides of a line that is still to come are open. -/
theorem openFor_of_noneLeft (h : NoneLeft state.closed (oldSide [patchLine] ++ oldRest)
      (newSide [patchLine] ++ newRest)) : OpenFor state.closed patchLine.kind := by
  obtain ⟨kind, line⟩ := patchLine
  have hold : kind ≠ .added → state.closed.old = false := by
    intro hkind
    rw [← Bool.not_eq_true]
    intro hclosed
    have hnil := h.1 hclosed
    cases kind with
    | added => exact hkind rfl
    | context => cases hnil
    | removed => cases hnil
  have hnew : kind ≠ .removed → state.closed.new = false := by
    intro hkind
    rw [← Bool.not_eq_true]
    intro hclosed
    have hnil := h.2 hclosed
    cases kind with
    | removed => exact hkind rfl
    | context => cases hnil
    | added => cases hnil
  cases kind with
  | context => exact ⟨hold nofun, hnew nofun⟩
  | removed => exact hold nofun
  | added => exact hnew nofun

/-- A line without its newline closes the sides it is the last line of. -/
theorem noneLeft_takeLineOf (h : NoneLeft state.closed (oldSide [patchLine] ++ oldRest)
      (newSide [patchLine] ++ newRest))
    (hold : EndsOpen (oldSide [patchLine] ++ oldRest))
    (hnew : EndsOpen (newSide [patchLine] ++ newRest)) :
    NoneLeft (takeLineOf state patchLine).closed oldRest newRest := by
  have hkept := h.tail
  obtain ⟨kind, bytes, hasNewline⟩ := patchLine
  unfold takeLineOf
  cases hasNewline with
  | true => exact hkept
  | false =>
    cases kind with
    | context => exact ⟨fun _ => hold.1 rfl, fun _ => hnew.1 rfl⟩
    | removed => exact ⟨fun _ => hold.1 rfl, hkept.2⟩
    | added => exact ⟨hkept.1, fun _ => hnew.1 rfl⟩

end

/-- A text that does not start with the marker line. -/
def NoMarkerFirst (text : Bytes) : Prop :=
  ∀ line rest, takeLine text = some (line, rest) → line ≠ noNewlineMarker

theorem readTrailingMarker_none (h : NoMarkerFirst text) :
    readTrailingMarker hunkIndex state text = .ok (state, text) := by
  unfold readTrailingMarker
  split
  · rfl
  · rename_i line rest htake
    rw [if_neg (h line rest htake)]

theorem takeLine_marker (rest : Bytes) :
    takeLine (noNewlineMarker ++ [byte '\n'] ++ rest) = some (noNewlineMarker, rest) := by
  rw [List.append_assoc]
  exact takeField_append (by decide) rest

theorem readTrailingMarker_write (h : patchLine.line.hasNewline = false) (rest : Bytes) :
    readTrailingMarker hunkIndex (openLineOf state patchLine)
        (noNewlineMarker ++ [byte '\n'] ++ rest) = .ok (takeLineOf state patchLine, rest) := by
  unfold readTrailingMarker
  rw [takeLine_marker]
  dsimp only
  rw [if_pos rfl, readNoNewlineMarker_write h]
  rfl

/-- A line that can be printed: on one line, and within the limit. -/
def PrintableLine (patchLine : ReviewedSourcePatchLine) : Prop :=
  byte '\n' ∉ patchLine.line.bytes ∧
    patchLine.line.bytes.length ≤ reviewedSourceLogicalLineLimit

theorem takeLine_content (h : PrintableLine patchLine) (rest : Bytes) :
    takeLine (writePatchLine patchLine ++ rest) =
      some (lineMark patchLine.kind :: patchLine.line.bytes,
        writeMarker patchLine.line ++ rest) := by
  have hmark : byte '\n' ∉ lineMark patchLine.kind :: patchLine.line.bytes := by
    rw [List.mem_cons, not_or]
    refine ⟨?_, h.1⟩
    cases patchLine.kind <;> decide
  have htext : writePatchLine patchLine ++ rest =
      (lineMark patchLine.kind :: patchLine.line.bytes) ++
        byte '\n' :: (writeMarker patchLine.line ++ rest) := by
    unfold writePatchLine
    simp
  rw [htext]
  exact takeField_append hmark _

theorem writePatchLine_length (patchLine : ReviewedSourcePatchLine) :
    1 + (writeMarker patchLine.line).length < (writePatchLine patchLine).length := by
  unfold writePatchLine
  rw [List.cons_append, List.length_cons, List.length_append, List.length_cons]
  omega

theorem writeMarker_length {line : ReviewedSourceTextLine} (h : line.hasNewline = false) :
    0 < (writeMarker line).length := by
  unfold writeMarker
  rw [h]
  decide

/-- The printed lines of a hunk are read one by one. The induction is on them;
a marker is met by the loop, or right behind it when the counts are used up. -/
theorem readHunkLines_write {hunkIndex : Nat} {hunk : ReviewedSourcePatchHunk} {rest : Bytes}
    (hrest : NoMarkerFirst rest) :
    ∀ (lines : List ReviewedSourcePatchLine) (state : HunkLines) (fuel : Nat)
      (oldRest newRest : List ReviewedSourceTextLine),
      state.observedOld + (oldSide lines).length = hunk.oldCount →
      state.observedNew + (newSide lines).length = hunk.newCount →
      NoneLeft state.closed (oldSide lines ++ oldRest) (newSide lines ++ newRest) →
      EndsOpen (oldSide lines ++ oldRest) → EndsOpen (newSide lines ++ newRest) →
      (∀ patchLine ∈ lines, PrintableLine patchLine) →
      (writePatchLines lines ++ rest).length ≤ fuel →
      (∃ middle, readHunkLines hunkIndex hunk fuel state (writePatchLines lines ++ rest) =
          .ok middle ∧ readTrailingMarker hunkIndex middle.1 middle.2 =
            .ok (lines.foldl takeLineOf state, rest)) ∧
        NoneLeft (lines.foldl takeLineOf state).closed oldRest newRest := by
  intro lines
  induction lines with
  | nil =>
    intro state fuel oldRest newRest hold hnew hleft _ _ _ _
    exact ⟨⟨(state, rest), readHunkLines_done (by simpa using hold) (by simpa using hnew),
      readTrailingMarker_none hrest⟩, hleft⟩
  | cons patchLine lines ih =>
    intro state fuel oldRest newRest hold hnew hleft holdEnd hnewEnd hprintable hfuel
    have hprinted := hprintable patchLine List.mem_cons_self
    have hothers := fun other hother => hprintable other (List.mem_cons_of_mem _ hother)
    rw [oldSide_cons, List.append_assoc] at hleft holdEnd
    rw [newSide_cons, List.append_assoc] at hleft hnewEnd
    rw [oldSide_cons, List.length_append] at hold
    rw [newSide_cons, List.length_append] at hnew
    have hpos := sides_pos patchLine
    have hopen := openFor_of_noneLeft hleft
    have hnext := noneLeft_takeLineOf hleft holdEnd hnewEnd
    have hlength := writePatchLine_length patchLine
    have htext : writePatchLines (patchLine :: lines) ++ rest =
        writePatchLine patchLine ++ (writePatchLines lines ++ rest) := by
      unfold writePatchLines
      rw [List.flatMap_cons, List.append_assoc]
    rw [htext, List.length_append] at hfuel
    rw [htext]
    have hobservedOld : (openLineOf state patchLine).observedOld + (oldSide lines).length =
        hunk.oldCount := by
      show state.observedOld + (oldSide [patchLine]).length + (oldSide lines).length = _
      omega
    have hobservedNew : (openLineOf state patchLine).observedNew + (newSide lines).length =
        hunk.newCount := by
      show state.observedNew + (newSide [patchLine]).length + (newSide lines).length = _
      omega
    have hcontent : readHunkLine hunkIndex hunk state
        (lineMark patchLine.kind :: patchLine.line.bytes) = .ok (openLineOf state patchLine) :=
      readHunkLine_content hopen (by omega) (by omega) hprinted.2
    cases fuel with
    | zero => omega
    | succ fuel =>
      have hstep : readHunkLines hunkIndex hunk (fuel + 1) state
          (writePatchLine patchLine ++ (writePatchLines lines ++ rest)) =
          readHunkLines hunkIndex hunk fuel (openLineOf state patchLine)
            (writeMarker patchLine.line ++ (writePatchLines lines ++ rest)) :=
        readHunkLines_step (by omega) (takeLine_content hprinted _) hcontent
      have hagain := ih (takeLineOf state patchLine) fuel oldRest newRest
        (show state.observedOld + (oldSide [patchLine]).length + (oldSide lines).length = _ by
          omega)
        (show state.observedNew + (newSide [patchLine]).length + (newSide lines).length = _ by
          omega)
        hnext holdEnd.tail hnewEnd.tail hothers
      rw [hstep]
      cases hnewline : patchLine.line.hasNewline with
      | true =>
        have hnone : writeMarker patchLine.line = [] := by
          unfold writeMarker
          rw [hnewline]
          rfl
        rw [hnone, List.nil_append, openLineOf_newline hnewline]
        exact hagain (by omega)
      | false =>
        have hmarker : writeMarker patchLine.line = noNewlineMarker ++ [byte '\n'] := by
          unfold writeMarker
          rw [hnewline]
          rfl
        have hmarked : readNoNewlineMarker hunkIndex (openLineOf state patchLine) =
            .ok (takeLineOf state patchLine) := readNoNewlineMarker_write hnewline
        have hmarkerLength := writeMarker_length hnewline
        rw [hmarker]
        by_cases hlast : lines = []
        · -- the counts are used up before the marker
          rw [hlast] at hobservedOld hobservedNew ⊢
          refine ⟨⟨_, readHunkLines_done (by simpa using hobservedOld)
            (by simpa using hobservedNew), ?_⟩, ?_⟩
          · exact readTrailingMarker_write hnewline rest
          · rw [hlast] at hnext
            exact hnext
        · have hmore : 0 < (oldSide lines).length + (newSide lines).length := by
            cases lines with
            | nil => exact absurd rfl hlast
            | cons other lines =>
              have hother := sides_pos other
              rw [oldSide_cons, newSide_cons, List.length_append, List.length_append]
              omega
          cases fuel with
          | zero => omega
          | succ fuel =>
            have hmarkerLine : readHunkLine hunkIndex hunk (openLineOf state patchLine)
                noNewlineMarker = .ok (takeLineOf state patchLine) := by
              unfold readHunkLine
              rw [if_pos rfl]
              exact hmarked
            rw [readHunkLines_step (by omega) (takeLine_marker _) hmarkerLine]
            have hmarkerText := hmarker ▸ hmarkerLength
            exact ih (takeLineOf state patchLine) fuel oldRest newRest
              (show state.observedOld + (oldSide [patchLine]).length +
                (oldSide lines).length = _ by omega)
              (show state.observedNew + (newSide [patchLine]).length +
                (newSide lines).length = _ by omega)
              hnext holdEnd.tail hnewEnd.tail hothers (by omega)

end Moguet.Review.PatchPrint
