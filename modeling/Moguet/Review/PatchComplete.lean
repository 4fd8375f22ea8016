import Moguet.Review.PatchRead

/-!
# Every correct patch is accepted

The converse of `parseAndVerifyReviewedSourcePatch_shows`. A patch that shows
the difference of two blobs, with a changed line in every hunk and an unchanged
line between two hunks, is accepted in its printed form, whatever its section
headings, and the hunks are returned as they were printed.
-/

namespace Moguet.Review.PatchComplete

open Verified.ByteString Verified.Checked Verified.Fields Projection Patch PatchReplay PatchPrint
open PatchRead

variable {oldLines newLines : List ReviewedSourceTextLine}
  {items : List (ReviewedSourcePatchHunk × Bytes)}

variable {line : ReviewedSourceTextLine} {oldRest newRest : List ReviewedSourceTextLine}
  {hunks : List ReviewedSourcePatchHunk} {oldIndex newIndex : Nat} {state : Replay}
  {hunk : ReviewedSourcePatchHunk} {oldBlob newBlob : Bytes} {patchLine : ReviewedSourcePatchLine}

/-- The lines of a hunk are lines of the blobs. -/
theorem shows_lines (h : Shows oldIndex newIndex hunks oldLines newLines) :
    ∀ hunk ∈ hunks, ∀ patchLine ∈ hunk.lines,
      patchLine.line ∈ oldLines ∨ patchLine.line ∈ newLines := by
  induction h with
  | unchanged oldIndex newIndex rest =>
    intro hunk hhunk
    exact absurd hhunk List.not_mem_nil
  | hunk oldIndex newIndex gap first hunks oldRest newRest _ _ _ _ _ ih =>
    intro hunk hhunk patchLine hline
    rcases List.mem_cons.mp hhunk with hfirst | hhunk
    · rw [hfirst] at hline
      by_cases hadded : patchLine.kind = .added
      · right
        apply List.mem_append_right
        apply List.mem_append_left
        apply List.mem_map_of_mem
        rw [List.mem_filter, hadded]
        exact ⟨hline, rfl⟩
      · left
        apply List.mem_append_right
        apply List.mem_append_left
        apply List.mem_map_of_mem
        rw [List.mem_filter]
        exact ⟨hline, decide_eq_true hadded⟩
    · rcases ih hunk hhunk patchLine hline with hmem | hmem
      · exact .inl (List.mem_append_right _ (List.mem_append_right _ hmem))
      · exact .inr (List.mem_append_right _ (List.mem_append_right _ hmem))

/-- A start is at most the number of lines up to the end of its range. -/
theorem start_le {start count position : Nat} (h : hunkPosition start count = some position) :
    start ≤ position + count := by
  unfold hunkPosition at h
  by_cases hcount : count = 0
  · rw [if_pos hcount] at h
    injection h with h
    omega
  · rw [if_neg hcount] at h
    by_cases hstart : start = 0
    · omega
    · rw [if_neg hstart] at h
      injection h with h
      omega

/-- The numbers of a header are bounded by the lines of its blob. -/
theorem shows_ranges (h : Shows oldIndex newIndex hunks oldLines newLines) : ∀ hunk ∈ hunks,
      (hunk.oldStart ≤ oldIndex + oldLines.length ∧ hunk.oldCount ≤ oldLines.length) ∧
      (hunk.newStart ≤ newIndex + newLines.length ∧ hunk.newCount ≤ newLines.length) := by
  induction h with
  | unchanged oldIndex newIndex rest =>
    intro hunk hhunk
    exact absurd hhunk List.not_mem_nil
  | hunk oldIndex newIndex gap first hunks oldRest newRest holdPosition hnewPosition
      holdCount hnewCount _ ih =>
      intro hunk hhunk
      simp only [List.length_append, holdCount, hnewCount]
      rcases List.mem_cons.mp hhunk with hfirst | hhunk
      · rw [hfirst]
        have hold := start_le holdPosition
        have hnew := start_le hnewPosition
        omega
      · have hrest := ih hunk hhunk
        omega

theorem joinLines_append (front rest : List ReviewedSourceTextLine) :
    joinLines (front ++ rest) = joinLines front ++ joinLines rest :=
  List.flatMap_append

/-- The first of the lines behind a front is the one under its length. -/
theorem getElem?_front {lines front rest : List ReviewedSourceTextLine} {index : Nat}
    (h : lines = front ++ line :: rest) (hindex : front.length = index) :
    lines[index]? = some line := by
  rw [h, ← hindex, List.getElem?_append_right (Nat.le_refl _), Nat.sub_self]
  rfl

section

variable {oldLines newLines : List ReviewedSourceTextLine}

/-- A replay stands in front of the lines that follow a front on each side. -/
structure Standing (oldLines newLines : List ReviewedSourceTextLine) (state : Replay)
    (oldRest newRest : List ReviewedSourceTextLine) : Prop where
  old_split : ∃ front, oldLines = front ++ oldRest ∧ front.length = state.oldIndex
  new_split : ∃ front, newLines = front ++ newRest ∧ front.length = state.newIndex

theorem Standing.old_next (h : Standing oldLines newLines state (line :: oldRest) newRest) :
    oldLines[state.oldIndex]? = some line := by
  obtain ⟨front, hlines, hlength⟩ := h.old_split
  exact getElem?_front hlines hlength

theorem Standing.new_next (h : Standing oldLines newLines state oldRest (line :: newRest)) :
    newLines[state.newIndex]? = some line := by
  obtain ⟨front, hlines, hlength⟩ := h.new_split
  exact getElem?_front hlines hlength

/-- A replay that moves over lines of each side stands behind them. -/
theorem Standing.move {state next : Replay}
    {oldFront oldRest newFront newRest : List ReviewedSourceTextLine}
    (h : Standing oldLines newLines state (oldFront ++ oldRest) (newFront ++ newRest))
    (hold : next.oldIndex = state.oldIndex + oldFront.length)
    (hnew : next.newIndex = state.newIndex + newFront.length) :
    Standing oldLines newLines next oldRest newRest := by
  obtain ⟨⟨front, hlines, hlength⟩, ⟨newStart, hnewLines, hnewLength⟩⟩ := h
  refine ⟨⟨front ++ oldFront, ?_, ?_⟩, ⟨newStart ++ newFront, ?_, ?_⟩⟩
  · rw [hlines, List.append_assoc]
  · rw [List.length_append, hlength, hold]
  · rw [hnewLines, List.append_assoc]
  · rw [List.length_append, hnewLength, hnew]

/-- Lines that are the same on both sides are copied. -/
theorem copyUnchanged_standing : ∀ (gap : List ReviewedSourceTextLine) (state : Replay)
      {oldRest newRest : List ReviewedSourceTextLine},
      Standing oldLines newLines state (gap ++ oldRest) (gap ++ newRest) →
      copyUnchanged oldLines newLines gap.length state = some {
        oldIndex := state.oldIndex + gap.length
        newIndex := state.newIndex + gap.length
        replayed := state.replayed ++ joinLines gap } := by
  intro gap
  induction gap with
  | nil =>
    intro state oldRest newRest _
    show some state = some { state with replayed := state.replayed ++ [] }
    rw [List.append_nil]
  | cons line gap ih =>
    intro state oldRest newRest hstanding
    have hold := hstanding.old_next
    have hnew := hstanding.new_next
    have hnext : Standing oldLines newLines {
        oldIndex := state.oldIndex + 1
        newIndex := state.newIndex + 1
        replayed := state.replayed ++ line.raw } (gap ++ oldRest) (gap ++ newRest) :=
      @Standing.move oldLines newLines state _ [line] (gap ++ oldRest) [line] (gap ++ newRest)
        hstanding rfl rfl
    rw [List.length_cons]
    unfold copyUnchanged
    simp only [hold, hnew, Option.bind_eq_bind, Option.bind_some, guard_pos]
    rw [ih _ hnext]
    congr 2
    · dsimp only
      omega
    · dsimp only
      omega
    · exact List.append_assoc _ _ _

/-- The lines of a hunk are found where its sides stand. -/
theorem replayPatchLine_standing : ∀ (lines : List ReviewedSourcePatchLine) (state : Replay)
      {oldRest newRest : List ReviewedSourceTextLine},
      Standing oldLines newLines state (oldSide lines ++ oldRest) (newSide lines ++ newRest) →
      lines.foldlM (replayPatchLine oldLines newLines) state = some {
        oldIndex := state.oldIndex + (oldSide lines).length
        newIndex := state.newIndex + (newSide lines).length
        replayed := state.replayed ++ joinLines (newSide lines) } := by
  intro lines
  induction lines with
  | nil =>
    intro state oldRest newRest _
    show some state = some { state with replayed := state.replayed ++ [] }
    rw [List.append_nil]
  | cons patchLine lines ih =>
    intro state oldRest newRest hstanding
    have hstep : replayPatchLine oldLines newLines state patchLine = some {
        oldIndex := state.oldIndex + (oldSide [patchLine]).length
        newIndex := state.newIndex + (newSide [patchLine]).length
        replayed := state.replayed ++ joinLines (newSide [patchLine]) } := by
      obtain ⟨kind, line⟩ := patchLine
      unfold replayPatchLine
      cases kind with
      | context =>
        dsimp only
        rw [if_pos ⟨hstanding.old_next, hstanding.new_next⟩]
        simp [joinLines]
      | removed =>
        dsimp only
        rw [if_pos hstanding.old_next]
        simp [joinLines]
      | added =>
        dsimp only
        rw [if_pos hstanding.new_next]
        simp [joinLines]
    rw [oldSide_cons, newSide_cons, List.append_assoc, List.append_assoc] at hstanding
    rw [List.foldlM_cons, hstep, Option.bind_eq_bind, Option.bind_some,
      ih _ (hstanding.move rfl rfl), oldSide_cons patchLine lines,
      newSide_cons patchLine lines, joinLines_append]
    simp [Nat.add_assoc]

theorem replayHunk_standing {gap : List ReviewedSourceTextLine}
    (hstanding : Standing oldLines newLines state (gap ++ (oldSide hunk.lines ++ oldRest))
      (gap ++ (newSide hunk.lines ++ newRest)))
    (holdPosition : hunkPosition hunk.oldStart hunk.oldCount =
      some (state.oldIndex + gap.length)) (hnewPosition : hunkPosition hunk.newStart hunk.newCount =
      some (state.newIndex + gap.length)) (holdCount : (oldSide hunk.lines).length = hunk.oldCount)
    (hnewCount : (newSide hunk.lines).length = hunk.newCount) :
    replayHunk oldLines newLines state hunk = some {
      oldIndex := state.oldIndex + gap.length + hunk.oldCount
      newIndex := state.newIndex + gap.length + hunk.newCount
      replayed := state.replayed ++ joinLines (gap ++ newSide hunk.lines) } := by
  have hcopied := copyUnchanged_standing gap state hstanding
  have hlines := replayPatchLine_standing hunk.lines _ (@Standing.move _ _ _ {
      oldIndex := state.oldIndex + gap.length
      newIndex := state.newIndex + gap.length
      replayed := state.replayed ++ joinLines gap } _ _ _ _ hstanding rfl rfl)
  obtain ⟨front, hsplit, hlength⟩ := hstanding.old_split
  have hbounds : state.oldIndex ≤ state.oldIndex + gap.length ∧
      state.oldIndex + gap.length ≤ oldLines.length := by
    rw [hsplit, List.length_append, List.length_append]
    omega
  have hmoved : state.oldIndex + gap.length - state.oldIndex = gap.length := by omega
  unfold replayHunk
  simp only [Option.bind_eq_bind, holdPosition, hnewPosition, Option.bind_some,
    guard_pos hbounds, hmoved, hcopied, guard_pos, hlines, holdCount, hnewCount,
    Nat.add_sub_cancel_left, and_self, joinLines_append, List.append_assoc]

/-- A patch that shows the difference of what is to come is replayed to its end. -/
theorem replay_shows (hshows : Shows oldIndex newIndex hunks oldRest newRest) :
    ∀ state : Replay, state.oldIndex = oldIndex → state.newIndex = newIndex →
      Standing oldLines newLines state oldRest newRest →
      ∃ last after, hunks.foldlM (replayHunk oldLines newLines) state = some last ∧
        copyUnchanged oldLines newLines (oldLines.length - last.oldIndex) last = some after ∧
        after.newIndex = newLines.length ∧
        after.replayed = state.replayed ++ joinLines newRest := by
  induction hshows with
  | unchanged oldIndex newIndex rest =>
    intro state _ _ hstanding
    obtain ⟨⟨front, hlines, hlength⟩, ⟨newFront, hnewLines, hnewLength⟩⟩ := hstanding
    have hcount : oldLines.length - state.oldIndex = rest.length := by
      rw [hlines, List.length_append]
      omega
    have hcopied := @copyUnchanged_standing oldLines newLines rest state [] [] (by
      rw [List.append_nil]
      exact ⟨⟨front, hlines, hlength⟩, ⟨newFront, hnewLines, hnewLength⟩⟩)
    rw [← hcount] at hcopied
    refine ⟨state, _, rfl, hcopied, ?_, rfl⟩
    show state.newIndex + (oldLines.length - state.oldIndex) = _
    rw [hcount, hnewLines, List.length_append, hnewLength]
  | hunk oldIndex newIndex gap hunk hunks oldRest newRest holdPosition hnewPosition
      holdCount hnewCount _ ih =>
      intro state hold hnew hstanding
      rw [← hold] at holdPosition
      rw [← hnew] at hnewPosition
      have hhunk := replayHunk_standing hstanding holdPosition hnewPosition holdCount hnewCount
      have hnext : Standing oldLines newLines {
          oldIndex := state.oldIndex + gap.length + hunk.oldCount
          newIndex := state.newIndex + gap.length + hunk.newCount
          replayed := state.replayed ++ joinLines (gap ++ newSide hunk.lines) }
          oldRest newRest := by
        rw [← List.append_assoc, ← List.append_assoc] at hstanding
        apply hstanding.move
        · rw [List.length_append, holdCount]
          exact Nat.add_assoc _ _ _
        · rw [List.length_append, hnewCount]
          exact Nat.add_assoc _ _ _
      obtain ⟨last, after, hlast, hcopy, hend, hreplayed⟩ := ih _
        (by rw [hold]) (by rw [hnew]) hnext
      refine ⟨last, after, ?_, hcopy, hend, ?_⟩
      · rw [List.foldlM_cons, hhunk]
        exact hlast
      · rw [hreplayed, joinLines_append, joinLines_append, joinLines_append]
        simp only [List.append_assoc]

end

/-- A patch that shows the difference of two blobs is replayed to the new one. -/
theorem replayPatch_shows
    (hshows : Shows 0 0 hunks (splitBlobLines oldBlob) (splitBlobLines newBlob)) :
    replayPatch hunks oldBlob newBlob = true := by
  have hstart : Standing (splitBlobLines oldBlob) (splitBlobLines newBlob) {}
      (splitBlobLines oldBlob) (splitBlobLines newBlob) :=
    ⟨⟨[], rfl, rfl⟩, ⟨[], rfl, rfl⟩⟩
  obtain ⟨last, after, hlast, hcopy, hend, hreplayed⟩ := replay_shows hshows {} rfl rfl hstart
  have hlines : replayPatchLines (splitBlobLines oldBlob) (splitBlobLines newBlob) hunks =
      some after := by
    unfold replayPatchLines
    simp only [Option.bind_eq_bind, hlast, hcopy, Option.bind_some, guard_pos hend]
  unfold replayPatch
  rw [hlines]
  dsimp only
  rw [hreplayed, joinLines_splitBlobLines]
  exact decide_eq_true rfl

/-- The four lines about the blobs, then the hunks. -/
def writePatch (oldObjectId newObjectId : ReviewedSourceObjectId)
    (items : List (ReviewedSourcePatchHunk × Bytes)) : Bytes :=
  (ascii "diff --git " ++ oldObjectId.value ++ ascii " " ++ newObjectId.value) ++
    (byte '\n' :: ((ascii "index " ++ oldObjectId.value ++ ascii ".." ++ newObjectId.value ++
      ascii " 100644") ++
    (byte '\n' :: ((ascii "--- " ++ oldObjectId.value) ++
    (byte '\n' :: ((ascii "+++ " ++ newObjectId.value) ++
    (byte '\n' :: writeHunks items)))))))

/-- A patch in printed form of the difference of two blobs: the hunks with their
section headings, apart from each other, and no printed line too long. -/
structure PrintedPatch (oldBlob newBlob : Bytes)
    (items : List (ReviewedSourcePatchHunk × Bytes)) : Prop where
  nonempty : items ≠ []
  shows : Shows 0 0 (items.map Prod.fst) (splitBlobLines oldBlob) (splitBlobLines newBlob)
  apart : (items.map Prod.fst).IsChain Apart
  headings : ∀ item ∈ items, IsHeading item.2
  line_limit : ∀ hunk ∈ items.map Prod.fst, ∀ patchLine ∈ hunk.lines,
    patchLine.line.bytes.length ≤ reviewedSourceLogicalLineLimit

/-- Every hunk has a line that was added or removed. -/
def EveryHunkChanges (items : List (ReviewedSourcePatchHunk × Bytes)) : Prop :=
  ∀ hunk ∈ items.map Prod.fst, ∃ patchLine ∈ hunk.lines, patchLine.kind ≠ .context

theorem not_mem_objectId {separator : UInt8} (objectId : ReviewedSourceObjectId)
    (h : isLowerHex separator = false) : separator ∉ objectId.value := by
  intro hmem
  have hhex := List.all_eq_true.mp objectId.lower_hex separator hmem
  rw [h] at hhex
  cases hhex

theorem takeExactLine_append {line : Bytes} (h : byte '\n' ∉ line) (rest : Bytes) :
    takeExactLine line (line ++ byte '\n' :: rest) = some rest := by
  unfold takeExactLine takeLine
  rw [takeField_append h]
  simp only [Option.bind_eq_bind, Option.bind_some, guard_pos]

section

variable (oldObjectId newObjectId : ReviewedSourceObjectId)

theorem takePatchHeader_write (items : List (ReviewedSourcePatchHunk × Bytes)) :
    takePatchHeader oldObjectId newObjectId (writePatch oldObjectId newObjectId items) =
      some (writeHunks items) := by
  have hold : byte '\n' ∉ oldObjectId.value := not_mem_objectId oldObjectId (by decide)
  have hnew : byte '\n' ∉ newObjectId.value := not_mem_objectId newObjectId (by decide)
  have hdiff : byte '\n' ∉
      ascii "diff --git " ++ oldObjectId.value ++ ascii " " ++ newObjectId.value := by
    simp only [List.mem_append, not_or]
    exact ⟨⟨⟨by decide, hold⟩, by decide⟩, hnew⟩
  have hindex : byte '\n' ∉ ascii "index " ++ oldObjectId.value ++ ascii ".." ++
      newObjectId.value ++ ascii " 100644" := by
    simp only [List.mem_append, not_or]
    exact ⟨⟨⟨⟨by decide, hold⟩, by decide⟩, hnew⟩, by decide⟩
  have holdLine : byte '\n' ∉ ascii "--- " ++ oldObjectId.value := by
    simp only [List.mem_append, not_or]
    exact ⟨by decide, hold⟩
  have hnewLine : byte '\n' ∉ ascii "+++ " ++ newObjectId.value := by
    simp only [List.mem_append, not_or]
    exact ⟨by decide, hnew⟩
  unfold takePatchHeader writePatch
  simp only [Option.bind_eq_bind, takeExactLine_append hdiff, takeExactLine_append hindex,
    takeExactLine_append holdLine, takeExactLine_append hnewLine, Option.bind_some]

theorem zero_not_mem_line (h : 0 ∉ patchLine.line.bytes) : 0 ∉ writePatchLine patchLine := by
  have hmark : (0 : UInt8) ≠ lineMark patchLine.kind := by
    cases patchLine.kind <;> decide
  have hmarker : 0 ∉ writeMarker patchLine.line := by
    unfold writeMarker
    cases patchLine.line.hasNewline <;> decide
  unfold writePatchLine
  simp only [List.cons_append, List.mem_cons, List.mem_append, not_or]
  exact ⟨hmark, h, by decide, hmarker⟩

theorem zero_not_mem_hunk {hunk : ReviewedSourcePatchHunk} {heading : Bytes}
    (hheading : 0 ∉ heading) (hlines : ∀ patchLine ∈ hunk.lines, 0 ∉ patchLine.line.bytes) :
    0 ∉ writeHunk hunk heading := by
  have hranges : 0 ∉ writeRanges hunk :=
    not_mem_writeRanges hunk (by decide) (by decide) (by decide) (by decide)
  have hbody : 0 ∉ writePatchLines hunk.lines := by
    intro hmem
    obtain ⟨patchLine, hline, hmem⟩ := List.mem_flatMap.mp hmem
    exact zero_not_mem_line (hlines patchLine hline) hmem
  unfold writeHunk writeHunkHeader
  simp only [List.mem_cons, List.mem_append, not_or]
  exact ⟨⟨by decide, hranges, by decide, hheading⟩, by decide, hbody⟩

/-- No byte of the printed text is NUL when the blobs have none. -/
theorem zero_not_mem_patch {items : List (ReviewedSourcePatchHunk × Bytes)}
    (hheadings : ∀ item ∈ items, IsHeading item.2)
    (hlines : ∀ hunk ∈ items.map Prod.fst, ∀ patchLine ∈ hunk.lines, 0 ∉ patchLine.line.bytes) :
    0 ∉ writePatch oldObjectId newObjectId items := by
  have hold : 0 ∉ oldObjectId.value := not_mem_objectId oldObjectId (by decide)
  have hnew : 0 ∉ newObjectId.value := not_mem_objectId newObjectId (by decide)
  have hhunks : 0 ∉ writeHunks items := by
    intro hmem
    obtain ⟨item, hitem, hmem⟩ := List.mem_flatMap.mp hmem
    exact zero_not_mem_hunk (hheadings item hitem).no_nul
      (hlines item.1 (List.mem_map_of_mem hitem)) hmem
  unfold writePatch
  simp only [List.mem_cons, List.mem_append, not_or]
  exact ⟨⟨⟨⟨by decide, hold⟩, by decide⟩, hnew⟩, by decide,
    ⟨⟨⟨⟨by decide, hold⟩, by decide⟩, hnew⟩, by decide⟩, by decide,
    ⟨by decide, hold⟩, by decide, ⟨by decide, hnew⟩, by decide, hhunks⟩

end

/-- The bytes of a printed line are bytes of its blob, and none is a newline. -/
theorem PrintedPatch.line_bytes (h : PrintedPatch oldBlob newBlob items)
    (hhunk : hunk ∈ items.map Prod.fst) (hline : patchLine ∈ hunk.lines) :
    byte '\n' ∉ patchLine.line.bytes ∧
      (patchLine.line.bytes ⊆ oldBlob ∨ patchLine.line.bytes ⊆ newBlob) := by
  rcases shows_lines h.shows hunk hhunk patchLine hline with hmem | hmem
  · have hbytes := splitBlobLinesFrom_bytes oldBlob [] List.not_mem_nil _ hmem
    exact ⟨hbytes.1, .inl hbytes.2⟩
  · have hbytes := splitBlobLinesFrom_bytes newBlob [] List.not_mem_nil _ hmem
    exact ⟨hbytes.1, .inr hbytes.2⟩

/-- What the reader asks of the hunks follows from what they show. -/
theorem PrintedPatch.readable (h : PrintedPatch oldBlob newBlob items)
    (hchanges : EveryHunkChanges items) (hold : oldBlob.length < 2 ^ 64)
    (hnew : newBlob.length < 2 ^ 64) : ∀ hunk ∈ items.map Prod.fst, ReadableHunk hunk := by
  intro hunk hhunk
  have hranges := shows_ranges h.shows hunk hhunk
  have holdLines := splitBlobLinesFrom_length oldBlob []
  have hnewLines := splitBlobLinesFrom_length newBlob []
  rw [List.length_nil] at holdLines hnewLines
  unfold splitBlobLines at hranges
  refine ⟨hchanges hunk hhunk, fun patchLine hline => ?_, ?_, ?_⟩
  · exact ⟨(h.line_bytes hhunk hline).1, h.line_limit hunk hhunk patchLine hline⟩
  · omega
  · omega

/-- A printed patch with a change in every hunk is accepted, and its hunks are
returned as they are. -/
theorem patch_complete (oldObjectId newObjectId : ReviewedSourceObjectId)
    (oldBlob newBlob : Bytes) (items : List (ReviewedSourcePatchHunk × Bytes))
    (holdText : 0 ∉ oldBlob) (hnewText : 0 ∉ newBlob)
    (holdSize : oldBlob.length < 2 ^ 64) (hnewSize : newBlob.length < 2 ^ 64)
    (hpatch : PrintedPatch oldBlob newBlob items) (hchanges : EveryHunkChanges items)
    (hlimit : (writePatch oldObjectId newObjectId items).length ≤
      reviewedSourceSingleRawPatchLimit) :
    parseAndVerifyReviewedSourcePatch (writePatch oldObjectId newObjectId items) oldObjectId
      newObjectId oldBlob newBlob = .ok ⟨oldObjectId, newObjectId, items.map Prod.fst⟩ := by
  have hnul : 0 ∉ writePatch oldObjectId newObjectId items := by
    refine zero_not_mem_patch oldObjectId newObjectId hpatch.headings ?_
    intro hunk hhunk patchLine hline hmem
    rcases (hpatch.line_bytes hhunk hline).2 with hsub | hsub
    · exact holdText (hsub hmem)
    · exact hnewText (hsub hmem)
  have hnonempty : writePatch oldObjectId newObjectId items ≠ [] :=
    List.append_ne_nil_of_right_ne_nil _ (List.cons_ne_nil _ _)
  have hnone : items.map Prod.fst ≠ [] := by
    rw [ne_eq, List.map_eq_nil_iff]
    exact hpatch.nonempty
  obtain ⟨last, hread, hlast⟩ := readHunks_write hpatch.shows items {} _ rfl hpatch.headings
    (hpatch.readable hchanges holdSize hnewSize) hpatch.apart
    ⟨nofun, nofun, .inl ⟨rfl, rfl⟩⟩ ⟨nofun, nofun⟩ (splitBlobLinesFrom_endsOpen oldBlob [])
    (splitBlobLinesFrom_endsOpen newBlob []) (Nat.le_refl _)
  have hhunks : last.hunks = items.map Prod.fst := hlast
  have hparsed : parseReviewedSourcePatch (writePatch oldObjectId newObjectId items) oldObjectId
      newObjectId = .ok (items.map Prod.fst) := by
    unfold parseReviewedSourcePatch
    rw [if_neg (Nat.not_lt.mpr hlimit), if_neg (not_or.mpr ⟨hnonempty, hnul⟩),
      takePatchHeader_write]
    dsimp only
    rw [hread]
    show (if last.hunks = [] then _ else _) = _
    rw [hhunks, if_neg hnone]
  unfold parseAndVerifyReviewedSourcePatch
  rw [hparsed]
  show (if replayPatch (items.map Prod.fst) oldBlob newBlob = true then _ else _) = _
  rw [if_pos (replayPatch_shows hpatch.shows)]

def sampleHunk : ReviewedSourcePatchHunk where
  oldStart := 2
  oldCount := 2
  newStart := 2
  newCount := 3
  lines := [⟨.context, ascii "ver=1", true⟩, ⟨.removed, ascii "rel=1", false⟩,
    ⟨.added, ascii "rel=2", true⟩, ⟨.added, ascii "arch=any", true⟩]

theorem sampleHunk_printed :
    PrintedPatch (ascii "name=app\nver=1\nrel=1") (ascii "name=app\nver=1\nrel=2\narch=any\n")
      [(sampleHunk, ascii " build() @@")] := by
  have holdLines : splitBlobLines (ascii "name=app\nver=1\nrel=1") =
      [⟨ascii "name=app", true⟩] ++ (oldSide sampleHunk.lines ++ []) := by decide
  have hnewLines : splitBlobLines (ascii "name=app\nver=1\nrel=2\narch=any\n") =
      [⟨ascii "name=app", true⟩] ++ (newSide sampleHunk.lines ++ []) := by decide
  refine ⟨List.cons_ne_nil _ _, ?_, List.isChain_singleton _, ?_, ?_⟩
  · rw [holdLines, hnewLines]
    exact .hunk 0 0 _ sampleHunk [] [] [] rfl rfl rfl rfl (.unchanged _ _ _)
  · intro item hitem
    rw [List.mem_singleton.mp hitem]
    exact ⟨.inr rfl, by decide, by decide⟩
  · decide

theorem patch_complete_sample :
    parseAndVerifyReviewedSourcePatch
      (writePatch oldSample newSample [(sampleHunk, ascii " build() @@")]) oldSample newSample
      (ascii "name=app\nver=1\nrel=1") (ascii "name=app\nver=1\nrel=2\narch=any\n") =
        .ok ⟨oldSample, newSample, [sampleHunk]⟩ := by
  have hchanges : EveryHunkChanges [(sampleHunk, ascii " build() @@")] := by
    intro hunk hhunk
    rw [List.mem_singleton.mp hhunk]
    exact ⟨⟨.added, ascii "rel=2", true⟩, by decide, nofun⟩
  exact patch_complete oldSample newSample _ _ [(sampleHunk, ascii " build() @@")] (by decide)
    (by decide) (by decide) (by decide) sampleHunk_printed hchanges (by decide +kernel)

/-- A hunk around one line of a blob that did not change. -/
def unchangedHunk : ReviewedSourcePatchHunk where
  oldStart := 1
  oldCount := 1
  newStart := 1
  newCount := 1
  lines := [⟨.context, ascii "ver=1", true⟩]

/-- The printed patch leads from the blob to itself, and is refused: a hunk must
change a line. -/
theorem unchanged_hunk_refused :
    0 ∉ ascii "ver=1\n" ∧
      PrintedPatch (ascii "ver=1\n") (ascii "ver=1\n") [(unchangedHunk, [])] ∧
      (writePatch oldSample newSample [(unchangedHunk, [])]).length ≤
        reviewedSourceSingleRawPatchLimit ∧
      parseAndVerifyReviewedSourcePatch
        (writePatch oldSample newSample [(unchangedHunk, [])]) oldSample newSample
        (ascii "ver=1\n") (ascii "ver=1\n") = .error (malformedPatch 0) := by
  have hlines : splitBlobLines (ascii "ver=1\n") =
      [] ++ (oldSide unchangedHunk.lines ++ []) := by decide
  refine ⟨by decide, ⟨List.cons_ne_nil _ _, ?_, List.isChain_singleton _, ?_, ?_⟩,
    by decide +kernel, by decide +kernel⟩
  · rw [hlines]
    exact .hunk 0 0 [] unchangedHunk [] [] [] rfl rfl rfl rfl (.unchanged _ _ _)
  · intro item hitem
    rw [List.mem_singleton.mp hitem]
    exact ⟨.inl rfl, by decide, by decide⟩
  · decide

end Moguet.Review.PatchComplete
