import Moguet.Review.Patch

/-!
# A verified patch shows every difference

`Shows` says what the hunks of a patch are to the two blobs: the lines before,
between and after the hunks are common to both, and each hunk stands where its
header places it and replaces its old lines by its new ones. `applyPatch` is
the patch applied to the old blob alone.
-/

namespace Moguet.Review.PatchReplay

open Verified.ByteString Verified.Checked Projection Patch

variable {hunks : List ReviewedSourcePatchHunk} {after : Replay}

/-- The lines of the old blob a row of patch lines is about. -/
def oldSide (lines : List ReviewedSourcePatchLine) : List ReviewedSourceTextLine :=
  (lines.filter fun line => line.kind ≠ .added).map ReviewedSourcePatchLine.line

/-- The lines it puts in their place. -/
def newSide (lines : List ReviewedSourcePatchLine) : List ReviewedSourceTextLine :=
  (lines.filter fun line => line.kind ≠ .removed).map ReviewedSourcePatchLine.line

/-- Two rows of lines, from the given indices on, differ only inside the hunks.
The lines of `gap`, and those that follow the last hunk, are in both. -/
inductive Shows : Nat → Nat → List ReviewedSourcePatchHunk →
    List ReviewedSourceTextLine → List ReviewedSourceTextLine → Prop
  | unchanged (oldIndex newIndex : Nat) (rest : List ReviewedSourceTextLine) :
      Shows oldIndex newIndex [] rest rest
  | hunk (oldIndex newIndex : Nat) (gap : List ReviewedSourceTextLine)
      (hunk : ReviewedSourcePatchHunk) (hunks : List ReviewedSourcePatchHunk)
      (oldRest newRest : List ReviewedSourceTextLine)
      (holdPosition : hunkPosition hunk.oldStart hunk.oldCount =
        some (oldIndex + gap.length))
      (hnewPosition : hunkPosition hunk.newStart hunk.newCount =
        some (newIndex + gap.length))
      (holdCount : (oldSide hunk.lines).length = hunk.oldCount)
      (hnewCount : (newSide hunk.lines).length = hunk.newCount)
      (hrest : Shows (oldIndex + gap.length + hunk.oldCount)
        (newIndex + gap.length + hunk.newCount) hunks oldRest newRest) :
      Shows oldIndex newIndex (hunk :: hunks)
        (gap ++ (oldSide hunk.lines ++ oldRest)) (gap ++ (newSide hunk.lines ++ newRest))

/-- The lines of a hunk applied to the lines from its position on: the lines it
leaves, and what follows the hunk. -/
def applyPatchLines : List ReviewedSourcePatchLine → List ReviewedSourceTextLine →
    Option (List ReviewedSourceTextLine × List ReviewedSourceTextLine)
  | [], rest => some ([], rest)
  | ⟨.added, line⟩ :: lines, rest => do
      let (output, rest) ← applyPatchLines lines rest
      some (line :: output, rest)
  | ⟨.context, _⟩ :: _, [] | ⟨.removed, _⟩ :: _, [] => none
  | ⟨.context, line⟩ :: lines, oldLine :: rest => do
      guard (oldLine = line)
      let (output, rest) ← applyPatchLines lines rest
      some (line :: output, rest)
  | ⟨.removed, line⟩ :: lines, oldLine :: rest => do
      guard (oldLine = line)
      applyPatchLines lines rest

/-- The hunks applied to the lines from an index on. -/
def applyHunks : Nat → List ReviewedSourcePatchHunk → List ReviewedSourceTextLine →
    Option (List ReviewedSourceTextLine)
  | _, [], rest => some rest
  | oldIndex, hunk :: hunks, rest => do
      let position ← hunkPosition hunk.oldStart hunk.oldCount
      guard (oldIndex ≤ position ∧ position - oldIndex ≤ rest.length)
      let gap := rest.take (position - oldIndex)
      let (output, rest) ← applyPatchLines hunk.lines (rest.drop (position - oldIndex))
      let rest ← applyHunks (position + hunk.oldCount) hunks rest
      some (gap ++ (output ++ rest))

def joinLines (lines : List ReviewedSourceTextLine) : Bytes :=
  lines.flatMap ReviewedSourceTextLine.raw

def applyPatch (hunks : List ReviewedSourcePatchHunk) (oldBlob : Bytes) : Option Bytes :=
  (applyHunks 0 hunks (splitBlobLines oldBlob)).map joinLines

theorem joinLines_splitBlobLinesFrom :
    ∀ blob line : Bytes, joinLines (splitBlobLinesFrom blob line) = line ++ blob := by
  intro blob
  induction blob with
  | nil =>
    intro line
    cases line with
    | nil => rfl
    | cons b line => simp [splitBlobLinesFrom, joinLines, ReviewedSourceTextLine.raw]
  | cons c blob ih =>
    intro line
    by_cases hnewline : c = byte '\n'
    · have hrest : joinLines (splitBlobLinesFrom blob []) = blob := by
        rw [ih]
        rfl
      rw [splitBlobLinesFrom, if_pos hnewline]
      show (line ++ [byte '\n']) ++ joinLines (splitBlobLinesFrom blob []) = _
      rw [hrest, hnewline]
      simp
    · rw [splitBlobLinesFrom, if_neg hnewline, ih]
      simp

/-- No byte of a blob is lost in its lines. -/
theorem joinLines_splitBlobLines (blob : Bytes) : joinLines (splitBlobLines blob) = blob :=
  joinLines_splitBlobLinesFrom blob []

section

variable {line : ReviewedSourceTextLine} {lines : List ReviewedSourcePatchLine}

@[simp] theorem oldSide_nil : oldSide [] = [] := rfl

@[simp] theorem newSide_nil : newSide [] = [] := rfl

@[simp] theorem oldSide_context : oldSide (⟨.context, line⟩ :: lines) = line :: oldSide lines :=
  rfl

@[simp] theorem newSide_context : newSide (⟨.context, line⟩ :: lines) = line :: newSide lines :=
  rfl

@[simp] theorem oldSide_removed : oldSide (⟨.removed, line⟩ :: lines) = line :: oldSide lines :=
  rfl

@[simp] theorem newSide_removed : newSide (⟨.removed, line⟩ :: lines) = newSide lines := rfl

@[simp] theorem oldSide_added : oldSide (⟨.added, line⟩ :: lines) = oldSide lines := rfl

@[simp] theorem newSide_added : newSide (⟨.added, line⟩ :: lines) = line :: newSide lines := rfl

end

theorem applyPatchLines_sides (rest : List ReviewedSourceTextLine) :
    ∀ lines : List ReviewedSourcePatchLine,
      applyPatchLines lines (oldSide lines ++ rest) = some (newSide lines, rest) := by
  intro lines
  induction lines with
  | nil => rfl
  | cons patchLine lines ih =>
    obtain ⟨kind, line⟩ := patchLine
    cases kind with
    | context => simp [applyPatchLines, ih]
    | removed => simp [applyPatchLines, ih]
    | added => simp [applyPatchLines, ih]

/-- A patch that shows the difference of two rows of lines turns the one into
the other. -/
theorem Shows.applyHunks {oldIndex newIndex : Nat} {oldLines newLines : List ReviewedSourceTextLine}
    (h : Shows oldIndex newIndex hunks oldLines newLines) :
    applyHunks oldIndex hunks oldLines = some newLines := by
  induction h with
  | unchanged oldIndex newIndex rest => rfl
  | hunk oldIndex newIndex gap hunk hunks oldRest newRest holdPosition hnewPosition
      holdCount hnewCount hrest ih =>
      have hgap : oldIndex + gap.length - oldIndex = gap.length := by omega
      have hbounds : oldIndex ≤ oldIndex + gap.length ∧
          gap.length ≤ (gap ++ (oldSide hunk.lines ++ oldRest)).length := by
        rw [List.length_append]
        omega
      unfold PatchReplay.applyHunks
      rw [holdPosition, Option.bind_eq_bind, Option.bind_some, hgap]
      simp only [hbounds, guard, and_self, if_true, List.take_left', List.drop_left',
        applyPatchLines_sides]
      simp [ih]

section

variable {oldLines newLines : List ReviewedSourceTextLine}

theorem drop_of_getElem? {lines : List ReviewedSourceTextLine} {index : Nat}
    {line : ReviewedSourceTextLine} (h : lines[index]? = some line) :
    lines.drop index = line :: lines.drop (index + 1) := by
  obtain ⟨hbound, hline⟩ := List.getElem?_eq_some_iff.mp h
  rw [List.drop_eq_getElem_cons hbound, hline]

/-- Lines that were copied are the next ones on both sides. -/
theorem copyUnchanged_spec : ∀ {count : Nat} {state after : Replay},
      copyUnchanged oldLines newLines count state = some after →
      ∃ gap, gap.length = count ∧ after.oldIndex = state.oldIndex + count ∧
        after.newIndex = state.newIndex + count ∧
        oldLines.drop state.oldIndex = gap ++ oldLines.drop after.oldIndex ∧
        newLines.drop state.newIndex = gap ++ newLines.drop after.newIndex := by
  intro count
  induction count with
  | zero =>
    intro state after h
    injection h with h
    rw [← h]
    exact ⟨[], rfl, rfl, rfl, rfl, rfl⟩
  | succ count ih =>
    intro state after h
    simp only [copyUnchanged, Option.bind_eq_bind, Option.bind_eq_some_iff] at h
    obtain ⟨oldLine, hold, newLine, hnew, _, hsame, h⟩ := h
    obtain ⟨gap, hlength, holdIndex, hnewIndex, holdLines, hnewLines⟩ := ih h
    have hline : oldLine = newLine := by simpa using hsame
    refine ⟨oldLine :: gap, by simp [hlength], ?_, ?_, ?_, ?_⟩
    · rw [holdIndex]
      show state.oldIndex + 1 + count = _
      omega
    · rw [hnewIndex]
      show state.newIndex + 1 + count = _
      omega
    · rw [drop_of_getElem? hold]
      show oldLine :: oldLines.drop (state.oldIndex + 1) = _
      rw [holdLines]
      rfl
    · rw [drop_of_getElem? hnew, ← hline]
      show oldLine :: newLines.drop (state.newIndex + 1) = _
      rw [hnewLines]
      rfl

/-- The lines of a hunk are the next ones of their side. -/
theorem replayPatchLine_spec : ∀ {lines : List ReviewedSourcePatchLine} {state after : Replay},
      lines.foldlM (replayPatchLine oldLines newLines) state = some after →
      after.oldIndex = state.oldIndex + (oldSide lines).length ∧
      after.newIndex = state.newIndex + (newSide lines).length ∧
      oldLines.drop state.oldIndex = oldSide lines ++ oldLines.drop after.oldIndex ∧
      newLines.drop state.newIndex = newSide lines ++ newLines.drop after.newIndex := by
  intro lines
  induction lines with
  | nil =>
    intro state after h
    injection h with h
    rw [← h]
    exact ⟨rfl, rfl, rfl, rfl⟩
  | cons patchLine lines ih =>
    intro state after h
    rw [List.foldlM_cons, Option.bind_eq_bind, Option.bind_eq_some_iff] at h
    obtain ⟨next, hstep, h⟩ := h
    obtain ⟨holdIndex, hnewIndex, holdLines, hnewLines⟩ := ih h
    obtain ⟨kind, line⟩ := patchLine
    cases kind with
    | context =>
      dsimp only [replayPatchLine] at hstep
      split at hstep
      · rename_i hmatch
        injection hstep with hstep
        rw [← hstep] at holdIndex hnewIndex holdLines hnewLines
        dsimp only at holdIndex hnewIndex holdLines hnewLines
        refine ⟨?_, ?_, ?_, ?_⟩
        · rw [holdIndex, oldSide_context, List.length_cons]
          omega
        · rw [hnewIndex, newSide_context, List.length_cons]
          omega
        · rw [drop_of_getElem? hmatch.1, holdLines]
          rfl
        · rw [drop_of_getElem? hmatch.2, hnewLines]
          rfl
      · cases hstep
    | removed =>
      dsimp only [replayPatchLine] at hstep
      split at hstep
      · rename_i hmatch
        injection hstep with hstep
        rw [← hstep] at holdIndex hnewIndex holdLines hnewLines
        dsimp only at holdIndex hnewIndex holdLines hnewLines
        refine ⟨?_, hnewIndex, ?_, hnewLines⟩
        · rw [holdIndex, oldSide_removed, List.length_cons]
          omega
        · rw [drop_of_getElem? hmatch, holdLines]
          rfl
      · cases hstep
    | added =>
      dsimp only [replayPatchLine] at hstep
      split at hstep
      · rename_i hmatch
        injection hstep with hstep
        rw [← hstep] at holdIndex hnewIndex holdLines hnewLines
        dsimp only at holdIndex hnewIndex holdLines hnewLines
        refine ⟨holdIndex, ?_, holdLines, ?_⟩
        · rw [hnewIndex, newSide_added, List.length_cons]
          omega
        · rw [drop_of_getElem? hmatch, hnewLines]
          rfl
      · cases hstep

/-- What the replay of one hunk has established. -/
theorem replayHunk_spec {state : Replay} {hunk : ReviewedSourcePatchHunk}
    (h : replayHunk oldLines newLines state hunk = some after) :
    ∃ gap : List ReviewedSourceTextLine,
      hunkPosition hunk.oldStart hunk.oldCount = some (state.oldIndex + gap.length) ∧
      hunkPosition hunk.newStart hunk.newCount = some (state.newIndex + gap.length) ∧
      (oldSide hunk.lines).length = hunk.oldCount ∧
      (newSide hunk.lines).length = hunk.newCount ∧
      after.oldIndex = state.oldIndex + gap.length + hunk.oldCount ∧
      after.newIndex = state.newIndex + gap.length + hunk.newCount ∧
      oldLines.drop state.oldIndex = gap ++ (oldSide hunk.lines ++ oldLines.drop after.oldIndex) ∧
      newLines.drop state.newIndex =
        gap ++ (newSide hunk.lines ++ newLines.drop after.newIndex) := by
  simp only [replayHunk, Option.bind_eq_bind, Option.bind_eq_some_iff] at h
  obtain ⟨oldPosition, hold, newPosition, hnew, _, hbounds, before, hcopy, _, hat, last,
    hlines, _, hcounts, h⟩ := h
  injection h with h
  rw [h] at hlines hcounts
  obtain ⟨gap, hgap, hbeforeOld, hbeforeNew, holdGap, hnewGap⟩ := copyUnchanged_spec hcopy
  obtain ⟨hafterOld, hafterNew, holdLines, hnewLines⟩ := replayPatchLine_spec hlines
  have hfrom : state.oldIndex ≤ oldPosition ∧ oldPosition ≤ oldLines.length := by
    simpa using hbounds
  have hcount : after.oldIndex - before.oldIndex = hunk.oldCount ∧
      after.newIndex - before.newIndex = hunk.newCount := by simpa using hcounts
  have hposition : before.newIndex = newPosition := by simpa using hat
  have holdCount : (oldSide hunk.lines).length = hunk.oldCount := by omega
  have hnewCount : (newSide hunk.lines).length = hunk.newCount := by omega
  refine ⟨gap, ?_, ?_, holdCount, hnewCount, ?_, ?_, ?_, ?_⟩
  · rw [hold]
    congr 1
    omega
  · rw [hnew, ← hposition]
    congr 1
    omega
  · omega
  · omega
  · rw [holdGap, holdLines]
  · rw [hnewGap, hnewLines]

/-- The replay of all hunks, and of the lines after the last one. -/
theorem replayHunks_shows : ∀ {hunks : List ReviewedSourcePatchHunk} {state last after : Replay},
      hunks.foldlM (replayHunk oldLines newLines) state = some last →
      copyUnchanged oldLines newLines (oldLines.length - last.oldIndex) last = some after →
      after.newIndex = newLines.length →
      Shows state.oldIndex state.newIndex hunks (oldLines.drop state.oldIndex)
        (newLines.drop state.newIndex) := by
  intro hunks
  induction hunks with
  | nil =>
    intro state last after hhunks hcopy hend
    injection hhunks with hhunks
    rw [← hhunks] at hcopy
    obtain ⟨gap, hgap, hold, hnew, holdLines, hnewLines⟩ := copyUnchanged_spec hcopy
    have holdEnd : oldLines.drop after.oldIndex = [] := by
      rw [List.drop_eq_nil_iff]
      omega
    have hnewEnd : newLines.drop after.newIndex = [] := by
      rw [List.drop_eq_nil_iff]
      omega
    rw [holdLines, hnewLines, holdEnd, hnewEnd]
    exact .unchanged _ _ _
  | cons hunk hunks ih =>
    intro state last after hhunks hcopy hend
    rw [List.foldlM_cons, Option.bind_eq_bind, Option.bind_eq_some_iff] at hhunks
    obtain ⟨next, hhunk, hhunks⟩ := hhunks
    obtain ⟨gap, hold, hnew, holdCount, hnewCount, holdIndex, hnewIndex, holdLines,
      hnewLines⟩ := replayHunk_spec hhunk
    have hrest := ih hhunks hcopy hend
    rw [holdLines, hnewLines]
    refine .hunk _ _ gap hunk hunks _ _ hold hnew holdCount hnewCount ?_
    rw [← holdIndex, ← hnewIndex]
    exact hrest

theorem replayPatchLines_shows (h : replayPatchLines oldLines newLines hunks = some after) :
    Shows 0 0 hunks oldLines newLines := by
  simp only [replayPatchLines, Option.bind_eq_bind, Option.bind_eq_some_iff] at h
  obtain ⟨last, hhunks, final, hcopy, _, hend, _⟩ := h
  have hlength : final.newIndex = newLines.length := by simpa using hend
  exact replayHunks_shows hhunks hcopy hlength

end

/-- A patch that is accepted shows every difference of the two blobs. -/
theorem parseAndVerifyReviewedSourcePatch_shows (patchOutput : Bytes)
    (oldObjectId newObjectId : ReviewedSourceObjectId) (oldBlob newBlob : Bytes)
    (patch : ReviewedSourceTextPatch)
    (h : parseAndVerifyReviewedSourcePatch patchOutput oldObjectId newObjectId oldBlob
      newBlob = .ok patch) :
    applyPatch patch.hunks oldBlob = some newBlob ∧
      Shows 0 0 patch.hunks (splitBlobLines oldBlob) (splitBlobLines newBlob) := by
  unfold parseAndVerifyReviewedSourcePatch at h
  rw [bind_eq_ok] at h
  obtain ⟨hunks, _, h⟩ := h
  split at h
  · rename_i hreplay
    injection h with h
    rw [← h]
    unfold replayPatch at hreplay
    split at hreplay
    · cases hreplay
    · rename_i after hlines
      have hshows := replayPatchLines_shows hlines
      refine ⟨?_, hshows⟩
      unfold applyPatch
      rw [hshows.applyHunks, Option.map_some, joinLines_splitBlobLines]
  · cases h

theorem isLowerHex_old : isLowerHex (byte '1') = true := by decide

theorem isLowerHex_new : isLowerHex (byte '2') = true := by decide

def oldSample : ReviewedSourceObjectId := .repeated (byte '1') isLowerHex_old

def newSample : ReviewedSourceObjectId := .repeated (byte '2') isLowerHex_new

def samplePatch : Bytes :=
  ascii "diff --git " ++ oldSample.value ++ ascii " " ++ newSample.value ++
  ascii "\nindex " ++ oldSample.value ++ ascii ".." ++ newSample.value ++
  ascii " 100644\n--- " ++ oldSample.value ++ ascii "\n+++ " ++ newSample.value ++
  ascii "\n@@ -2,2 +2,3 @@ build\n ver=1\n-rel=1\n" ++ noNewlineMarker ++
  ascii "\n+rel=2\n+arch=any\n"

theorem parseAndVerifyReviewedSourcePatch_shows_sample :
    ∃ patch,
      parseAndVerifyReviewedSourcePatch samplePatch oldSample newSample
        (ascii "name=app\nver=1\nrel=1") (ascii "name=app\nver=1\nrel=2\narch=any\n") =
        .ok patch ∧
      applyPatch patch.hunks (ascii "name=app\nver=1\nrel=1") =
        some (ascii "name=app\nver=1\nrel=2\narch=any\n") ∧
      Shows 0 0 patch.hunks (splitBlobLines (ascii "name=app\nver=1\nrel=1"))
        (splitBlobLines (ascii "name=app\nver=1\nrel=2\narch=any\n")) := by
  have hrun : (parseAndVerifyReviewedSourcePatch samplePatch oldSample newSample
      (ascii "name=app\nver=1\nrel=1")
      (ascii "name=app\nver=1\nrel=2\narch=any\n")).toOption.map
        (fun patch => patch.hunks.length) = some 1 := by
    decide +kernel
  obtain ⟨patch, hok, _⟩ := exists_ok_of_view hrun
  exact ⟨patch, hok, parseAndVerifyReviewedSourcePatch_shows _ _ _ _ _ patch hok⟩

end Moguet.Review.PatchReplay
