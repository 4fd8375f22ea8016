import Moguet.Review.PatchPrint

/-!
# Printed hunks are read back

The reader keeps which side is closed and where the last empty range stood.
`NoneLeft` and `Behind` say what of the blobs is still to come: a closed side
has no line left, and an empty range that was passed does not stand where the
next hunk starts.
-/

namespace Moguet.Review.PatchRead

open Verified.ByteString Verified.Checked Verified.Fields Patch PatchReplay PatchPrint

variable {hunks : List ReviewedSourcePatchHunk}

variable {previous : Option Nat} {position oldIndex newIndex : Nat} {heading : Bytes}
  {state : HunksRead} {hunk : ReviewedSourcePatchHunk}

/-- What the reader asks of a hunk besides its place: a change, and lines and
numbers within their limits. -/
structure ReadableHunk (hunk : ReviewedSourcePatchHunk) : Prop where
  changes : ∃ patchLine ∈ hunk.lines, patchLine.kind ≠ .context
  printable : ∀ patchLine ∈ hunk.lines, PrintableLine patchLine
  old_range : hunk.oldStart < 2 ^ 64 ∧ hunk.oldCount < 2 ^ 64
  new_range : hunk.newStart < 2 ^ 64 ∧ hunk.newCount < 2 ^ 64

theorem takeLineOf_lines : ∀ (lines : List ReviewedSourcePatchLine) (state : HunkLines),
      (lines.foldl takeLineOf state).lines = state.lines ++ lines := by
  intro lines
  induction lines with
  | nil =>
    intro state
    exact (List.append_nil _).symm
  | cons patchLine lines ih =>
    intro state
    rw [List.foldl_cons, ih]
    show state.lines ++ [patchLine] ++ lines = _
    rw [List.append_assoc, List.singleton_append]

theorem takeLineOf_hasChange : ∀ (lines : List ReviewedSourcePatchLine) (state : HunkLines),
      (state.hasChange = true ∨ ∃ patchLine ∈ lines, patchLine.kind ≠ .context) →
        (lines.foldl takeLineOf state).hasChange = true := by
  intro lines
  induction lines with
  | nil =>
    intro state h
    rcases h with h | ⟨patchLine, hmem, -⟩
    · exact h
    · exact absurd hmem List.not_mem_nil
  | cons patchLine lines ih =>
    intro state h
    rw [List.foldl_cons]
    apply ih
    have hstate : (takeLineOf state patchLine).hasChange =
        (state.hasChange || decide (patchLine.kind ≠ .context)) := rfl
    rw [hstate, Bool.or_eq_true, decide_eq_true_eq]
    rcases h with h | ⟨other, hmem, hother⟩
    · exact .inl (.inl h)
    · rcases List.mem_cons.mp hmem with hsame | hmem
      · rw [hsame] at hother
        exact .inl (.inr hother)
      · exact .inr ⟨other, hmem, hother⟩

theorem zeroWidthPosition_some (count : Nat) (h : previous ≠ some position) :
    ∃ next, zeroWidthPosition previous count position = some next ∧
      (next = previous ∨ count = 0 ∧ next = some position) := by
  unfold zeroWidthPosition
  by_cases hcount : count = 0
  · rw [if_pos hcount, if_neg h]
    exact ⟨some position, rfl, .inr ⟨hcount, rfl⟩⟩
  · rw [if_neg hcount]
    exact ⟨previous, rfl, .inl rfl⟩

/-- An empty range that was passed stands no further than the index. -/
def Passed (previous : Option Nat) (index : Nat) : Prop :=
  ∀ position, previous = some position → position ≤ index

theorem Passed.next {next : Option Nat} {index count : Nat} (h : Passed previous index)
    (hindex : index ≤ position) (hnext : next = previous ∨ count = 0 ∧ next = some position) :
    Passed next (position + count) := by
  intro found hfound
  rcases hnext with hnext | ⟨hcount, hnext⟩
  · have hbefore := h found (hnext ▸ hfound)
    omega
  · rw [hnext] at hfound
    injection hfound with hfound
    omega

/-- The line of a header. -/
theorem takeLine_header (hunk : ReviewedSourcePatchHunk) (h : IsHeading heading) (rest : Bytes) :
    takeLine (writeHunk hunk heading ++ rest) =
      some (writeHunkHeader hunk heading, writePatchLines hunk.lines ++ rest) := by
  have hranges : byte '\n' ∉ writeRanges hunk :=
    not_mem_writeRanges hunk (by decide) (by decide) (by decide) (by decide)
  have hheader : byte '\n' ∉ writeHunkHeader hunk heading := by
    intro hmem
    rcases List.mem_append.mp hmem with hmem | hmem
    · exact absurd hmem (by decide)
    · rcases List.mem_append.mp hmem with hmem | hmem
      · exact hranges hmem
      · rcases List.mem_append.mp hmem with hmem | hmem
        · exact absurd hmem (by decide)
        · exact h.one_line hmem
  unfold writeHunk
  rw [List.append_assoc, List.cons_append]
  exact takeField_append hheader _

theorem noMarkerFirst_hunk (hunk : ReviewedSourcePatchHunk) (h : IsHeading heading) (rest : Bytes) :
    NoMarkerFirst (writeHunk hunk heading ++ rest) := by
  intro line tail htake hline
  rw [takeLine_header hunk h] at htake
  injection htake with htake
  injection htake with hheader htail
  rw [hline] at hheader
  have hfirst := congrArg List.head? hheader
  have hat : (writeHunkHeader hunk heading).head? = some (byte '@') := rfl
  rw [hat] at hfirst
  exact absurd hfirst (by decide)

theorem noMarkerFirst_nil : NoMarkerFirst [] := by
  intro line rest htake
  cases htake

/-- The hunks behind a hunk do not start with a marker. -/
theorem noMarkerFirst_hunks {items : List (ReviewedSourcePatchHunk × Bytes)}
    (h : ∀ item ∈ items, IsHeading item.2) : NoMarkerFirst (writeHunks items) := by
  cases items with
  | nil => exact noMarkerFirst_nil
  | cons item items => exact noMarkerFirst_hunk item.1 (h item List.mem_cons_self) _

/-- A printed hunk is read for what it is, in front of any text without a marker. -/
theorem readHunk_write {rest : Bytes} {oldRest newRest : List ReviewedSourceTextLine}
    {oldPosition newPosition : Nat} (hheading : IsHeading heading) (hhunk : ReadableHunk hunk)
    (hrest : NoMarkerFirst rest) (holdCount : (oldSide hunk.lines).length = hunk.oldCount)
    (hnewCount : (newSide hunk.lines).length = hunk.newCount)
    (holdPosition : hunkPosition hunk.oldStart hunk.oldCount = some oldPosition)
    (hnewPosition : hunkPosition hunk.newStart hunk.newCount = some newPosition)
    (holdPrevious : state.previousZeroWidthOldPosition ≠ some oldPosition)
    (hnewPrevious : state.previousZeroWidthNewPosition ≠ some newPosition)
    (hleft : NoneLeft state.closed (oldSide hunk.lines ++ oldRest)
      (newSide hunk.lines ++ newRest)) (holdEnd : EndsOpen (oldSide hunk.lines ++ oldRest))
    (hnewEnd : EndsOpen (newSide hunk.lines ++ newRest)) :
    ∃ next, readHunk state (writeHunk hunk heading ++ rest) = .ok (next, rest) ∧
      next.hunks = state.hunks ++ [hunk] ∧ NoneLeft next.closed oldRest newRest ∧
      (next.previousZeroWidthOldPosition = state.previousZeroWidthOldPosition ∨
        hunk.oldCount = 0 ∧ next.previousZeroWidthOldPosition = some oldPosition) ∧
      (next.previousZeroWidthNewPosition = state.previousZeroWidthNewPosition ∨
        hunk.newCount = 0 ∧ next.previousZeroWidthNewPosition = some newPosition) := by
  obtain ⟨nextOld, hnextOld, hkeptOld⟩ := zeroWidthPosition_some hunk.oldCount holdPrevious
  obtain ⟨nextNew, hnextNew, hkeptNew⟩ := zeroWidthPosition_some hunk.newCount hnewPrevious
  obtain ⟨⟨⟨middle, text⟩, hread, htrailing⟩, hclosed⟩ :=
    @readHunkLines_write state.hunks.length { hunk with lines := [] } rest hrest hunk.lines
      { closed := state.closed } _ oldRest newRest
      (by rw [← holdCount]; exact Nat.zero_add _) (by rw [← hnewCount]; exact Nat.zero_add _)
      hleft holdEnd hnewEnd hhunk.printable (Nat.le_refl _)
  have hlines : (hunk.lines.foldl takeLineOf { closed := state.closed }).lines = hunk.lines :=
    takeLineOf_lines hunk.lines _
  have hchange := takeLineOf_hasChange hunk.lines { closed := state.closed } (.inr hhunk.changes)
  have hnonempty : hunk.lines ≠ [] := by
    obtain ⟨patchLine, hmem, -⟩ := hhunk.changes
    exact List.ne_nil_of_mem hmem
  have hfinish : finishHunk state { hunk with lines := [] }
      (hunk.lines.foldl takeLineOf { closed := state.closed }) = some {
        hunks := state.hunks ++ [hunk]
        previousZeroWidthOldPosition := nextOld
        previousZeroWidthNewPosition := nextNew
        closed := (hunk.lines.foldl takeLineOf { closed := state.closed }).closed } := by
    unfold finishHunk
    rw [hlines, guard_pos ⟨hnonempty, hchange⟩]
    simp only [Option.bind_eq_bind, Option.bind_some, holdPosition, hnewPosition, hnextOld,
      hnextNew]
  refine ⟨{
    hunks := state.hunks ++ [hunk]
    previousZeroWidthOldPosition := nextOld
    previousZeroWidthNewPosition := nextNew
    closed := _ }, ?_, rfl, hclosed, hkeptOld, hkeptNew⟩
  unfold readHunk
  rw [takeLine_header hunk hheading]
  dsimp only
  rw [parseHunkHeader_write hheading.start hhunk.old_range hhunk.new_range]
  dsimp only
  rw [hread]
  show (readTrailingMarker _ middle text >>= _) = _
  rw [htrailing]
  dsimp only [bind, Except.bind]
  rw [hfinish]

/-- Between two hunks stands an unchanged line. -/
def Apart (hunk next : ReviewedSourcePatchHunk) : Prop :=
  ∀ position nextPosition, hunkPosition hunk.oldStart hunk.oldCount = some position →
    hunkPosition next.oldStart next.oldCount = some nextPosition →
    position + hunk.oldCount < nextPosition

/-- The empty ranges that were passed, and an unchanged line in front of the
next hunk when there are any. -/
structure Behind (state : HunksRead) (oldIndex newIndex : Nat)
    (hunks : List ReviewedSourcePatchHunk) : Prop where
  old_passed : Passed state.previousZeroWidthOldPosition oldIndex
  new_passed : Passed state.previousZeroWidthNewPosition newIndex
  gap : state.previousZeroWidthOldPosition = none ∧
      state.previousZeroWidthNewPosition = none ∨
    ∀ hunk ∈ hunks.head?, ∀ position,
      hunkPosition hunk.oldStart hunk.oldCount = some position → oldIndex < position

/-- The next hunk stands beyond the empty ranges before it. -/
theorem Behind.beyond {gap : Nat} (h : Behind state oldIndex newIndex (hunk :: hunks))
    (hposition : hunkPosition hunk.oldStart hunk.oldCount = some (oldIndex + gap)) :
    state.previousZeroWidthOldPosition ≠ some (oldIndex + gap) ∧
      state.previousZeroWidthNewPosition ≠ some (newIndex + gap) := by
  rcases h.gap with ⟨hold, hnew⟩ | hgap
  · rw [hold, hnew]
    exact ⟨nofun, nofun⟩
  · have hbeyond := hgap hunk rfl _ hposition
    constructor
    · intro hsame
      have hpassed := h.old_passed _ hsame
      omega
    · intro hsame
      have hpassed := h.new_passed _ hsame
      omega

/-- The printed hunks are read one by one, and returned as they are. The
induction is on what they show of the two blobs. -/
theorem readHunks_write {oldLines newLines : List ReviewedSourceTextLine}
    (hshows : Shows oldIndex newIndex hunks oldLines newLines) :
    ∀ (items : List (ReviewedSourcePatchHunk × Bytes)) (state : HunksRead) (fuel : Nat),
      items.map Prod.fst = hunks → (∀ item ∈ items, IsHeading item.2) →
      (∀ hunk ∈ hunks, ReadableHunk hunk) → hunks.IsChain Apart →
      Behind state oldIndex newIndex hunks → NoneLeft state.closed oldLines newLines →
      EndsOpen oldLines → EndsOpen newLines → (writeHunks items).length ≤ fuel →
      ∃ last, readHunks fuel state (writeHunks items) = .ok last ∧
        last.hunks = state.hunks ++ hunks := by
  induction hshows with
  | unchanged oldIndex newIndex rest =>
    intro items state fuel hitems _ _ _ _ _ _ _ _
    rw [List.map_eq_nil_iff] at hitems
    rw [hitems]
    refine ⟨state, ?_, (List.append_nil _).symm⟩
    cases fuel <;> rfl
  | hunk oldIndex newIndex gap hunk hunks oldRest newRest holdPosition hnewPosition
      holdCount hnewCount hrest ih =>
      intro items state fuel hitems hheadings hreadable hapart hbehind hleft holdEnd hnewEnd hfuel
      cases items with
      | nil => cases hitems
      | cons item items =>
        obtain ⟨first, heading⟩ := item
        rw [List.map_cons] at hitems
        injection hitems with hfirst hitems
        dsimp only at hfirst
        rw [hfirst] at hfuel ⊢
        have hheading : IsHeading heading := hheadings (first, heading) List.mem_cons_self
        have hothers := fun other hother =>
          hheadings other (List.mem_cons_of_mem _ hother)
        obtain ⟨hbeyondOld, hbeyondNew⟩ := hbehind.beyond holdPosition
        obtain ⟨next, hread, hnextHunks, hnextLeft, hkeptOld, hkeptNew⟩ :=
          readHunk_write hheading (hreadable hunk List.mem_cons_self)
            (noMarkerFirst_hunks hothers) holdCount hnewCount holdPosition hnewPosition
            hbeyondOld hbeyondNew hleft.tail holdEnd.tail hnewEnd.tail
        have hnextBehind : Behind next (oldIndex + gap.length + hunk.oldCount)
            (newIndex + gap.length + hunk.newCount) hunks := by
          refine ⟨hbehind.old_passed.next (Nat.le_add_right _ _) hkeptOld,
            hbehind.new_passed.next (Nat.le_add_right _ _) hkeptNew, .inr ?_⟩
          intro other hother position hposition
          cases hunks with
          | nil => cases hother
          | cons second hunks =>
            have hsecond : second = other := Option.some.inj hother
            rw [hsecond] at hapart
            exact (List.isChain_cons_cons.mp hapart).1 _ _ holdPosition hposition
        have htext : writeHunks ((hunk, heading) :: items) =
            writeHunk hunk heading ++ writeHunks items := List.flatMap_cons
        rw [htext, List.length_append] at hfuel
        have hlength : 0 < (writeHunk hunk heading).length := Nat.succ_pos _
        rw [htext]
        cases fuel with
        | zero => omega
        | succ fuel =>
          obtain ⟨last, hlast, hlastHunks⟩ := ih items next fuel hitems hothers
            (fun other hother => hreadable other (List.mem_cons_of_mem _ hother))
            hapart.tail hnextBehind hnextLeft holdEnd.tail.tail hnewEnd.tail.tail (by omega)
          refine ⟨last, ?_, ?_⟩
          · show (readHunk state (writeHunk hunk heading ++ writeHunks items) >>= _) = _
            rw [hread]
            exact hlast
          · rw [hlastHunks, hnextHunks, List.append_assoc, List.singleton_append]

theorem splitBlobLinesFrom_endsOpen :
    ∀ blob line : Bytes, EndsOpen (splitBlobLinesFrom blob line) := by
  intro blob
  induction blob with
  | nil =>
    intro line
    cases line with
    | nil => exact trivial
    | cons b line => exact ⟨fun _ => rfl, trivial⟩
  | cons c blob ih =>
    intro line
    unfold splitBlobLinesFrom
    by_cases hnewline : c = byte '\n'
    · rw [if_pos hnewline]
      exact ⟨fun hopen => absurd hopen.symm Bool.false_ne_true, ih []⟩
    · rw [if_neg hnewline]
      exact ih (line ++ [c])

theorem splitBlobLinesFrom_bytes :
    ∀ blob line : Bytes, byte '\n' ∉ line → ∀ part ∈ splitBlobLinesFrom blob line,
      byte '\n' ∉ part.bytes ∧ part.bytes ⊆ line ++ blob := by
  intro blob
  induction blob with
  | nil =>
    intro line hline part hpart
    cases line with
    | nil => cases hpart
    | cons b line =>
      rw [List.mem_singleton.mp hpart]
      exact ⟨hline, List.subset_append_left _ _⟩
  | cons c blob ih =>
    intro line hline part hpart
    unfold splitBlobLinesFrom at hpart
    by_cases hnewline : c = byte '\n'
    · rw [if_pos hnewline] at hpart
      rcases List.mem_cons.mp hpart with hpart | hpart
      · rw [hpart]
        exact ⟨hline, List.subset_append_left _ _⟩
      · obtain ⟨hnone, hsub⟩ := ih [] List.not_mem_nil part hpart
        refine ⟨hnone, fun b hb => ?_⟩
        exact List.mem_append_right _ (List.mem_cons_of_mem _ (hsub hb))
    · rw [if_neg hnewline] at hpart
      have hlonger : byte '\n' ∉ line ++ [c] := by
        rw [List.mem_append, List.mem_singleton, not_or]
        exact ⟨hline, fun hsame => hnewline hsame.symm⟩
      obtain ⟨hnone, hsub⟩ := ih (line ++ [c]) hlonger part hpart
      rw [List.append_assoc, List.singleton_append] at hsub
      exact ⟨hnone, hsub⟩

/-- A line has at least one byte, of its own or its newline. -/
theorem splitBlobLinesFrom_length : ∀ blob line : Bytes,
      (splitBlobLinesFrom blob line).length ≤ line.length + blob.length := by
  intro blob
  induction blob with
  | nil =>
    intro line
    cases line with
    | nil => exact Nat.le_refl 0
    | cons b line => exact Nat.succ_le_succ (Nat.zero_le _)
  | cons c blob ih =>
    intro line
    unfold splitBlobLinesFrom
    by_cases hnewline : c = byte '\n'
    · rw [if_pos hnewline, List.length_cons, List.length_cons]
      have hrest := ih []
      rw [List.length_nil] at hrest
      omega
    · rw [if_neg hnewline]
      have hrest := ih (line ++ [c])
      rw [List.length_append, List.length_singleton] at hrest
      rw [List.length_cons]
      omega

end Moguet.Review.PatchRead
