import Moguet.Plan.RootSelection

/-!
# What a numbered selection means

The statement of a package selection, in terms of the line alone: its atoms,
their shapes and numbers, the groups it names, and the candidates that are
selected by them.
-/

namespace Moguet.Plan.SelectedRoots

open Verified.ByteString Verified.Pieces Verified.Upsert
open Plan.Constraint (isValidPackageName isValidPackageName_bytes isIdentifierByte)
open NumberedSelection NumberedAtoms RootSelection

variable {token : Bytes}

variable {indices : List Nat} {expression : SelectionExpression} {candidateCount index : Nat}

/-! ## The statement -/

/-- A word of the line that names a group. -/
def groupAtoms (input : Bytes) : List Bytes :=
  (pieces isAsciiWhitespace input).filter isGroupWord

/-- The parts of the other words between commas. -/
def numberAtoms (input : Bytes) : List Bytes :=
  ((pieces isAsciiWhitespace input).filter fun token => !isGroupWord token).flatMap
    (pieces isSeparator)

/-- The index belongs to an atom on one side of the line. -/
def Named (input : Bytes) (exclusion : Bool) (index : Nat) : Prop :=
  ∃ token ∈ numberAtoms input, ∃ first last, HasShape token exclusion first last ∧
    first ≤ index ∧ index ≤ last

/-- The index belongs to a member of a group of the line. -/
def Grouped (input : Bytes) (snapshot : RootPackageSearchSnapshot) (index : Nat) : Prop :=
  ∃ token ∈ groupAtoms input, ∃ candidate, 1 ≤ index ∧
    snapshot.candidates[index - 1]? = some candidate ∧
    isGroupMember (token.drop 1) candidate = true

def Included (input : Bytes) (snapshot : RootPackageSearchSnapshot) (index : Nat) : Prop :=
  Named input false index ∨ Grouped input snapshot index

/-- The included indices, or all without an inclusion, but for the excluded. -/
def Selected (input : Bytes) (snapshot : RootPackageSearchSnapshot) (index : Nat) : Prop :=
  (1 ≤ index ∧ index ≤ snapshot.candidates.length) ∧
    ((∀ other, ¬ Included input snapshot other) ∨ Included input snapshot index) ∧
    ¬ Named input true index

/-- What a selection says about its line. -/
structure MeansSelection (input : Bytes) (snapshot : RootPackageSearchSnapshot)
    (targets : List RootPackageIdentity) : Prop where
  numbers : ∀ token ∈ numberAtoms input, ∃ exclusion first last,
    HasShape token exclusion first last ∧ 1 ≤ first ∧ first ≤ last ∧
      last ≤ snapshot.candidates.length
  groups : ∀ token ∈ groupAtoms input, isValidPackageName (token.drop 1) = true ∧
    ∃ candidate ∈ snapshot.candidates, isGroupMember (token.drop 1) candidate = true
  fields_filled : byte ',' ∈ input → ∀ field ∈ fields (byte ',') input,
    Filled isAsciiWhitespace field
  targets_exact : ∃ indices : List Nat, indices.Pairwise (· < ·) ∧
    (∀ index, index ∈ indices ↔ Selected input snapshot index) ∧
    targets = (identitiesAt snapshot indices).foldl insertNew []
  one_source : ∀ first ∈ targets, ∀ second ∈ targets,
    rootPackageName first = rootPackageName second → first = second
  nodup : targets.Nodup
  nonempty : targets ≠ []

/-- An atom without a shape that is no word of its own kind. -/
def MalformedAtom (input token : Bytes) : Prop :=
  token ∈ numberAtoms input ∧ isCancelToken token = false ∧
      (¬ ∃ exclusion first last, HasShape token exclusion first last) ∨
    token ∈ groupAtoms input ∧ isValidPackageName (token.drop 1) = false

section

variable {snapshot : RootPackageSearchSnapshot} {token : Bytes}

theorem selectGroupMembers_ok (h : selectGroupMembers token snapshot = .ok indices) :
    isValidPackageName (token.drop 1) = true ∧ indices ≠ [] ∧
      ∀ index, index ∈ indices ↔ ∃ candidate, 1 ≤ index ∧
        snapshot.candidates[index - 1]? = some candidate ∧
        isGroupMember (token.drop 1) candidate = true := by
  unfold selectGroupMembers at h
  dsimp only at h
  by_cases hvalid : isValidPackageName (token.drop 1) = true
  · rw [if_pos hvalid] at h
    split at h
    · cases h
    · rename_i hne
      injection h with h
      rw [← h]
      refine ⟨hvalid, hne, ?_⟩
      intro index
      rw [List.mem_filterMap]
      constructor
      · rintro ⟨⟨candidate, position⟩, hmem, hindex⟩
        rw [List.mk_mem_zipIdx_iff_le_and_getElem?_sub] at hmem
        dsimp only at hindex
        by_cases hmember : isGroupMember (token.drop 1) candidate = true
        · rw [if_pos hmember] at hindex
          rw [← Option.some.inj hindex]
          exact ⟨candidate, hmem.1, hmem.2, hmember⟩
        · rw [if_neg hmember] at hindex
          cases hindex
      · rintro ⟨candidate, hpos, hat, hmember⟩
        refine ⟨(candidate, index), ?_, if_pos hmember⟩
        rw [List.mk_mem_zipIdx_iff_le_and_getElem?_sub]
        exact ⟨hpos, hat⟩
  · rw [if_neg hvalid] at h
    cases h

theorem selectGroupMembers_malformed {found : Bytes} :
    selectGroupMembers token snapshot = .error (.malformedToken found) ↔
      token = found ∧ isValidPackageName (token.drop 1) = false := by
  unfold selectGroupMembers
  dsimp only
  by_cases hvalid : isValidPackageName (token.drop 1) = true
  · rw [if_pos hvalid, hvalid]
    split <;> simp
  · rw [if_neg hvalid, Bool.eq_false_iff.mpr hvalid]
    simp

end

theorem normalizeSelectionExpression_ok
    (h : normalizeSelectionExpression expression candidateCount = .ok indices) :
    indices ≠ [] ∧ indices.Pairwise (· < ·) ∧ ∀ index, index ∈ indices ↔
      (1 ≤ index ∧ index ≤ candidateCount) ∧
        (expression.includeIndices = [] ∨ index ∈ expression.includeIndices) ∧
        index ∉ expression.excludeIndices := by
  unfold normalizeSelectionExpression at h
  dsimp only at h
  split at h
  · cases h
  · split at h
    · cases h
    · split at h
      · cases h
      · rename_i hne
        injection h with h
        rw [← h]
        refine ⟨hne, ?_, ?_⟩
        · exact List.Pairwise.filter _ List.pairwise_lt_range'
        · intro index
          have hrange : (1 ≤ index ∧ index < 1 + candidateCount) ↔
              1 ≤ index ∧ index ≤ candidateCount := by omega
          rw [List.mem_filter, List.mem_range'_1, hrange]
          simp only [Bool.and_eq_true, Bool.or_eq_true, decide_eq_true_eq]

/-- The numeric parser never reports a token of its own after the scan. -/
theorem normalizeSelectionExpression_error {issue : SelectionExpressionIssue}
    (h : normalizeSelectionExpression expression candidateCount = .error issue)
    (hsome : expression.includeIndices ≠ [] ∨ expression.excludeIndices ≠ []) :
    issue.kind ≠ .malformedToken := by
  unfold normalizeSelectionExpression at h
  dsimp only at h
  rw [if_neg (by tauto)] at h
  split at h
  · injection h with h
    rw [← h]
    exact nofun
  · split at h
    · injection h with h
      rw [← h]
      exact nofun
    · cases h

/-! ## The line -/

section

variable (input : Bytes) (snapshot : RootPackageSearchSnapshot)

def scannedLine : GroupScan := scanGroupWords snapshot input.length 0 input {}

def parsedLine : SelectionExpressionParseResult :=
  parseSelectionExpression (scannedLine input snapshot).numericInput snapshot.candidates.length

theorem isSeparator_of_whitespace (b : UInt8) (h : isAsciiWhitespace b = true) :
    isSeparator b = true := by
  unfold isSeparator
  rw [h, Bool.or_true]

theorem scannedLine_words : ScannedWords snapshot input (scannedLine input snapshot).numericInput {}
      (scannedLine input snapshot) := by
  obtain ⟨masked, h⟩ := scanGroupWords_spec snapshot input.length 0 input {} (Nat.le_refl _)
  have hmasked : (scannedLine input snapshot).numericInput = masked := h.numeric
  rw [hmasked]
  exact h

/-- What is left for the numeric parser is made of the number atoms. -/
theorem scannedLine_atoms :
    pieces isSeparator (scannedLine input snapshot).numericInput = numberAtoms input := by
  rw [pieces_refine isSeparator_of_whitespace, (scannedLine_words input snapshot).words]
  rfl

theorem parsedLine_gathered :
    Gathered snapshot.candidates.length {} (parsedLine input snapshot) (numberAtoms input) := by
  have h := parseSelectionExpression_gathered (scannedLine input snapshot).numericInput
    snapshot.candidates.length
  rw [scannedLine_atoms] at h
  exact h

theorem mem_lineIssues {scanned : GroupScan} {parsed : SelectionExpressionParseResult}
    {issue : RootPackageSelectionIssue} :
    issue ∈ lineIssues scanned parsed candidateCount ↔
      (∃ offset, (offset, issue) ∈ scanned.orderedIssues) ∨
        ∃ found ∈ parsed.issues, projectNumericIssue found candidateCount = issue := by
  unfold lineIssues
  rw [List.mem_map]
  simp only [(List.perm_insertionSort _ _).mem_iff, List.mem_append, List.mem_map]
  constructor
  · rintro ⟨⟨offset, found⟩, hmem | ⟨numeric, hnumeric, hitem⟩, hissue⟩
    · exact .inl ⟨offset, hissue ▸ hmem⟩
    · rw [Prod.mk.injEq] at hitem
      exact .inr ⟨numeric, hnumeric, hitem.2.trans hissue⟩
  · rintro (⟨offset, hmem⟩ | ⟨numeric, hnumeric, hissue⟩)
    · exact ⟨(offset, issue), .inl hmem, rfl⟩
    · exact ⟨(numeric.offset, issue), .inr ⟨numeric, hnumeric, by rw [hissue]⟩, rfl⟩

/-- Expanding an atom reports one of three things. -/
theorem atomIndices_error {body : Bytes} {kind : SelectionExpressionIssueKind}
    (h : atomIndices body candidateCount = .error kind) : kind ≠ .emptyCommaField := by
  unfold atomIndices at h
  split at h
  · injection h with h
    exact h ▸ nofun
  · injection h with h
    exact h ▸ nofun
  · injection h with h
    exact h ▸ nofun
  · injection h with h
    exact h ▸ nofun
  · split at h
    · injection h with h
      exact h ▸ nofun
    · cases h

/-- Which atoms are reported as malformed. -/
theorem mem_malformed (token : Bytes) : RootPackageSelectionIssue.malformedToken token ∈
        lineIssues (scannedLine input snapshot) (parsedLine input snapshot)
          snapshot.candidates.length ↔
      token ∈ numberAtoms input ∧ isCancelToken token = false ∧
          atomIndices (atomBody token) snapshot.candidates.length = .error .malformedToken ∨
        token ∈ groupAtoms input ∧ isValidPackageName (token.drop 1) = false := by
  have hgroups := (scannedLine_words input snapshot).issues (.malformedToken token)
  have hnumbers := (parsedLine_gathered input snapshot).issues .malformedToken token nofun
  rw [mem_lineIssues, hgroups]
  constructor
  · rintro ((⟨offset, hmem⟩ | ⟨word, hword, hgroup, hmembers⟩) | ⟨found, hfound, hissue⟩)
    · cases hmem
    · obtain ⟨hsame, hinvalid⟩ := selectGroupMembers_malformed.mp hmembers
      rw [hsame] at hword hgroup hinvalid
      exact .inr ⟨List.mem_filter.mpr ⟨hword, hgroup⟩, hinvalid⟩
    · obtain ⟨kind, word, offset⟩ := found
      unfold projectNumericIssue at hissue
      cases kind with
      | malformedToken =>
        dsimp only at hissue
        by_cases hcancel : isCancelToken word = true
        · rw [if_pos hcancel] at hissue
          cases hissue
        · rw [if_neg hcancel] at hissue
          injection hissue with hissue
          rw [hissue] at hfound hcancel
          have hatom := (hnumbers.mp ⟨offset, hfound⟩).resolve_left nofun
          exact .inl ⟨hatom.1, Bool.eq_false_iff.mpr hcancel, hatom.2⟩
      | emptyCommaField => cases hissue
      | indexOutOfRange => cases hissue
      | descendingRange => cases hissue
      | emptyResultAfterExclusion => cases hissue
  · rintro (⟨hatom, hcancel, hmalformed⟩ | ⟨hatom, hinvalid⟩)
    · obtain ⟨offset, hmem⟩ := hnumbers.mpr (.inr ⟨hatom, hmalformed⟩)
      refine .inr ⟨_, hmem, ?_⟩
      unfold projectNumericIssue
      dsimp only
      rw [hcancel]
      rfl
    · obtain ⟨hword, hgroup⟩ := List.mem_filter.mp hatom
      exact .inl (.inr ⟨token, hword, hgroup, selectGroupMembers_malformed.mpr ⟨rfl, hinvalid⟩⟩)

end

/-! ## A line without issues -/

section

variable {input : Bytes} {snapshot : RootPackageSearchSnapshot}
  (hclean : lineIssues (scannedLine input snapshot) (parsedLine input snapshot) snapshot.candidates.length = [])

include hclean

theorem group_ok (h : token ∈ groupAtoms input) :
    ∃ indices, selectGroupMembers token snapshot = .ok indices := by
  obtain ⟨hword, hgroup⟩ := List.mem_filter.mp h
  cases hmembers : selectGroupMembers token snapshot with
  | ok indices => exact ⟨indices, rfl⟩
  | error issue =>
    have hissue := ((scannedLine_words input snapshot).issues issue).mpr
      (.inr ⟨token, hword, hgroup, hmembers⟩)
    have hmem : issue ∈ lineIssues (scannedLine input snapshot) (parsedLine input snapshot)
        snapshot.candidates.length := mem_lineIssues.mpr (.inl hissue)
    rw [hclean] at hmem
    cases hmem

theorem number_ok (h : token ∈ numberAtoms input) :
    ∃ indices, atomIndices (atomBody token) snapshot.candidates.length = .ok indices := by
  cases hatom : atomIndices (atomBody token) snapshot.candidates.length with
  | ok indices => exact ⟨indices, rfl⟩
  | error kind =>
    obtain ⟨offset, hissue⟩ := ((parsedLine_gathered input snapshot).issues kind token
      (atomIndices_error hatom)).mpr (.inr ⟨h, hatom⟩)
    have hmem : projectNumericIssue ⟨kind, token, offset⟩ snapshot.candidates.length ∈
        lineIssues (scannedLine input snapshot) (parsedLine input snapshot)
          snapshot.candidates.length := mem_lineIssues.mpr (.inr ⟨_, hissue, rfl⟩)
    rw [hclean] at hmem
    cases hmem

/-- The indices of one side of a line are those of its atoms. -/
theorem mem_indicesOf {exclusion : Bool} :
    index ∈ (numberAtoms input).flatMap (indicesOf exclusion snapshot.candidates.length) ↔
      Named input exclusion index := by
  rw [List.mem_flatMap]
  constructor
  · rintro ⟨token, htoken, hindex⟩
    obtain ⟨indices, hok⟩ := number_ok hclean htoken
    obtain ⟨first, last, hshape, -, -, -, hmem⟩ := shape_of_ok hok
    unfold indicesOf at hindex
    by_cases hside : isExclusion token = exclusion
    · rw [if_pos hside, hok] at hindex
      rw [hside] at hshape
      exact ⟨token, htoken, first, last, hshape, (hmem index).mp hindex⟩
    · rw [if_neg hside] at hindex
      cases hindex
  · rintro ⟨token, htoken, first, last, hshape, hindex⟩
    obtain ⟨indices, hok⟩ := number_ok hclean htoken
    obtain ⟨found, foundLast, hfound, -, -, -, hmem⟩ := shape_of_ok hok
    obtain ⟨hside, -, -, hfirst, hlast⟩ := hasShape_iff.mp hshape
    obtain ⟨-, -, -, hfoundFirst, hfoundLast⟩ := hasShape_iff.mp hfound
    refine ⟨token, htoken, ?_⟩
    unfold indicesOf
    rw [if_pos hside, hok]
    apply (hmem index).mpr
    rw [← hfoundFirst, ← hfoundLast, hfirst, hlast]
    exact hindex

theorem mem_memberIndices : index ∈ (groupAtoms input).flatMap (memberIndices snapshot) ↔
      Grouped input snapshot index := by
  rw [List.mem_flatMap]
  constructor
  · rintro ⟨token, htoken, hindex⟩
    obtain ⟨indices, hok⟩ := group_ok hclean htoken
    unfold memberIndices at hindex
    rw [hok] at hindex
    exact ⟨token, htoken, ((selectGroupMembers_ok hok).2.2 index).mp hindex⟩
  · rintro ⟨token, htoken, hmember⟩
    obtain ⟨indices, hok⟩ := group_ok hclean htoken
    refine ⟨token, htoken, ?_⟩
    unfold memberIndices
    rw [hok]
    exact ((selectGroupMembers_ok hok).2.2 index).mpr hmember

theorem mem_includes : index ∈ (parsedLine input snapshot).expression.includeIndices ++
        (scannedLine input snapshot).groupIndices ↔ Included input snapshot index := by
  rw [(parsedLine_gathered input snapshot).includes,
    (scannedLine_words input snapshot).indices, List.mem_append]
  exact or_congr (mem_indicesOf hclean) (mem_memberIndices hclean)

theorem mem_excludes :
    index ∈ (parsedLine input snapshot).expression.excludeIndices ↔ Named input true index := by
  rw [(parsedLine_gathered input snapshot).excludes]
  exact mem_indicesOf hclean

/-- No field between commas is empty, in what is left for the numeric parser. -/
theorem numericFields_filled (hcomma : byte ',' ∈ (scannedLine input snapshot).numericInput) :
    ∀ field ∈ fields (byte ',') (scannedLine input snapshot).numericInput,
      Filled isAsciiWhitespace field := by
  refine parseSelectionExpression_filled _ snapshot.candidates.length ?_ hcomma
  intro offset hissue
  have hmem : projectNumericIssue (emptyComma offset) snapshot.candidates.length ∈
      lineIssues (scannedLine input snapshot) (parsedLine input snapshot)
        snapshot.candidates.length := mem_lineIssues.mpr (.inr ⟨_, hissue, rfl⟩)
  rw [hclean] at hmem
  cases hmem

/-- A group of the line is named without a comma. -/
theorem group_no_comma (hword : token ∈ pieces isAsciiWhitespace input)
    (hgroup : isGroupWord token = true) : byte ',' ∉ token := by
  obtain ⟨indices, hok⟩ := group_ok hclean (List.mem_filter.mpr ⟨hword, hgroup⟩)
  obtain ⟨hvalid, -, -⟩ := selectGroupMembers_ok hok
  have hbytes := (isValidPackageName_bytes hvalid).2
  have hhead : token.head? = some (byte '@') := of_decide_eq_true hgroup
  cases token with
  | nil => cases hhead
  | cons b token =>
    rw [Option.some.inj hhead]
    intro hmem
    rcases List.mem_cons.mp hmem with hmem | hmem
    · exact absurd hmem (by decide)
    · have hidentifier := hbytes _ hmem
      exact absurd hidentifier (by decide)

theorem masked_line :
    Masked (byte ',') isAsciiWhitespace input (scannedLine input snapshot).numericInput :=
  (scannedLine_words input snapshot).masks fun _ hword hgroup =>
    group_no_comma hclean hword hgroup

theorem inputFields_filled (hcomma : byte ',' ∈ input) :
    ∀ field ∈ fields (byte ',') input, Filled isAsciiWhitespace field := by
  have hmasked := masked_line hclean
  have hnumeric : byte ',' ∈ (scannedLine input snapshot).numericInput := by
    obtain ⟨position, hposition, hat⟩ := List.mem_iff_getElem.mp hcomma
    have hlength := hmasked.length_eq
    have hsame := (List.forall₂_iff_get.mp hmasked).2 position hposition (hlength ▸ hposition)
    rw [List.get_eq_getElem, List.get_eq_getElem, hat] at hsame
    rcases hsame with hsame | ⟨-, -, hnot⟩
    · exact hsame ▸ List.getElem_mem _
    · exact absurd rfl hnot
  exact fieldsFilled_of_masked hmasked (fun h => h) (numericFields_filled hclean hnumeric)

/-- A line that is more than blanks has an atom, and so an index. -/
theorem indices_ne_nil {b : UInt8} (hmem : b ∈ input) (hb : isAsciiWhitespace b = false) :
    (parsedLine input snapshot).expression.includeIndices ++
        (scannedLine input snapshot).groupIndices ≠ [] ∨
      (parsedLine input snapshot).expression.excludeIndices ≠ [] := by
  by_cases hgroups : groupAtoms input = []
  · -- the words are all left for the numeric parser, and one is more than commas
    have hwords := (scannedLine_words input snapshot).words
    have hsome : pieces isAsciiWhitespace (scannedLine input snapshot).numericInput ≠ [] := by
      rw [hwords, List.filter_eq_self.mpr]
      · exact pieces_ne_nil hmem hb
      · intro token htoken
        have hnone := List.filter_eq_nil_iff.mp hgroups token htoken
        rw [Bool.eq_false_iff.mpr hnone]
        rfl
    have hatom : ∃ c ∈ (scannedLine input snapshot).numericInput, isSeparator c = false := by
      by_contra hnone
      have hseparators : ∀ c ∈ (scannedLine input snapshot).numericInput, isSeparator c = true := by
        intro c hc
        rw [← Bool.not_eq_false]
        exact fun hseparator => hnone ⟨c, hc, hseparator⟩
      by_cases hcomma : byte ',' ∈ (scannedLine input snapshot).numericInput
      · obtain ⟨field, hfield⟩ := List.exists_mem_of_ne_nil _
          (fieldsFrom_ne_nil (byte ',') (scannedLine input snapshot).numericInput [])
        obtain ⟨c, hc, hblank⟩ := numericFields_filled hclean hcomma field hfield
        obtain ⟨hplace, hother⟩ := mem_field List.not_mem_nil hfield c hc
        have hseparator := hseparators c hplace
        unfold isSeparator at hseparator
        rw [hblank, decide_eq_false hother] at hseparator
        cases hseparator
      · apply hsome
        have hblanks : ∀ c ∈ (scannedLine input snapshot).numericInput,
            isAsciiWhitespace c = true := by
          intro c hc
          have hseparator := hseparators c hc
          unfold isSeparator at hseparator
          rw [decide_eq_false (fun hsame : c = byte ',' => hcomma (hsame ▸ hc)),
            Bool.false_or] at hseparator
          exact hseparator
        have hnothing := pieces_separators [] hblanks
        rw [List.append_nil] at hnothing
        exact hnothing
    obtain ⟨c, hc, hseparator⟩ := hatom
    have hatoms := pieces_ne_nil hc hseparator
    rw [scannedLine_atoms] at hatoms
    obtain ⟨token, htoken⟩ := List.exists_mem_of_ne_nil _ hatoms
    obtain ⟨indices, hok⟩ := number_ok hclean htoken
    obtain ⟨first, last, hshape, hpos, horder, hbound, -⟩ := shape_of_ok hok
    have hnamed : Named input (isExclusion token) first :=
      ⟨token, htoken, first, last, hshape, Nat.le_refl _, horder⟩
    cases hside : isExclusion token with
    | true =>
      rw [hside] at hnamed
      exact .inr (List.ne_nil_of_mem ((mem_excludes hclean).mpr hnamed))
    | false =>
      rw [hside] at hnamed
      exact .inl (List.ne_nil_of_mem ((mem_includes hclean).mpr (.inl hnamed)))
  · obtain ⟨token, htoken⟩ := List.exists_mem_of_ne_nil _ hgroups
    obtain ⟨indices, hok⟩ := group_ok hclean htoken
    obtain ⟨-, hne, hmembers⟩ := selectGroupMembers_ok hok
    obtain ⟨index, hindex⟩ := List.exists_mem_of_ne_nil _ hne
    have hgrouped : Grouped input snapshot index := ⟨token, htoken, (hmembers index).mp hindex⟩
    exact .inl (List.ne_nil_of_mem ((mem_includes hclean).mpr (.inr hgrouped)))

/-- The selection of a line without issues is what the line says. -/
theorem means_selection {targets : List RootPackageIdentity}
    (hindices : normalizeSelectionExpression { (parsedLine input snapshot).expression with
      includeIndices := (parsedLine input snapshot).expression.includeIndices ++
        (scannedLine input snapshot).groupIndices } snapshot.candidates.length = .ok indices)
    (htargets : selectIndices snapshot indices = .selection targets) :
    MeansSelection input snapshot targets := by
  obtain ⟨hne, hsorted, hmem⟩ := normalizeSelectionExpression_ok hindices
  obtain ⟨hselected, hsources⟩ := chooseTargets_spec (identitiesAt snapshot indices)
  have hexact : conflicts ((identitiesAt snapshot indices).foldl chooseTarget {}) = [] ∧
      targets = (identitiesAt snapshot indices).foldl insertNew [] := by
    unfold selectIndices at htargets
    dsimp only at htargets
    by_cases hconflicts : conflicts ((identitiesAt snapshot indices).foldl chooseTarget {}) = []
    · rw [if_pos hconflicts, hselected] at htargets
      injection htargets with htargets
      exact ⟨hconflicts, htargets.symm⟩
    · rw [if_neg hconflicts] at htargets
      cases htargets
  obtain ⟨hconflicts, htargets⟩ := hexact
  refine ⟨?_, ?_, inputFields_filled hclean, ⟨indices, hsorted, ?_, htargets⟩, ?_, ?_, ?_⟩
  · intro token htoken
    obtain ⟨expanded, hok⟩ := number_ok hclean htoken
    obtain ⟨first, last, hshape, hpos, horder, hbound, -⟩ := shape_of_ok hok
    exact ⟨_, first, last, hshape, hpos, horder, hbound⟩
  · intro token htoken
    obtain ⟨expanded, hok⟩ := group_ok hclean htoken
    obtain ⟨hvalid, hsome, hmembers⟩ := selectGroupMembers_ok hok
    obtain ⟨index, hindex⟩ := List.exists_mem_of_ne_nil _ hsome
    obtain ⟨candidate, -, hat, hmember⟩ := (hmembers index).mp hindex
    exact ⟨hvalid, candidate, List.mem_of_getElem? hat, hmember⟩
  · intro index
    have hnone : (parsedLine input snapshot).expression.includeIndices ++
        (scannedLine input snapshot).groupIndices = [] ↔
          ∀ other, ¬ Included input snapshot other := by
      rw [List.eq_nil_iff_forall_not_mem]
      exact forall_congr' fun other => not_congr (mem_includes hclean)
    rw [hmem index]
    unfold Selected
    exact and_congr_right' (and_congr (or_congr hnone (mem_includes hclean))
      (not_congr (mem_excludes hclean)))
  · rw [htargets]
    exact hsources hconflicts
  · rw [htargets]
    exact nodup_foldl_insertNew _ List.nodup_nil
  · obtain ⟨index, hindex⟩ := List.exists_mem_of_ne_nil _ hne
    have hrange := ((hmem index).mp hindex).1
    have hat : index - 1 < snapshot.candidates.length := by omega
    have hidentity : snapshot.candidates[index - 1].identity ∈ identitiesAt snapshot indices := by
      refine List.mem_filterMap.mpr ⟨index, hindex, ?_⟩
      rw [List.getElem?_eq_getElem hat]
      rfl
    rw [htargets]
    exact List.ne_nil_of_mem (mem_foldl_insertNew.mpr (.inr hidentity))

end

/-- A line that is more than blanks has a byte of its own. -/
theorem exists_of_trimmed {input : Bytes} (h : trimAsciiWhitespace input ≠ []) :
    ∃ b ∈ input, isAsciiWhitespace b = false := by
  by_contra hnone
  apply h
  have hall : input.dropWhile isAsciiWhitespace = [] := by
    rw [List.dropWhile_eq_nil_iff]
    intro b hb
    rw [← Bool.not_eq_false]
    exact fun hblank => hnone ⟨b, hb, hblank⟩
  unfold trimAsciiWhitespace
  rw [hall]
  rfl

section

variable (input : Bytes) (snapshot : RootPackageSearchSnapshot)

/-- The expression of a line, with the group members as included indices. -/
def lineExpression : SelectionExpression :=
  { (parsedLine input snapshot).expression with
    includeIndices := (parsedLine input snapshot).expression.includeIndices ++
      (scannedLine input snapshot).groupIndices }

/-- The issues of a line. -/
def issuesOf : List RootPackageSelectionIssue :=
  lineIssues (scannedLine input snapshot) (parsedLine input snapshot) snapshot.candidates.length

/-- The ways a line can be taken. -/
inductive Taken : RootPackageSelectionExpressionResult → Prop
  | cancelled (reason : RootPackageSelectionCancellationReason) : Taken (.cancelled reason)
  | refused (h : issuesOf input snapshot ≠ []) : Taken (.invalid (issuesOf input snapshot))
  | unnormalized (issue : SelectionExpressionIssue) (hclean : issuesOf input snapshot = [])
      (htext : trimAsciiWhitespace input ≠ [])
      (h : normalizeSelectionExpression (lineExpression input snapshot)
        snapshot.candidates.length = .error issue) :
      Taken (.invalid [projectNumericIssue issue snapshot.candidates.length])
  | normalized (indices : List Nat) (hclean : issuesOf input snapshot = [])
      (h : normalizeSelectionExpression (lineExpression input snapshot)
        snapshot.candidates.length = .ok indices) :
      Taken (selectIndices snapshot indices)

theorem parseRootPackageSelection_taken :
    Taken input snapshot (parseRootPackageSelection input snapshot) := by
  unfold parseRootPackageSelection
  dsimp only
  by_cases hblank : trimAsciiWhitespace input = []
  · rw [if_pos hblank]
    exact .cancelled _
  · rw [if_neg hblank]
    by_cases hcancel : isCancelToken (trimAsciiWhitespace input) = true
    · rw [if_pos hcancel]
      exact .cancelled _
    · rw [if_neg hcancel]
      show Taken input snapshot (if issuesOf input snapshot ≠ [] then
          .invalid (issuesOf input snapshot)
        else
          _)
      by_cases hclean : issuesOf input snapshot = []
      · rw [if_neg (not_not.mpr hclean)]
        generalize hnormalized : normalizeSelectionExpression _ snapshot.candidates.length =
          normalized
        cases normalized with
        | error issue => exact .unnormalized issue hclean hblank hnormalized
        | ok indices => exact .normalized indices hclean hnormalized
      · rw [if_pos hclean]
        exact .refused hclean

end

/-- A selection is what the atoms of the line say. In a line that is refused, an
atom without a shape is reported as malformed, unless an end of it is a number of
more than 64 bits with something behind it. -/
theorem numbered_selection (input : Bytes) (snapshot : RootPackageSearchSnapshot) :
    (∀ targets, parseRootPackageSelection input snapshot = .selection targets →
      MeansSelection input snapshot targets) ∧
    (∀ issues, parseRootPackageSelection input snapshot = .invalid issues → ∀ token,
      (.malformedToken token ∈ issues → MalformedAtom input token) ∧
      (¬ Overlong (atomEndTexts (atomBody token)).1 →
        ¬ Overlong (atomEndTexts (atomBody token)).2 →
          MalformedAtom input token → .malformedToken token ∈ issues)) := by
  have htaken := parseRootPackageSelection_taken input snapshot
  have hreported : ∀ token, ¬ Overlong (atomEndTexts (atomBody token)).1 →
      ¬ Overlong (atomEndTexts (atomBody token)).2 → MalformedAtom input token →
        .malformedToken token ∈ issuesOf input snapshot := by
    intro token hfront hback hatom
    apply (mem_malformed input snapshot token).mpr
    rcases hatom with ⟨hatom, hcancel, hshape⟩ | hgroup
    · exact .inl ⟨hatom, hcancel, malformed_of_not_shape hshape hfront hback⟩
    · exact .inr hgroup
  constructor
  · intro targets hresult
    rw [hresult] at htaken
    generalize hselection : RootPackageSelectionExpressionResult.selection targets = result
      at htaken
    cases htaken with
    | cancelled reason => cases hselection
    | refused h => cases hselection
    | unnormalized issue hclean htext h => cases hselection
    | normalized indices hclean h => exact means_selection hclean h hselection.symm
  · intro issues hresult token
    rw [hresult] at htaken
    generalize hinvalid : RootPackageSelectionExpressionResult.invalid issues = result at htaken
    cases htaken with
    | cancelled reason => cases hinvalid
    | refused h =>
      injection hinvalid with hinvalid
      rw [hinvalid]
      refine ⟨fun hmem => ?_, hreported token⟩
      rcases (mem_malformed input snapshot token).mp hmem with
        ⟨hatom, hcancel, hmalformed⟩ | hgroup
      · refine .inl ⟨hatom, hcancel, ?_⟩
        rintro ⟨exclusion, first, last, hshape⟩
        exact not_malformed_of_shape hshape hmalformed
      · exact .inr hgroup
    | unnormalized issue hclean htext h =>
      injection hinvalid with hinvalid
      obtain ⟨b, hb, hblank⟩ := exists_of_trimmed htext
      have hkind := normalizeSelectionExpression_error h (indices_ne_nil hclean hb hblank)
      constructor
      · intro hmem
        rw [hinvalid, List.mem_singleton] at hmem
        unfold projectNumericIssue at hmem
        split at hmem
        · rename_i hmalformed
          exact absurd hmalformed hkind
        · cases hmem
        · cases hmem
        · cases hmem
        · cases hmem
      · intro hfront hback hatom
        have hmem := hreported token hfront hback hatom
        rw [hclean] at hmem
        cases hmem
    | normalized indices hclean h =>
      constructor
      · intro hmem
        unfold selectIndices at hinvalid
        dsimp only at hinvalid
        split at hinvalid
        · cases hinvalid
        · injection hinvalid with hinvalid
          rw [hinvalid] at hmem
          obtain ⟨entry, -, hentry⟩ := List.mem_map.mp hmem
          cases hentry
      · intro hfront hback hatom
        have hmem := hreported token hfront hback hatom
        rw [hclean] at hmem
        cases hmem

/-! ## A line of a search with two candidates -/

def twoCandidates : RootPackageSearchSnapshot :=
  ⟨[⟨.repository (ascii "extra") (ascii "vim"), [ascii "editors"]⟩,
    ⟨.aur (ascii "vim-git") (ascii "vim-git"), []⟩]⟩

theorem numbered_selection_sample :
    MeansSelection (ascii "1-2 ^1") twoCandidates [.aur (ascii "vim-git") (ascii "vim-git")] ∧
      MalformedAtom (ascii "1,x") (ascii "x") :=
  ⟨(numbered_selection (ascii "1-2 ^1") twoCandidates).1 _ (by decide +kernel),
    ((numbered_selection (ascii "1,x") twoCandidates).2 [.malformedToken (ascii "x")]
      (by decide +kernel) (ascii "x")).1 List.mem_cons_self⟩

/-- A word to cancel with between other atoms, a group that is not known, and a
number of more than 64 bits with something behind it have none of the shapes, and
none is reported as malformed. -/
theorem other_reports :
    parseRootPackageSelection (ascii "1 q") twoCandidates =
        .invalid [.mixedCancellationToken (ascii "q")] ∧
      parseRootPackageSelection (ascii "1 @games") twoCandidates =
        .invalid [.unknownGroup (ascii "games")] ∧
      parseRootPackageSelection (ascii "18446744073709551616x") twoCandidates =
        .invalid [.indexOutOfRange (ascii "18446744073709551616x") 2] := by
  decide +kernel

end Moguet.Plan.SelectedRoots
