import Moguet.Verified.Pieces
import Moguet.Plan.NumberedSelection

/-!
# The atoms of a selection expression

The scanner of `parse_selection_expression` reads the pieces between commas and
white space, one atom after the other, and asks that no field between two
commas is empty. An atom is an index or a range, with a leading `^` for an
exclusion; its shape is a matter of its bytes alone, and its numbers are
compared with the candidates afterwards.
-/

namespace Moguet.Plan.NumberedAtoms

open Verified.ByteString Verified.Decimal Verified.Pieces NumberedSelection

variable {input text : Bytes}

variable {current rest field : Bytes} {offset first last : Nat} {state : ScanState} {b : UInt8}
  {exclusion : Bool}

/-! ## One atom -/

def isSeparator (b : UInt8) : Bool := b = byte ',' || isAsciiWhitespace b

def isExclusion (token : Bytes) : Bool := token.head? = some (byte '^')

def atomBody (token : Bytes) : Bytes := if isExclusion token then token.drop 1 else token

/-- The indices an atom adds on the side it is about. -/
def indicesOf (exclusion : Bool) (candidateCount : Nat) (token : Bytes) : List Nat :=
  if isExclusion token = exclusion then
    ((atomIndices (atomBody token) candidateCount).toOption).getD []
  else []

/-- What the result of a scan gained from a row of atoms. -/
structure Gathered (candidateCount : Nat) (before after : SelectionExpressionParseResult)
    (tokens : List Bytes) : Prop where
  includes : after.expression.includeIndices =
    before.expression.includeIndices ++ tokens.flatMap (indicesOf false candidateCount)
  excludes : after.expression.excludeIndices =
    before.expression.excludeIndices ++ tokens.flatMap (indicesOf true candidateCount)
  kept : before.issues ⊆ after.issues
  issues : ∀ kind token, kind ≠ .emptyCommaField →
    ((∃ offset, ⟨kind, token, offset⟩ ∈ after.issues) ↔
      (∃ offset, ⟨kind, token, offset⟩ ∈ before.issues) ∨
        token ∈ tokens ∧ atomIndices (atomBody token) candidateCount = .error kind)

section

variable {candidateCount : Nat}

theorem Gathered.refl (result : SelectionExpressionParseResult) :
    Gathered candidateCount result result [] := by
  refine ⟨by simp, by simp, fun _ h => h, ?_⟩
  intro kind token _
  simp

theorem Gathered.trans {first second third : SelectionExpressionParseResult}
    {tokens others : List Bytes} (h : Gathered candidateCount first second tokens)
    (hnext : Gathered candidateCount second third others) :
    Gathered candidateCount first third (tokens ++ others) := by
  refine ⟨?_, ?_, fun _ hmem => hnext.kept (h.kept hmem), ?_⟩
  · rw [hnext.includes, h.includes, List.flatMap_append, List.append_assoc]
  · rw [hnext.excludes, h.excludes, List.flatMap_append, List.append_assoc]
  · intro kind token hkind
    rw [hnext.issues kind token hkind, h.issues kind token hkind, List.mem_append]
    grind

theorem parseAtom_gathered (token : Bytes) (offset : Nat)
    (result : SelectionExpressionParseResult) :
    Gathered candidateCount result (parseAtom token offset candidateCount result) [token] := by
  have hindices : ∀ exclusion, [token].flatMap (indicesOf exclusion candidateCount) =
      indicesOf exclusion candidateCount token := by
    intro exclusion
    exact List.flatMap_singleton _ _
  have hbody : (if token.head? = some (byte '^') then token.drop 1 else token) =
      atomBody token := by
    simp [atomBody, isExclusion]
  unfold parseAtom
  dsimp only
  rw [hbody]
  cases hatom : atomIndices (atomBody token) candidateCount with
  | error kind =>
    dsimp only
    refine ⟨?_, ?_, List.subset_append_left _ _, ?_⟩
    · simp [indicesOf, hatom, Except.toOption]
    · simp [indicesOf, hatom, Except.toOption]
    · intro other found hother
      simp only [List.mem_append, List.mem_singleton, SelectionExpressionIssue.mk.injEq]
      grind
  | ok indices =>
    dsimp only
    by_cases hexclusion : token.head? = some (byte '^')
    · rw [if_pos hexclusion]
      refine ⟨?_, ?_, fun _ hmem => hmem, ?_⟩
      · simp [indicesOf, isExclusion, hexclusion]
      · rw [hindices]
        simp [indicesOf, isExclusion, hexclusion, hatom, Except.toOption]
      · intro kind found _
        grind
    · rw [if_neg hexclusion]
      refine ⟨?_, ?_, fun _ hmem => hmem, ?_⟩
      · rw [hindices]
        simp [indicesOf, isExclusion, hexclusion, hatom, Except.toOption]
      · simp [indicesOf, isExclusion, hexclusion]
      · intro kind found _
        grind

/-! ## The scanner -/

/-- The text that is left, and the atom in front of it that was begun. -/
structure Reading (input current rest : Bytes) (offset : Nat) (state : ScanState) : Prop where
  clean : ∀ b ∈ current, isSeparator b = false
  place : ∃ front, input = front ++ (current ++ rest) ∧ offset = front.length + current.length ∧
    state.atomBegin = if current = [] then none else some front.length

theorem finishAtom_reading (h : Reading input current rest offset state) :
    finishAtom input candidateCount offset state = if current = [] then state else
      { state with
        result := parseAtom current (offset - current.length) candidateCount state.result
        atomBegin := none
        hasAtomSinceComma := true } := by
  obtain ⟨front, hinput, hoffset, hbegin⟩ := h.place
  unfold finishAtom
  rw [hbegin]
  by_cases hempty : current = []
  · rw [if_pos hempty, if_pos hempty]
  · have hword : (input.drop front.length).take (offset - front.length) = current := by
      rw [hinput, List.drop_left, hoffset, Nat.add_sub_cancel_left, List.take_left]
    have hstart : offset - current.length = front.length := by omega
    rw [if_neg hempty, if_neg hempty, hstart]
    dsimp only
    rw [hword]

theorem finishAtom_gathered (h : Reading input current rest offset state) :
    Gathered candidateCount state.result
      (finishAtom input candidateCount offset state).result (closeRun current) := by
  rw [finishAtom_reading h]
  cases current with
  | nil => exact .refl _
  | cons b current => exact parseAtom_gathered _ _ _

theorem finishAtom_begin (h : Reading input current rest offset state) :
    (finishAtom input candidateCount offset state).atomBegin = none := by
  obtain ⟨front, hinput, hoffset, hbegin⟩ := h.place
  rw [finishAtom_reading h]
  by_cases hempty : current = []
  · rw [if_pos hempty, hbegin, if_pos hempty]
  · rw [if_neg hempty]

/-- Behind a separator no atom is begun. -/
theorem Reading.cut {next : ScanState} (h : Reading input current (b :: rest) offset state)
    (hnext : next.atomBegin = none) : Reading input [] rest (offset + 1) next := by
  obtain ⟨front, hinput, hoffset, -⟩ := h.place
  refine ⟨List.forall_mem_nil _, front ++ (current ++ [b]), ?_, ?_, hnext⟩
  · rw [hinput]
    simp
  · rw [hoffset]
    simp [Nat.add_assoc]

/-- Another byte belongs to the atom, or begins it. -/
theorem Reading.grow (h : Reading input current (b :: rest) offset state)
    (hb : isSeparator b = false) :
    Reading input (current ++ [b]) rest (offset + 1)
      (if state.atomBegin = none then { state with atomBegin := some offset } else state) := by
  obtain ⟨front, hinput, hoffset, hbegin⟩ := h.place
  refine ⟨?_, front, ?_, ?_, ?_⟩
  · intro c hc
    rcases List.mem_append.mp hc with hc | hc
    · exact h.clean c hc
    · rw [List.mem_singleton.mp hc]
      exact hb
  · rw [hinput]
    simp
  · rw [hoffset, List.length_append, List.length_singleton, Nat.add_assoc]
  · rw [if_neg (List.append_ne_nil_of_right_ne_nil _ (List.cons_ne_nil _ _)), hbegin]
    by_cases hempty : current = []
    · rw [if_pos hempty, if_pos rfl, hoffset, hempty]
      rfl
    · rw [if_neg hempty, if_neg nofun, hbegin, if_neg hempty]

theorem scanComma_gathered (offset : Nat) (state : ScanState) :
    Gathered candidateCount state.result (scanComma offset state).result [] := by
  unfold scanComma
  cases state.hasAtomSinceComma with
  | true => exact .refl _
  | false =>
    refine ⟨by simp, by simp, List.subset_append_left _ _, ?_⟩
    intro kind token hkind
    simp only [Bool.false_eq_true, if_false, List.mem_append, List.mem_singleton, emptyComma,
      SelectionExpressionIssue.mk.injEq]
    grind

/-- The text behind the atom in progress, up to the end. -/
def scanRest (input : Bytes) (candidateCount offset : Nat) (rest : Bytes) (state : ScanState) :
    ScanState :=
  finishAtom input candidateCount input.length
    ((rest.zipIdx offset).foldl (scanCharacter input candidateCount) state)

theorem scanRest_cons (input : Bytes) (offset : Nat) (b : UInt8) (rest : Bytes)
    (state : ScanState) :
    scanRest input candidateCount offset (b :: rest) state =
      scanRest input candidateCount (offset + 1) rest
        (scanCharacter input candidateCount state (b, offset)) := rfl

/-- Every piece of the text is taken for an atom. The induction is on the text
that is left. -/
theorem scanRest_gathered : ∀ (rest current : Bytes) (offset : Nat) (state : ScanState),
      Reading input current rest offset state →
      Gathered candidateCount state.result (scanRest input candidateCount offset rest state).result
        (piecesFrom isSeparator current rest) := by
  intro rest
  induction rest with
  | nil =>
    intro current offset state hreading
    obtain ⟨front, hinput, hoffset, -⟩ := hreading.place
    have hend : input.length = offset := by
      rw [hinput, hoffset]
      simp
    unfold scanRest
    rw [hend]
    exact finishAtom_gathered hreading
  | cons b rest ih =>
    intro current offset state hreading
    have hfinished : Gathered candidateCount state.result _ _ := finishAtom_gathered hreading
    have hbegin : (finishAtom input candidateCount offset state).atomBegin = none :=
      finishAtom_begin hreading
    rw [scanRest_cons]
    unfold piecesFrom scanCharacter
    by_cases hcomma : b = byte ','
    · have hcut : isSeparator b = true := by
        unfold isSeparator
        rw [decide_eq_true hcomma]
        rfl
      rw [if_pos hcomma, if_pos hcut]
      have hscanned := hfinished.trans (scanComma_gathered offset _)
      rw [List.append_nil] at hscanned
      exact hscanned.trans (ih [] (offset + 1) _ (hreading.cut hbegin))
    · by_cases hblank : isAsciiWhitespace b = true
      · have hcut : isSeparator b = true := by
          unfold isSeparator
          rw [hblank, Bool.or_true]
        rw [if_neg hcomma, if_pos hblank, if_pos hcut]
        exact hfinished.trans (ih [] (offset + 1) _ (hreading.cut hbegin))
      · have hcut : isSeparator b = false := by
          unfold isSeparator
          rw [decide_eq_false hcomma, Bool.eq_false_iff.mpr hblank]
          rfl
        rw [if_neg hcomma, if_neg hblank, hcut, if_neg Bool.false_ne_true]
        have hgrown := ih (current ++ [b]) (offset + 1) _ (hreading.grow hcut)
        have hsame : (if state.atomBegin = none then
            { state with atomBegin := some offset } else state).result = state.result := by
          split <;> rfl
        rw [hsame] at hgrown
        exact hgrown

/-! ## Comma fields -/

/-- What the flags of the scanner say about the field that is being read. -/
structure Commas (state : ScanState) (field : Bytes) : Prop where
  filled : state.hasAtomSinceComma = true → Filled isAsciiWhitespace field
  reported : state.lastCommaWasEmpty = true →
    ∃ offset, emptyComma offset ∈ state.result.issues

theorem filled_of_clean (hne : current ≠ []) (hclean : ∀ b ∈ current, isSeparator b = false)
    (hsub : current ⊆ field) : Filled isAsciiWhitespace field := by
  cases current with
  | nil => exact absurd rfl hne
  | cons b current =>
    have hb := hclean b List.mem_cons_self
    unfold isSeparator at hb
    rw [Bool.or_eq_false_iff] at hb
    exact ⟨b, hsub List.mem_cons_self, hb.2⟩

theorem finishAtom_commas (hreading : Reading input current rest offset state)
    (hcommas : Commas state field) (hsub : current ⊆ field) :
    Commas (finishAtom input candidateCount offset state) field := by
  have hkept : state.result.issues ⊆ (finishAtom input candidateCount offset state).result.issues :=
    (finishAtom_gathered hreading).kept
  rw [finishAtom_reading hreading] at hkept ⊢
  by_cases hempty : current = []
  · rw [if_pos hempty]
    exact hcommas
  · rw [if_neg hempty] at hkept ⊢
    refine ⟨fun _ => filled_of_clean hempty hreading.clean hsub, fun hlast => ?_⟩
    obtain ⟨at', hmem⟩ := hcommas.reported hlast
    exact ⟨at', hkept hmem⟩

/-- A scan without an empty comma among its issues fills every field. -/
theorem scanRest_filled {input : Bytes} :
    ∀ (rest current field : Bytes) (offset : Nat) (state : ScanState),
      Reading input current rest offset state → Commas state field → current ⊆ field →
      (∀ at', emptyComma at' ∉ (scanRest input candidateCount offset rest state).result.issues ++
          trailingComma (scanRest input candidateCount offset rest state)) →
      (state.lastComma.isSome ∨ byte ',' ∈ rest) →
      ∀ part ∈ fieldsFrom (byte ',') field rest, Filled isAsciiWhitespace part := by
  intro rest
  induction rest with
  | nil =>
    intro current field offset state hreading hcommas hsub hnone hseen part hpart
    rw [List.mem_singleton.mp hpart]
    obtain ⟨front, hinput, hoffset, -⟩ := hreading.place
    have hend : input.length = offset := by
      rw [hinput, hoffset]
      simp
    unfold scanRest at hnone
    rw [hend] at hnone
    have hfinal : Commas (finishAtom input candidateCount offset state) field :=
      finishAtom_commas hreading hcommas hsub
    have hlast : (finishAtom input candidateCount offset state).lastComma = state.lastComma := by
      rw [finishAtom_reading hreading]
      split <;> rfl
    by_cases hatom : (finishAtom input candidateCount offset state).hasAtomSinceComma = true
    · exact hfinal.filled hatom
    · by_cases hreported : (finishAtom input candidateCount offset state).lastCommaWasEmpty = true
      · obtain ⟨at', hmem⟩ := hfinal.reported hreported
        exact absurd (List.mem_append_left _ hmem) (hnone at')
      · rcases hseen with hseen | hseen
        · obtain ⟨at', hcomma⟩ := Option.isSome_iff_exists.mp hseen
          have htrailing : emptyComma at' ∈ trailingComma
              (finishAtom input candidateCount offset state) := by
            unfold trailingComma
            rw [hlast, hcomma]
            simp [hatom, hreported]
          exact absurd (List.mem_append_right _ htrailing) (hnone at')
        · cases hseen
  | cons b rest ih =>
    intro current field offset state hreading hcommas hsub hnone hseen
    have hbegin : (finishAtom input candidateCount offset state).atomBegin = none :=
      finishAtom_begin hreading
    have hfinished : Commas (finishAtom input candidateCount offset state) field :=
      finishAtom_commas hreading hcommas hsub
    have hlast : (finishAtom input candidateCount offset state).lastComma = state.lastComma := by
      rw [finishAtom_reading hreading]
      split <;> rfl
    rw [scanRest_cons] at hnone
    unfold scanCharacter at hnone
    unfold fieldsFrom
    by_cases hcomma : b = byte ','
    · rw [if_pos hcomma] at hnone ⊢
      have hreadingNext : Reading input [] rest (offset + 1)
          (scanComma offset (finishAtom input candidateCount offset state)) :=
        hreading.cut hbegin
      have hgathered : Gathered candidateCount _ _ _ :=
        scanRest_gathered rest [] (offset + 1) _ hreadingNext
      have hatom : (finishAtom input candidateCount offset state).hasAtomSinceComma =
          true := by
        by_contra hatom
        refine hnone offset (List.mem_append_left _ (hgathered.kept ?_))
        unfold scanComma
        simp [hatom]
      have hafter : Commas (scanComma offset (finishAtom input candidateCount offset state))
          [] := by
        refine ⟨fun hnew => absurd hnew Bool.false_ne_true, fun hempty => ?_⟩
        unfold scanComma at hempty
        rw [hatom] at hempty
        cases hempty
      intro part hpart
      rcases List.mem_cons.mp hpart with hpart | hpart
      · rw [hpart]
        exact hfinished.filled hatom
      · exact ih [] [] (offset + 1) _ hreadingNext hafter (fun _ h => h) hnone (.inl rfl) part hpart
    · rw [if_neg hcomma] at hnone ⊢
      have hseenNext : byte ',' ∈ b :: rest → byte ',' ∈ rest := by
        intro hmem
        rcases List.mem_cons.mp hmem with hmem | hmem
        · exact absurd hmem.symm hcomma
        · exact hmem
      by_cases hblank : isAsciiWhitespace b = true
      · rw [if_pos hblank] at hnone
        refine ih [] (field ++ [b]) (offset + 1) _ (hreading.cut hbegin) ?_
          (List.nil_subset _) hnone ?_
        · exact ⟨fun hatom => (hfinished.filled hatom).append [b], hfinished.reported⟩
        · rw [hlast]
          exact hseen.imp_right hseenNext
      · rw [if_neg hblank] at hnone
        have hcut : isSeparator b = false := by
          unfold isSeparator
          rw [decide_eq_false hcomma, Bool.eq_false_iff.mpr hblank]
          rfl
        have hgrown : current ++ [b] ⊆ field ++ [b] :=
          List.append_subset.mpr ⟨fun c hc => List.mem_append_left _ (hsub hc),
            List.subset_append_right _ _⟩
        refine ih (current ++ [b]) (field ++ [b]) (offset + 1) _ (hreading.grow hcut) ?_ hgrown
          hnone ?_
        · split
          · exact ⟨fun hatom => (hcommas.filled hatom).append [b], hcommas.reported⟩
          · exact ⟨fun hatom => (hcommas.filled hatom).append [b], hcommas.reported⟩
        · split
          · exact hseen.imp_right hseenNext
          · exact hseen.imp_right hseenNext

end

section

variable (input : Bytes) (candidateCount : Nat)

theorem reading_start : Reading input [] input 0 {} :=
  ⟨List.forall_mem_nil _, [], rfl, rfl, rfl⟩

/-- Sorting the issues and the comma at the end leave the atoms as they are. -/
theorem mem_parsedIssues (issue : SelectionExpressionIssue) :
    issue ∈ (parseSelectionExpression input candidateCount).issues ↔
      issue ∈ (scanRest input candidateCount 0 input {}).result.issues ++
        trailingComma (scanRest input candidateCount 0 input {}) :=
  (List.perm_insertionSort _ _).mem_iff

/-- The atoms of an expression are its pieces. -/
theorem parseSelectionExpression_gathered :
    Gathered candidateCount {} (parseSelectionExpression input candidateCount)
      (pieces isSeparator input) := by
  have hscanned : Gathered candidateCount _ _ _ :=
    scanRest_gathered input [] 0 _ (reading_start input)
  refine ⟨hscanned.includes, hscanned.excludes, List.nil_subset _, ?_⟩
  intro kind token hkind
  refine Iff.trans ?_ (hscanned.issues kind token hkind)
  constructor
  · rintro ⟨offset, hmem⟩
    rw [mem_parsedIssues] at hmem
    rcases List.mem_append.mp hmem with hmem | hmem
    · exact ⟨offset, hmem⟩
    · unfold trailingComma at hmem
      split at hmem
      · split at hmem
        · rw [List.mem_singleton] at hmem
          injection hmem with hsame
          exact absurd hsame hkind
        · cases hmem
      · cases hmem
  · rintro ⟨offset, hmem⟩
    exact ⟨offset, (mem_parsedIssues input candidateCount _).mpr (List.mem_append_left _ hmem)⟩

/-- Between commas, and around them, something stands. -/
theorem parseSelectionExpression_filled (hnone : ∀ offset,
      emptyComma offset ∉ (parseSelectionExpression input candidateCount).issues)
    (hcomma : byte ',' ∈ input) :
    ∀ field ∈ fields (byte ',') input, Filled isAsciiWhitespace field := by
  refine @scanRest_filled candidateCount input input [] [] 0 {} (reading_start input)
    ⟨nofun, nofun⟩ (fun _ h => h) ?_ (.inr hcomma)
  intro offset hmem
  exact hnone offset ((mem_parsedIssues input candidateCount _).mpr hmem)

end

/-! ## The shape of an atom -/

def IsNumber (text : Bytes) : Prop := text ≠ [] ∧ ∀ b ∈ text, isAsciiDigit b = true

/-- An atom `N` or `N-M`, with a leading `^` for an exclusion. -/
def HasShape (token : Bytes) (exclusion : Bool) (first last : Nat) : Prop :=
  ∃ mark front back, mark = (if exclusion then [byte '^'] else []) ∧ IsNumber front ∧
    IsNumber back ∧ decimalValue front = first ∧ decimalValue back = last ∧
    (token = mark ++ front ∧ back = front ∨ token = mark ++ (front ++ byte '-' :: back))

/-- The texts of the two ends of an atom. -/
def atomEndTexts (body : Bytes) : Bytes × Bytes :=
  match splitAtFirst (fun b => b = byte '-') body with
  | some (first, last) => (first, last.drop 1)
  | none => (body, body)

/-- An end that goes on behind a number of more than 64 bits. -/
def Overlong (text : Bytes) : Prop :=
  2 ^ 64 ≤ decimalValue (text.takeWhile isAsciiDigit) ∧ text.takeWhile isAsciiDigit ≠ text

theorem atomEnds_eq (body : Bytes) (candidateCount : Nat) :
    atomEnds body candidateCount = (parseIndex (atomEndTexts body).1 candidateCount,
      parseIndex (atomEndTexts body).2 candidateCount) := by
  unfold atomEnds atomEndTexts
  cases splitAtFirst (fun b => b = byte '-') body <;> rfl

theorem IsNumber.digits (h : IsNumber text) : text.takeWhile isAsciiDigit = text :=
  List.takeWhile_eq_self_iff.mpr h.2

theorem isNumber_of_digits (hne : text.takeWhile isAsciiDigit ≠ [])
    (h : text.takeWhile isAsciiDigit = text) : IsNumber text :=
  ⟨h ▸ hne, List.takeWhile_eq_self_iff.mp h⟩

/-- A mark that is no digit does not occur in a number. -/
theorem IsNumber.no_mark {mark : UInt8} (h : IsNumber text) (hmark : isAsciiDigit mark = false) :
    mark ∉ text := by
  intro hmem
  have hdigit := h.2 mark hmem
  rw [hmark] at hdigit
  cases hdigit

section

variable {text body token : Bytes} {candidateCount : Nat}

theorem parseIndex_valid {value : Nat} (h : parseIndex text candidateCount = .valid value) :
    IsNumber text ∧ decimalValue text = value ∧ 1 ≤ value ∧ value ≤ candidateCount := by
  unfold parseIndex at h
  dsimp only at h
  by_cases hnone : text.takeWhile isAsciiDigit = []
  · rw [if_pos hnone] at h
    cases h
  · rw [if_neg hnone] at h
    by_cases hlong : 2 ^ 64 ≤ decimalValue (text.takeWhile isAsciiDigit)
    · rw [if_pos hlong] at h
      cases h
    · rw [if_neg hlong] at h
      by_cases hdigits : text.takeWhile isAsciiDigit = text
      · rw [if_neg (not_not.mpr hdigits), hdigits] at h
        by_cases hrange : decimalValue text = 0 ∨ candidateCount < decimalValue text
        · rw [if_pos hrange] at h
          cases h
        · rw [if_neg hrange] at h
          injection h with h
          refine ⟨isNumber_of_digits hnone hdigits, h, ?_, ?_⟩
          · omega
          · omega
      · rw [if_pos hdigits] at h
        cases h

/-- A number is never malformed. -/
theorem parseIndex_number (h : IsNumber text) : parseIndex text candidateCount ≠ .malformed := by
  unfold parseIndex
  dsimp only
  rw [h.digits, if_neg h.1]
  split
  · exact nofun
  · rw [if_neg (not_not.mpr rfl)]
    split <;> exact nofun

theorem parseIndex_malformed (h : ¬ IsNumber text) (hlong : ¬ Overlong text) :
    parseIndex text candidateCount = .malformed := by
  unfold parseIndex
  dsimp only
  by_cases hnone : text.takeWhile isAsciiDigit = []
  · rw [if_pos hnone]
  · have hdigits : text.takeWhile isAsciiDigit ≠ text :=
      fun hdigits => h (isNumber_of_digits hnone hdigits)
    have hshort : ¬ 2 ^ 64 ≤ decimalValue (text.takeWhile isAsciiDigit) :=
      fun hbound => hlong ⟨hbound, hdigits⟩
    rw [if_neg hnone, if_neg hshort, if_pos hdigits]

/-- The shape of an atom is that of its two ends. -/
theorem hasShape_iff : HasShape token exclusion first last ↔
      isExclusion token = exclusion ∧ IsNumber (atomEndTexts (atomBody token)).1 ∧
        IsNumber (atomEndTexts (atomBody token)).2 ∧
        decimalValue (atomEndTexts (atomBody token)).1 = first ∧
        decimalValue (atomEndTexts (atomBody token)).2 = last := by
  constructor
  · rintro ⟨mark, front, back, hmark, hfront, hback, hfirst, hlast, htoken⟩
    obtain ⟨tail, htail⟩ : ∃ tail, token = mark ++ (front ++ tail) := by
      rcases htoken with ⟨htoken, -⟩ | htoken
      · exact ⟨[], by rw [htoken, List.append_nil]⟩
      · exact ⟨_, htoken⟩
    have hhead : (front ++ tail).head? ≠ some (byte '^') := by
      intro hhead
      rw [List.head?_append_of_ne_nil _ hfront.1] at hhead
      exact hfront.no_mark (by decide) (List.mem_of_mem_head? hhead)
    have hexclusion : isExclusion token = exclusion := by
      unfold isExclusion
      rw [htail, hmark]
      cases exclusion with
      | true => rfl
      | false => exact decide_eq_false hhead
    have hbody : mark ++ atomBody token = token := by
      unfold atomBody
      rw [hexclusion, hmark]
      cases exclusion with
      | true =>
        rw [htail, hmark]
        rfl
      | false => rfl
    have hends : atomEndTexts (atomBody token) = (front, back) := by
      unfold atomEndTexts
      rcases htoken with ⟨htoken, hsame⟩ | htoken
      · have hfrontBody : atomBody token = front :=
          List.append_cancel_left (hbody.trans htoken)
        have hnone : splitAtFirst (fun b => b = byte '-') front = none := by
          rw [splitAtFirst_none]
          intro b hb
          apply decide_eq_false
          intro hdash
          exact hfront.no_mark (by decide) (hdash ▸ hb)
        rw [hfrontBody, hnone, hsame]
      · have hrangeBody : atomBody token = front ++ byte '-' :: back :=
          List.append_cancel_left (hbody.trans htoken)
        have hsplit : splitAtFirst (fun b => b = byte '-') (front ++ byte '-' :: back) =
            some (front, byte '-' :: back) := by
          apply splitAtFirst_of_append back (decide_eq_true rfl)
          intro b hb
          apply decide_eq_false
          intro hdash
          exact hfront.no_mark (by decide) (hdash ▸ hb)
        rw [hrangeBody, hsplit]
        rfl
    rw [hends]
    exact ⟨hexclusion, hfront, hback, hfirst, hlast⟩
  · rintro ⟨hexclusion, hfront, hback, hfirst, hlast⟩
    have hbody : token = (if exclusion then [byte '^'] else []) ++ atomBody token := by
      unfold atomBody
      rw [hexclusion]
      cases exclusion with
      | false => rfl
      | true =>
        have hhead : token.head? = some (byte '^') := of_decide_eq_true hexclusion
        cases token with
        | nil => cases hhead
        | cons b token =>
          rw [Option.some.inj hhead]
          rfl
    refine ⟨_, _, _, rfl, hfront, hback, hfirst, hlast, ?_⟩
    unfold atomEndTexts
    cases hsplit : splitAtFirst (fun b => b = byte '-') (atomBody token) with
    | none => exact .inl ⟨hbody, rfl⟩
    | some parts =>
      obtain ⟨front, rest⟩ := parts
      obtain ⟨b, tail, hrest, hb, -, hwhole⟩ := splitAtFirst_some hsplit
      rw [of_decide_eq_true hb] at hwhole
      right
      rw [hrest]
      show token = _ ++ (front ++ byte '-' :: tail)
      rw [← hwhole]
      exact hbody

theorem atomIndices_malformed_iff : atomIndices body candidateCount = .error .malformedToken ↔
      parseIndex (atomEndTexts body).1 candidateCount = .malformed ∨
        parseIndex (atomEndTexts body).2 candidateCount = .malformed := by
  unfold atomIndices
  rw [atomEnds_eq]
  generalize parseIndex (atomEndTexts body).1 candidateCount = first
  generalize parseIndex (atomEndTexts body).2 candidateCount = last
  cases first with
  | malformed => simp
  | outOfRange => cases last <;> simp
  | valid first =>
    cases last with
    | malformed => simp
    | outOfRange => simp
    | valid last =>
      dsimp only
      split <;> simp

/-- An atom that was expanded has its shape, with numbers of candidates. -/
theorem shape_of_ok {indices : List Nat}
    (h : atomIndices (atomBody token) candidateCount = .ok indices) :
    ∃ first last, HasShape token (isExclusion token) first last ∧ 1 ≤ first ∧ first ≤ last ∧
      last ≤ candidateCount ∧ ∀ index, index ∈ indices ↔ first ≤ index ∧ index ≤ last := by
  unfold atomIndices at h
  rw [atomEnds_eq] at h
  split at h
  · cases h
  · cases h
  · cases h
  · cases h
  · rename_i first last hends
    injection hends with hfirst hlast
    obtain ⟨hfront, hfirstValue, hpos, -⟩ := parseIndex_valid hfirst
    obtain ⟨hback, hlastValue, -, hbound⟩ := parseIndex_valid hlast
    by_cases horder : last < first
    · rw [if_pos horder] at h
      cases h
    · rw [if_neg horder] at h
      injection h with h
      refine ⟨first, last, hasShape_iff.mpr ⟨rfl, hfront, hback, hfirstValue, hlastValue⟩, hpos,
        Nat.not_lt.mp horder, hbound, ?_⟩
      intro index
      rw [← h, List.mem_range'_1]
      omega

/-- An atom with the shape is not malformed, whatever its numbers are. -/
theorem not_malformed_of_shape (h : HasShape token exclusion first last) :
    atomIndices (atomBody token) candidateCount ≠ .error .malformedToken := by
  obtain ⟨-, hfront, hback, -, -⟩ := hasShape_iff.mp h
  intro hmalformed
  rcases atomIndices_malformed_iff.mp hmalformed with hend | hend
  · exact parseIndex_number hfront hend
  · exact parseIndex_number hback hend

/-- Any other atom is, unless one of its ends is overlong. -/
theorem malformed_of_not_shape (h : ¬ ∃ exclusion first last, HasShape token exclusion first last)
    (hfront : ¬ Overlong (atomEndTexts (atomBody token)).1)
    (hback : ¬ Overlong (atomEndTexts (atomBody token)).2) :
    atomIndices (atomBody token) candidateCount = .error .malformedToken := by
  rw [atomIndices_malformed_iff]
  by_cases hfirst : IsNumber (atomEndTexts (atomBody token)).1
  · right
    apply parseIndex_malformed _ hback
    intro hlast
    exact h ⟨_, _, _, hasShape_iff.mpr ⟨rfl, hfirst, hlast, rfl, rfl⟩⟩
  · exact .inl (parseIndex_malformed hfirst hfront)

end

end Moguet.Plan.NumberedAtoms
