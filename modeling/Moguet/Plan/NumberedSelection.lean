import Mathlib.Data.List.Sort
import Moguet.Verified.ByteString
import Moguet.Verified.Decimal

/-!
# Selection expressions

`selection_expression.cpp`: what a user types at a numbered prompt. Atoms are
separated by commas or white space; an atom is a one-origin index or a range
of them, with a leading `^` for an exclusion. The scanner collects indices and
issues, and the normalization turns the indices into the selected positions.
-/

namespace Moguet.Plan.NumberedSelection

open Verified.ByteString Verified.Decimal

structure SelectionExpression where
  includeIndices : List Nat := []
  excludeIndices : List Nat := []
  deriving DecidableEq

inductive SelectionExpressionIssueKind
  | malformedToken
  | emptyCommaField
  | indexOutOfRange
  | descendingRange
  | emptyResultAfterExclusion
  deriving DecidableEq

structure SelectionExpressionIssue where
  kind : SelectionExpressionIssueKind
  token : Bytes
  offset : Nat
  deriving DecidableEq

structure SelectionExpressionParseResult where
  expression : SelectionExpression := {}
  issues : List SelectionExpressionIssue := []
  deriving DecidableEq

def isAsciiWhitespace (b : UInt8) : Bool :=
  b = 32 || b = 9 || b = 10 || b = 13 || b = 12 || b = 11

inductive IndexResult
  | valid (value : Nat)
  | malformed
  | outOfRange
  deriving DecidableEq

/-- `parse_index`. `std::from_chars` reports a number that does not fit
before anything that follows its digits is looked at. -/
def parseIndex (text : Bytes) (candidateCount : Nat) : IndexResult :=
  let digits := text.takeWhile isAsciiDigit
  if digits = [] then .malformed
  else if 2 ^ 64 ≤ decimalValue digits then .outOfRange
  else if digits ≠ text then .malformed
  else if decimalValue digits = 0 ∨ candidateCount < decimalValue digits then .outOfRange
  else .valid (decimalValue digits)

/-- The two ends of an atom without its `^`: one index stands for itself. -/
def atomEnds (token : Bytes) (candidateCount : Nat) : IndexResult × IndexResult :=
  match splitAtFirst (fun b => b = byte '-') token with
  | some (first, last) =>
    (parseIndex first candidateCount, parseIndex (last.drop 1) candidateCount)
  | none => (parseIndex token candidateCount, parseIndex token candidateCount)

/-- The indices of an atom, or what is wrong with it. -/
def atomIndices (token : Bytes) (candidateCount : Nat) :
    Except SelectionExpressionIssueKind (List Nat) :=
  match atomEnds token candidateCount with
  | (.malformed, _) => .error .malformedToken
  | (_, .malformed) => .error .malformedToken
  | (.outOfRange, _) => .error .indexOutOfRange
  | (_, .outOfRange) => .error .indexOutOfRange
  | (.valid first, .valid last) =>
    if last < first then .error .descendingRange
    else .ok (List.range' first (last - first + 1))

/-- `parse_atom`. -/
def parseAtom (token : Bytes) (offset candidateCount : Nat)
    (result : SelectionExpressionParseResult) : SelectionExpressionParseResult :=
  let isExclusion := token.head? = some (byte '^')
  let body := if isExclusion then token.drop 1 else token
  match atomIndices body candidateCount with
  | .error kind => { result with issues := result.issues ++ [⟨kind, token, offset⟩] }
  | .ok indices =>
    if isExclusion then
      { result with expression :=
          { result.expression with
            excludeIndices := result.expression.excludeIndices ++ indices } }
    else
      { result with expression :=
          { result.expression with
            includeIndices := result.expression.includeIndices ++ indices } }

structure ScanState where
  atomBegin : Option Nat := none
  lastComma : Option Nat := none
  hasAtomSinceComma : Bool := false
  lastCommaWasEmpty : Bool := false
  result : SelectionExpressionParseResult := {}

def finishAtom (input : Bytes) (candidateCount stop : Nat) (state : ScanState) : ScanState :=
  match state.atomBegin with
  | none => state
  | some start =>
    { state with
      result := parseAtom ((input.drop start).take (stop - start)) start
        candidateCount state.result
      atomBegin := none
      hasAtomSinceComma := true }

def emptyComma (offset : Nat) : SelectionExpressionIssue :=
  ⟨.emptyCommaField, [byte ','], offset⟩

def scanComma (offset : Nat) (state : ScanState) : ScanState :=
  { state with
    lastCommaWasEmpty := !state.hasAtomSinceComma
    result :=
      if state.hasAtomSinceComma then state.result
      else { state.result with issues := state.result.issues ++ [emptyComma offset] }
    hasAtomSinceComma := false
    lastComma := some offset }

def scanCharacter (input : Bytes) (candidateCount : Nat) (state : ScanState)
    (item : UInt8 × Nat) : ScanState :=
  if item.1 = byte ',' then scanComma item.2 (finishAtom input candidateCount item.2 state)
  else if isAsciiWhitespace item.1 then finishAtom input candidateCount item.2 state
  else if state.atomBegin = none then { state with atomBegin := some item.2 }
  else state

/-- The comma the text ends with, when nothing stands between them. -/
def trailingComma (state : ScanState) : List SelectionExpressionIssue :=
  match state.lastComma with
  | some offset =>
    if !state.hasAtomSinceComma && !state.lastCommaWasEmpty then [emptyComma offset] else []
  | none => []

/-- `parse_selection_expression`. -/
def parseSelectionExpression (input : Bytes) (candidateCount : Nat) :
    SelectionExpressionParseResult :=
  let scanned := finishAtom input candidateCount input.length
    (input.zipIdx.foldl (scanCharacter input candidateCount) {})
  { scanned.result with
    issues := (scanned.result.issues ++ trailingComma scanned).insertionSort
      fun left right => left.offset ≤ right.offset }

/-- `normalize_selection_expression`: excludes win, and without includes they
apply to all candidates. -/
def normalizeSelectionExpression (expression : SelectionExpression) (candidateCount : Nat) :
    Except SelectionExpressionIssue (List Nat) :=
  let outside : Nat → Bool := fun index => index = 0 || candidateCount < index
  if expression.includeIndices = [] ∧ expression.excludeIndices = [] then
    .error ⟨.malformedToken, [], 0⟩
  else if expression.includeIndices.any outside ∨ expression.excludeIndices.any outside then
    .error ⟨.indexOutOfRange, [], 0⟩
  else
    let normalized := (List.range' 1 candidateCount).filter fun index =>
      (expression.includeIndices = [] || index ∈ expression.includeIndices) &&
        index ∉ expression.excludeIndices
    if normalized = [] then .error ⟨.emptyResultAfterExclusion, [], 0⟩
    else .ok normalized

/-- The indices a line of input selects, when it is a selection at all. -/
def selectedIndices (input : Bytes) (candidateCount : Nat) :
    Except SelectionExpressionIssue (List Nat) :=
  let parsed := parseSelectionExpression input candidateCount
  match parsed.issues with
  | issue :: _ => .error issue
  | [] => normalizeSelectionExpression parsed.expression candidateCount

example : (selectedIndices (ascii "1-3 ^2, 4") 5).toOption = some [1, 3, 4] := by decide
example : (parseSelectionExpression (ascii "9,,x") 3).issues =
    [⟨.indexOutOfRange, ascii "9", 0⟩, ⟨.emptyCommaField, ascii ",", 2⟩,
      ⟨.malformedToken, ascii "x", 3⟩] := by decide

end Moguet.Plan.NumberedSelection
