import Moguet.Source.Entry

/-!
# The text validators

The scan of a text stands in three files of the source: the parser of source
entries, the candidates of a package root and the identities of version control
sources. The decoder is the same one each time; only the parser of source
entries admits a tab, and an identity is not empty.
-/

namespace Moguet.Source.TextScan

open Verified.ByteString Verified.Utf8

variable {admits : Nat → Bool} {allowed : Nat → Prop}

/-- `is_single_line_code_point` of `root_package_candidate.cpp` and
`vcs_source_identity.cpp`, without the tab. -/
def isSingleLineCodePoint (codePoint : Nat) : Bool :=
  0x1f < codePoint && !(0x7f ≤ codePoint && codePoint ≤ 0x9f) && codePoint ≠ 0x2028 &&
    codePoint ≠ 0x2029

/-- `is_valid_single_line_utf8`. -/
def isValidSingleLineUtf8 (value : Bytes) : Bool :=
  scanCodePoints isSingleLineCodePoint value.length value = .valid

/-- `is_valid_nonempty_text`. -/
def isValidNonemptyText (value : Bytes) : Bool :=
  if value.isEmpty then false
  else scanCodePoints isSingleLineCodePoint value.length value = .valid

/-- The code points of a line: no control character and no line separator. -/
def Allowed (codePoint : Nat) : Prop :=
  0x20 ≤ codePoint ∧ ¬(0x7f ≤ codePoint ∧ codePoint ≤ 0x9f) ∧ codePoint ≠ 0x2028 ∧
    codePoint ≠ 0x2029

/-- The sequence is the text, and every code point of it is allowed. -/
def Text (allowed : Nat → Prop) (value : Bytes) (chars : List Char) : Prop :=
  Encodes value chars ∧ ∀ c ∈ chars, allowed c.toNat

theorem isSingleLineCodePoint_iff (codePoint : Nat) :
    isSingleLineCodePoint codePoint = true ↔ Allowed codePoint := by
  simp only [isSingleLineCodePoint, Allowed, Bool.and_eq_true, decide_eq_true_eq,
    Bool.not_eq_true', Bool.and_eq_false_iff, decide_eq_false_iff_not]
  omega

theorem entry_isSingleLineCodePoint_iff (codePoint : Nat) :
    Entry.isSingleLineCodePoint codePoint = true ↔ codePoint = 0x09 ∨ Allowed codePoint := by
  simp only [Entry.isSingleLineCodePoint, Allowed, Bool.and_eq_true, Bool.or_eq_true,
    decide_eq_true_eq, Bool.not_eq_true', Bool.and_eq_false_iff, decide_eq_false_iff_not]
  omega

/-- A loop with a round for each byte or more ends without a read past the end; it accepts
the text of a sequence alone, and has decoded that sequence then. -/
def Scans (admits : Nat → Bool) (allowed : Nat → Prop) (value : Bytes) (rounds : Nat)
    (accepted : Bool) : Prop :=
  ∃ status decoded, scanLoop value admits rounds 0 [] = some (status, decoded) ∧
    (accepted = true ↔ status = .valid) ∧
    (accepted = true ↔ ∃ chars, Text allowed value chars) ∧
    ∀ chars, Text allowed value chars → decoded = chars.map Char.toNat

theorem scanned_valid_iff {value : Bytes} {status : TextStatus} {chars : List Char}
    (h : ∀ codePoint, admits codePoint = true ↔ allowed codePoint)
    (hscanned : Scanned admits value status chars) :
    (status = .valid ↔ ∃ others, Text allowed value others) ∧
      ∀ others, Text allowed value others → others = chars := by
  have hcomplete : ∀ others, Text allowed value others → status = .valid ∧ others = chars :=
    fun others hothers =>
      hscanned.complete others hothers.1 fun c hc => (h _).mpr (hothers.2 c hc)
  refine ⟨⟨fun hvalid => ?_, fun ⟨others, hothers⟩ => (hcomplete others hothers).1⟩,
    fun others hothers => (hcomplete others hothers).2⟩
  obtain ⟨hencodes, hall⟩ := hscanned.sound hvalid
  exact ⟨chars, hencodes, fun c hc => (h _).mp (hall c hc)⟩

theorem scans_of_iff (h : ∀ codePoint, admits codePoint = true ↔ allowed codePoint) (value : Bytes)
    (extra : Nat) :
    Scans admits allowed value (value.length + extra)
      (scanCodePoints admits value.length value = .valid) := by
  obtain ⟨chars, hloop, hscanned⟩ :=
    scanLoop_spec value admits (value.length + extra) 0 [] (by omega)
  obtain ⟨_, -, hexact⟩ := scanLoop_spec value admits value.length 0 [] (by omega)
  rw [List.drop_zero] at hloop hscanned hexact
  obtain ⟨hvalid, hsame⟩ := scanned_valid_iff h hscanned
  have haccepted := (scanned_valid_iff h hexact).1
  refine ⟨_, _, hloop, ?_, ?_, fun others hothers => ?_⟩
  · rw [decide_eq_true_iff, haccepted, hvalid]
  · rw [decide_eq_true_iff, haccepted]
  · rw [hsame others hothers]
    rfl

theorem textValidators_utf8 (value : Bytes) (extra : Nat) :
    Scans Entry.isSingleLineCodePoint (fun codePoint => codePoint = 0x09 ∨ Allowed codePoint)
        value (value.length + extra) (Entry.validateSourceSyntaxText value = .valid) ∧
      Scans isSingleLineCodePoint Allowed value (value.length + extra)
        (isValidSingleLineUtf8 value) ∧
      (value ≠ [] → Scans isSingleLineCodePoint Allowed value (value.length + extra)
        (isValidNonemptyText value)) ∧
      isValidNonemptyText [] = false := by
  refine ⟨scans_of_iff entry_isSingleLineCodePoint_iff value extra,
    scans_of_iff isSingleLineCodePoint_iff value extra, ?_, rfl⟩
  intro hne
  cases value with
  | nil => exact absurd rfl hne
  | cons b rest => exact scans_of_iff isSingleLineCodePoint_iff (b :: rest) extra

end Moguet.Source.TextScan
