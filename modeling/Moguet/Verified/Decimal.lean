import Mathlib.Data.Nat.Digits.Lemmas
import Moguet.Verified.ByteString

/-!
# Decimal numbers in text

`std::from_chars` on an unsigned type reads digits only: no sign, no blank,
and nothing when the value does not fit. `std::to_string` writes the shortest
spelling. A text without a leading zero is the spelling of its value, so the
two are inverse on canonical texts.
-/

namespace Moguet.Verified.Decimal

open ByteString

variable {b : UInt8} {digit value bound : Nat} {text : Bytes}

def digitValue (b : UInt8) : Nat := b.toNat - 48

/-- The value of a row of digits. -/
def decimalValue (digits : Bytes) : Nat :=
  digits.foldl (fun value b => 10 * value + digitValue b) 0

/-- `std::from_chars` over the whole text, into an unsigned type with values
below `bound`. -/
def parseUnsigned (bound : Nat) (text : Bytes) : Option Nat :=
  if text ≠ [] ∧ text.all isAsciiDigit = true ∧ decimalValue text < bound then
    some (decimalValue text)
  else none

/-- The same for texts without a leading zero. -/
def parseCanonicalUnsigned (bound : Nat) (text : Bytes) : Option Nat :=
  if 1 < text.length ∧ text.head? = some (byte '0') then none
  else parseUnsigned bound text

/-- `std::to_string` on an unsigned value. -/
def writeUnsigned (value : Nat) : Bytes :=
  if value = 0 then [byte '0']
  else ((Nat.digits 10 value).map fun digit => UInt8.ofNat (48 + digit)).reverse

theorem isAsciiDigit_iff (b : UInt8) : isAsciiDigit b = true ↔ 48 ≤ b.toNat ∧ b.toNat ≤ 57 := by
  have hzero : (byte '0').toNat = 48 := by decide
  have hnine : (byte '9').toNat = 57 := by decide
  simp [isAsciiDigit, UInt8.le_iff_toNat_le, hzero, hnine]

theorem digitValue_lt (h : isAsciiDigit b = true) : digitValue b < 10 := by
  have hrange := (isAsciiDigit_iff b).mp h
  unfold digitValue
  omega

theorem digitValue_ofNat (h : digit < 10) : digitValue (UInt8.ofNat (48 + digit)) = digit := by
  unfold digitValue
  rw [UInt8.toNat_ofNat']
  omega

theorem isAsciiDigit_ofNat (h : digit < 10) : isAsciiDigit (UInt8.ofNat (48 + digit)) = true := by
  rw [isAsciiDigit_iff, UInt8.toNat_ofNat']
  omega

theorem ofNat_digitValue (h : isAsciiDigit b = true) : UInt8.ofNat (48 + digitValue b) = b := by
  have hrange := (isAsciiDigit_iff b).mp h
  apply UInt8.toNat_inj.mp
  unfold digitValue
  rw [UInt8.toNat_ofNat']
  omega

/-- The value in the terms of Mathlib, least significant digit first. -/
theorem decimalValue_eq_ofDigits (text : Bytes) :
    decimalValue text = Nat.ofDigits 10 (text.reverse.map digitValue) := by
  rw [Nat.ofDigits_eq_foldr, List.foldr_map, List.foldr_reverse]
  show _ = text.foldl (fun value b => _ + 10 * value) 0
  unfold decimalValue
  congr 1
  funext value b
  simp [Nat.add_comm]

theorem writeUnsigned_zero : writeUnsigned 0 = [byte '0'] := rfl

theorem writeUnsigned_pos (h : value ≠ 0) : writeUnsigned value =
      ((Nat.digits 10 value).map fun digit => UInt8.ofNat (48 + digit)).reverse :=
  if_neg h

theorem writeUnsigned_digit {value : Nat} : ∀ b ∈ writeUnsigned value, isAsciiDigit b = true := by
  intro b hmem
  by_cases hzero : value = 0
  · rw [hzero, writeUnsigned_zero, List.mem_singleton] at hmem
    rw [hmem]
    decide
  · rw [writeUnsigned_pos hzero, List.mem_reverse, List.mem_map] at hmem
    obtain ⟨digit, hdigit, rfl⟩ := hmem
    exact isAsciiDigit_ofNat (Nat.digits_lt_base (by omega) hdigit)

theorem writeUnsigned_ne_nil (value : Nat) : writeUnsigned value ≠ [] := by
  by_cases hzero : value = 0
  · rw [hzero, writeUnsigned_zero]
    exact List.cons_ne_nil _ _
  · rw [writeUnsigned_pos hzero]
    simp [Nat.digits_eq_nil_iff_eq_zero, hzero]

theorem decimalValue_writeUnsigned (value : Nat) : decimalValue (writeUnsigned value) = value := by
  by_cases hzero : value = 0
  · rw [hzero]
    rfl
  · have hdigits : ((Nat.digits 10 value).map fun digit =>
        UInt8.ofNat (48 + digit)).map digitValue = Nat.digits 10 value := by
      rw [List.map_map]
      conv_rhs => rw [← List.map_id (Nat.digits 10 value)]
      apply List.map_congr_left
      intro digit hmem
      exact digitValue_ofNat (Nat.digits_lt_base (by omega) hmem)
    rw [decimalValue_eq_ofDigits, writeUnsigned_pos hzero, List.reverse_reverse, hdigits]
    exact Nat.ofDigits_digits 10 value

theorem writeUnsigned_injective {other : Nat} (h : writeUnsigned value = writeUnsigned other) :
    value = other := by
  rw [← decimalValue_writeUnsigned value, h, decimalValue_writeUnsigned]

theorem writeUnsigned_length_le {count : Nat} (hcount : 0 < count) (h : value < 10 ^ count) :
    (writeUnsigned value).length ≤ count := by
  by_cases hzero : value = 0
  · rw [hzero, writeUnsigned_zero, List.length_singleton]
    exact hcount
  · rw [writeUnsigned_pos hzero, List.length_reverse, List.length_map]
    exact (Nat.digits_length_le_iff (by omega) value).mpr h

/-- A number of two digits or more does not start with zero. -/
theorem writeUnsigned_head (value : Nat) (h : 1 < (writeUnsigned value).length) :
    (writeUnsigned value).head? ≠ some (byte '0') := by
  have hzero : value ≠ 0 := by
    intro hzero
    rw [hzero, writeUnsigned_zero] at h
    simp at h
  have hne : Nat.digits 10 value ≠ [] := by
    simpa [Nat.digits_eq_nil_iff_eq_zero] using hzero
  have hlast := Nat.getLast_digit_ne_zero 10 hzero
  have hlt : (Nat.digits 10 value).getLast hne < 10 :=
    Nat.digits_lt_base (by omega) (List.getLast_mem hne)
  rw [writeUnsigned_pos hzero, List.head?_reverse, List.getLast?_map,
    List.getLast?_eq_some_getLast hne]
  intro hsame
  injection hsame with hsame
  have hdigit := congrArg digitValue hsame
  rw [digitValue_ofNat hlt] at hdigit
  exact hlast hdigit

theorem parseUnsigned_eq_some_iff : parseUnsigned bound text = some value ↔
      text ≠ [] ∧ text.all isAsciiDigit = true ∧ decimalValue text = value ∧ value < bound := by
  unfold parseUnsigned
  split
  · rename_i h
    constructor
    · intro hvalue
      injection hvalue with hvalue
      rw [← hvalue]
      exact ⟨h.1, h.2.1, rfl, h.2.2⟩
    · rintro ⟨_, _, hvalue, _⟩
      rw [hvalue]
  · rename_i h
    constructor
    · intro hvalue
      cases hvalue
    · rintro ⟨hne, hall, rfl, hbound⟩
      exact absurd ⟨hne, hall, hbound⟩ h

/-- What is written is read back, below the bound. -/
theorem parseUnsigned_writeUnsigned (h : value < bound) :
    parseUnsigned bound (writeUnsigned value) = some value := by
  rw [parseUnsigned_eq_some_iff]
  refine ⟨writeUnsigned_ne_nil value, ?_, decimalValue_writeUnsigned value, h⟩
  rw [List.all_eq_true]
  intro b hb
  exact writeUnsigned_digit b hb

/-- A written number holds digits only. -/
theorem not_mem_writeUnsigned {separator : UInt8} (value : Nat)
    (h : isAsciiDigit separator = false) : separator ∉ writeUnsigned value := by
  intro hmem
  rw [writeUnsigned_digit separator hmem] at h
  cases h

/-- A row of digits without a leading zero is what its value is written as. -/
theorem writeUnsigned_decimalValue (hne : text ≠ []) (hall : text.all isAsciiDigit = true)
    (hlead : ¬ (1 < text.length ∧ text.head? = some (byte '0'))) :
    writeUnsigned (decimalValue text) = text := by
  have hdigit : ∀ b ∈ text, isAsciiDigit b = true := by simpa using hall
  have hback : (text.reverse.map digitValue).map (fun digit => UInt8.ofNat (48 + digit)) =
      text.reverse := by
    rw [List.map_map]
    conv_rhs => rw [← List.map_id text.reverse]
    apply List.map_congr_left
    intro b hmem
    exact ofNat_digitValue (hdigit b (List.mem_reverse.mp hmem))
  cases text with
  | nil => exact absurd rfl hne
  | cons b rest =>
    by_cases hzero : b = byte '0'
    · have hrest : rest = [] := by
        by_contra hrest
        have hlength : 1 < (b :: rest).length := by
          have hpos := List.length_pos_iff.mpr hrest
          rw [List.length_cons]
          omega
        exact hlead ⟨hlength, by rw [hzero]; rfl⟩
      rw [hzero, hrest]
      decide
    · have hvalue : digitValue b ≠ 0 := by
        intro hvalue
        have hb := ofNat_digitValue (hdigit b List.mem_cons_self)
        rw [hvalue] at hb
        exact hzero hb.symm
      have hlast : ∀ h : (b :: rest).reverse.map digitValue ≠ [],
          ((b :: rest).reverse.map digitValue).getLast h ≠ 0 := by
        intro h
        simpa using hvalue
      have hlt : ∀ digit ∈ (b :: rest).reverse.map digitValue, digit < 10 := by
        intro digit hmem
        obtain ⟨c, hc, rfl⟩ := List.mem_map.mp hmem
        exact digitValue_lt (hdigit c (List.mem_reverse.mp hc))
      have hdigits := Nat.digits_ofDigits 10 (by omega) _ hlt hlast
      have hpos : decimalValue (b :: rest) ≠ 0 := by
        intro hnone
        rw [← decimalValue_eq_ofDigits, hnone, Nat.digits_zero] at hdigits
        simp at hdigits
      rw [writeUnsigned_pos hpos, decimalValue_eq_ofDigits, hdigits, hback, List.reverse_reverse]

/-- The canonical reader accepts exactly what is written. -/
theorem parseCanonicalUnsigned_eq_some_iff : parseCanonicalUnsigned bound text = some value ↔
      text = writeUnsigned value ∧ value < bound := by
  unfold parseCanonicalUnsigned
  split
  · rename_i hlead
    constructor
    · intro h
      cases h
    · rintro ⟨rfl, _⟩
      exact absurd hlead.2 (writeUnsigned_head value hlead.1)
  · rename_i hlead
    rw [parseUnsigned_eq_some_iff]
    constructor
    · rintro ⟨hne, hall, hvalue, hbound⟩
      refine ⟨?_, hbound⟩
      rw [← hvalue, writeUnsigned_decimalValue hne hall hlead]
    · rintro ⟨rfl, hbound⟩
      refine ⟨writeUnsigned_ne_nil value, ?_, decimalValue_writeUnsigned value, hbound⟩
      rw [List.all_eq_true]
      exact writeUnsigned_digit

end Moguet.Verified.Decimal
