import Moguet.Verified.ByteString

/-!
# Bytes in hexadecimal

Two lower-case digits for each byte, the high half first. The reader takes
nothing else, so reading is the inverse of writing on what was written.
-/

namespace Moguet.Verified.Hexadecimal

open ByteString

variable {b : UInt8}

/-- The digit of a value below 16. -/
def nibbleDigit (value : UInt8) : UInt8 :=
  (ascii "0123456789abcdef").getD (value &&& 15).toNat 0

def hexBytes (bytes : Bytes) : Bytes :=
  bytes.flatMap fun b : UInt8 => [nibbleDigit (b >>> 4), nibbleDigit (b &&& 15)]

/-- The value of a digit; upper-case digits are refused. -/
def nibbleValue (b : UInt8) : Option UInt8 :=
  if byte '0' ≤ b ∧ b ≤ byte '9' then some (b - byte '0')
  else if byte 'a' ≤ b ∧ b ≤ byte 'f' then some (b - byte 'a' + 10)
  else none

/-- A row of pairs of digits. -/
def decodePairs : Bytes → Option Bytes
  | [] => some []
  | [_] => none
  | high :: low :: rest => do
      let high ← nibbleValue high
      let low ← nibbleValue low
      let rest ← decodePairs rest
      some ((high <<< 4 ||| low) :: rest)

/-- The value written in a number of digits, the highest first. -/
def hexInteger (value : Nat) : Nat → Bytes
  | 0 => []
  | digits + 1 => hexInteger (value / 16) digits ++ [nibbleDigit (UInt8.ofNat (value % 16))]

theorem nibbleDigit_spec (b : UInt8) : nibbleValue (nibbleDigit (b >>> 4)) = some (b >>> 4) ∧
      nibbleValue (nibbleDigit (b &&& 15)) = some (b &&& 15) ∧
      (b >>> 4) <<< 4 ||| (b &&& 15) = b := by
  have hall : ∀ b : Fin 256,
      nibbleValue (nibbleDigit (UInt8.ofFin b >>> 4)) = some (UInt8.ofFin b >>> 4) ∧
        nibbleValue (nibbleDigit (UInt8.ofFin b &&& 15)) = some (UInt8.ofFin b &&& 15) ∧
        (UInt8.ofFin b >>> 4) <<< 4 ||| (UInt8.ofFin b &&& 15) = UInt8.ofFin b := by
    decide +kernel
  exact hall b.toFin

theorem decodePairs_hexBytes (bytes : Bytes) : decodePairs (hexBytes bytes) = some bytes := by
  induction bytes with
  | nil => rfl
  | cons b rest ih =>
    obtain ⟨hhigh, hlow, hback⟩ := nibbleDigit_spec b
    show decodePairs (nibbleDigit (b >>> 4) :: nibbleDigit (b &&& 15) :: hexBytes rest) = _
    rw [decodePairs, hhigh, hlow, ih]
    show some (((b >>> 4) <<< 4 ||| (b &&& 15)) :: rest) = _
    rw [hback]

theorem hexBytes_length (bytes : Bytes) : (hexBytes bytes).length = 2 * bytes.length := by
  induction bytes with
  | nil => rfl
  | cons b rest ih =>
    show (hexBytes rest).length + 1 + 1 = 2 * (rest.length + 1)
    omega

theorem isLowerHex_nibbleDigit (value : UInt8) : isLowerHex (nibbleDigit value) = true := by
  have hlt : (value &&& 15).toNat < 16 := by
    rw [UInt8.toNat_and]
    exact Nat.lt_of_le_of_lt Nat.and_le_right (by decide)
  have hall : ∀ index < 16,
      isLowerHex ((ascii "0123456789abcdef").getD index 0) = true := by decide
  exact hall _ hlt

theorem isLowerHex_of_mem_hexBytes {bytes : Bytes} (h : b ∈ hexBytes bytes) :
    isLowerHex b = true := by
  obtain ⟨own, -, hmem⟩ := List.mem_flatMap.mp h
  rcases List.mem_cons.mp hmem with rfl | hmem
  · exact isLowerHex_nibbleDigit _
  · rw [List.mem_singleton.mp hmem]
    exact isLowerHex_nibbleDigit _

/-- A byte that is no digit does not occur. -/
theorem hexBytes_clean {separator : UInt8} (h : isLowerHex separator = false) (bytes : Bytes) :
    separator ∉ hexBytes bytes := by
  intro hmem
  rw [isLowerHex_of_mem_hexBytes hmem] at h
  cases h

theorem isLowerHex_of_mem_hexInteger :
    ∀ {digits value : Nat}, b ∈ hexInteger value digits → isLowerHex b = true := by
  intro digits
  induction digits with
  | zero =>
    intro value h
    cases h
  | succ digits ih =>
    intro value h
    rcases List.mem_append.mp h with h | h
    · exact ih h
    · rw [List.mem_singleton.mp h]
      exact isLowerHex_nibbleDigit _

theorem hexInteger_length (value digits : Nat) : (hexInteger value digits).length = digits := by
  induction digits generalizing value with
  | zero => rfl
  | succ digits ih =>
    rw [hexInteger, List.length_append, ih]
    rfl

end Moguet.Verified.Hexadecimal
