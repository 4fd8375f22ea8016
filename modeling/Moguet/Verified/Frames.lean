import Moguet.Verified.Decimal
import Moguet.Verified.Fields

/-!
# Frames

A frame is a line with a key, a tab and a length, and then as many bytes: the
payload, which may hold anything. A reader knows the key that comes next.
-/

namespace Moguet.Verified.Frames

open ByteString Decimal Fields

variable {limit : Nat}

def frame (key payload : Bytes) : Bytes :=
  (key ++ byte '\t' :: writeUnsigned payload.length) ++ byte '\n' :: payload

/-- The length of a frame, from the lengths of its parts. -/
def frameBytes (keyBytes payloadBytes : Nat) : Nat :=
  keyBytes + (writeUnsigned payloadBytes).length + payloadBytes + 2

theorem frame_length (key payload : Bytes) :
    (frame key payload).length = frameBytes key.length payload.length := by
  unfold frame frameBytes
  simp only [List.length_append, List.length_cons]
  omega

theorem payload_length_le_frame (key payload : Bytes) :
    payload.length ≤ (frame key payload).length := by
  rw [frame_length]
  unfold frameBytes
  omega

/-- A length in decimal, not above the limit. -/
def sizeValue (limit : Nat) (text : Bytes) : Option Nat :=
  match parseCanonicalUnsigned (2 ^ 64) text with
  | none => none
  | some value => if limit < value then none else some value

/-- The payload of the frame that the text starts with, and what follows. -/
def takeFrame (limit : Nat) (key text : Bytes) : Option (Bytes × Bytes) :=
  match takeField (byte '\n') text with
  | none => none
  | some (line, rest) =>
    let opening := key ++ [byte '\t']
    if opening.isPrefixOf line = false then none
    else
      match sizeValue limit (line.drop opening.length) with
      | none => none
      | some size => if rest.length < size then none else some (rest.take size, rest.drop size)

theorem sizeValue_writeUnsigned {size : Nat} (h : size ≤ limit) (hlimit : limit < 2 ^ 64) :
    sizeValue limit (writeUnsigned size) = some size := by
  have hread : parseCanonicalUnsigned (2 ^ 64) (writeUnsigned size) = some size :=
    parseCanonicalUnsigned_eq_some_iff.mpr ⟨rfl, by omega⟩
  unfold sizeValue
  rw [hread]
  exact if_neg (by omega)

/-- A frame within the limit is taken off the text. -/
theorem takeFrame_frame {key payload : Bytes} (hkey : byte '\n' ∉ key)
    (hsize : payload.length ≤ limit) (hlimit : limit < 2 ^ 64) (rest : Bytes) :
    takeFrame limit key (frame key payload ++ rest) = some (payload, rest) := by
  have hdigits : byte '\n' ∉ writeUnsigned payload.length := by
    intro hmem
    exact absurd (writeUnsigned_digit _ hmem) (by decide)
  have hline : byte '\n' ∉ key ++ byte '\t' :: writeUnsigned payload.length := by
    intro hmem
    rcases List.mem_append.mp hmem with hmem | hmem
    · exact hkey hmem
    · rcases List.mem_cons.mp hmem with hmem | hmem
      · exact absurd hmem (by decide)
      · exact hdigits hmem
  have htaken : takeField (byte '\n') (frame key payload ++ rest) =
      some (key ++ byte '\t' :: writeUnsigned payload.length, payload ++ rest) := by
    unfold frame
    rw [List.append_assoc, List.cons_append]
    exact takeField_append hline _
  have hopening : key ++ byte '\t' :: writeUnsigned payload.length =
      (key ++ [byte '\t']) ++ writeUnsigned payload.length := by
    rw [List.append_assoc]
    rfl
  unfold takeFrame
  rw [htaken]
  dsimp only
  rw [hopening, isPrefixOf_append, List.drop_left, sizeValue_writeUnsigned hsize hlimit]
  dsimp only
  rw [if_neg (by decide), if_neg (by rw [List.length_append]; omega), List.take_left,
    List.drop_left]

end Moguet.Verified.Frames
