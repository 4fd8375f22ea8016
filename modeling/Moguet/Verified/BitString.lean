import Mathlib.Data.Nat.Bitwise
import Mathlib.Data.List.Basic
import Mathlib.Tactic.Ring

/-!
# Bit strings

Strings of bits, the most significant one first, and the numbers they stand
for. A standard that is written over bit strings and a program that is written
over bytes meet here.
-/

namespace Moguet.Verified.BitString

variable {α : Type}

variable {size : Nat}

/-- The number a bit string stands for. -/
def natOfBits (bits : List Bool) : Nat :=
  bits.foldl (fun value bit => 2 * value + bit.toNat) 0

/-- The low `width` bits of a number. -/
def natBits (width value : Nat) : List Bool :=
  (List.range width).map fun index => value.testBit (width - 1 - index)

@[simp] theorem natBits_length (width value : Nat) : (natBits width value).length = width := by
  simp [natBits]

theorem foldl_natOfBits (bits : List Bool) (start : Nat) :
    bits.foldl (fun value bit => 2 * value + bit.toNat) start =
      start * 2 ^ bits.length + natOfBits bits := by
  unfold natOfBits
  induction bits generalizing start with
  | nil => simp
  | cons bit bits ih =>
    rw [List.foldl_cons, List.foldl_cons, ih, ih (2 * 0 + bit.toNat), List.length_cons, pow_succ]
    ring

theorem natOfBits_append (xs ys : List Bool) :
    natOfBits (xs ++ ys) = natOfBits xs * 2 ^ ys.length + natOfBits ys := by
  rw [natOfBits, List.foldl_append, foldl_natOfBits ys]
  rfl

theorem natBits_succ (width value : Nat) :
    natBits (width + 1) value = natBits width (value / 2) ++ [value.testBit 0] := by
  unfold natBits
  rw [List.range_succ, List.map_append]
  congr 1
  · apply List.map_congr_left
    intro index hindex
    have hlt := List.mem_range.mp hindex
    rw [← Nat.testBit_succ]
    congr 1
    omega
  · simp

/-- A number of `width` bits is read back. -/
theorem natOfBits_natBits (width value : Nat) :
    natOfBits (natBits width value) = value % 2 ^ width := by
  induction width generalizing value with
  | zero => simp [natBits, natOfBits, Nat.mod_one]
  | succ width ih =>
    have hbit : natOfBits [value.testBit 0] = value % 2 := by
      rw [Nat.testBit_zero]
      rcases Nat.mod_two_eq_zero_or_one value with h | h <;> simp [h, natOfBits]
    rw [natBits_succ, natOfBits_append, ih, hbit, List.length_singleton, pow_one,
      Nat.mul_comm, pow_succ, Nat.mul_comm (2 ^ width), Nat.mod_mul]
    omega

theorem natBits_mod (width value : Nat) :
    natBits width (value % 2 ^ width) = natBits width value := by
  unfold natBits
  apply List.map_congr_left
  intro index hindex
  have hlt := List.mem_range.mp hindex
  rw [Nat.testBit_mod_two_pow, decide_eq_true (by omega), Bool.true_and]

/-- The bits of the high part, then those of the low part. -/
theorem natBits_add (high low value : Nat) :
    natBits (high + low) value = natBits high (value >>> low) ++ natBits low value := by
  induction low generalizing value with
  | zero => simp [natBits]
  | succ low ih =>
    rw [← Nat.add_assoc, natBits_succ, ih, natBits_succ low, ← List.append_assoc,
      Nat.shiftRight_succ_inside]

/-- The bits of a number, one group of `width` bits after the other. -/
theorem natBits_mul (width count value : Nat) : natBits (width * count) value =
      (List.range count).flatMap fun index =>
        natBits width (value >>> (width * (count - 1 - index))) := by
  induction count generalizing value with
  | zero => simp [natBits]
  | succ count ih =>
    have hgroups : (List.range count).flatMap (fun index =>
          natBits width (value >>> width >>> (width * (count - 1 - index)))) =
        (List.range count).flatMap fun index =>
          natBits width (value >>> (width * (count + 1 - 1 - index))) := by
      apply List.flatMap_congr
      intro index hindex
      have hlt := List.mem_range.mp hindex
      have hcount : count + 1 - 1 - index = (count - 1 - index) + 1 := by omega
      rw [← Nat.shiftRight_add, hcount, Nat.mul_succ, Nat.add_comm]
    have hlast : count + 1 - 1 - count = 0 := by omega
    rw [Nat.mul_succ, natBits_add, ih, hgroups, List.range_succ, List.flatMap_append,
      List.flatMap_singleton, hlast, Nat.mul_zero, Nat.shiftRight_zero]

/-- The first `count` blocks of `size` elements. -/
def blocksOf {α : Type} (size : Nat) : Nat → List α → List (List α)
  | 0, _ => []
  | count + 1, values => values.take size :: blocksOf size count (values.drop size)

@[simp] theorem blocksOf_length (size count : Nat) (values : List α) :
    (blocksOf size count values).length = count := by
  induction count generalizing values with
  | zero => rfl
  | succ count ih => rw [blocksOf, List.length_cons, ih]

theorem length_of_mem_blocksOf {count : Nat} {values block : List α}
    (hlength : size * count ≤ values.length) (h : block ∈ blocksOf size count values) :
    block.length = size := by
  induction count generalizing values with
  | zero => cases h
  | succ count ih =>
    rw [Nat.mul_succ] at hlength
    rw [blocksOf, List.mem_cons] at h
    rcases h with rfl | h
    · rw [List.length_take]
      omega
    · apply ih _ h
      rw [List.length_drop]
      omega

theorem blocksOf_append (xs ys : List α) {m : Nat} (n : Nat) (h : xs.length = size * m) :
    blocksOf size (m + n) (xs ++ ys) = blocksOf size m xs ++ blocksOf size n ys := by
  induction m generalizing xs with
  | zero =>
    rw [Nat.mul_zero, List.length_eq_zero_iff] at h
    rw [h, Nat.zero_add]
    rfl
  | succ m ih =>
    rw [Nat.mul_succ] at h
    have hrest : (xs.drop size).length = size * m := by
      rw [List.length_drop]
      omega
    have hcount : m + 1 + n = m + n + 1 := by omega
    rw [hcount, blocksOf, blocksOf, List.take_append_of_le_length (by omega),
      List.drop_append_of_le_length (by omega), ih _ hrest, List.cons_append]

section Groups

variable {α β : Type} {f : α → List β} {width : Nat} (hwidth : ∀ a, (f a).length = width)

include hwidth

theorem length_flatMap_of (values : List α) :
    (values.flatMap f).length = width * values.length := by
  induction values with
  | nil => simp
  | cons value values ih =>
    rw [List.flatMap_cons, List.length_append, hwidth, ih, List.length_cons, Nat.mul_succ]
    omega

theorem take_flatMap (values : List α) (count : Nat) :
    (values.flatMap f).take (width * count) = (values.take count).flatMap f := by
  induction values generalizing count with
  | nil => simp
  | cons value values ih =>
    cases count with
    | zero => simp
    | succ count =>
      rw [List.flatMap_cons, Nat.mul_succ, Nat.add_comm, List.take_append, hwidth,
        Nat.add_sub_cancel_left, ih, List.take_succ_cons, List.flatMap_cons,
        List.take_of_length_le (by rw [hwidth]; omega)]

theorem drop_flatMap (values : List α) (count : Nat) :
    (values.flatMap f).drop (width * count) = (values.drop count).flatMap f := by
  induction values generalizing count with
  | nil => simp
  | cons value values ih =>
    cases count with
    | zero => simp
    | succ count =>
      rw [List.flatMap_cons, Nat.mul_succ, Nat.add_comm, List.drop_append, hwidth,
        Nat.add_sub_cancel_left, ih, List.drop_succ_cons,
        List.drop_of_length_le (by rw [hwidth]; omega), List.nil_append]

/-- A string of groups of equal length is cut group by group. -/
theorem blocksOf_flatMap (values : List α) (size count : Nat) :
    blocksOf (width * size) count (values.flatMap f) =
      (blocksOf size count values).map fun block => block.flatMap f := by
  induction count generalizing values with
  | zero => rfl
  | succ count ih =>
    rw [blocksOf, blocksOf, List.map_cons, take_flatMap hwidth, drop_flatMap hwidth, ih]

end Groups

end Moguet.Verified.BitString
