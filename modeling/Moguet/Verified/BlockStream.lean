import Moguet.Verified.BitString

/-!
# Streams of blocks

A stream takes values one by one into a buffer and hands every full buffer of
`size` values to a step function. What a stream has after a run of values does
not depend on how the run is cut, since a run is a fold; a program that copies
whole pieces into the buffer is compared with this one.
-/

namespace Moguet.Verified.BlockStream

open BitString

structure Buffered (σ α : Type) where
  state : σ
  buffer : List α

variable {σ α : Type} (size : Nat) (step : σ → List α → σ) {values : List α}

/-- One value into the buffer. -/
def push (stream : Buffered σ α) (value : α) : Buffered σ α :=
  let buffer := stream.buffer ++ [value]
  if buffer.length = size then ⟨step stream.state buffer, []⟩
  else ⟨stream.state, buffer⟩

/-- Values that leave room in the buffer are only kept. -/
theorem foldl_push_short (stream : Buffered σ α) (h : stream.buffer.length + values.length < size) :
    values.foldl (push size step) stream = ⟨stream.state, stream.buffer ++ values⟩ := by
  induction values generalizing stream with
  | nil => rw [List.foldl_nil, List.append_nil]
  | cons value values ih =>
    rw [List.length_cons] at h
    have hroom : (stream.buffer ++ [value]).length ≠ size := by
      rw [List.length_append, List.length_singleton]
      omega
    have hpush : push size step stream value = ⟨stream.state, stream.buffer ++ [value]⟩ := by
      unfold push
      exact if_neg hroom
    rw [List.foldl_cons, hpush, ih ⟨stream.state, stream.buffer ++ [value]⟩, List.append_assoc, List.singleton_append]
    show (stream.buffer ++ [value]).length + values.length < size
    rw [List.length_append, List.length_singleton]
    omega

/-- The values that fill the buffer make one step. -/
theorem foldl_push_block {stream : Buffered σ α} (hne : values ≠ [])
    (h : stream.buffer.length + values.length = size) :
    values.foldl (push size step) stream = ⟨step stream.state (stream.buffer ++ values), []⟩ := by
  have hlast := List.dropLast_append_getLast hne
  have hlength : values.dropLast.length = values.length - 1 := List.length_dropLast
  have hpos := List.length_pos_of_ne_nil hne
  have hshort : stream.buffer.length + values.dropLast.length < size := by omega
  rw [← hlast, List.foldl_append, foldl_push_short size step stream hshort, List.foldl_cons,
    List.foldl_nil]
  unfold push
  dsimp only
  rw [List.append_assoc, hlast, if_pos (by rw [List.length_append]; exact h)]

/-- A buffer that starts below the size stays below it. -/
theorem foldl_push_buffer_lt (stream : Buffered σ α) (hbuffer : stream.buffer.length < size)
    (values : List α) :
    (values.foldl (push size step) stream).buffer.length < size := by
  induction values generalizing stream with
  | nil => exact hbuffer
  | cons value values ih =>
    rw [List.foldl_cons]
    apply ih
    unfold push
    dsimp only
    split
    · show 0 < size
      omega
    · rename_i hfull
      rw [List.length_append, List.length_singleton] at hfull ⊢
      omega

/-- The buffer holds what is left over by whole blocks. -/
theorem foldl_push_buffer_length (stream : Buffered σ α)
    (hbuffer : stream.buffer.length < size) (values : List α) :
    (values.foldl (push size step) stream).buffer.length =
      (stream.buffer.length + values.length) % size := by
  induction values generalizing stream with
  | nil => exact (Nat.mod_eq_of_lt hbuffer).symm
  | cons value values ih =>
    have hnext : (push size step stream value).buffer.length =
        (stream.buffer.length + 1) % size := by
      unfold push
      dsimp only
      split
      · rename_i hfull
        rw [List.length_append, List.length_singleton] at hfull
        rw [hfull, Nat.mod_self]
        rfl
      · rename_i hfull
        rw [List.length_append, List.length_singleton] at hfull
        rw [Nat.mod_eq_of_lt (by omega)]
        exact List.length_append
    have hlt : (push size step stream value).buffer.length < size :=
      foldl_push_buffer_lt size step stream hbuffer [value]
    rw [List.foldl_cons, ih _ hlt, hnext, Nat.mod_add_mod, List.length_cons]
    congr 1
    omega

/-- Whole blocks on an empty buffer make one step a block. -/
theorem foldl_push_blocks (hsize : 0 < size) {count : Nat} (h : values.length = size * count)
    (state : σ) :
    values.foldl (push size step) ⟨state, []⟩ =
      ⟨(blocksOf size count values).foldl step state, []⟩ := by
  induction count generalizing values state with
  | zero =>
    rw [Nat.mul_zero, List.length_eq_zero_iff] at h
    rw [h]
    rfl
  | succ count ih =>
    rw [Nat.mul_succ] at h
    have htake : (values.take size).length = size := by
      rw [List.length_take]
      omega
    have hne : values.take size ≠ [] := by
      intro hnil
      rw [hnil] at htake
      exact absurd htake (by simp; omega)
    have hfirst : (values.take size).foldl (push size step) ⟨state, []⟩ =
        ⟨step state (values.take size), []⟩ :=
      foldl_push_block size step hne (by simpa using htake)
    have hrest : (values.drop size).length = size * count := by
      rw [List.length_drop]
      omega
    rw [blocksOf, List.foldl_cons, ← ih hrest, ← hfirst, ← List.foldl_append, List.take_append_drop]

end Moguet.Verified.BlockStream
