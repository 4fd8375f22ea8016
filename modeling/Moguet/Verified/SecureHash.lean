import Mathlib.Data.Nat.NthRoot.Defs
import Mathlib.Data.Nat.Prime.Basic
import Moguet.Verified.BitString

/-!
# The secure hash standard

SHA-256 as FIPS 180-4 states it: on bit strings, with the fractional parts of
the roots of the first primes as constants and the message schedule as a
recurrence. Nothing here is taken from an implementation.
-/

namespace Moguet.Verified.SecureHash

open BitString

variable {t : Nat}

abbrev Word := BitVec 32

/-! ## Functions -/

def ch (x y z : Word) : Word := (x &&& y) ^^^ (~~~x &&& z)

def maj (x y z : Word) : Word := (x &&& y) ^^^ (x &&& z) ^^^ (y &&& z)

def bigSigma0 (x : Word) : Word :=
  x.rotateRight 2 ^^^ x.rotateRight 13 ^^^ x.rotateRight 22

def bigSigma1 (x : Word) : Word :=
  x.rotateRight 6 ^^^ x.rotateRight 11 ^^^ x.rotateRight 25

def smallSigma0 (x : Word) : Word :=
  x.rotateRight 7 ^^^ x.rotateRight 18 ^^^ x >>> 3

def smallSigma1 (x : Word) : Word :=
  x.rotateRight 17 ^^^ x.rotateRight 19 ^^^ x >>> 10

/-! ## Constants -/

/-- The first 32 bits of the fractional part of a root. -/
def rootFraction (degree value : Nat) : Word :=
  BitVec.ofNat 32 (Nat.nthRoot degree (value * 2 ^ (32 * degree)))

def primesBelow (bound : Nat) : List Nat :=
  (List.range bound).filter Nat.Prime

/-- `K`: the cube roots of the first 64 primes, the last of which is 311. -/
def roundConstants : List Word :=
  (primesBelow 312).map (rootFraction 3)

structure Variables where
  a : Word
  b : Word
  c : Word
  d : Word
  e : Word
  f : Word
  g : Word
  h : Word
  deriving DecidableEq

/-- `H(0)`: the square roots of the first eight primes. -/
def initialHash : Variables where
  a := rootFraction 2 2
  b := rootFraction 2 3
  c := rootFraction 2 5
  d := rootFraction 2 7
  e := rootFraction 2 11
  f := rootFraction 2 13
  g := rootFraction 2 17
  h := rootFraction 2 19

/-! ## Preprocessing -/

/-- The number of zero bits between the one bit and the length. -/
def zeroBits (length : Nat) : Nat := (959 - length % 512) % 512

def padded (message : List Bool) : List Bool :=
  message ++ [true] ++ List.replicate (zeroBits message.length) false ++
    natBits 64 message.length

def messageBlocks (message : List Bool) : List (List Bool) :=
  blocksOf 512 ((padded message).length / 512) (padded message)

/-- The sixteen words of a block. -/
def blockWords (block : List Bool) : List Word :=
  (blocksOf 32 16 block).map fun bits => BitVec.ofNat 32 (natOfBits bits)

/-! ## Hash computation -/

/-- `W`, the message schedule. -/
def schedule (words : List Word) (t : Nat) : Word :=
  if t < 16 then words.getD t 0
  else
    smallSigma1 (schedule words (t - 2)) + schedule words (t - 7) +
      smallSigma0 (schedule words (t - 15)) + schedule words (t - 16)

theorem schedule_lt (words : List Word) (h : t < 16) : schedule words t = words.getD t 0 := by
  rw [schedule, if_pos h]

theorem schedule_ge (words : List Word) (h : 16 ≤ t) : schedule words t =
      smallSigma1 (schedule words (t - 2)) + schedule words (t - 7) +
        smallSigma0 (schedule words (t - 15)) + schedule words (t - 16) := by
  rw [schedule, if_neg (by omega)]

def round (v : Variables) (k w : Word) : Variables :=
  let t1 := v.h + bigSigma1 v.e + ch v.e v.f v.g + k + w
  let t2 := bigSigma0 v.a + maj v.a v.b v.c
  { a := t1 + t2, b := v.a, c := v.b, d := v.c, e := v.d + t1, f := v.e, g := v.f, h := v.g }

def rounds (hash : Variables) (words : List Word) : Variables :=
  (List.range 64).foldl
    (fun v t => round v (roundConstants.getD t 0) (schedule words t)) hash

/-- The next intermediate hash value. -/
def compress (hash : Variables) (block : List Bool) : Variables :=
  let v := rounds hash (blockWords block)
  { a := v.a + hash.a, b := v.b + hash.b, c := v.c + hash.c, d := v.d + hash.d,
    e := v.e + hash.e, f := v.f + hash.f, g := v.g + hash.g, h := v.h + hash.h }

def wordBits (word : Word) : List Bool := natBits 32 word.toNat

def digestBits (hash : Variables) : List Bool :=
  wordBits hash.a ++ wordBits hash.b ++ wordBits hash.c ++ wordBits hash.d ++
    wordBits hash.e ++ wordBits hash.f ++ wordBits hash.g ++ wordBits hash.h

/-- The digest of a message of fewer than `2 ^ 64` bits. -/
def sha256 (message : List Bool) : List Bool :=
  digestBits ((messageBlocks message).foldl compress initialHash)

end Moguet.Verified.SecureHash
