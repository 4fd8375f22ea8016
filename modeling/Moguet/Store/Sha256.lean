import Mathlib.Algebra.Ring.Nat
import Moguet.Verified.ByteString

/-!
# The content digest

The SHA-256 of `xdg_generation_store_sha256.cpp`, as it is computed there: a
block of 64 bytes is collected and compressed when it is full, and the padding
goes through the same block byte by byte.
-/

namespace Moguet.Store.Sha256

open Verified.ByteString

def rotr (value : UInt32) (bits : UInt32) : UInt32 :=
  (value >>> bits) ||| (value <<< (32 - bits))

def roundConstants : List UInt32 := [
  0x428a2f98, 0x71374491, 0xb5c0fbcf, 0xe9b5dba5, 0x3956c25b, 0x59f111f1, 0x923f82a4,
  0xab1c5ed5, 0xd807aa98, 0x12835b01, 0x243185be, 0x550c7dc3, 0x72be5d74, 0x80deb1fe,
  0x9bdc06a7, 0xc19bf174, 0xe49b69c1, 0xefbe4786, 0x0fc19dc6, 0x240ca1cc, 0x2de92c6f,
  0x4a7484aa, 0x5cb0a9dc, 0x76f988da, 0x983e5152, 0xa831c66d, 0xb00327c8, 0xbf597fc7,
  0xc6e00bf3, 0xd5a79147, 0x06ca6351, 0x14292967, 0x27b70a85, 0x2e1b2138, 0x4d2c6dfc,
  0x53380d13, 0x650a7354, 0x766a0abb, 0x81c2c92e, 0x92722c85, 0xa2bfe8a1, 0xa81a664b,
  0xc24b8b70, 0xc76c51a3, 0xd192e819, 0xd6990624, 0xf40e3585, 0x106aa070, 0x19a4c116,
  0x1e376c08, 0x2748774c, 0x34b0bcb5, 0x391c0cb3, 0x4ed8aa4a, 0x5b9cca4f, 0x682e6ff3,
  0x748f82ee, 0x78a5636f, 0x84c87814, 0x8cc70208, 0x90befffa, 0xa4506ceb, 0xbef9a3f7,
  0xc67178f2]

/-- The eight words of the hash, and of the working variables. -/
structure Words where
  a : UInt32
  b : UInt32
  c : UInt32
  d : UInt32
  e : UInt32
  f : UInt32
  g : UInt32
  h : UInt32
  deriving DecidableEq

def initialHash : Words :=
  ⟨0x6a09e667, 0xbb67ae85, 0x3c6ef372, 0xa54ff53a, 0x510e527f, 0x9b05688c, 0x1f83d9ab,
    0x5be0cd19⟩

/-- The bytes of a block as words, four at a time. -/
def blockWords : Bytes → List UInt32
  | b0 :: b1 :: b2 :: b3 :: rest =>
    ((b0.toUInt32 <<< 24) ||| (b1.toUInt32 <<< 16) ||| (b2.toUInt32 <<< 8) |||
      b3.toUInt32) :: blockWords rest
  | _ => []

def scheduleWord (w16 w15 w7 w2 : UInt32) : UInt32 :=
  let s0 := rotr w15 7 ^^^ rotr w15 18 ^^^ (w15 >>> 3)
  let s1 := rotr w2 17 ^^^ rotr w2 19 ^^^ (w2 >>> 10)
  w16 + s0 + w7 + s1

/-- The schedule is extended word by word. -/
def extendSchedule : Nat → List UInt32 → List UInt32
  | 0, schedule => schedule
  | count + 1, schedule =>
    let i := schedule.length
    extendSchedule count (schedule ++
      [scheduleWord (schedule.getD (i - 16) 0) (schedule.getD (i - 15) 0)
        (schedule.getD (i - 7) 0) (schedule.getD (i - 2) 0)])

def sha256Round (v : Words) (item : UInt32 × UInt32) : Words :=
  let s1 := rotr v.e 6 ^^^ rotr v.e 11 ^^^ rotr v.e 25
  let ch := (v.e &&& v.f) ^^^ (~~~v.e &&& v.g)
  let temp1 := v.h + s1 + ch + item.1 + item.2
  let s0 := rotr v.a 2 ^^^ rotr v.a 13 ^^^ rotr v.a 22
  let maj := (v.a &&& v.b) ^^^ (v.a &&& v.c) ^^^ (v.b &&& v.c)
  let temp2 := s0 + maj
  ⟨temp1 + temp2, v.a, v.b, v.c, v.d + temp1, v.e, v.f, v.g⟩

def processBlock (hash : Words) (block : Bytes) : Words :=
  let schedule := extendSchedule 48 (blockWords block)
  let v := (roundConstants.zip schedule).foldl sha256Round hash
  ⟨hash.a + v.a, hash.b + v.b, hash.c + v.c, hash.d + v.d, hash.e + v.e, hash.f + v.f,
    hash.g + v.g, hash.h + v.h⟩

/-- `block` is the used part of the block, always shorter than 64 bytes between
two calls. -/
structure ContentSha256 where
  hash : Words := initialHash
  block : Bytes := []
  totalSize : Nat := 0
  deriving DecidableEq

/-- The copy loop: as much as fits into the block. A turn copies at least one
byte, so the length of the data is enough fuel. -/
def absorb : Nat → ContentSha256 → Bytes → ContentSha256
  | _, state, [] => state
  | 0, state, _ :: _ => state
  | fuel + 1, state, b :: data =>
    let copied := min (b :: data).length (64 - state.block.length)
    let block := state.block ++ (b :: data).take copied
    if block.length = 64 then
      absorb fuel { state with hash := processBlock state.hash block, block := [] }
        ((b :: data).drop copied)
    else absorb fuel { state with block } ((b :: data).drop copied)

/-- Nothing when the length would overflow, which the source throws on. -/
def update (state : ContentSha256) (data : Bytes) : Option ContentSha256 :=
  if 2 ^ 64 - 1 - state.totalSize < data.length then none
  else
    some (absorb data.length
      { state with totalSize := state.totalSize + data.length } data)

def consumePaddingByte (state : ContentSha256) (b : UInt8) : ContentSha256 :=
  let block := state.block ++ [b]
  if block.length = 64 then
    { state with hash := processBlock state.hash block, block := [] }
  else { state with block }

/-- The rest of a block that has no room for the length. -/
def padBlock : Nat → ContentSha256 → ContentSha256
  | 0, state => state
  | fuel + 1, state =>
    if state.block.length ≠ 0 then padBlock fuel (consumePaddingByte state 0) else state

def padToLength : Nat → ContentSha256 → ContentSha256
  | 0, state => state
  | fuel + 1, state =>
    if state.block.length < 56 then padToLength fuel (consumePaddingByte state 0)
    else state

/-- The eight bytes of the bit length, the most significant one first. -/
def lengthBytes (bitLength : Nat) : Bytes :=
  (List.range 8).map fun index => UInt8.ofNat (bitLength >>> (8 * (7 - index)) % 256)

def hexDigit (value : UInt32) : UInt8 :=
  (ascii "0123456789abcdef").getD (value &&& 0x0f).toNat 0

def wordHex (word : UInt32) : Bytes :=
  [hexDigit (word >>> 28), hexDigit (word >>> 24), hexDigit (word >>> 20),
    hexDigit (word >>> 16), hexDigit (word >>> 12), hexDigit (word >>> 8),
    hexDigit (word >>> 4), hexDigit word]

def hashHex (hash : Words) : Bytes :=
  wordHex hash.a ++ wordHex hash.b ++ wordHex hash.c ++ wordHex hash.d ++
    wordHex hash.e ++ wordHex hash.f ++ wordHex hash.g ++ wordHex hash.h

def finish (state : ContentSha256) : Bytes :=
  let bitLength := state.totalSize * 8 % 2 ^ 64
  let state := consumePaddingByte state 0x80
  let state := if 56 < state.block.length then padBlock 64 state else state
  let state := padToLength 64 state
  hashHex ((lengthBytes bitLength).foldl consumePaddingByte state).hash

/-- `xdg_generation_store_raw_contents_sha256`. A byte string of `2 ^ 64` bytes,
which alone could overflow the length of a fresh state, does not exist. -/
def rawContentsSha256 (rawContents : Bytes) : Bytes :=
  match update {} rawContents with
  | none => []
  | some state => finish state

example : rawContentsSha256 [] =
    ascii "e3b0c44298fc1c149afbf4c8996fb92427ae41e4649b934ca495991b7852b855" := by
  decide +kernel

example : rawContentsSha256 (ascii "abc") =
    ascii "ba7816bf8f01cfea414140de5dae2223b00361a396177a9cb410ff61f20015ad" := by
  decide +kernel

end Moguet.Store.Sha256
