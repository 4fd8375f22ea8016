import Moguet.Verified.Decimal
import Moguet.Verified.Fields

/-!
# Leaves and records of a generation store

A unit directory holds one immutable record for each generation. The name of a
record after the first names its predecessor: inode, status-change time and the
SHA-256 of the bytes. This module has the grammar of these names, the status of
a record as `stat` gives it, and the checks made of both.
-/

namespace Moguet.Store.Record

open Verified.ByteString Verified.Decimal Verified.Fields

structure GenerationLeaf where
  generation : Nat
  hasPredecessor : Bool := false
  predecessorDevice : Nat := 0
  predecessorInode : Nat := 0
  predecessorCtimeSeconds : Nat := 0
  predecessorCtimeNanoseconds : Nat := 0
  predecessorDigest : Bytes := []
  leaf : Bytes
  deriving DecidableEq

def entrySuffix : Bytes := ascii ".toml"

def contentDigestHexSize : Nat := 64

/-- A decimal of `uintmax_t` in its one spelling. -/
def parseUnsignedDecimal (text : Bytes) (allowZero : Bool) : Option Nat :=
  if allowZero = false ∧ text.head? = some (byte '0') then none
  else parseCanonicalUnsigned (2 ^ 64) text

/-- `device-inode-seconds-nanoseconds`. -/
structure PredecessorIdentity where
  device : Nat
  inode : Nat
  ctimeSeconds : Nat
  ctimeNanoseconds : Nat

/-- The part before a separator and the part after it, both of them there. -/
def takeNonempty (separator : UInt8) (text : Bytes) : Option (Bytes × Bytes) := do
  let (front, rest) ← takeField separator text
  guard (front ≠ [] ∧ rest ≠ [])
  some (front, rest)

def parsePredecessorIdentity (identity : Bytes) : Option PredecessorIdentity := do
  let (deviceText, rest) ← takeNonempty (byte '-') identity
  let (inodeText, rest) ← takeNonempty (byte '-') rest
  let (secondsText, nanosecondsText) ← takeNonempty (byte '-') rest
  guard (byte '-' ∉ nanosecondsText)
  let device ← parseUnsignedDecimal deviceText true
  let inode ← parseUnsignedDecimal inodeText true
  let ctimeSeconds ← parseUnsignedDecimal secondsText true
  let ctimeNanoseconds ← parseUnsignedDecimal nanosecondsText true
  some { device, inode, ctimeSeconds, ctimeNanoseconds }

/-- `generation.identity.digest` of a record after the first. -/
def parseSuccessorStem (stem name : Bytes) : Option GenerationLeaf := do
  let (generationText, rest) ← takeNonempty (byte '.') stem
  let (identity, digest) ← takeField (byte '.') rest
  guard (digest ≠ [] ∧ byte '.' ∉ digest)
  let generation ← parseUnsignedDecimal generationText false
  guard (2 ≤ generation)
  guard (digest.length = contentDigestHexSize ∧ digest.all isLowerHex = true)
  let predecessor ← parsePredecessorIdentity identity
  some {
    generation
    hasPredecessor := true
    predecessorDevice := predecessor.device
    predecessorInode := predecessor.inode
    predecessorCtimeSeconds := predecessor.ctimeSeconds
    predecessorCtimeNanoseconds := predecessor.ctimeNanoseconds
    predecessorDigest := digest
    leaf := name }

def parseGenerationLeaf (name : Bytes) : Option GenerationLeaf :=
  if name.length ≤ entrySuffix.length ∨
      name.drop (name.length - entrySuffix.length) ≠ entrySuffix then none
  else
    let stem := name.take (name.length - entrySuffix.length)
    if stem = ascii "1" then some { generation := 1, leaf := name }
    else parseSuccessorStem stem name

/-- What `stat` tells about an entry. -/
structure FileStatus where
  device : Nat
  inode : Nat
  owner : Nat
  mode : Nat
  linkCount : Nat
  size : Int
  modificationTimeSeconds : Int
  modificationTimeNanoseconds : Int
  statusChangeTimeSeconds : Int
  statusChangeTimeNanoseconds : Int

/-- `XdgGenerationRecordIdentity`: the status with the permission bits of the
mode. -/
structure RecordIdentity where
  device : Nat
  inode : Nat
  owner : Nat
  mode : Nat
  linkCount : Nat
  size : Int
  modificationTimeSeconds : Int
  modificationTimeNanoseconds : Int
  statusChangeTimeSeconds : Int
  statusChangeTimeNanoseconds : Int
  deriving DecidableEq

def recordIdentityFromStatus (status : FileStatus) : RecordIdentity where
  device := status.device
  inode := status.inode
  owner := status.owner
  mode := status.mode &&& 0o7777
  linkCount := status.linkCount
  size := status.size
  modificationTimeSeconds := status.modificationTimeSeconds
  modificationTimeNanoseconds := status.modificationTimeNanoseconds
  statusChangeTimeSeconds := status.statusChangeTimeSeconds
  statusChangeTimeNanoseconds := status.statusChangeTimeNanoseconds

/-- The cast of a signed value to `uintmax_t`. -/
def toUintmax (value : Int) : Nat := (value % 2 ^ 64).toNat

/-- The device is no part of the binding: it can be renumbered. -/
def matchesPredecessorBinding (leaf : GenerationLeaf) (predecessor : FileStatus)
    (predecessorDigest : Bytes) : Bool :=
  leaf.hasPredecessor && leaf.predecessorInode = predecessor.inode &&
    leaf.predecessorCtimeSeconds = toUintmax predecessor.statusChangeTimeSeconds &&
    leaf.predecessorCtimeNanoseconds = toUintmax predecessor.statusChangeTimeNanoseconds &&
    leaf.predecessorDigest = predecessorDigest

inductive FileType
  | regular
  | directory
  | symlink
  | block
  | character
  | fifo
  | socket
  | unknown
  deriving DecidableEq

def fileTypeFromMode (mode : Nat) : FileType :=
  let kind := mode &&& 0o170000
  if kind = 0o100000 then .regular
  else if kind = 0o040000 then .directory
  else if kind = 0o120000 then .symlink
  else if kind = 0o060000 then .block
  else if kind = 0o020000 then .character
  else if kind = 0o010000 then .fifo
  else if kind = 0o140000 then .socket
  else .unknown

inductive StoreFailureKind
  | authorityUnavailable
  | directoryPreparationFailed
  | directoryUnavailable
  | unsupportedFileType
  | ownershipMismatch
  | unsafePermissions
  | multipleHardLinks
  | openFailed
  | lockFailed
  | readFailed
  | writeFailed
  | syncFailed
  | renameFailed
  | closeFailed
  | concurrentReplacement
  | futureSchemaOverwriteRefused
  | recordTooLarge
  | resourceFailure
  | internalFailure
  deriving DecidableEq

/-- A failure at an entry of the unit directory, or at the directory itself. -/
structure StoreFailure where
  kind : StoreFailureKind
  entry : Option Bytes := none
  observedFileType : Option FileType := none

def recordMode : Nat := 0o600

/-- A record is a regular file of the owner, mode 0600, with one link. -/
def validateEntryStatus (status : FileStatus) (entry : Bytes) (expectedOwner : Nat) :
    Option StoreFailure :=
  let fileType := fileTypeFromMode status.mode
  if fileType ≠ .regular then some ⟨.unsupportedFileType, some entry, some fileType⟩
  else if status.owner ≠ expectedOwner then some ⟨.ownershipMismatch, some entry, none⟩
  else if status.mode &&& 0o7777 ≠ recordMode then
    some ⟨.unsafePermissions, some entry, none⟩
  else if status.linkCount ≠ 1 then some ⟨.multipleHardLinks, some entry, none⟩
  else none

/-- A name is either the origin or names a predecessor, by its generation. -/
theorem parseGenerationLeaf_some {name : Bytes} {leaf : GenerationLeaf}
    (h : parseGenerationLeaf name = some leaf) :
    (leaf.generation = 1 ∧ leaf.hasPredecessor = false) ∨
      (2 ≤ leaf.generation ∧ leaf.hasPredecessor = true) := by
  unfold parseGenerationLeaf at h
  split at h
  · cases h
  · dsimp only at h
    split at h
    · injection h with h
      rw [← h]
      exact Or.inl ⟨rfl, rfl⟩
    · simp only [parseSuccessorStem, Option.bind_eq_bind, Option.bind_eq_some_iff] at h
      obtain ⟨_, _, _, _, _, _, generation, _, _, hatLeast, _, _, predecessor, _, h⟩ := h
      injection h with h
      rw [← h]
      refine Or.inr ⟨?_, rfl⟩
      simpa using hatLeast

end Moguet.Store.Record
