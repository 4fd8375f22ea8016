import Moguet.Verified.KeyedList
import Moguet.Verified.ByteString

/-!
# Reviewed source trees

The data of a source review: opaque Git paths, object identifiers, file
versions, the inventory of a tree and the changes between two trees. Values
that the factories of the source refuse cannot be built: a path is not empty
and has no NUL byte, an identifier is a complete lower-case hash, a version
has a blob size exactly when it is not a submodule link, and an inventory
lists every path once.
-/

namespace Moguet.Review.Projection

open Verified.ByteString Verified.KeyedList

structure ReviewedSourcePath where
  rawBytes : Bytes
  nonempty : rawBytes ≠ []
  no_nul : 0 ∉ rawBytes
  deriving DecidableEq

def ReviewedSourcePath.make (rawBytes : Bytes) : Option ReviewedSourcePath :=
  if h : rawBytes ≠ [] ∧ 0 ∉ rawBytes then some ⟨rawBytes, h.1, h.2⟩ else none

inductive GitObjectFormat
  | sha1
  | sha256
  deriving DecidableEq

def detectObjectFormat (objectId : Bytes) : Option GitObjectFormat :=
  if objectId.length = 40 then some .sha1
  else if objectId.length = 64 then some .sha256
  else none

structure ReviewedSourceObjectId where
  format : GitObjectFormat
  value : Bytes
  complete : detectObjectFormat value = some format
  lower_hex : value.all isLowerHex = true
  deriving DecidableEq

def ReviewedSourceObjectId.make (objectId : Bytes) : Option ReviewedSourceObjectId :=
  match hformat : detectObjectFormat objectId with
  | none => none
  | some format =>
    if hhex : objectId.all isLowerHex = true then
      some ⟨format, objectId, hformat, hhex⟩
    else none

/-- The identifier that repeats one digit. -/
def ReviewedSourceObjectId.repeated (digit : UInt8) (hhex : isLowerHex digit = true) :
    ReviewedSourceObjectId :=
  ⟨.sha1, List.replicate 40 digit, by simp [detectObjectFormat], by simp [hhex]⟩

inductive ReviewedSourceFileMode
  | regular
  | executable
  | symbolicLink
  | gitlink
  deriving DecidableEq

inductive ReviewedSourceFileType
  | regular
  | symbolicLink
  | gitlink
  deriving DecidableEq

def reviewedSourceFileType : ReviewedSourceFileMode → ReviewedSourceFileType
  | .regular | .executable => .regular
  | .symbolicLink => .symbolicLink
  | .gitlink => .gitlink

structure ReviewedSourceFileVersion where
  path : ReviewedSourcePath
  mode : ReviewedSourceFileMode
  objectId : ReviewedSourceObjectId
  blobSize : Option Nat
  consistent : mode = .gitlink ↔ blobSize = none
  deriving DecidableEq

def ReviewedSourceFileVersion.make (path : ReviewedSourcePath)
    (mode : ReviewedSourceFileMode) (objectId : ReviewedSourceObjectId)
    (blobSize : Option Nat) : Option ReviewedSourceFileVersion :=
  if h : mode = .gitlink ↔ blobSize = none then
    some ⟨path, mode, objectId, blobSize, h⟩
  else none

inductive ReviewedSourceContentChange
  | text (addedLines deletedLines : Nat)
  | binary

inductive ReviewedSourceFileChange
  | added (newVersion : ReviewedSourceFileVersion)
      (content : ReviewedSourceContentChange)
  | modified (oldVersion newVersion : ReviewedSourceFileVersion)
      (content : ReviewedSourceContentChange)
  | deleted (oldVersion : ReviewedSourceFileVersion)
      (content : ReviewedSourceContentChange)
  | renamed (oldVersion newVersion : ReviewedSourceFileVersion) (similarity : Nat)
      (content : ReviewedSourceContentChange)
  | typeChanged (oldVersion newVersion : ReviewedSourceFileVersion)
      (content : ReviewedSourceContentChange)

/-- The key of a version in its inventory. -/
def ReviewedSourceFileVersion.rawPath (version : ReviewedSourceFileVersion) : Bytes :=
  version.path.rawBytes

structure ReviewedSourceTreeInventory where
  entries : List ReviewedSourceFileVersion
  unique_paths : Unique ReviewedSourceFileVersion.rawPath entries

/-- `inventory_map` and `find_entry`: the version under a path. -/
def findEntry (inventory : ReviewedSourceTreeInventory) (path : Bytes) :
    Option ReviewedSourceFileVersion :=
  lookup ReviewedSourceFileVersion.rawPath inventory.entries path

end Moguet.Review.Projection
