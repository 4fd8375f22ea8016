import Mathlib.Data.List.Sort
import Moguet.Installed.Record
import Moguet.Store.Sha256
import Moguet.Verified.Decimal
import Moguet.Verified.Dialogue

/-!
# Observing an installed package

`resolve_trusted_installed_database_world` and
`observe_installed_package_record`: the database directory is opened component
by component, the entries of a package are read and compared with what libalpm
says of it, and every descriptor is compared with its name again at the end.
The file system, libalpm and `pacman-conf` are asked; an exception is a stage
that is left with its issue.
-/

namespace Moguet.Installed.Observation

open Verified ByteString Decimal Dialogue Hexadecimal
open Plan.Constraint (isValidPackageName)
open Store.Sha256 Record

/-- What is read of a `struct stat`. -/
structure FileStatus where
  device : UInt64
  inode : UInt64
  mode : UInt32
  owner : UInt32
  group : UInt32
  links : UInt64
  size : Int64
  mtimeSeconds : Int64
  mtimeNanoseconds : Int64
  ctimeSeconds : Int64
  ctimeNanoseconds : Int64

/-- What is read of a `struct statfs`. -/
structure FilesystemMetadata where
  type : UInt64
  fsid : UInt32 × UInt32

/-- What `name_to_handle_at` leaves behind. -/
structure HandleAnswer where
  result : Int
  overflow : Bool
  handleBytes : Nat
  handleType : Int32
  memory : Nat → UInt8

inductive PackageAnswer
  | failure
  | notFound
  | found

inductive GetterAnswer
  | failure
  | null
  | text (value : Bytes)

/-- The requests of an observation. `readdir` is the whole listing of a
directory, `pread` a file read to its size, and `databaseConfiguration` the
output of `pacman-conf`. -/
inductive ObservationRequest
  | openat (parent : Int) (name : Bytes) (directory : Bool)
  | fstat (descriptor : Int)
  | fstatat (parent : Int) (name : Bytes)
  | readdir (descriptor : Int)
  | pread (descriptor : Int) (size : Nat)
  | fstatfs (descriptor : Int)
  | nameToHandle (descriptor : Int) (handleBytes : Nat)
  | openDatabase (databasePath : Bytes)
  | getPackage (name : Bytes)
  | getter (index : Nat)
  | getFiles
  | databaseConfiguration

def ObservationAnswer : ObservationRequest → Type
  | .openat _ _ _ => Int
  | .fstat _ => Option FileStatus
  | .fstatat _ _ => Option FileStatus
  | .readdir _ => Option (List Bytes)
  | .pread _ size => Option { contents : Bytes // contents.length = size }
  | .fstatfs _ => Option FilesystemMetadata
  | .nameToHandle _ _ => HandleAnswer
  | .openDatabase _ => Bool
  | .getPackage _ => PackageAnswer
  | .getter _ => GetterAnswer
  | .getFiles => Bool
  | .databaseConfiguration => Option Bytes

/-- A part of an observation, left with the issue that is thrown in it. -/
abbrev Observing (α : Type) : Type := Stage ObservationRequest ObservationAnswer Unit Issue α

def ask (request : ObservationRequest) : Observing (ObservationAnswer request) :=
  Stage.query () request

/-- Go on with what was computed, or leave with its issue. -/
def ofExcept {α : Type} (computed : Except Issue α) : Observing α := .done computed

def ofOption {α : Type} (otherwise : Issue) : Option α → Observing α
  | none => Stage.leave otherwise
  | some value => Stage.pure value

structure Identity where
  device : UInt64
  inode : UInt64
  mode : UInt64
  owner : UInt64
  group : UInt64
  links : UInt64
  size : UInt64
  mtimeSeconds : Int64
  mtimeNanoseconds : Int64
  ctimeSeconds : Int64
  ctimeNanoseconds : Int64
  deriving DecidableEq

/-- What changes with the contents counts only where they matter. -/
def Identity.fromStat (metadata : FileStatus) (contents : Bool) : Identity where
  device := metadata.device
  inode := metadata.inode
  mode := metadata.mode.toUInt64
  owner := metadata.owner.toUInt64
  group := metadata.group.toUInt64
  links := if contents then metadata.links else 0
  size := if contents then metadata.size.toUInt64 else 0
  mtimeSeconds := if contents then metadata.mtimeSeconds else 0
  mtimeNanoseconds := if contents then metadata.mtimeNanoseconds else 0
  ctimeSeconds := if contents then metadata.ctimeSeconds else 0
  ctimeNanoseconds := if contents then metadata.ctimeNanoseconds else 0

/-- `std::to_string` on a signed value. -/
def writeSigned (value : Int64) : Bytes :=
  if value.toInt < 0 then byte '-' :: writeUnsigned value.toInt.natAbs
  else writeUnsigned value.toInt.natAbs

def writeWord (value : UInt64) : Bytes := writeUnsigned value.toNat

def Identity.encode (identity : Identity) : Bytes :=
  writeWord identity.device ++ ascii ":" ++ writeWord identity.inode ++ ascii ":" ++
    writeWord identity.mode ++ ascii ":" ++ writeWord identity.owner ++ ascii ":" ++
    writeWord identity.group ++ ascii ":" ++ writeWord identity.links ++ ascii ":" ++
    writeWord identity.size ++ ascii ":" ++ writeSigned identity.mtimeSeconds ++ ascii ":" ++
    writeSigned identity.mtimeNanoseconds ++ ascii ":" ++
    writeSigned identity.ctimeSeconds ++ ascii ":" ++ writeSigned identity.ctimeNanoseconds

structure RetainedEntry where
  descriptor : Int
  parent : Int
  name : Bytes
  identity : Identity
  contents : Bool

/-- The descriptor and the name still lead to what was opened. -/
def RetainedEntry.reprove (entry : RetainedEntry) : Observing Unit := do
  let retained ← ask (.fstat entry.descriptor)
  let retained ← ofOption .recordChanged retained
  let named ← ask (.fstatat entry.parent entry.name)
  let named ← ofOption .recordChanged named
  Stage.require (Identity.fromStat retained entry.contents = entry.identity ∧
    Identity.fromStat named entry.contents = entry.identity) .recordChanged

def reproveAll : List RetainedEntry → Observing Unit
  | [] => Stage.pure ()
  | entry :: rest => do
      entry.reprove
      reproveAll rest

def isDirectoryMode (mode : UInt32) : Bool := mode &&& 0o170000 = 0o040000

def isRegularMode (mode : UInt32) : Bool := mode &&& 0o170000 = 0o100000

/-- Neither group nor others may write, and no identity is taken over. -/
def isSafeMode (mode : UInt32) : Bool := mode &&& 0o6022 = 0

def openEntry (parent : Int) (name : Bytes) (directory contents : Bool)
    (executable : Bool := false) : Observing RetainedEntry := do
  let descriptor ← ask (.openat parent name directory)
  let descriptor : Int := descriptor
  Stage.require (0 ≤ descriptor) .unsafeRecord
  let metadata ← ask (.fstat descriptor)
  let metadata ← ofOption .readFailure metadata
  Stage.require
    (metadata.owner = 0 ∧ isSafeMode metadata.mode ∧ ¬ metadata.size < 0 ∧
      metadata.links ≠ 0 ∧
      (if directory then isDirectoryMode metadata.mode
        else isRegularMode metadata.mode && metadata.links = 1) ∧
      ¬ (executable ∧ metadata.mode &&& 0o100 = 0))
    .unsafeRecord
  let entry : RetainedEntry :=
    ⟨descriptor, parent, name, Identity.fromStat metadata contents, contents⟩
  entry.reprove
  Stage.pure entry

/-- `AT_FDCWD`. -/
def currentDirectory : Int := -100

/-- The components of the path, each below the one before it. -/
def openComponents : List RetainedEntry → Int → List Bytes →
    Observing (List RetainedEntry × Int)
  | entries, parent, [] => Stage.pure (entries, parent)
  | entries, parent, name :: rest => do
      Stage.require (name ≠ [] ∧ name ≠ ascii "." ∧ name ≠ ascii "..")
        .unsupportedDatabaseWorld
      let entry ← openEntry parent name true false
      Stage.require ((entries ++ [entry]).length ≤ 128) .unsupportedDatabaseWorld
      openComponents (entries ++ [entry]) entry.descriptor rest

/-- `DatabaseDescriptors`: the root, the components and `local`. -/
structure DatabaseDescriptors where
  entries : List RetainedEntry
  localDirectory : Int

def DatabaseDescriptors.open (databasePath : Bytes) : Observing DatabaseDescriptors := do
  Stage.require
    (databasePath ≠ [] ∧ databasePath.head? = some (byte '/') ∧ databasePath.length ≤ 4096 ∧
      0 ∉ databasePath ∧ databasePath.getLast? ≠ some (byte '/'))
    .unsupportedDatabaseWorld
  let root ← openEntry currentDirectory (ascii "/") true false
  let opened ← openComponents [root] root.descriptor
    ((databasePath.drop 1).splitOn (byte '/'))
  let localEntry ← openEntry opened.2 (ascii "local") true false
  let entries := opened.1 ++ [localEntry]
  reproveAll entries
  Stage.pure ⟨entries, localEntry.descriptor⟩

def DatabaseDescriptors.identity (database : DatabaseDescriptors) : Bytes :=
  database.entries.flatMap fun entry => entry.identity.encode ++ ascii ";"

def filesystemIdentity (metadata : FilesystemMetadata) : Bytes :=
  ascii "fs=" ++ hexInteger metadata.type.toNat 16 ++ ascii "|fsid=" ++
    hexInteger metadata.fsid.1.toNat 8 ++ hexInteger metadata.fsid.2.toNat 8

def filesystemMetadata (descriptor : Int) : Observing FilesystemMetadata := do
  let metadata ← ask (.fstatfs descriptor)
  ofOption .unsupportedGeneration metadata

def maximumHandleBytes : Nat := 128

def generationText (filesystem : Bytes) (handleType : Int32) (handle : Bytes) : Bytes :=
  ascii "linux-name-to-handle-at-v1|" ++ filesystem ++ ascii "|type=" ++
    hexInteger handleType.toUInt32.toNat 8 ++ ascii "|length=" ++
    writeUnsigned handle.length ++ ascii "|handle=" ++ hexBytes handle

def recordGeneration (descriptor : Int) : Observing Bytes := do
  let before ← filesystemMetadata descriptor
  let filesystem := filesystemIdentity before
  let sizing ← ask (.nameToHandle descriptor 0)
  let sizing : HandleAnswer := sizing
  Stage.require (sizing.result = -1 ∧ sizing.overflow ∧ sizing.handleBytes ≠ 0 ∧
    sizing.handleBytes ≤ maximumHandleBytes) .unsupportedGeneration
  let requested := sizing.handleBytes
  let handle ← ask (.nameToHandle descriptor requested)
  let handle : HandleAnswer := handle
  Stage.require (handle.result = 0 ∧ handle.handleBytes = requested ∧ 0 < handle.handleType)
    .unsupportedGeneration
  let contents := (List.range requested).map handle.memory
  let after ← filesystemMetadata descriptor
  Stage.require (filesystemIdentity after = filesystem) .generationMismatch
  Stage.pure (generationText filesystem handle.handleType contents)

def maximumMetadataBytes : Nat := 4 * 1024 * 1024

def maximumMtreeBytes : Nat := 64 * 1024 * 1024

def readRaw (entry : RetainedEntry) (limit : Nat) (text : Bool) : Observing Bytes := do
  Stage.require (entry.identity.size.toNat ≤ limit) .metadataTooLarge
  let contents ← ask (.pread entry.descriptor entry.identity.size.toNat)
  let contents ← ofOption .readFailure contents
  entry.reprove
  Stage.require (¬ (text ∧ 0 ∈ contents.val)) .malformedMetadata
  Stage.pure contents.val

/-- The four values of `desc_core`, in the order of its keys. -/
structure PackageCore where
  packageName : Bytes := []
  packageBase : Bytes := []
  fullVersion : Bytes := []
  architecture : Bytes := []
  deriving DecidableEq

/-- A core value under its key. -/
def PackageCore.set (core : PackageCore) (key value : Bytes) : PackageCore :=
  if key = ascii "%NAME%" then { core with packageName := value }
  else if key = ascii "%BASE%" then { core with packageBase := value }
  else if key = ascii "%VERSION%" then { core with fullVersion := value }
  else if key = ascii "%ARCH%" then { core with architecture := value }
  else core

def isCoreKey (key : Bytes) : Bool :=
  key = ascii "%NAME%" || key = ascii "%BASE%" || key = ascii "%VERSION%" ||
    key = ascii "%ARCH%"

/-- The section that is being read: its key, its last value and how many. -/
structure DescSection where
  key : Bytes
  value : Bytes := []
  values : Nat := 0

/-- The keys read so far and the core they gave. -/
structure DescState where
  seen : List Bytes := []
  core : PackageCore := {}

/-- The two loops of `desc_core`: outside a section a line is a key or empty,
inside it a value or the empty line that ends it. -/
def readDesc : Option DescSection → DescState → List Bytes → Except Issue DescState
  | none, state, [] => .ok state
  | some _, _, [] => .error .malformedMetadata
  | none, state, line :: rest =>
    if line = [] then readDesc none state rest
    else if line.length < 3 ∨ line.head? ≠ some (byte '%') ∨
        line.getLast? ≠ some (byte '%') ∨ line ∈ state.seen then .error .malformedMetadata
    else readDesc (some { key := line }) { state with seen := state.seen ++ [line] } rest
  | some own, state, line :: rest =>
    if line = [] then
      if isCoreKey own.key then
        if own.values ≠ 1 ∨ fieldValid own.value = false then .error .malformedMetadata
        else readDesc none { state with core := state.core.set own.key own.value } rest
      else readDesc none state rest
    else if own.key = ascii "%XDATA%" ∧ byte '=' ∉ line then .error .malformedMetadata
    else readDesc (some { own with value := line, values := own.values + 1 }) state rest

/-- `desc_core`. The text ends with a line end, so what follows the last one is
empty. -/
def descCore (raw : Bytes) : Except Issue PackageCore :=
  if raw = [] ∨ raw.getLast? ≠ some (byte '\n') ∨ 0 ∈ raw then .error .malformedMetadata
  else
    match readDesc none {} (raw.splitOn (byte '\n')).dropLast with
    | .error issue => .error issue
    | .ok state =>
      let core := state.core
      if core.packageName = [] ∨ core.packageBase = [] ∨ core.fullVersion = [] ∨
          core.architecture = [] ∨ isValidPackageName core.packageName = false ∨
          isValidPackageName core.packageBase = false then .error .malformedMetadata
      else .ok core

/-- `core[0] + "-" + core[2]`. -/
def PackageCore.leaf (core : PackageCore) : Bytes :=
  core.packageName ++ ascii "-" ++ core.fullVersion

def maxLocalEntries : Nat := 65536

def relevantEntries (localDirectory : Int) (name : Bytes) : Observing (List Bytes) := do
  let listed ← ask (.readdir localDirectory)
  let listed ← ofOption .databaseLoadFailure listed
  Stage.require (listed.length ≤ maxLocalEntries) .metadataTooLarge
  Stage.pure ((listed.filter fun leaf => (name ++ ascii "-").isPrefixOf leaf).insertionSort
    (· ≤ ·))

/-- The entry that was selected for the package, with what was read of it. -/
structure SelectedRecord where
  leaf : Bytes
  record : RetainedEntry
  desc : RetainedEntry
  files : RetainedEntry
  mtree : RetainedEntry
  core : PackageCore
  rawDesc : Bytes

def admitEntries (localDirectory : Int) (name : Bytes) :
    List Bytes → Option SelectedRecord → Observing (Option SelectedRecord)
  | [], selected => Stage.pure selected
  | leaf :: rest, selected => do
      let candidate ← openEntry localDirectory leaf true true
      let desc ← openEntry candidate.descriptor (ascii "desc") false true
      let files ← openEntry candidate.descriptor (ascii "files") false true
      let mtree ← openEntry candidate.descriptor (ascii "mtree") false true
      let rawDesc ← readRaw desc maximumMetadataBytes true
      let core ← ofExcept (descCore rawDesc)
      candidate.reprove
      Stage.require (leaf = core.leaf) .malformedMetadata
      if core.packageName ≠ name then admitEntries localDirectory name rest selected
      else if selected.isSome then Stage.leave .malformedMetadata
      else
        admitEntries localDirectory name rest
          (some ⟨leaf, candidate, desc, files, mtree, core, rawDesc⟩)

/-- The files libalpm will read are bounded before it reads them. -/
def admitFiles : Option SelectedRecord → Observing Bytes
  | none => Stage.pure []
  | some selected => do
      selected.desc.reprove
      selected.files.reprove
      selected.mtree.reprove
      selected.record.reprove
      readRaw selected.files maximumMetadataBytes true

def semanticField (index : Nat) : Observing Bytes := do
  let answer ← ask (.getter index)
  match answer with
  | GetterAnswer.failure => Stage.leave .databaseLoadFailure
  | GetterAnswer.null => Stage.leave .malformedMetadata
  | GetterAnswer.text value =>
    if fieldValid value then Stage.pure value else Stage.leave .malformedMetadata

def semanticCore : Observing PackageCore := do
  let packageName ← semanticField 0
  let packageBase ← semanticField 1
  let fullVersion ← semanticField 2
  let architecture ← semanticField 3
  let loaded ← ask .getFiles
  Stage.require loaded .databaseLoadFailure
  Stage.pure ⟨packageName, packageBase, fullVersion, architecture⟩

/-- The bytes of the two text files, each after its name and a zero byte. -/
def databasePreimage (rawDesc rawFiles : Bytes) : Bytes :=
  ascii "desc" ++ [0] ++ rawDesc ++ (ascii "files" ++ [0]) ++ rawFiles

/-- The snapshot of a selected record that libalpm agrees with. -/
def snapshotRecord (database : DatabaseDescriptors) (name : Bytes) (entriesBefore : List Bytes)
    (selected : SelectedRecord) (admittedFiles : Bytes) :
    Observing InstalledPackageRecordObservation := do
  let semantic ← semanticCore
  Stage.require (semantic = selected.core ∧ selected.leaf = semantic.leaf) .metadataMismatch
  selected.record.reprove
  selected.desc.reprove
  let generation ← recordGeneration selected.record.descriptor
  let rawDesc ← readRaw selected.desc maximumMetadataBytes true
  let rawFiles ← readRaw selected.files maximumMetadataBytes true
  let rawMtree ← readRaw selected.mtree maximumMtreeBytes false
  Stage.require (rawMtree ≠ []) .malformedMetadata
  Stage.require (rawDesc = selected.rawDesc ∧ rawFiles = admittedFiles) .recordChanged
  let core ← ofExcept (descCore rawDesc)
  Stage.require (core = semantic) .metadataMismatch
  let again ← recordGeneration selected.record.descriptor
  Stage.require (again = generation) .generationMismatch
  selected.desc.reprove
  selected.files.reprove
  selected.mtree.reprove
  selected.record.reprove
  reproveAll database.entries
  let entriesAfter ← relevantEntries database.localDirectory name
  Stage.require (entriesBefore = entriesAfter) .recordChanged
  Stage.pure (.snapshot {
    packageName := semantic.packageName
    packageBase := semantic.packageBase
    fullVersion := semantic.fullVersion
    architecture := semantic.architecture
    recordGeneration := generation
    rawMtreeSha256 := rawContentsSha256 rawMtree
    rawDatabaseSha256 := rawContentsSha256 (databasePreimage rawDesc rawFiles)
    descriptorIdentity :=
      selected.record.identity.encode ++ ascii ";" ++ selected.desc.identity.encode ++
        ascii ";" ++ selected.files.identity.encode ++ ascii ";" ++
        selected.mtree.identity.encode })

def observeRecord (world : InstalledDatabaseWorld) (name : Bytes) :
    Observing InstalledPackageRecordObservation := do
  Stage.require (world.rootDirectory = ascii "/" ∧ isValidPackageName name)
    .unsupportedDatabaseWorld
  let database ← DatabaseDescriptors.open world.databasePath
  Stage.require (database.identity = world.descriptorIdentity) .databaseWorldMismatch
  let entriesBefore ← relevantEntries database.localDirectory name
  let selected ← admitEntries database.localDirectory name entriesBefore none
  let admittedFiles ← admitFiles selected
  reproveAll database.entries
  let loaded ← ask (.openDatabase world.databasePath)
  Stage.require loaded .databaseLoadFailure
  let answer ← ask (.getPackage name)
  match answer, selected with
  | PackageAnswer.failure, _ => Stage.leave .databaseLoadFailure
  | PackageAnswer.notFound, some _ => Stage.leave .databaseLoadFailure
  | PackageAnswer.notFound, none => do
      reproveAll database.entries
      let entriesAfter ← relevantEntries database.localDirectory name
      Stage.require (entriesBefore = entriesAfter) .recordChanged
      Stage.pure .absent
  | PackageAnswer.found, none => Stage.leave .metadataMismatch
  | PackageAnswer.found, some selected =>
    snapshotRecord database name entriesBefore selected admittedFiles

/-- An exception becomes the observation. -/
def caught {α ρ : Type} (value : α → ρ) (issue : Issue → ρ) (stage : Observing α) :
    Program ObservationRequest ObservationAnswer Unit ρ :=
  Program.bind stage fun
    | .ok observed => .done (value observed)
    | .error thrown => .done (issue thrown)

def observeInstalledPackageRecord (world : InstalledDatabaseWorld) (name : Bytes) :
    Program ObservationRequest ObservationAnswer Unit InstalledPackageRecordObservation :=
  caught id .issue (observeRecord world name)

def configurationStart : Bytes := ascii "RootDir = /\nDBPath = "

/-- The database path that `pacman-conf` writes. -/
def configuredDatabasePath (configuration : Bytes) : Except Issue Bytes :=
  if configurationStart.isPrefixOf configuration = false ∨
      configuration.getLast? ≠ some (byte '\n') then .error .unsupportedDatabaseWorld
  else
    let path := (configuration.drop configurationStart.length).dropLast
    if byte '\n' ∈ path then .error .unsupportedDatabaseWorld
    else if 1 < path.length ∧ path.getLast? = some (byte '/') then .ok path.dropLast
    else .ok path

def resolveWorld : Observing InstalledDatabaseWorld := do
  let configuration ← ask .databaseConfiguration
  let configuration ← ofOption .unsupportedDatabaseWorld configuration
  let databasePath ← ofExcept (configuredDatabasePath configuration)
  let descriptors ← DatabaseDescriptors.open databasePath
  Stage.pure ⟨ascii "/", databasePath, descriptors.identity⟩

/-- Every exception is one issue here. -/
def resolveTrustedInstalledDatabaseWorld :
    Program ObservationRequest ObservationAnswer Unit InstalledDatabaseWorldResult :=
  caught .known (fun _ => .issue .unsupportedDatabaseWorld) resolveWorld

end Moguet.Installed.Observation
