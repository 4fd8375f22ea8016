import Moguet.Verified.Fields
import Moguet.Verified.Hexadecimal
import Moguet.Install.Request

/-!
# Records of installed packages

What the helper observed of an installed package travels between two processes
as a few lines: a header, the fields in hexadecimal, and `END`. An observation
that failed is written in the same format, and a reader that cannot read its
input reports that as an observation too.
-/

namespace Moguet.Installed.Record

open Verified.ByteString Verified.Fields Verified.Hexadecimal Plan.Constraint Install.Request

inductive InstalledRecordObservationIssue
  | unsupportedDatabaseWorld
  | databaseWorldMismatch
  | databaseLoadFailure
  | missingPackage
  | malformedMetadata
  | metadataMismatch
  | unsafeRecord
  | recordChanged
  | readFailure
  | metadataTooLarge
  | unsupportedGeneration
  | generationMismatch
  | mtreeMismatch
  | recordDigestMismatch
  | missingBaseline
  | missingAnchor
  | operationMismatch
  | resourceFailure
  deriving DecidableEq

abbrev Issue := InstalledRecordObservationIssue

structure InstalledDatabaseWorld where
  rootDirectory : Bytes
  databasePath : Bytes
  descriptorIdentity : Bytes
  deriving DecidableEq

inductive InstalledDatabaseWorldResult
  | known (world : InstalledDatabaseWorld)
  | issue (issue : Issue)
  deriving DecidableEq

structure InstalledPackageRecordSnapshot where
  packageName : Bytes
  packageBase : Bytes
  fullVersion : Bytes
  architecture : Bytes
  recordGeneration : Bytes
  rawMtreeSha256 : Bytes
  rawDatabaseSha256 : Bytes
  descriptorIdentity : Bytes
  deriving DecidableEq

inductive InstalledPackageRecordObservation
  | snapshot (record : InstalledPackageRecordSnapshot)
  | absent
  | issue (issue : Issue)
  deriving DecidableEq

def maxProtocolBytes : Nat := 128 * 1024

def decodeHex (bytes : Bytes) : Except Issue Bytes :=
  if bytes.length % 2 ≠ 0 ∨ maxProtocolBytes < bytes.length then .error .malformedMetadata
  else
    match decodePairs bytes with
    | none => .error .malformedMetadata
    | some decoded => .ok decoded

def isFieldByte (b : UInt8) : Bool := 0x20 < b && b ≠ 0x7f && b ≠ byte '/'

def fieldValid (value : Bytes) : Bool :=
  value ≠ [] && value.length ≤ 4096 && value.all isFieldByte

/-- The enumerators in their order. -/
def issues : List Issue :=
  [.unsupportedDatabaseWorld, .databaseWorldMismatch, .databaseLoadFailure, .missingPackage,
    .malformedMetadata, .metadataMismatch, .unsafeRecord, .recordChanged, .readFailure,
    .metadataTooLarge, .unsupportedGeneration, .generationMismatch, .mtreeMismatch,
    .recordDigestMismatch, .missingBaseline, .missingAnchor, .operationMismatch,
    .resourceFailure]

/-- `ISSUE_NAMES`, with a last entry that names no issue. -/
def issueNames : List Bytes :=
  [ascii "UnsupportedDatabaseWorld", ascii "DatabaseWorldMismatch",
    ascii "DatabaseLoadFailure", ascii "MissingPackage", ascii "MalformedMetadata",
    ascii "MetadataMismatch", ascii "UnsafeRecord", ascii "RecordChanged",
    ascii "ReadFailure", ascii "MetadataTooLarge", ascii "UnsupportedGeneration",
    ascii "GenerationMismatch", ascii "MtreeMismatch", ascii "RecordDigestMismatch",
    ascii "MissingBaseline", ascii "MissingAnchor", ascii "OperationMismatch",
    ascii "ResourceFailure", ascii "invalid"]

def issueText (issue : Issue) : Except Issue Bytes :=
  let index := issues.idxOf issue
  if issueNames.length - 1 ≤ index then .error .malformedMetadata
  else .ok (issueNames.getD index [])

def parseIssue (value : Bytes) : Except Issue Issue :=
  let index := issueNames.dropLast.idxOf value
  match issues[index]? with
  | none => .error .malformedMetadata
  | some issue => .ok issue

theorem issueText_spec (issue : Issue) :
    ∃ text, issueText issue = .ok text ∧ parseIssue text = .ok issue ∧
      text.length ≤ 24 ∧ byte '\n' ∉ text ∧ 0 ∉ text := by
  cases issue <;> exact ⟨_, rfl, rfl, by decide⟩

/-- At most 16 lines without a zero byte, each terminated. -/
def lines (protocol : Bytes) : Except Issue (List Bytes) :=
  if maxProtocolBytes < protocol.length ∨ protocol = [] ∨
      protocol.getLast? ≠ some (byte '\n') ∨ 0 ∈ protocol then .error .malformedMetadata
  else
    takeLines (byte '\n') .malformedMetadata .malformedMetadata 16 protocol.length [] protocol

/-- The bytes of a record that starts with the key. -/
def value (line key : Bytes) : Except Issue Bytes :=
  match recordValue key line with
  | none => .error .malformedMetadata
  | some hexadecimal => decodeHex hexadecimal

def worldHeader : Bytes := ascii "MOGUET-INSTALLED-DATABASE-WORLD\t1"

def serializeFailure (header : Bytes) (issue : Issue) : Except Issue Bytes := do
  let text ← issueText issue
  .ok (header ++ ascii "\n" ++ ascii "FAILURE\t" ++ text ++ ascii "\nEND\n")

def serializeInstalledDatabaseWorld :
    InstalledDatabaseWorldResult → Except Issue Bytes
  | .issue issue => serializeFailure worldHeader issue
  | .known known =>
    .ok (worldHeader ++ ascii "\n" ++ ascii "ROOT\t" ++ hexBytes known.rootDirectory ++
      ascii "\nDB\t" ++ hexBytes known.databasePath ++
      ascii "\nIDENTITY\t" ++ hexBytes known.descriptorIdentity ++ ascii "\nEND\n")

/-- The issue a failure record names. -/
def parseFailure (record : Bytes) : Except Issue Issue :=
  match recordValue (ascii "FAILURE\t") record with
  | none => .error .malformedMetadata
  | some name => parseIssue name

def readInstalledDatabaseWorld (protocol : Bytes) :
    Except Issue InstalledDatabaseWorldResult := do
  let records ← lines protocol
  if records.head? ≠ some worldHeader ∨ records.getLast? ≠ some (ascii "END") then
    .error .malformedMetadata
  else
    match records with
    | [_, failure, _] =>
      let issue ← parseFailure failure
      .ok (.issue issue)
    | [_, root, database, identity, _] =>
      let rootDirectory ← value root (ascii "ROOT\t")
      let databasePath ← value database (ascii "DB\t")
      let descriptorIdentity ← value identity (ascii "IDENTITY\t")
      let world : InstalledDatabaseWorld := ⟨rootDirectory, databasePath, descriptorIdentity⟩
      if rootDirectory ≠ ascii "/" ∨ databasePath = [] ∨
          databasePath.head? ≠ some (byte '/') ∨ 0 ∈ databasePath ∨
          descriptorIdentity = [] ∨
          serializeInstalledDatabaseWorld (.known world) ≠ .ok protocol then
        .error .malformedMetadata
      else .ok (.known world)
    | _ => .error .malformedMetadata

/-- Whatever is thrown on the way is reported as one issue. -/
def parseInstalledDatabaseWorld (protocol : Bytes) : InstalledDatabaseWorldResult :=
  match readInstalledDatabaseWorld protocol with
  | .ok world => world
  | .error _ => .issue .malformedMetadata

def recordHeader : Bytes := ascii "MOGUET-INSTALLED-PACKAGE-RECORD\t1"

def serializeInstalledPackageRecordObservation :
    InstalledPackageRecordObservation → Except Issue Bytes
  | .issue issue => serializeFailure recordHeader issue
  | .absent => .ok (recordHeader ++ ascii "\n" ++ ascii "ABSENT\nEND\n")
  | .snapshot record =>
    .ok (recordHeader ++ ascii "\n" ++ ascii "NAME\t" ++ hexBytes record.packageName ++
      ascii "\nBASE\t" ++ hexBytes record.packageBase ++
      ascii "\nVERSION\t" ++ hexBytes record.fullVersion ++
      ascii "\nARCH\t" ++ hexBytes record.architecture ++
      ascii "\nGENERATION\t" ++ hexBytes record.recordGeneration ++
      ascii "\nMTREE\t" ++ record.rawMtreeSha256 ++
      ascii "\nDATABASE\t" ++ record.rawDatabaseSha256 ++
      ascii "\nIDENTITY\t" ++ hexBytes record.descriptorIdentity ++ ascii "\nEND\n")

/-- What a snapshot that is read must satisfy. -/
def snapshotValid (record : InstalledPackageRecordSnapshot) : Bool :=
  isValidPackageName record.packageName && isValidPackageName record.packageBase &&
    fieldValid record.fullVersion && fieldValid record.architecture &&
    record.recordGeneration ≠ [] && record.recordGeneration.length ≤ 1024 &&
    !record.recordGeneration.contains 0 && record.descriptorIdentity ≠ [] &&
    isValidSourceArtifactInstallSha256 record.rawMtreeSha256 &&
    isValidSourceArtifactInstallSha256 record.rawDatabaseSha256

/-- A record without hexadecimal. -/
def plainValue (line key : Bytes) : Except Issue Bytes :=
  match recordValue key line with
  | none => .error .malformedMetadata
  | some plain => .ok plain

def readInstalledPackageRecordObservation (protocol : Bytes) :
    Except Issue InstalledPackageRecordObservation := do
  let records ← lines protocol
  if records.head? ≠ some recordHeader ∨ records.getLast? ≠ some (ascii "END") then
    .error .malformedMetadata
  else
    match records with
    | [_, record, _] =>
      if record = ascii "ABSENT" then .ok .absent
      else do
        let issue ← parseFailure record
        .ok (.issue issue)
    | [_, name, base, version, architecture, generation, mtree, database, identity, _] =>
      let rawMtreeSha256 ← plainValue mtree (ascii "MTREE\t")
      let rawDatabaseSha256 ← plainValue database (ascii "DATABASE\t")
      let packageName ← value name (ascii "NAME\t")
      let packageBase ← value base (ascii "BASE\t")
      let fullVersion ← value version (ascii "VERSION\t")
      let architecture ← value architecture (ascii "ARCH\t")
      let recordGeneration ← value generation (ascii "GENERATION\t")
      let descriptorIdentity ← value identity (ascii "IDENTITY\t")
      let record : InstalledPackageRecordSnapshot :=
        ⟨packageName, packageBase, fullVersion, architecture, recordGeneration,
          rawMtreeSha256, rawDatabaseSha256, descriptorIdentity⟩
      if snapshotValid record = false ∨
          serializeInstalledPackageRecordObservation (.snapshot record) ≠ .ok protocol then
        .error .malformedMetadata
      else .ok (.snapshot record)
    | _ => .error .malformedMetadata

def parseInstalledPackageRecordObservation (protocol : Bytes) :
    InstalledPackageRecordObservation :=
  match readInstalledPackageRecordObservation protocol with
  | .ok observation => observation
  | .error _ => .issue .malformedMetadata

end Moguet.Installed.Record
