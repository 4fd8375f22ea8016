import Moguet.Verified.Checked
import Moguet.Verified.Decimal
import Moguet.Verified.Fields
import Moguet.Plan.Constraint

/-!
# The protocol of a privileged artifact install

The unprivileged side hands a request to a helper that runs as root, and both
sides exchange it as text. This module has the data of a request, the checks
that both sides make of it, and the readers and writers of one record.
-/

namespace Moguet.Install.Request

open Verified.ByteString Verified.Decimal Verified.Fields Plan.Constraint

def maximumArtifacts : Nat := 1024

def maximumArtifactBytes : Nat := 4 * 1024 * 1024 * 1024

def maximumTransactionBytes : Nat := 8 * 1024 * 1024 * 1024

def maximumSignatureBytes : Nat := 16 * 1024 * 1024

def maximumProtocolBytes : Nat := 16 * 1024 * 1024

def trustedAlpmReceiptTokenHexLength : Nat := 64

def trustedAlpmReceiptMaximumPackages : Nat := 100000

inductive TrustedPurpose
  | cleanupInstallOnly
  | exactInstalledBinding
  | legacyArtifactInstall
  deriving DecidableEq

inductive TrustedDirective
  | preserveExistingReason
  | asDependency
  | asExplicit
  deriving DecidableEq

inductive TrustedProtocolIssueKind
  | invalidCommand
  | invalidArgumentCount
  | invalidTransactionToken
  | missingArgumentSeparator
  | invalidPackageBase
  | invalidDirective
  | invalidBoolean
  | emptyArtifactSet
  | tooManyArtifacts
  | invalidArtifactIndex
  | duplicateArtifactIndex
  | invalidPackageName
  | duplicatePackageName
  | invalidVersion
  | invalidArchitecture
  | artifactPackageBaseMismatch
  | invalidArtifactSize
  | invalidSignatureSize
  | transactionTooLarge
  | inputTooLarge
  | missingFinalNewline
  | invalidHeader
  | truncatedProtocol
  | unexpectedRecord
  | invalidHookDirectory
  | invalidStagedArtifactPath
  | invalidReceiptState
  | invalidDigest
  deriving DecidableEq

/-- A reader reports an issue; a writer throws `std::invalid_argument`. -/
inductive TrustedProtocolFailure
  | issue (kind : TrustedProtocolIssueKind)
  | invalidArgument (message : String)
  deriving DecidableEq

abbrev Protocol := Except TrustedProtocolFailure

structure RootArtifactExpectation where
  artifactIndex : Nat
  packageName : Bytes
  fullVersion : Bytes
  packageBase : Bytes
  architecture : Bytes
  artifactSize : Nat
  signatureSize : Nat
  archiveSha256 : Bytes
  signatureSha256 : Bytes
  rawMtreeSha256 : Bytes := ascii "-"
  deriving DecidableEq

structure RootPrepareRequest where
  transactionToken : Bytes
  packageBase : Bytes
  directive : TrustedDirective
  needed : Bool
  noConfirm : Bool
  artifacts : List RootArtifactExpectation
  purpose : TrustedPurpose := .cleanupInstallOnly
  deriving DecidableEq

def isValidTrustedAlpmReceiptToken (transactionToken : Bytes) : Bool :=
  transactionToken.length = trustedAlpmReceiptTokenHexLength &&
    transactionToken.all isLowerHex

def isValidTrustedAlpmReceiptPackageName (packageName : Bytes) : Bool :=
  packageName ≠ [] && packageName ≠ ascii "." && packageName ≠ ascii ".." &&
    packageName.head? ≠ some (byte '-') && packageName.all isIdentifierByte

def isValidSourceArtifactInstallSha256 (digest : Bytes) : Bool :=
  digest.length = 64 && digest.all isLowerHex

def isMetadataByte (b : UInt8) : Bool := 0x20 < b && b ≠ 0x7f

def metadataValueIsValid (value : Bytes) (maximumBytes : Nat) : Bool :=
  value ≠ [] && value.length ≤ maximumBytes && value.all isMetadataByte

/-- SHA-256 of the empty file: a signature that is there and empty. -/
def emptySignatureSha256 : Bytes :=
  ascii "e3b0c44298fc1c149afbf4c8996fb92427ae41e4649b934ca495991b7852b855"

/-- A legacy artifact has neither base nor architecture. -/
def artifactOriginIsValid (artifact : RootArtifactExpectation)
    (expectedPackageBase : Bytes) (legacy : Bool) : Bool :=
  if legacy then
    artifact.packageBase = ascii "-" && artifact.architecture = ascii "-"
  else
    isValidPackageName artifact.packageBase &&
      artifact.packageBase = expectedPackageBase &&
      metadataValueIsValid artifact.architecture 256

def artifactSignatureIsValid (artifact : RootArtifactExpectation) (legacy : Bool) : Bool :=
  if artifact.signatureSize = 0 then
    artifact.signatureSha256 = ascii "-" ||
      (legacy && artifact.signatureSha256 = emptySignatureSha256)
  else isValidSourceArtifactInstallSha256 artifact.signatureSha256

def artifactIsValid (artifact : RootArtifactExpectation) (expectedPackageBase : Bytes)
    (legacy : Bool) : Bool :=
  artifact.artifactIndex < maximumArtifacts &&
    isValidPackageName artifact.packageName &&
    isValidTrustedAlpmReceiptPackageName artifact.packageName &&
    metadataValueIsValid artifact.fullVersion 4096 &&
    artifactOriginIsValid artifact expectedPackageBase legacy &&
    0 < artifact.artifactSize && artifact.artifactSize ≤ maximumArtifactBytes &&
    artifact.signatureSize ≤ maximumSignatureBytes &&
    isValidSourceArtifactInstallSha256 artifact.archiveSha256 &&
    artifactSignatureIsValid artifact legacy

def checkedAdd (value aggregate : Nat) : Option Nat :=
  if maximumTransactionBytes - aggregate < value then none else some (aggregate + value)

/-- The sizes so far, and the artifacts checked before. -/
structure RequestTotals where
  aggregateSize : Nat := 0
  protocolSize : Nat := 256
  prior : List RootArtifactExpectation := []

/-- Only an exact request binds the raw file list of each artifact. -/
def mtreeIsValid (purpose : TrustedPurpose) (artifact : RootArtifactExpectation) : Bool :=
  if purpose = .exactInstalledBinding then
    isValidSourceArtifactInstallSha256 artifact.rawMtreeSha256
  else artifact.rawMtreeSha256 = ascii "-"

def artifactProtocolSize (artifact : RootArtifactExpectation) : Nat :=
  artifact.packageName.length + artifact.fullVersion.length +
    artifact.packageBase.length + artifact.architecture.length + 288

def checkArtifact (request : RootPrepareRequest) (totals : RequestTotals)
    (artifact : RootArtifactExpectation) : Option RequestTotals := do
  guard (mtreeIsValid request.purpose artifact = true)
  guard (artifactIsValid artifact request.packageBase
    (request.purpose = .legacyArtifactInstall) = true)
  let aggregateSize ← checkedAdd artifact.artifactSize totals.aggregateSize
  let aggregateSize ← checkedAdd artifact.signatureSize aggregateSize
  guard (totals.protocolSize ≤ maximumProtocolBytes ∧
    artifactProtocolSize artifact ≤ maximumProtocolBytes - totals.protocolSize)
  guard (∀ prior ∈ totals.prior, prior.artifactIndex ≠ artifact.artifactIndex ∧
    prior.packageName ≠ artifact.packageName)
  some {
    aggregateSize
    protocolSize := totals.protocolSize + artifactProtocolSize artifact
    prior := totals.prior ++ [artifact] }

def isValidRootRequest (request : RootPrepareRequest) : Bool :=
  isValidTrustedAlpmReceiptToken request.transactionToken &&
    isValidPackageName request.packageBase &&
    request.artifacts ≠ [] && request.artifacts.length ≤ maximumArtifacts &&
    (request.directive ≠ .asExplicit || request.purpose = .legacyArtifactInstall) &&
    (request.artifacts.foldlM (checkArtifact request) {}).isSome

/-- The value of a record that starts with the label. -/
def recordValue (label record : Bytes) : Option Bytes :=
  if label.isPrefixOf record then some (record.drop label.length) else none

def splitProtocolLines (protocol : Bytes) : Protocol (List Bytes) :=
  if maximumProtocolBytes < protocol.length then .error (.issue .inputTooLarge)
  else if protocol = [] ∨ protocol.getLast? ≠ some (byte '\n') then
    .error (.issue .missingFinalNewline)
  else
    takeLines (byte '\n') (.issue .truncatedProtocol) (.issue .tooManyArtifacts)
      (trustedAlpmReceiptMaximumPackages + 16) protocol.length [] protocol

def splitTabs (line : Bytes) : List Bytes := line.splitOn (byte '\t')

def joinTabs (fields : List Bytes) : Bytes := [byte '\t'].intercalate fields

def parseBoolean (value : Bytes) : Option Bool :=
  if value = ascii "0" then some false
  else if value = ascii "1" then some true
  else none

def serializeBoolean (value : Bool) : Bytes := if value then ascii "1" else ascii "0"

def parseDirective (value : Bytes) : Option TrustedDirective :=
  if value = ascii "PreserveExistingReason" then some .preserveExistingReason
  else if value = ascii "AsDependency" then some .asDependency
  else if value = ascii "AsExplicit" then some .asExplicit
  else none

def serializeDirective : TrustedDirective → Bytes
  | .asExplicit => ascii "AsExplicit"
  | .preserveExistingReason => ascii "PreserveExistingReason"
  | .asDependency => ascii "AsDependency"

/-- The nine fields of an artifact. -/
def artifactFields (artifact : RootArtifactExpectation) : List Bytes :=
  [writeUnsigned artifact.artifactIndex, artifact.packageName, artifact.fullVersion,
    artifact.packageBase, artifact.architecture, writeUnsigned artifact.artifactSize,
    writeUnsigned artifact.signatureSize, artifact.archiveSha256,
    artifact.signatureSha256]

def parseArtifactFields (fields : List Bytes) (expectedPackageBase : Bytes)
    (legacy : Bool) : Option RootArtifactExpectation :=
  match fields with
  | index :: packageName :: fullVersion :: packageBase :: architecture :: size ::
      signatureSize :: archiveSha256 :: signatureSha256 :: _ => do
      let artifactIndex ← parseCanonicalUnsigned (2 ^ 64) index
      let artifactSize ← parseCanonicalUnsigned (2 ^ 64) size
      let signatureSize ← parseCanonicalUnsigned (2 ^ 64) signatureSize
      let artifact : RootArtifactExpectation := {
        artifactIndex, packageName, fullVersion, packageBase, architecture, artifactSize,
        signatureSize, archiveSha256, signatureSha256 }
      guard (artifactIsValid artifact expectedPackageBase legacy = true)
      some artifact
  | _ => none

end Moguet.Install.Request
