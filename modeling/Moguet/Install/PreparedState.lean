import Moguet.Install.Request

/-!
# The prepared state of an install

What the helper keeps between the preparation and the execution of a
transaction. There are three layouts: one for a cleanup-only request, one for a
legacy request, and the exact layout, which encloses the cleanup projection of
its request and adds the digest of the raw file list of every artifact.
-/

namespace Moguet.Install.PreparedState

open Verified.ByteString Verified.Decimal Verified.Fields Plan.Constraint Request

def owner : Bytes := ascii "source-artifact-install"

def preparedHeader : Bytes := ascii "MOGUET-SOURCE-ARTIFACT-PREPARED\t2"

def legacyPreparedHeader : Bytes := ascii "MOGUET-LEGACY-ARTIFACT-PREPARED\t1"

def exactPreparedOpening : Bytes :=
  ascii "MOGUET-EXACT-ARTIFACT-PREPARED\t1\nPURPOSE\tExactInstalledBinding\n"

def tokenLabel : Bytes := ascii "TOKEN\t"

def ownerLabel : Bytes := ascii "OWNER\t"

def packageBaseLabel : Bytes := ascii "PACKAGEBASE\t"

def directiveLabel : Bytes := ascii "DIRECTIVE\t"

def neededLabel : Bytes := ascii "NEEDED\t"

def noConfirmLabel : Bytes := ascii "NOCONFIRM\t"

def endRecord : Bytes := ascii "END"

/-- The record of an artifact: its tag and its nine fields. -/
def artifactRecord (artifact : RootArtifactExpectation) : Bytes :=
  joinTabs (ascii "ARTIFACT" :: artifactFields artifact)

def preparedLines (request : RootPrepareRequest) : List Bytes :=
  [if request.purpose = .legacyArtifactInstall then legacyPreparedHeader
    else preparedHeader,
    tokenLabel ++ request.transactionToken,
    ownerLabel ++ owner,
    packageBaseLabel ++ request.packageBase,
    directiveLabel ++ serializeDirective request.directive,
    neededLabel ++ serializeBoolean request.needed,
    noConfirmLabel ++ serializeBoolean request.noConfirm] ++
  (request.artifacts.map artifactRecord ++ [endRecord])

/-- The writer of a request that is not exact. -/
def serializePlainPreparedState (request : RootPrepareRequest) : Protocol Bytes :=
  if isValidRootRequest request then
    let protocol := terminated (byte '\n') (preparedLines request)
    if maximumProtocolBytes < protocol.length then
      .error (.invalidArgument "oversized source-artifact prepared protocol")
    else .ok protocol
  else .error (.invalidArgument "invalid source-artifact prepared request")

/-- The request as a cleanup-only one, which binds no file list. -/
def cleanupProjection (request : RootPrepareRequest) : RootPrepareRequest :=
  { request with
    purpose := .cleanupInstallOnly
    artifacts := request.artifacts.map fun artifact =>
      { artifact with rawMtreeSha256 := ascii "-" } }

def mtreeLabel (artifact : RootArtifactExpectation) : Bytes :=
  ascii "MTREE\t" ++ writeUnsigned artifact.artifactIndex ++ ascii "\t"

def mtreeRecord (artifact : RootArtifactExpectation) : Bytes :=
  mtreeLabel artifact ++ artifact.rawMtreeSha256

/-- The enclosed request is cleanup-only, so the call for it takes the plain
branch. -/
def serializeExactPreparedState (request : RootPrepareRequest) : Protocol Bytes :=
  if isValidRootRequest request then do
    let enclosed ← serializePlainPreparedState (cleanupProjection request)
    let protocol := exactPreparedOpening ++
      (terminated (byte '\n') (request.artifacts.map mtreeRecord) ++ enclosed)
    if maximumProtocolBytes < protocol.length then
      .error (.invalidArgument "oversized exact prepared protocol")
    else .ok protocol
  else .error (.invalidArgument "invalid source-artifact prepared request")

def serializeRootPreparedState (request : RootPrepareRequest) : Protocol Bytes :=
  if request.purpose = .exactInstalledBinding then serializeExactPreparedState request
  else serializePlainPreparedState request

/-- The records between the header and the artifacts. -/
structure PreparedFields where
  transactionToken : Bytes
  packageBase : Bytes
  directive : TrustedDirective
  needed : Bool
  noConfirm : Bool

def parsePreparedFields
    (tokenLine ownerLine packageBaseLine directiveLine neededLine noConfirmLine : Bytes) :
    Option PreparedFields := do
  let transactionToken ← recordValue tokenLabel tokenLine
  guard (isValidTrustedAlpmReceiptToken transactionToken = true)
  let ownerValue ← recordValue ownerLabel ownerLine
  guard (ownerValue = owner)
  let packageBase ← recordValue packageBaseLabel packageBaseLine
  guard (isValidPackageName packageBase = true)
  let directiveValue ← recordValue directiveLabel directiveLine
  let neededValue ← recordValue neededLabel neededLine
  let noConfirmValue ← recordValue noConfirmLabel noConfirmLine
  let directive ← parseDirective directiveValue
  let needed ← parseBoolean neededValue
  let noConfirm ← parseBoolean noConfirmValue
  some { transactionToken, packageBase, directive, needed, noConfirm }

def artifactDigestsAreValid (archiveSha256 signatureSha256 : Bytes) : Bool :=
  isValidSourceArtifactInstallSha256 archiveSha256 &&
    (signatureSha256 = ascii "-" || isValidSourceArtifactInstallSha256 signatureSha256)

def parseArtifactRecord (packageBase : Bytes) (legacy : Bool) (line : Bytes) :
    Protocol RootArtifactExpectation :=
  match splitTabs line with
  | [tag, index, packageName, fullVersion, base, architecture, size, signatureSize,
      archiveSha256, signatureSha256] =>
      if tag ≠ ascii "ARTIFACT" then .error (.issue .unexpectedRecord)
      else if artifactDigestsAreValid archiveSha256 signatureSha256 = false then
        .error (.issue .invalidDigest)
      else
        match parseArtifactFields [index, packageName, fullVersion, base, architecture,
          size, signatureSize, archiveSha256, signatureSha256] packageBase legacy with
        | none => .error (.issue .unexpectedRecord)
        | some artifact => .ok artifact
  | _ => .error (.issue .unexpectedRecord)

def requireValidRootRequest (request : RootPrepareRequest) : Protocol RootPrepareRequest :=
  if isValidRootRequest request then .ok request
  else .error (.issue .unexpectedRecord)

/-- The request of the records of a layout; `rest` are the artifacts and the
end record. -/
def parsePreparedRecords (legacy : Bool) (fields : PreparedFields) (rest : List Bytes) :
    Protocol RootPrepareRequest := do
  let artifacts ← rest.dropLast.mapM (parseArtifactRecord fields.packageBase legacy)
  requireValidRootRequest {
    transactionToken := fields.transactionToken
    packageBase := fields.packageBase
    directive := fields.directive
    needed := fields.needed
    noConfirm := fields.noConfirm
    artifacts
    purpose := if legacy then .legacyArtifactInstall else .cleanupInstallOnly }

/-- The lines of a layout. Fewer than nine lines cannot hold an artifact. -/
def parsePreparedLines (lines : List Bytes) : Protocol RootPrepareRequest :=
  match lines with
  | header :: tokenLine :: ownerLine :: packageBaseLine :: directiveLine :: neededLine ::
      noConfirmLine :: first :: second :: others =>
      let rest := first :: second :: others
      if (header ≠ preparedHeader ∧ header ≠ legacyPreparedHeader) ∨
          rest.getLast? ≠ some endRecord then
        .error (.issue
          (if header ≠ preparedHeader then .invalidHeader else .truncatedProtocol))
      else
        match parsePreparedFields tokenLine ownerLine packageBaseLine directiveLine
          neededLine noConfirmLine with
        | none => .error (.issue .unexpectedRecord)
        | some fields => parsePreparedRecords (header = legacyPreparedHeader) fields rest
  | _ => .error (.issue .truncatedProtocol)

def parsePlainPreparedState (protocol : Bytes) : Protocol RootPrepareRequest := do
  let lines ← splitProtocolLines protocol
  parsePreparedLines lines

/-- Each artifact takes the digest of its own line; the text is what stands
before the enclosed state. -/
def readMtreeRecords : List RootArtifactExpectation → Bytes →
    Protocol (List RootArtifactExpectation)
  | [], text => if text = [] then .ok [] else .error (.issue .unexpectedRecord)
  | artifact :: artifacts, text =>
    match takeField (byte '\n') text with
    | none => .error (.issue .truncatedProtocol)
    | some (line, text) =>
      match recordValue (mtreeLabel artifact) line with
      | none => .error (.issue .invalidDigest)
      | some value =>
        if isValidSourceArtifactInstallSha256 value then do
          let artifacts ← readMtreeRecords artifacts text
          .ok ({ artifact with rawMtreeSha256 := value } :: artifacts)
        else .error (.issue .invalidDigest)

/-- The request, written again, must be the text it was read from. -/
def requireWrittenAs (protocol : Bytes) (request : RootPrepareRequest) :
    Protocol RootPrepareRequest := do
  let written ← serializeRootPreparedState request
  if written ≠ protocol then .error (.issue .unexpectedRecord) else .ok request

/-- The exact layout. The enclosed text starts with the header of the cleanup
layout, so the call for it takes the plain branch. -/
def parseExactPreparedState (protocol : Bytes) : Protocol RootPrepareRequest :=
  if maximumProtocolBytes < protocol.length then .error (.issue .inputTooLarge)
  else
    match splitAtText preparedHeader (protocol.drop exactPreparedOpening.length) with
    | none => .error (.issue .truncatedProtocol)
    | some (records, enclosed) => do
        let projection ← parsePlainPreparedState (preparedHeader ++ enclosed)
        let artifacts ← readMtreeRecords projection.artifacts records
        requireWrittenAs protocol
          { projection with artifacts, purpose := .exactInstalledBinding }

def parseRootPreparedState (protocol : Bytes) : Protocol RootPrepareRequest :=
  if exactPreparedOpening.isPrefixOf protocol then parseExactPreparedState protocol
  else parsePlainPreparedState protocol

end Moguet.Install.PreparedState
