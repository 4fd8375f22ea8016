import Moguet.Install.PreparedState
import Moguet.Receipt.Protocol

/-!
# The answers of the install helper

Besides the prepared state, the helper that installs source artifacts writes
three documents: its answer to a preparation, the receipt of what was
installed, and the observation of an execution. An answer is read against the
request it answers, which leaves it no freedom but the digest of an exact
request. The writer of a receipt bounds the bytes only, while its reader also
bounds the lines.
-/

namespace Moguet.Install.Documents

open Verified.ByteString Verified.Decimal Verified.Fields Request PreparedState
open Receipt.Protocol (hookDirectoryLabel stateLabel installLabel)

structure StagedArtifact where
  artifactIndex : Nat
  path : Bytes
  deriving DecidableEq

structure RootPrepareResponse where
  transactionToken : Bytes
  hookDirectory : Bytes
  artifacts : List StagedArtifact
  stagedIdentitySha256 : Bytes := []

inductive RootReceiptState
  | missing
  | complete
  deriving DecidableEq

structure RootReceipt where
  state : RootReceiptState
  transactionToken : Bytes
  installedPackageNames : List Bytes

inductive SealingFailure
  | stagedArtifactDigestMismatch
  | stagedArtifactGenerationMismatch
  | stagedArtifactReplacement
  | stagedArtifactRevalidationFailure
  | signatureDigestMismatch
  | trustedTransportProtocolMismatch
  | executableLaunchFailure
  | transactionLifetimeBusy
  deriving DecidableEq

/-- The error number is an `int`. -/
structure SealingRefusal where
  reason : SealingFailure
  errorNumber : Int32 := 0

inductive ExecutionEvidence
  | unobserved
  | preTransaction
  | postTransaction
  deriving DecidableEq

structure ExecutionObservation where
  transactionToken : Bytes
  authorized : Bool := false
  refusal : Option SealingRefusal := none
  executionEvidence : ExecutionEvidence := .unobserved

def prepareResponseHeader : Bytes := ascii "MOGUET-SOURCE-ARTIFACT-PREPARE-RESPONSE\t2"

def exactResponseOpening : Bytes :=
  ascii "MOGUET-EXACT-ARTIFACT-PREPARE-RESPONSE\t1\nPURPOSE\tExactInstalledBinding\n"

def stageLabel : Bytes := ascii "STAGE\t"

def receiptHeader : Bytes := ascii "MOGUET-SOURCE-ARTIFACT-RECEIPT\t2"

def executionHeader : Bytes := ascii "MOGUET-SOURCE-ARTIFACT-EXECUTION\t3"

def authorizedLabel : Bytes := ascii "AUTHORIZED\t"

def executionLabel : Bytes := ascii "EXECUTION\t"

def reasonLabel : Bytes := ascii "REASON\t"

def errnoLabel : Bytes := ascii "ERRNO\t"

def activeDirectory : Bytes := ascii "/run/moguet/source-artifact-installs/active/"

/-- The text of `source_artifact_install_hook_directory`. -/
def hookDirectoryText (transactionToken : Bytes) : Bytes :=
  activeDirectory ++ transactionToken ++ ascii "/hooks"

def hookDirectory (transactionToken : Bytes) : Protocol Bytes :=
  if isValidTrustedAlpmReceiptToken transactionToken then
    .ok (hookDirectoryText transactionToken)
  else .error (.invalidArgument "invalid source-artifact transaction token")

/-- The text of `source_artifact_install_staged_artifact_path`. -/
def stagedArtifactPathText (transactionToken : Bytes) (ordinal : Nat) : Bytes :=
  activeDirectory ++ transactionToken ++ ascii "/artifacts/artifact-" ++
    writeUnsigned ordinal ++ ascii ".pkg.tar.zst"

def stagedArtifactPath (transactionToken : Bytes) (ordinal : Nat) : Protocol Bytes :=
  if isValidTrustedAlpmReceiptToken transactionToken && ordinal < maximumArtifacts then
    .ok (stagedArtifactPathText transactionToken ordinal)
  else .error (.invalidArgument "invalid source-artifact staging identity")

def stagedRecord (staged : StagedArtifact) : Bytes :=
  joinTabs [ascii "STAGED", writeUnsigned staged.artifactIndex, staged.path]

/-- The loop of the writer, whose lists have the same length. -/
def serializeStaged (transactionToken : Bytes) :
    Nat → List RootArtifactExpectation → List StagedArtifact → Protocol (List Bytes)
  | ordinal, expected :: artifacts, staged :: response =>
    if staged.artifactIndex ≠ expected.artifactIndex then
      .error (.invalidArgument "invalid source-artifact staged response")
    else do
      let path ← stagedArtifactPath transactionToken ordinal
      if staged.path ≠ path then
        .error (.invalidArgument "invalid source-artifact staged response")
      else do
        let lines ← serializeStaged transactionToken (ordinal + 1) artifacts response
        .ok (stagedRecord staged :: lines)
  | _, _, _ => .ok []

/-- The records before the layout: an exact response names the digest of its
stage, any other must have none. -/
def serializeStageIdentity (purpose : TrustedPurpose) (stagedIdentitySha256 : Bytes) :
    Protocol Bytes :=
  if purpose = .exactInstalledBinding then
    if isValidSourceArtifactInstallSha256 stagedIdentitySha256 then
      .ok (exactResponseOpening ++ stageLabel ++ stagedIdentitySha256 ++ [byte '\n'])
    else .error (.invalidArgument "exact prepare response lacks its staged identity")
  else if stagedIdentitySha256 ≠ [] then
    .error (.invalidArgument "cleanup response contains exact authority")
  else .ok []

def prepareResponseHead (response : RootPrepareResponse) : List Bytes :=
  [prepareResponseHeader, tokenLabel ++ response.transactionToken, ownerLabel ++ owner,
    hookDirectoryLabel ++ response.hookDirectory]

def serializePrepareResponse (response : RootPrepareResponse)
    (request : RootPrepareRequest) : Protocol Bytes :=
  if isValidRootRequest request = false ∨
      response.transactionToken ≠ request.transactionToken then
    .error (.invalidArgument "invalid source-artifact prepare response")
  else do
    let hooks ← hookDirectory request.transactionToken
    if response.hookDirectory ≠ hooks ∨
        response.artifacts.length ≠ request.artifacts.length then
      .error (.invalidArgument "invalid source-artifact prepare response")
    else do
      let identity ← serializeStageIdentity request.purpose response.stagedIdentitySha256
      let lines ← serializeStaged request.transactionToken 0 request.artifacts
        response.artifacts
      .ok (identity ++ terminated (byte '\n')
        (prepareResponseHead response ++ (lines ++ [endRecord])))

def parseStagedRecord (transactionToken : Bytes) (ordinal : Nat)
    (expected : RootArtifactExpectation) (line : Bytes) : Protocol StagedArtifact :=
  match splitTabs line with
  | [tag, index, path] =>
    if tag ≠ ascii "STAGED" then .error (.issue .unexpectedRecord)
    else do
      let expectedPath ← stagedArtifactPath transactionToken ordinal
      if parseCanonicalUnsigned (2 ^ 64) index ≠ some expected.artifactIndex ∨
          path ≠ expectedPath then
        .error (.issue .invalidStagedArtifactPath)
      else .ok ⟨expected.artifactIndex, expectedPath⟩
  | _ => .error (.issue .unexpectedRecord)

/-- The loop of the reader: one line for each artifact of the request. -/
def parseStaged (transactionToken : Bytes) :
    Nat → List RootArtifactExpectation → List Bytes → Protocol (List StagedArtifact)
  | ordinal, expected :: artifacts, line :: lines => do
      let staged ← parseStagedRecord transactionToken ordinal expected line
      let response ← parseStaged transactionToken (ordinal + 1) artifacts lines
      .ok (staged :: response)
  | _, _, _ => .ok []

def parsePrepareResponseLines (request : RootPrepareRequest) (lines : List Bytes) :
    Protocol RootPrepareResponse :=
  match lines with
  | header :: tokenLine :: ownerLine :: hooksLine :: rest =>
    if lines.length ≠ request.artifacts.length + 5 ∨ header ≠ prepareResponseHeader ∨
        lines.getLast? ≠ some endRecord then
      .error (.issue (if lines.length < request.artifacts.length + 5
        then .truncatedProtocol else .unexpectedRecord))
    else do
      let hooks ← hookDirectory request.transactionToken
      if recordValue tokenLabel tokenLine ≠ some request.transactionToken ∨
          recordValue ownerLabel ownerLine ≠ some owner ∨
          recordValue hookDirectoryLabel hooksLine ≠ some hooks then
        .error (.issue .unexpectedRecord)
      else do
        let staged ← parseStaged request.transactionToken 0 request.artifacts
          rest.dropLast
        .ok ⟨request.transactionToken, hooks, staged, []⟩
  | _ =>
    .error (.issue (if lines.length < request.artifacts.length + 5
      then .truncatedProtocol else .unexpectedRecord))

/-- The reader for a request that is not exact. -/
def parsePlainPrepareResponse (protocol : Bytes) (request : RootPrepareRequest) :
    Protocol RootPrepareResponse :=
  if isValidRootRequest request = false then .error (.issue .invalidTransactionToken)
  else do
    let lines ← splitProtocolLines protocol
    parsePrepareResponseLines request lines

/-- The reader for an exact request: after the digest stands the response to the
cleanup projection of the request, which takes the plain branch. -/
def parseExactPrepareResponse (protocol : Bytes) (request : RootPrepareRequest) :
    Protocol RootPrepareResponse :=
  let label := exactResponseOpening ++ stageLabel
  let digest := (protocol.drop label.length).take 64
  if maximumProtocolBytes < protocol.length ∨ label.isPrefixOf protocol = false ∨
      protocol.length ≤ label.length + 64 ∨
      protocol[label.length + 64]? ≠ some (byte '\n') ∨
      isValidSourceArtifactInstallSha256 digest = false then
    .error (.issue .unexpectedRecord)
  else do
    let response ← parsePlainPrepareResponse (protocol.drop (label.length + 65))
      (cleanupProjection request)
    .ok { response with stagedIdentitySha256 := digest }

def parsePrepareResponse (protocol : Bytes) (request : RootPrepareRequest) :
    Protocol RootPrepareResponse :=
  if isValidRootRequest request = false then .error (.issue .invalidTransactionToken)
  else if request.purpose = .exactInstalledBinding then
    parseExactPrepareResponse protocol request
  else parsePlainPrepareResponse protocol request

def serializeReceiptState : RootReceiptState → Bytes
  | .complete => ascii "Complete"
  | .missing => ascii "Missing"

def parseReceiptState (value : Bytes) : Option RootReceiptState :=
  if value = ascii "Complete" then some .complete
  else if value = ascii "Missing" then some .missing
  else none

/-- A missing receipt has no package, a complete one has some. -/
def receiptStateFits (state : RootReceiptState) (packages : List Bytes) : Bool :=
  match state with
  | .missing => packages = []
  | .complete => packages ≠ []

/-- The loop over the names of a receipt; `prior` are those before. -/
def requireReceiptPackages : List Bytes → List Bytes → Protocol Unit
  | _, [] => .ok ()
  | prior, packageName :: packages =>
    if isValidTrustedAlpmReceiptPackageName packageName = false then
      .error (.invalidArgument "invalid source-artifact receipt package")
    else if packageName ∈ prior then
      .error (.invalidArgument "duplicate source-artifact receipt package")
    else requireReceiptPackages (prior ++ [packageName]) packages

def rootReceiptLines (receipt : RootReceipt) : List Bytes :=
  [receiptHeader, tokenLabel ++ receipt.transactionToken, ownerLabel ++ owner,
    stateLabel ++ serializeReceiptState receipt.state] ++
    (receipt.installedPackageNames.map (installLabel ++ ·) ++ [endRecord])

def serializeRootReceipt (receipt : RootReceipt) : Protocol Bytes :=
  if isValidTrustedAlpmReceiptToken receipt.transactionToken = false ∨
      receiptStateFits receipt.state receipt.installedPackageNames = false then
    .error (.invalidArgument "invalid source-artifact receipt")
  else do
    requireReceiptPackages [] receipt.installedPackageNames
    let protocol := terminated (byte '\n') (rootReceiptLines receipt)
    if maximumProtocolBytes < protocol.length then
      .error (.invalidArgument "oversized source-artifact receipt protocol")
    else .ok protocol

def readInstalledPackage (packages : List Bytes) (line : Bytes) : Protocol (List Bytes) :=
  match recordValue installLabel line with
  | none => .error (.issue .unexpectedRecord)
  | some packageName =>
    if isValidTrustedAlpmReceiptPackageName packageName = false ∨
        packageName ∈ packages then
      .error (.issue .unexpectedRecord)
    else .ok (packages ++ [packageName])

/-- The owner and a valid token. -/
def readRecipient (tokenLine ownerLine : Bytes) : Option Bytes := do
  let token ← recordValue tokenLabel tokenLine
  guard (isValidTrustedAlpmReceiptToken token = true)
  let ownerValue ← recordValue ownerLabel ownerLine
  guard (ownerValue = owner)
  some token

def parseRootReceiptLines (lines : List Bytes) : Protocol RootReceipt :=
  match lines with
  | header :: tokenLine :: ownerLine :: stateLine :: first :: others =>
    let rest := first :: others
    if header ≠ receiptHeader ∨ rest.getLast? ≠ some endRecord then
      .error (.issue .invalidHeader)
    else
      match readRecipient tokenLine ownerLine, recordValue stateLabel stateLine with
      | some token, some stateValue =>
        match parseReceiptState stateValue with
        | none => .error (.issue .invalidReceiptState)
        | some state => do
            let packages ← rest.dropLast.foldlM readInstalledPackage []
            if receiptStateFits state packages = false then
              .error (.issue .invalidReceiptState)
            else .ok ⟨state, token, packages⟩
      | _, _ => .error (.issue .unexpectedRecord)
  | _ => .error (.issue .truncatedProtocol)

def parseRootReceipt (protocol : Bytes) : Protocol RootReceipt := do
  let lines ← splitProtocolLines protocol
  parseRootReceiptLines lines

/-- The spellings of the evidence, in the order of the enumeration. -/
def executionEvidenceText : ExecutionEvidence → Bytes
  | .unobserved => ascii "Unobserved"
  | .preTransaction => ascii "PreTransaction"
  | .postTransaction => ascii "PostTransaction"

def parseExecutionEvidence (value : Bytes) : Option ExecutionEvidence :=
  [.unobserved, .preTransaction, .postTransaction].find? (executionEvidenceText · = value)

/-- The spellings of the reasons, in the order of the enumeration. -/
def sealingReasonText : SealingFailure → Bytes
  | .stagedArtifactDigestMismatch => ascii "StagedArtifactDigestMismatch"
  | .stagedArtifactGenerationMismatch => ascii "StagedArtifactGenerationMismatch"
  | .stagedArtifactReplacement => ascii "StagedArtifactReplacement"
  | .stagedArtifactRevalidationFailure => ascii "StagedArtifactRevalidationFailure"
  | .signatureDigestMismatch => ascii "SignatureDigestMismatch"
  | .trustedTransportProtocolMismatch => ascii "TrustedTransportProtocolMismatch"
  | .executableLaunchFailure => ascii "ExecutableLaunchFailure"
  | .transactionLifetimeBusy => ascii "TransactionLifetimeBusy"

def sealingReasons : List SealingFailure :=
  [.stagedArtifactDigestMismatch, .stagedArtifactGenerationMismatch,
    .stagedArtifactReplacement, .stagedArtifactRevalidationFailure,
    .signatureDigestMismatch, .trustedTransportProtocolMismatch,
    .executableLaunchFailure, .transactionLifetimeBusy]

def parseSealingReason (value : Bytes) : Option SealingFailure :=
  sealingReasons.find? (sealingReasonText · = value)

def noReason : Bytes := ascii "None"

/-- What a hook saw proves an authorized execution that was not refused. -/
def evidenceFits (authorized : Bool) (refused : Bool) (evidence : ExecutionEvidence) :
    Bool :=
  evidence = .unobserved || (authorized && !refused)

def refusalTexts : Option SealingRefusal → Protocol (Bytes × Bytes)
  | none => .ok (noReason, writeUnsigned 0)
  | some refusal =>
    if refusal.errorNumber < 0 then .error (.invalidArgument "invalid sealing refusal")
    else .ok (sealingReasonText refusal.reason,
      writeUnsigned refusal.errorNumber.toInt.toNat)

def executionObservationLines (observation : ExecutionObservation)
    (reason errorNumber : Bytes) : List Bytes :=
  [executionHeader, tokenLabel ++ observation.transactionToken, ownerLabel ++ owner,
    authorizedLabel ++ serializeBoolean observation.authorized,
    executionLabel ++ executionEvidenceText observation.executionEvidence,
    reasonLabel ++ reason, errnoLabel ++ errorNumber, endRecord]

def serializeExecutionObservation (observation : ExecutionObservation) : Protocol Bytes :=
  if isValidTrustedAlpmReceiptToken observation.transactionToken = false ∨
      evidenceFits observation.authorized observation.refusal.isSome
        observation.executionEvidence = false then
    .error (.invalidArgument "invalid execution observation token")
  else do
    let texts ← refusalTexts observation.refusal
    .ok (terminated (byte '\n') (executionObservationLines observation texts.1 texts.2))

/-- The refusal of the last two records; `none` when they are malformed. -/
def parseRefusal (reason : Bytes) (errorNumber : Nat) : Option (Option SealingRefusal) :=
  if reason = noReason then if errorNumber ≠ 0 then none else some none
  else (parseSealingReason reason).map fun failure =>
    some ⟨failure, Int32.ofNat errorNumber⟩

def parseExecutionRecords (tokenLine ownerLine authorizedLine evidenceLine reasonLine
    errnoLine : Bytes) : Option ExecutionObservation := do
  let token ← readRecipient tokenLine ownerLine
  let authorizedText ← recordValue authorizedLabel authorizedLine
  let evidenceText ← recordValue executionLabel evidenceLine
  let reasonText ← recordValue reasonLabel reasonLine
  let errnoText ← recordValue errnoLabel errnoLine
  let authorized ← parseBoolean authorizedText
  let errorNumber ← parseCanonicalUnsigned (2 ^ 32) errnoText
  guard (errorNumber < 2 ^ 31)
  let evidence ← parseExecutionEvidence evidenceText
  guard (evidenceFits authorized (reasonText ≠ noReason) evidence = true)
  let refusal ← parseRefusal reasonText errorNumber
  some ⟨token, authorized, refusal, evidence⟩

def parseExecutionObservation (protocol : Bytes) : Protocol ExecutionObservation := do
  let lines ← splitProtocolLines protocol
  match lines with
  | [header, tokenLine, ownerLine, authorizedLine, evidenceLine, reasonLine, errnoLine,
      endLine] =>
      if header ≠ executionHeader ∨ endLine ≠ endRecord then
        .error (.issue .unexpectedRecord)
      else
        match parseExecutionRecords tokenLine ownerLine authorizedLine evidenceLine
          reasonLine errnoLine with
        | none => .error (.issue .unexpectedRecord)
        | some observation => .ok observation
  | _ => .error (.issue .unexpectedRecord)

end Moguet.Install.Documents
