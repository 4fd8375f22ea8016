import Moguet.Install.Documents
import Moguet.Receipt.Store
import Moguet.Store.Chain

/-!
# The store of the install helper

`SourceArtifactInstallTrustedStateStore`
(`source_artifact_install_trusted_helper_state.cpp`): the package files of a
request are copied into the directory of a transaction and sealed, the package
manager is run on them, and the directory is retired. This module has the
operations that create and retire a transaction; each is the sequence of system
calls it makes.

What is observed of the staged files goes into one projection, which is written
beside them and compared whenever the transaction is opened again. Collecting it
is many reads of files that nobody writes any more; it is one request here.
-/

namespace Moguet.Install.Store

open Verified.ByteString Verified.Decimal Verified.Dialogue Request PreparedState Documents
open Receipt.Transaction
open Receipt.Store (HelperPath)
open Receipt.Protocol (parseNeedsTargets)
open Store.Chain (contentDigestHex)

/-! ## Names -/

inductive HookKind
  | install
  | execution
  | exactInstall
  | exactUpgrade
  deriving DecidableEq

/-- `EXACT_RECORD_FILES`. -/
inductive ExactRecord
  | baseline
  | install
  | upgrade
  | installAnchor
  | upgradeAnchor
  deriving DecidableEq

inductive InstallName
  | prepared
  | identity
  | lifetime
  | execution
  | authorized
  | refusal
  | observed
  | receipt
  | partialReceipt
  | hooks
  | hook (kind : HookKind)
  | artifacts
  | artifact (ordinal : Nat)
  | signature (ordinal : Nat)
  | exact
  | world
  | exactRecord (record : ExactRecord)
  | partialExactRecord (record : ExactRecord)
  deriving DecidableEq

/-! ## Observations -/

/-- `StagedFilesystemIdentity`. -/
structure StagedFilesystemIdentity where
  device : Nat
  inode : Nat
  mode : Nat
  owner : Nat
  group : Nat
  links : Nat
  size : Nat
  mtimeSeconds : Int
  mtimeNanoseconds : Int
  ctimeSeconds : Int
  ctimeNanoseconds : Int
  deriving DecidableEq

/-- The descriptor that the package files come from: what `fstat` and
`F_GET_SEALS` say of it, and what it holds. -/
structure SealedInput where
  isRegular : Bool
  size : Int
  isWriteSealed : Bool
  contents : Bytes

/-- What libalpm reads from a package file. -/
structure ArchiveMetadata where
  packageName : Option Bytes
  fullVersion : Option Bytes
  packageBase : Option Bytes
  architecture : Option Bytes

/-- Calls besides those on files. `observeIdentity` of `none` is of the
transaction directory; `namedIdentity` is the device and inode a name has now. -/
inductive InstallExtra
  | loadArchive (name : InstallName)
  | observeIdentity (name : Option InstallName)
  | namedIdentity (name : InstallName)
  | lockLease (exclusive : Bool)
  | reproveNamespace
  | collectStagedProjection (request : RootPrepareRequest) (namespaceIdentity : Bytes)
  | resolveDatabaseWorld

/-- Collecting the projection reports its own refusals. -/
def InstallExtraAnswer : InstallExtra → Type
  | .loadArchive _ => Except Errno ArchiveMetadata
  | .observeIdentity _ => Except Errno StagedFilesystemIdentity
  | .namedIdentity _ => Except Errno (Nat × Nat)
  | .lockLease _ => Except Errno Unit
  | .reproveNamespace => Except Errno Bytes
  | .collectStagedProjection _ _ => Except SealingRefusal Bytes
  | .resolveDatabaseWorld => Bytes

abbrev InstallRequest : Type := Request InstallName InstallExtra

abbrev InstallAnswer : InstallRequest → Type := Answer InstallExtraAnswer

/-- An exception is the refusal it carries; its text is left out. -/
abbrev InstallStage (α : Type) : Type :=
  StoreStage InstallName InstallExtra InstallExtraAnswer SealingRefusal α

abbrev InstallTreeStage (α : Type) : Type :=
  TreeStage InstallName InstallExtra InstallExtraAnswer SealingRefusal α

/-! ## Steps -/

def thrown : Errno → SealingRefusal := fun errno =>
  ⟨.stagedArtifactRevalidationFailure, Int32.ofNat errno⟩

def protocolMismatch : SealingRefusal := ⟨.trustedTransportProtocolMismatch, 0⟩

def requireOr (failure : SealingFailure) (condition : Bool) : InstallTreeStage Unit :=
  Stage.require condition ⟨failure, 0⟩

def orRefuse {Call : Type} {CallAnswer : Call → Type} {α : Type} (refusal : SealingRefusal) :
    Protocol α → Stage Call CallAnswer Unit SealingRefusal α
  | .ok value => Stage.pure value
  | .error _ => Stage.leave refusal

def maxIdentityBytes : Nat := 1024 * 1024

def EAGAIN : Errno := 11

section Steps

def observeIdentity (name : Option InstallName) : InstallTreeStage StagedFilesystemIdentity := do
  let answer ← Stage.query () (TreeRequest.extra (InstallExtra.observeIdentity name))
  orThrow thrown answer

/-- `require_staged_identity`. -/
def requireStagedIdentity (name : InstallName) (before : StagedFilesystemIdentity) :
    InstallTreeStage Unit := do
  let answer ← Stage.query () (TreeRequest.extra (InstallExtra.namedIdentity name))
  match answer with
  | .error _ => Stage.leave ⟨.stagedArtifactReplacement, 0⟩
  | .ok named => requireOr .stagedArtifactReplacement (named = (before.device, before.inode))
  let after ← observeIdentity (some name)
  requireOr .stagedArtifactGenerationMismatch (before = after)

/-- `reprove_namespace`: the identities of the directories above. -/
def reproveNamespace : InstallTreeStage Bytes := do
  let answer ← Stage.query () (TreeRequest.extra InstallExtra.reproveNamespace)
  orThrow thrown answer

def lifetimeLeaseContents (token : Bytes) : Bytes :=
  ascii "MOGUET-TRANSACTION-LIFETIME\t2\nTOKEN\t" ++ token ++ ascii "\n"

/-- `acquire_lifetime_lease`. `EWOULDBLOCK` is `EAGAIN`. -/
def acquireLifetimeLease (token : Bytes) (exclusive : Bool) : InstallTreeStage Unit := do
  openPrivateFile thrown .lifetime
  let identity ← observeIdentity (some .lifetime)
  let directory ← observeIdentity none
  requireOr .trustedTransportProtocolMismatch (identity.group = directory.group)
  let contents ← readBounded thrown .lifetime 256
  requireOr .trustedTransportProtocolMismatch (contents = lifetimeLeaseContents token)
  let locked ← Stage.query () (TreeRequest.extra (InstallExtra.lockLease exclusive))
  match locked with
  | .ok _ => Stage.pure ()
  | .error errno =>
    if errno = EAGAIN then Stage.leave ⟨.transactionLifetimeBusy, Int32.ofNat errno⟩
    else Stage.leave (thrown errno)
  requireStagedIdentity .lifetime identity

def collectStagedProjection (request : RootPrepareRequest) (namespaceIdentity : Bytes) :
    InstallTreeStage Bytes := do
  let answer ← Stage.query ()
    (TreeRequest.extra (InstallExtra.collectStagedProjection request namespaceIdentity))
  match answer with
  | .error refusal => Stage.leave refusal
  | .ok projection =>
    check thrown (projection.length ≤ maxIdentityBytes)
    Stage.pure projection

def stagedIdentityOpening (token : Bytes) : Bytes :=
  ascii "MOGUET-STAGED-IDENTITY\t2\nTOKEN\t" ++ token ++ ascii "\n"

/-- `validate_prepared_state`; the namespace is proved again for its argument. -/
def validatePreparedState (token : Bytes) : InstallTreeStage RootPrepareRequest := do
  let namespaceIdentity ← reproveNamespace
  openPrivateFile thrown .prepared
  let prepared ← readBounded thrown .prepared maximumProtocolBytes
  let request ← orRefuse protocolMismatch (parseRootPreparedState prepared)
  requireOr .trustedTransportProtocolMismatch (request.transactionToken = token)
  let isSealed ← entryExists thrown .identity
  requireOr .trustedTransportProtocolMismatch isSealed
  openPrivateFile thrown .identity
  let identityMetadata ← observeIdentity (some .identity)
  let expected ← readBounded thrown .identity maxIdentityBytes
  requireOr .trustedTransportProtocolMismatch
    ((stagedIdentityOpening token).isPrefixOf expected)
  let projection ← collectStagedProjection request namespaceIdentity
  requireOr .stagedArtifactGenerationMismatch (projection = expected)
  requireStagedIdentity .identity identityMetadata
  Stage.pure request

/-! ## Entries -/

def expectedHookEntries (request : RootPrepareRequest) : List HookKind :=
  match request.purpose with
  | .legacyArtifactInstall => []
  | .exactInstalledBinding => [.exactInstall, .exactUpgrade, .execution]
  | .cleanupInstallOnly => [.install, .execution]

def hookNames (request : RootPrepareRequest) : List InstallName :=
  (expectedHookEntries request).map .hook

/-- The files of one package: its archive, and its signature unless there is
none. -/
def artifactNames (artifact : RootArtifactExpectation × Nat) : List InstallName :=
  .artifact artifact.2 :: if artifact.1.signatureSha256 = ascii "-" then [] else
    [.signature artifact.2]

def expectedArtifactEntries (request : RootPrepareRequest) : List InstallName :=
  request.artifacts.zipIdx.flatMap artifactNames

/-- `require_transaction_entries`: the entries that a transaction may have
besides the expected ones are added when they are there. -/
def requireTransactionEntries (expected : List InstallName) : InstallTreeStage Unit := do
  openPrivateFile thrown .lifetime
  let hasExact ← entryExists thrown .exact
  if hasExact then do
    openPrivateFile thrown .prepared
    let prepared ← readBounded thrown .prepared maximumProtocolBytes
    let request ← orRefuse (thrown 0) (parseRootPreparedState prepared)
    check thrown (request.purpose = .exactInstalledBinding)
  else Stage.pure ()
  let optional ← optionalEntries [.execution, .authorized, .refusal, .observed]
  requireExactEntries thrown none
    (expected ++ [.lifetime] ++ (if hasExact then [.exact] else []) ++ optional)
where
  optionalEntries : List InstallName → InstallTreeStage (List InstallName)
    | [] => Stage.pure []
    | name :: rest => do
        let present ← entryExists thrown name
        if present then openPrivateFile thrown name else Stage.pure ()
        let others ← optionalEntries rest
        Stage.pure (if present then name :: others else others)

def stagedEntries : List InstallName := [.prepared, .hooks, .artifacts, .identity]

/-- The expected entries with the receipts there are. -/
def receiptEntries (hasReceipt hasPartialReceipt : Bool) : List InstallName :=
  stagedEntries ++ (if hasReceipt then [.receipt] else []) ++
    if hasPartialReceipt then [.partialReceipt] else []

/-! ## The authority of an execution -/

/-- The reader of one record in `read_execution_authority`. -/
def readExecutionRecord (token : Bytes) (leaf : InstallName) :
    InstallTreeStage ExecutionObservation := do
  openPrivateFile thrown leaf
  let identity ← observeIdentity (some leaf)
  let bytes ← readBounded thrown leaf maximumProtocolBytes
  let observation ← orRefuse protocolMismatch (parseExecutionObservation bytes)
  requireOr .trustedTransportProtocolMismatch
    (observation.transactionToken = token && observation.executionEvidence = .unobserved)
  requireStagedIdentity leaf identity
  Stage.pure observation

def requireAllAbsent : List InstallName → InstallTreeStage Unit :=
  forEach fun leaf => do
    let present ← entryExists thrown leaf
    requireOr .trustedTransportProtocolMismatch !present

/-- The launch authorization, if there is one. -/
def readAuthorization (token : Bytes) : InstallTreeStage ExecutionObservation := do
  let present ← entryExists thrown .authorized
  if present then
    let authorization ← readExecutionRecord token .authorized
    requireOr .trustedTransportProtocolMismatch
      (authorization.authorized && authorization.refusal = none)
    Stage.pure authorization
  else Stage.pure { transactionToken := token }

/-- The refusal, if there is one. -/
def readRefusal (token : Bytes) (result : ExecutionObservation) :
    InstallTreeStage ExecutionObservation := do
  let present ← entryExists thrown .refusal
  if present then
    let refusal ← readExecutionRecord token .refusal
    requireOr .trustedTransportProtocolMismatch
      (refusal.refusal ≠ none && refusal.authorized = result.authorized)
    Stage.pure { result with refusal := refusal.refusal }
  else Stage.pure result

/-- `read_execution_authority`. -/
def readExecutionAuthority (token : Bytes) : InstallTreeStage ExecutionObservation := do
  let claimed ← entryExists thrown .execution
  if claimed then
    let claim ← readExecutionRecord token .execution
    requireOr .trustedTransportProtocolMismatch (!claim.authorized && claim.refusal = none)
    let authorization ← readAuthorization token
    let result ← readRefusal token authorization
    let observed ← entryExists thrown .observed
    requireOr .trustedTransportProtocolMismatch
      (!observed || (result.authorized && result.refusal = none))
    Stage.pure result
  else
    requireAllAbsent [.authorized, .refusal, .observed, .receipt, .partialReceipt]
    Stage.pure { transactionToken := token }

def writeTime (value : Int) : Bytes :=
  if value < 0 then ascii "-" ++ writeUnsigned value.natAbs else writeUnsigned value.natAbs

/-- `StagedFilesystemIdentity::serialize`. -/
def StagedFilesystemIdentity.serialize (name : Bytes) (identity : StagedFilesystemIdentity) :
    Bytes :=
  joinTabs ([name] ++ [identity.device, identity.inode, identity.mode, identity.owner,
      identity.group, identity.links, identity.size].map writeUnsigned ++
    [identity.mtimeSeconds, identity.mtimeNanoseconds, identity.ctimeSeconds,
      identity.ctimeNanoseconds].map writeTime) ++ ascii "\n"

def evidencePhase : ExecutionEvidence → Bytes
  | .preTransaction => ascii "PreTransaction"
  | _ => ascii "PostTransaction"

/-- `observed_execution_contents`. The marker binds its own inode; its size and
times cannot be part of what it says. -/
def observedExecutionContents (token : Bytes) (evidence : ExecutionEvidence) :
    InstallTreeStage Bytes := do
  openPrivateFile thrown .identity
  let sealIdentity ← observeIdentity (some .identity)
  let sealBytes ← readBounded thrown .identity maxIdentityBytes
  requireStagedIdentity .identity sealIdentity
  let marker ← observeIdentity (some .observed)
  let directory ← observeIdentity none
  requireOr .trustedTransportProtocolMismatch (marker.group = directory.group)
  let fixed : StagedFilesystemIdentity :=
    { marker with
      size := 0, mtimeSeconds := 0, mtimeNanoseconds := 0, ctimeSeconds := 0
      ctimeNanoseconds := 0 }
  Stage.pure (ascii "MOGUET-PACKAGE-EXECUTION\t1\nTOKEN\t" ++ token ++ ascii "\nPHASE\t" ++
    evidencePhase evidence ++ ascii "\nSEAL\t" ++ contentDigestHex sealBytes ++ ascii "\n" ++
    fixed.serialize (ascii "marker") ++ ascii "END\n")

/-- `read_observed_execution`. -/
def readObservedExecution (token : Bytes) : InstallTreeStage ExecutionEvidence := do
  let present ← entryExists thrown .observed
  if present then
    openPrivateFile thrown .observed
    let identity ← observeIdentity (some .observed)
    let bytes ← readBounded thrown .observed 4096
    requireStagedIdentity .observed identity
    let before ← observedExecutionContents token .preTransaction
    if bytes = before then Stage.pure .preTransaction
    else
      let after ← observedExecutionContents token .postTransaction
      if bytes = after then Stage.pure .postTransaction else Stage.leave protocolMismatch
  else Stage.pure .unobserved

/-! ## Cleaning up -/

def removePrivateFile (name : InstallName) : InstallTreeStage Unit := do
  openPrivateFile thrown name
  unlinkFile thrown name

def removeIfPresent (name : InstallName) : InstallTreeStage Unit := do
  let present ← entryExists thrown name
  if present then removePrivateFile name else Stage.pure ()

/-- The exact evidence of a retired transaction; every entry there is known. -/
def removeExactEvidence : InstallTreeStage Unit := do
  openDirectoryInside thrown .exact
  let answer ← Stage.query () (TreeRequest.file (.listEntries (some .exact)))
  let leaves ← orThrow thrown answer
  forEach (removePrivateFile) leaves
  removeDirectory thrown .exact

/-- `cleanup_retired_transaction`. -/
def cleanupRetiredTransaction (request : RootPrepareRequest)
    (hasReceipt hasPartialReceipt : Bool) : InstallTreeStage Unit := do
  requireTransactionEntries (receiptEntries hasReceipt hasPartialReceipt)
  if request.purpose = .exactInstalledBinding then removeExactEvidence
  else Stage.pure ()
  openDirectoryInside thrown .hooks
  requireExactEntries thrown (some .hooks) (hookNames request)
  forEach (removePrivateFile) (hookNames request)
  removeDirectory thrown .hooks
  openDirectoryInside thrown .artifacts
  requireExactEntries thrown (some .artifacts) (expectedArtifactEntries request)
  forEach (removePrivateFile) (expectedArtifactEntries request)
  requireExactEntries thrown (some .artifacts) []
  removeDirectory thrown .artifacts
  removePrivateFile .prepared
  if hasReceipt then removePrivateFile .receipt else Stage.pure ()
  if hasPartialReceipt then removePrivateFile .partialReceipt else Stage.pure ()
  forEach (removeIfPresent)
    [.identity, .execution, .authorized, .refusal, .observed, .lifetime]
  requireExactEntries thrown none []
  synchronizeFile thrown none

/-- `unlink_if_present` with its result dropped. -/
def unlinkIgnoring (operation : FileOperation InstallName) : InstallTreeStage Unit := do
  let _ ← Stage.query () (TreeRequest.file operation)
  Stage.pure ()

/-- Unlinks some files of a directory if it opens, and then the directory. -/
def cleanupDirectory (name : InstallName) (leaves : List InstallName) : InstallTreeStage Unit := do
  let opened ← Stage.query () (TreeRequest.file (.openDirectory name))
  match opened with
  | .ok _ => forEach (fun leaf => unlinkIgnoring (.unlink leaf)) leaves
  | .error _ => Stage.pure ()
  unlinkIgnoring (.removeDirectory name)

end Steps

/-- The part of `cleanup_preparing_directory` below the staging directory. -/
def cleanupPreparingFiles (request : RootPrepareRequest) :
    InstallTreeStage Unit := do
  cleanupDirectory .hooks (hookNames request)
  cleanupDirectory .artifacts (expectedArtifactEntries request)
  forEach (fun leaf => unlinkIgnoring (.unlink leaf)) [.prepared, .identity, .lifetime]
  if request.purpose = .exactInstalledBinding then cleanupDirectory .exact [.world]
  else Stage.pure ()

/-- `cleanup_preparing_directory`. -/
def cleanupPreparingDirectory (request : RootPrepareRequest) : InstallStage Bool :=
  cleanupStaging (cleanupPreparingFiles request)

/-! ## Hooks -/

def exactOperation (upgrade : Bool) : Bytes := if upgrade then ascii "Upgrade" else ascii "Install"

def exactCommand (upgrade : Bool) : Bytes :=
  if upgrade then ascii " record-upgrade " else ascii " record-install "

/-- `exact_operation_hook_contents`. -/
def exactOperationHookContents (helperPath : HelperPath) (token : Bytes) (upgrade : Bool) :
    Bytes :=
  ascii "[Trigger]\nOperation = " ++ exactOperation upgrade ++
    ascii "\nType = Package\nTarget = *\n\n[Action]\n" ++
    ascii "Description = Record exact Moguet package operation\n" ++
    ascii "When = PostTransaction\nExec = " ++ helperPath.path ++ exactCommand upgrade ++ token ++
    ascii "\nNeedsTargets\n"

/-- `expected_hook_contents`, for the hook of each name. -/
def expectedHookContents (helperPath : HelperPath) (token : Bytes) : HookKind → Bytes
  | .install =>
    ascii "[Trigger]\nOperation = Install\nType = Package\nTarget = *\n\n[Action]\n" ++
      ascii "Description = Record Moguet source-artifact installs\n" ++
      ascii "When = PostTransaction\nExec = " ++ helperPath.path ++ ascii " record " ++ token ++
      ascii "\nNeedsTargets\n"
  | .execution =>
    ascii "[Trigger]\nOperation = Install\nOperation = Upgrade\nType = Package\n" ++
      ascii "Target = *\n\n[Action]\nDescription = Check Moguet package inputs\n" ++
      ascii "When = PreTransaction\nExec = " ++ helperPath.path ++
      ascii " observe-execution " ++ token ++ ascii "\n"
  | .exactInstall => exactOperationHookContents helperPath token false
  | .exactUpgrade => exactOperationHookContents helperPath token true

/-! ## Preparing -/

def expectedInputSize (request : RootPrepareRequest) : Nat :=
  (request.artifacts.map fun artifact => artifact.artifactSize + artifact.signatureSize).sum

/-- `require_sealed_input`. -/
def requireSealedInput (request : RootPrepareRequest) (input : SealedInput) :
    InstallStage Unit := do
  check thrown (input.isRegular && 0 ≤ input.size)
  check thrown input.isWriteSealed
  check thrown (input.size = expectedInputSize request)

/-- `copy_exact_range`: an input that ends early is noticed after what it had is
written. -/
def copyExactRange (input : SealedInput) (offset : Nat) (name : InstallName)
    (byteCount : Nat) : InstallTreeStage Unit := do
  let bytes := (input.contents.drop offset).take byteCount
  writeAll thrown name bytes
  check thrown (bytes.length = byteCount)

/-- One file of a package. -/
def stageFile (input : SealedInput) (offset : Nat) (name : InstallName)
    (size : Nat) : InstallTreeStage Unit := do
  createPrivateFile thrown name
  copyExactRange input offset name size
  synchronizeFile thrown (some name)

/-- The loop over the packages, with the offset in the input. -/
def stageArtifacts (input : SealedInput) :
    Nat → List (RootArtifactExpectation × Nat) → InstallTreeStage Unit
  | _, [] => Stage.pure ()
  | offset, (expected, ordinal) :: rest => do
      stageFile input offset (.artifact ordinal) expected.artifactSize
      let after := offset + expected.artifactSize
      if expected.signatureSha256 = ascii "-" then stageArtifacts input after rest
      else
        stageFile input after (.signature ordinal) expected.signatureSize
        stageArtifacts input (after + expected.signatureSize) rest

/-- The comparisons of `require_archive_identity`. -/
def archiveMatches (metadata : ArchiveMetadata) (expected : RootArtifactExpectation)
    (legacy : Bool) : Bool :=
  metadata.packageName = some expected.packageName &&
    metadata.fullVersion = some expected.fullVersion &&
    (legacy || (metadata.packageBase = some expected.packageBase &&
      metadata.architecture = some expected.architecture))

def requireArchiveIdentity (legacy : Bool)
    (artifact : RootArtifactExpectation × Nat) : InstallTreeStage Unit := do
  openPrivateFile thrown (.artifact artifact.2)
  let answer ← Stage.query ()
    (TreeRequest.extra (InstallExtra.loadArchive (.artifact artifact.2)))
  let metadata ← orThrow thrown answer
  check thrown (archiveMatches metadata artifact.1 legacy)

def stageHook (helperPath : HelperPath) (token : Bytes) (kind : HookKind) :
    InstallTreeStage Unit := do
  createPrivateFile thrown (.hook kind)
  writeAll thrown (.hook kind) (expectedHookContents helperPath token kind)
  synchronizeFile thrown (some (.hook kind))

/-- The exact purpose seals the database the package manager works on. -/
def stageDatabaseWorld : InstallTreeStage Unit := do
  ensurePrivateDirectory thrown .exact
  createPrivateFile thrown .world
  let world ← Stage.query () (TreeRequest.extra InstallExtra.resolveDatabaseWorld)
  writeAll thrown .world world
  synchronizeFile thrown (some .world)
  synchronizeFile thrown (some .exact)

def stageProjection (request : RootPrepareRequest) : InstallTreeStage Unit := do
  let namespaceIdentity ← reproveNamespace
  let projection ← collectStagedProjection request namespaceIdentity
  createPrivateFile thrown .identity
  writeAll thrown .identity projection
  synchronizeFile thrown (some .identity)

section Operations

variable (helperPath : HelperPath)

/-- The files that `prepare` writes. -/
def writePreparedFiles (request : RootPrepareRequest) (input : SealedInput)
    (preparedProtocol : Bytes) : InstallTreeStage Unit := do
  createPrivateFile thrown .prepared
  writeAll thrown .prepared preparedProtocol
  synchronizeFile thrown (some .prepared)
  createPrivateFile thrown .lifetime
  writeAll thrown .lifetime (lifetimeLeaseContents request.transactionToken)
  synchronizeFile thrown (some .lifetime)
  let locked ← Stage.query () (TreeRequest.extra (InstallExtra.lockLease true))
  orThrow thrown locked
  ensurePrivateDirectory thrown .hooks
  forEach (stageHook helperPath request.transactionToken) (expectedHookEntries request)
  synchronizeFile thrown (some .hooks)
  ensurePrivateDirectory thrown .artifacts
  stageArtifacts input 0 request.artifacts.zipIdx
  requireExactEntries thrown (some .artifacts) (expectedArtifactEntries request)
  synchronizeFile thrown (some .artifacts)
  forEach (requireArchiveIdentity (request.purpose = .legacyArtifactInstall))
    request.artifacts.zipIdx
  if request.purpose = .exactInstalledBinding then stageDatabaseWorld else Stage.pure ()
  stageProjection request
  requireExactEntries thrown none
    ([.prepared, .hooks, .artifacts, .identity, .lifetime] ++
      if request.purpose = .exactInstalledBinding then [.exact] else [])
  synchronizeFile thrown none

/-- The body of `prepare` up to the publishing rename. -/
def fillStaging (request : RootPrepareRequest) (input : SealedInput) (preparedProtocol : Bytes) :
    InstallStage Unit := do
  let staging ← openDirectoryAt thrown .staging
  below staging (writePreparedFiles helperPath request input preparedProtocol)
  publishTransaction thrown

/-- `staged_identity_digest`. -/
def stagedIdentityDigest : InstallTreeStage Bytes := do
  openPrivateFile thrown .identity
  let before ← observeIdentity (some .identity)
  let bytes ← readBounded thrown .identity maxIdentityBytes
  requireStagedIdentity .identity before
  Stage.pure (contentDigestHex bytes)

def stagedArtifacts (request : RootPrepareRequest) : Protocol (List StagedArtifact) :=
  request.artifacts.zipIdx.mapM fun artifact => do
    let path ← stagedArtifactPath request.transactionToken artifact.2
    .ok ⟨artifact.1.artifactIndex, path⟩

/-- The answer to a preparation, from the published state proved once more. -/
def prepareResponse (request : RootPrepareRequest) :
    InstallTreeStage RootPrepareResponse := do
  let validated ← validatePreparedState request.transactionToken
  check thrown (validated = request)
  let directory ← orRefuse (thrown 0) (hookDirectory request.transactionToken)
  let digest ← if request.purpose = .exactInstalledBinding then stagedIdentityDigest
    else Stage.pure []
  let artifacts ← orRefuse (thrown 0) (stagedArtifacts request)
  Stage.pure ⟨request.transactionToken, directory, artifacts, digest⟩

/-- The body of `prepare` after the rename. -/
def reprovePublished (request : RootPrepareRequest) : InstallStage RootPrepareResponse := do
  synchronizeDirectory thrown .active
  let transaction ← openTransaction thrown
  below transaction (prepareResponse request)

/-- What `abort` reads before it retires the transaction. -/
def readAbortable (transactionToken : Bytes) :
    InstallTreeStage (RootPrepareRequest × Bool × Bool) := do
  acquireLifetimeLease transactionToken true
  let request ← validatePreparedState transactionToken
  let _ ← reproveNamespace
  let hasReceipt ← entryExists thrown .receipt
  let hasPartialReceipt ← entryExists thrown .partialReceipt
  check thrown !(hasReceipt && hasPartialReceipt)
  validateOptionalPrivateFile thrown .receipt
  validateOptionalPrivateFile thrown .partialReceipt
  requireTransactionEntries (receiptEntries hasReceipt hasPartialReceipt)
  Stage.pure (request, hasReceipt, hasPartialReceipt)

def abort (transactionToken : Bytes) : InstallStage Unit := do
  check thrown (isValidTrustedAlpmReceiptToken transactionToken)
  let transaction ← openTransaction thrown
  let (request, hasReceipt, hasPartialReceipt) ←
    below transaction (readAbortable transactionToken)
  requireNamedIdentity thrown .active transaction
  let retired ← retireTransaction thrown transaction
  below retired (cleanupRetiredTransaction request hasReceipt hasPartialReceipt)

/-- Whether the cleanup works or not, a failure in the body is thrown. -/
def prepare (request : RootPrepareRequest) (input : SealedInput) :
    InstallStage RootPrepareResponse := do
  check thrown (isValidRootRequest request)
  requireSealedInput request input
  let preparedProtocol ← orRefuse (thrown 0) (serializeRootPreparedState request)
  requireEntryAbsent thrown .used
  requireEntryAbsent thrown .active
  requireEntryAbsent thrown .staging
  makeStaging thrown
  catching (fillStaging helperPath request input preparedProtocol) fun failure => do
    let cleaned ← cleanupPreparingDirectory request
    Stage.leave (if cleaned then failure else thrown 0)
  catching (reprovePublished request) fun failure => do
    catching (abort request.transactionToken) fun _ => Stage.leave (thrown 0)
    Stage.leave failure

/-- The receipt that `consume` hands out, which needs the authority of an
execution that a hook has seen. -/
def readReceipt (transactionToken : Bytes) (hasReceipt : Bool) :
    InstallTreeStage RootReceipt := do
  if hasReceipt then
    openPrivateFile thrown .receipt
    let protocol ← readBounded thrown .receipt maximumProtocolBytes
    let complete ← orRefuse (thrown 0) (parseRootReceipt protocol)
    check thrown (complete.state = .complete)
    check thrown (complete.transactionToken = transactionToken)
    let execution ← readExecutionAuthority transactionToken
    requireOr .trustedTransportProtocolMismatch
      (execution.authorized && execution.refusal = none)
    let evidence ← readObservedExecution transactionToken
    requireOr .trustedTransportProtocolMismatch (evidence ≠ .unobserved)
    Stage.pure complete
  else Stage.pure ⟨.missing, transactionToken, []⟩

/-- What `consume` reads before it retires the transaction. -/
def readConsumable (transactionToken : Bytes) :
    InstallTreeStage (RootPrepareRequest × Bool × RootReceipt) := do
  acquireLifetimeLease transactionToken true
  let request ← validatePreparedState transactionToken
  check thrown (request.purpose = .cleanupInstallOnly)
  let _ ← reproveNamespace
  let hasReceipt ← entryExists thrown .receipt
  let hasPartialReceipt ← entryExists thrown .partialReceipt
  check thrown !hasPartialReceipt
  requireTransactionEntries (receiptEntries hasReceipt false)
  let receipt ← readReceipt transactionToken hasReceipt
  Stage.pure (request, hasReceipt, receipt)

def consume (transactionToken : Bytes) : InstallStage Bytes := do
  check thrown (isValidTrustedAlpmReceiptToken transactionToken)
  let transaction ← openTransaction thrown
  let (request, hasReceipt, receipt) ← below transaction (readConsumable transactionToken)
  requireNamedIdentity thrown .active transaction
  let retired ← retireTransaction thrown transaction
  below retired (cleanupRetiredTransaction request hasReceipt false)
  orRefuse (thrown 0) (serializeRootReceipt receipt)

end Operations

end Moguet.Install.Store
