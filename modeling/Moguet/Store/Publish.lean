import Moguet.Verified.Dialogue
import Moguet.Store.History

/-!
# Reading and publishing generations

`publish_xdg_generation_store` and `read_xdg_generation_store` as the sequence
of filesystem steps they make. A step is a request to the system; whatever
other writers do meanwhile shows in the answers. The link of the new record is
the one request that changes the unit directory, and the only commit point.

A scan lists the names once and looks at each of them at a moment of its own,
and the proof reads each record at a moment of its own, so a whole observation
is one request whose answer is a list and two functions.
-/

namespace Moguet.Store.Publish

open Verified.ByteString Verified.Decimal Verified.Dialogue Record Chain

/-! ## Records and results -/

structure ObservedRecord where
  generation : Nat
  leafName : Bytes
  identity : RecordIdentity
  rawContents : Bytes

/-- A configuration that `validate_configuration` lets through. `expectedOwner`
is the owner of the prepared store directory. -/
structure StoreConfiguration where
  expectedOwner : Nat
  temporaryLeafPrefix : Bytes
  maxRecordBytes : Nat
  isFutureDocument : Bytes → Bool
  temporary_marked : (ascii "-.moguet-").isPrefixOf temporaryLeafPrefix = true
  maxRecordBytes_pos : 0 < maxRecordBytes
  maxRecordBytes_lt : maxRecordBytes < 2 ^ 64

/-- A store of small records that knows no future schema. -/
def sampleConfiguration : StoreConfiguration where
  expectedOwner := 1000
  temporaryLeafPrefix := ascii "-.moguet-"
  maxRecordBytes := 1024
  isFutureDocument := fun _ => false
  temporary_marked := by decide
  maxRecordBytes_pos := by decide
  maxRecordBytes_lt := by decide

inductive PostPublicationIssue
  | directorySyncUncertain
  | publishedIdentityUncertain
  | directoryCloseFailed
  | lineageRevalidationFailed
  | predecessorObservationUncertain
  | unitDirectoryIdentityUncertain
  | authoritativeHistoryUncertain
  | resourceFailure
  | internalFailure
  deriving DecidableEq

inductive PublishResult
  | published (observed : ObservedRecord)
  | publishedUncertain (observed : Option ObservedRecord) (issue : PostPublicationIssue)
      (failureKind : StoreFailureKind) (entry : Option Bytes)
  | unsafeHistory (observed : StoreUnsafeHistory)
  | failure (reported : StoreFailure)

/-- The results that say a record has been named. -/
def PublishResult.isPublication : PublishResult → Bool
  | .published _ => true
  | .publishedUncertain _ _ _ _ => true
  | .unsafeHistory _ => false
  | .failure _ => false

inductive ReadResult
  | missing
  | loaded (observed : ObservedRecord)
  | unsafeHistory (observed : StoreUnsafeHistory)
  | failure (reported : StoreFailure)

/-! ## Leaf names -/

def originLeaf : Bytes := ascii "1.toml"

/-- A time before the epoch is written as zero. -/
def writtenTime (value : Int) : Nat := if value < 0 then 0 else value.toNat

/-- `xdg_generation_store_successor_leaf`. -/
def successorLeaf (nextGeneration : Nat) (predecessor : RecordIdentity)
    (predecessorRawContents : Bytes) : Bytes :=
  writeUnsigned nextGeneration ++ ascii "." ++
    writeUnsigned predecessor.device ++ ascii "-" ++
    writeUnsigned predecessor.inode ++ ascii "-" ++
    writeUnsigned (writtenTime predecessor.statusChangeTimeSeconds) ++ ascii "-" ++
    writeUnsigned (writtenTime predecessor.statusChangeTimeNanoseconds) ++ ascii "." ++
    contentDigestHex predecessorRawContents ++ entrySuffix

/-! ## Comparing states -/

def sameFilesystemIdentity (expected actual : FileStatus) : Bool :=
  expected.device = actual.device && expected.inode = actual.inode &&
    expected.mode &&& 0o170000 = actual.mode &&& 0o170000

/-- `same_relocated_record_state`: all but link count and status-change time. -/
def sameRelocatedRecordState (expected actual : FileStatus) : Bool :=
  sameFilesystemIdentity expected actual && expected.owner = actual.owner &&
    expected.mode &&& 0o7777 = actual.mode &&& 0o7777 && expected.size = actual.size &&
    expected.modificationTimeSeconds = actual.modificationTimeSeconds &&
    expected.modificationTimeNanoseconds = actual.modificationTimeNanoseconds

def sameRecordState (expected actual : FileStatus) : Bool :=
  sameRelocatedRecordState expected actual && expected.linkCount = actual.linkCount &&
    expected.statusChangeTimeSeconds = actual.statusChangeTimeSeconds &&
    expected.statusChangeTimeNanoseconds = actual.statusChangeTimeNanoseconds

def matchesPredecessorIdentity (status : FileStatus) (identity : RecordIdentity) : Bool :=
  status.device = identity.device && status.inode = identity.inode &&
    status.statusChangeTimeSeconds = identity.statusChangeTimeSeconds &&
    status.statusChangeTimeNanoseconds = identity.statusChangeTimeNanoseconds

/-- A record that has no name yet. -/
def validateAnonymousRecordStatus (status : FileStatus) (expectedOwner : Nat) :
    Option StoreFailure :=
  let fileType := fileTypeFromMode status.mode
  if fileType ≠ .regular then some ⟨.unsupportedFileType, none, some fileType⟩
  else if status.owner ≠ expectedOwner then some ⟨.ownershipMismatch, none, none⟩
  else if status.mode &&& 0o7777 ≠ recordMode then some ⟨.unsafePermissions, none, none⟩
  else if status.linkCount ≠ 0 then some ⟨.multipleHardLinks, none, none⟩
  else none

/-! ## Requests -/

/-- Steps that only succeed or fail. -/
inductive Operation
  | prepareDirectory
  | lockStore
  | openUnitDirectory
  | syncStoreDirectory
  | syncManagedParents
  | createRecord
  | setRecordMode
  | writeRecord (contents : Bytes)
  | syncRecord
  | seekRecord
  | revalidateUnitDirectory
  | closeRecord
  | syncUnitDirectory
  | closeUnitDirectory
  | closeLock
  | requireUnchangedLineage

/-- The descriptor of the current tip, or of the record being written. -/
inductive Descriptor
  | tip
  | record
  deriving DecidableEq

inductive Request
  | perform (operation : Operation)
  | storeExists
  | unitExists
  | observeHistory
  | inspectNamedEntry (leaf : Bytes)
  | openEntry (leaf : Bytes)
  | statDescriptor (descriptor : Descriptor)
  | readTip
  | linkRecord (leaf : Bytes)

/-- What a scan and the proof over it get to see. -/
structure Observation where
  directory : UnitDirectory
  readGenerationContents : ScannedGeneration → Except StoreFailure Bytes

/-- `linkat`: done, refused because the name or its directory has changed, or
failed otherwise. -/
inductive LinkAnswer
  | linked
  | replaced
  | failed
  deriving DecidableEq

/-- The answers to a request. A failure is the one the step reports. -/
def Answer : Request → Type
  | .perform _ => Except StoreFailure Unit
  | .storeExists => Except StoreFailure Bool
  | .unitExists => Except StoreFailure Bool
  | .observeHistory => Except StoreFailure Observation
  | .inspectNamedEntry _ => Except StoreFailure (Option FileStatus)
  | .openEntry _ => Except StoreFailure FileStatus
  | .statDescriptor _ => Except StoreFailure FileStatus
  | .readTip => Except StoreFailure Bytes
  | .linkRecord _ => LinkAnswer

/-! ## Progress -/

inductive PublicationPhase
  | preCommit
  | committed
  | verifiedPublished
  deriving DecidableEq

structure PublicationProgress where
  phase : PublicationPhase := .preCommit
  entry : Option Bytes := none
  record : Option ObservedRecord := none
  recordIdentified : Bool := false

/-- `publication_exception`: the result of an exception, from the phase it was
thrown in. The kind is `ResourceFailure` or `InternalFailure`. A verified
publication has its record. -/
def publicationException (progress : PublicationProgress) (kind : StoreFailureKind) :
    PublishResult :=
  let observed := if progress.recordIdentified then progress.record else none
  let uncertain := PublishResult.publishedUncertain observed
    (if kind = .resourceFailure then .resourceFailure else .internalFailure) kind progress.entry
  match progress.phase with
  | .preCommit => .failure ⟨kind, progress.entry, none⟩
  | .committed => uncertain
  | .verifiedPublished =>
    match progress.record with
    | some record => .published record
    | none => uncertain

/-! ## Stages -/

abbrev StoreStage (Note ε α : Type) : Type := Stage Request Answer Note ε α

section Steps

variable {Note ε α : Type}

/-- The value of a successful step; a failure leaves with what `fail` makes of
it. -/
def orLeave (fail : StoreFailure → ε) : Except StoreFailure α → StoreStage Note ε α
  | .ok value => Stage.pure value
  | .error failure => Stage.leave (fail failure)

/-- A check that reports a failure. -/
def leaveOn (fail : StoreFailure → ε) : Option StoreFailure → StoreStage Note ε Unit
  | none => Stage.pure ()
  | some failure => Stage.leave (fail failure)

variable (note : Note) (fail : StoreFailure → ε)

def perform (operation : Operation) : StoreStage Note ε Unit := do
  let answer ← Stage.query note (Request.perform operation)
  orLeave fail answer

def inspectNamedEntry (leaf : Bytes) : StoreStage Note ε (Option FileStatus) := do
  let answer ← Stage.query note (Request.inspectNamedEntry leaf)
  orLeave fail answer

def statDescriptor (descriptor : Descriptor) : StoreStage Note ε FileStatus := do
  let answer ← Stage.query note (Request.statDescriptor descriptor)
  orLeave fail answer

def concurrentReplacement (entry : Option Bytes) : StoreFailure :=
  ⟨.concurrentReplacement, entry, none⟩

/-- A status that has to be there. -/
def present (leaf : Bytes) : Option FileStatus → StoreStage Note ε FileStatus
  | some status => Stage.pure status
  | none => Stage.leave (fail (concurrentReplacement (some leaf)))

variable (configuration : StoreConfiguration)

/-- `open_existing_entry`. -/
def openExistingEntry (leaf : Bytes) (observedStatus : FileStatus) :
    StoreStage Note ε Unit := do
  let answer ← Stage.query note (Request.openEntry leaf)
  let openedStatus ← orLeave fail answer
  leaveOn fail (validateEntryStatus openedStatus leaf configuration.expectedOwner)
  let _ ← Stage.require (sameRecordState observedStatus openedStatus)
    (fail (concurrentReplacement (some leaf)))
  Stage.pure ()

/-- `read_all_bytes`: the bytes, and that they belong to the name. -/
def readAllBytes (leaf : Bytes) (expectedStatus : FileStatus) : StoreStage Note ε Bytes := do
  let _ ← Stage.require
    (0 ≤ expectedStatus.size && expectedStatus.size ≤ configuration.maxRecordBytes)
    (fail ⟨.recordTooLarge, some leaf, none⟩)
  let answer ← Stage.query note Request.readTip
  let contents ← orLeave fail answer
  let _ ← Stage.require (contents.length ≤ configuration.maxRecordBytes)
    (fail ⟨.recordTooLarge, some leaf, none⟩)
  let afterStatus ← statDescriptor note fail .tip
  leaveOn fail (validateEntryStatus afterStatus leaf configuration.expectedOwner)
  let _ ← Stage.require (sameRecordState expectedStatus afterStatus)
    (fail (concurrentReplacement (some leaf)))
  let named ← inspectNamedEntry note fail leaf
  let namedStatus ← present fail leaf named
  leaveOn fail (validateEntryStatus namedStatus leaf configuration.expectedOwner)
  let _ ← Stage.require (sameRecordState afterStatus namedStatus)
    (fail (concurrentReplacement (some leaf)))
  let _ ← Stage.require (contents.length = expectedStatus.size)
    (fail (concurrentReplacement (some leaf)))
  Stage.pure contents

/-- `reread_descriptor_contents`. -/
def rereadDescriptorContents (leaf : Bytes) : StoreStage Note ε Bytes := do
  perform note fail .seekRecord
  let status ← statDescriptor note fail .tip
  readAllBytes note fail configuration leaf status

/-! ## Proofs of the history -/

/-- A scan and the proof over what it found. -/
def proveHistory (observation : Observation) : Except ChainRefusal ProvenChain :=
  match scanUnitDirectory configuration.expectedOwner observation.directory
      configuration.temporaryLeafPrefix with
  | .error failure => .error (.failure failure)
  | .ok inventory =>
    proveAuthoritativeChain configuration.expectedOwner observation.readGenerationContents
      configuration.isFutureDocument inventory

variable (refuse : StoreUnsafeHistory → StoreStage Note ε ProvenChain)

/-- A proof or an early end. A walk always finishes, so the last case is never
met. -/
def requireProof : Except ChainRefusal ProvenChain → StoreStage Note ε ProvenChain
  | .ok proven => Stage.pure proven
  | .error (.history observed) => refuse observed
  | .error (.failure failure) => Stage.leave (fail failure)
  | .error .unfinished => Stage.leave (fail ⟨.internalFailure, none, none⟩)

def proveAuthority : StoreStage Note ε ProvenChain := do
  let answer ← Stage.query note Request.observeHistory
  let observation ← orLeave fail answer
  requireProof fail refuse (proveHistory configuration observation)

/-- `reprove_authoritative_chain`. -/
def reproveAuthority (expectedToken : ChainProofToken) : StoreStage Note ε ProvenChain := do
  let proven ← proveAuthority note fail configuration refuse
  let _ ← Stage.require (proven.token = expectedToken) (fail (concurrentReplacement none))
  Stage.pure proven

end Steps

/-- `extend_proof_token`. -/
def extendProofToken (token : ChainProofToken) (publishedLeaf : Bytes)
    (publishedIdentity : RecordIdentity) (publishedContents : Bytes) : ChainProofToken where
  managedLeaves := (token.managedLeaves ++ [publishedLeaf]).insertionSort (· ≤ ·)
  records := token.records ++
    [⟨publishedLeaf, publishedIdentity, contentDigestHex publishedContents⟩]

/-! ## Publication, up to the commit point -/

abbrev PublishStage (α : Type) : Type := StoreStage PublicationProgress PublishResult α

def refusePublication (observed : StoreUnsafeHistory) : PublishStage ProvenChain :=
  Stage.leave (.unsafeHistory observed)

/-- The current tip is the record the caller has observed, and may be followed. -/
def requireExpected (note : PublicationProgress) (configuration : StoreConfiguration) :
    Option ScannedGeneration → Option ObservedRecord → PublishStage Unit
  | none, none => Stage.pure ()
  | some current, some expected => do
      let leaf := current.leaf.leaf
      let _ ← Stage.require
        (current.leaf.generation = expected.generation && leaf = expected.leafName &&
          recordIdentityFromStatus current.status = expected.identity)
        (.failure (concurrentReplacement (some leaf)))
      openExistingEntry note .failure configuration leaf current.status
      let existingRaw ← readAllBytes note .failure configuration leaf current.status
      let _ ← Stage.require (existingRaw = expected.rawContents)
        (.failure (concurrentReplacement (some leaf)))
      let _ ← Stage.require (!configuration.isFutureDocument existingRaw)
        (.failure ⟨.futureSchemaOverwriteRefused, some leaf, none⟩)
      Stage.pure ()
  | _, _ => Stage.leave (.failure (concurrentReplacement none))

/-- The generation after the tip, in `uint64_t`. -/
def generationAfter (current : Option ScannedGeneration) : Nat :=
  match current with
  | none => 1
  | some record => nextGeneration record.leaf.generation

def publicationLeaf (generation : Nat) (expected : Option ObservedRecord) : Bytes :=
  match expected with
  | none => originLeaf
  | some record => successorLeaf generation record.identity record.rawContents

/-- The record is written without a name. -/
def writeAnonymousRecord (note : PublicationProgress) (configuration : StoreConfiguration)
    (publication : Bytes) : PublishStage FileStatus := do
  perform note .failure .createRecord
  perform note .failure .setRecordMode
  perform note .failure (.writeRecord publication)
  perform note .failure .syncRecord
  let status ← statDescriptor note .failure .record
  leaveOn .failure (validateAnonymousRecordStatus status configuration.expectedOwner)
  Stage.pure status

/-- The tip is still the observed one, or there still is none. -/
def recheckPredecessor (note : PublicationProgress) (configuration : StoreConfiguration)
    (leaf : Bytes) : Option ScannedGeneration → Option ObservedRecord → PublishStage Unit
  | some current, some expected => do
      let currentLeaf := current.leaf.leaf
      let named ← inspectNamedEntry note .failure currentLeaf
      let _ ← Stage.require (named.any fun status =>
          matchesPredecessorIdentity status expected.identity)
        (.failure (concurrentReplacement (some currentLeaf)))
      let contents ← rereadDescriptorContents note .failure configuration currentLeaf
      let _ ← Stage.require (contents = expected.rawContents)
        (.failure (concurrentReplacement (some currentLeaf)))
      Stage.pure ()
  | _, _ => do
      let named ← inspectNamedEntry note .failure leaf
      let _ ← Stage.require named.isNone (.failure (concurrentReplacement (some leaf)))
      Stage.pure ()

/-- What the commit needs of the steps before it. -/
structure Prepared where
  proven : ProvenChain
  generation : Nat
  leaf : Bytes
  temporaryStatus : FileStatus

/-- The progress from the moment the leaf is known. -/
def preparedProgress (generation : Nat) (leaf publication : Bytes) : PublicationProgress where
  entry := some leaf
  record := some ⟨generation, leaf, ⟨0, 0, 0, 0, 0, 0, 0, 0, 0, 0⟩, publication⟩

/-- Everything up to the first proof of the history. -/
def openHistory (configuration : StoreConfiguration) (publication : Bytes) :
    PublishStage ProvenChain := do
  let note : PublicationProgress := {}
  let _ ← Stage.require (publication.length ≤ configuration.maxRecordBytes)
    (.failure ⟨.recordTooLarge, none, none⟩)
  perform note .failure .prepareDirectory
  perform note .failure .lockStore
  perform note .failure .openUnitDirectory
  perform note .failure .syncStoreDirectory
  perform note .failure .syncManagedParents
  proveAuthority note .failure configuration refusePublication

def prepareCommit (configuration : StoreConfiguration) (publication : Bytes)
    (expected : Option ObservedRecord) : PublishStage Prepared := do
  let proven ← openHistory configuration publication
  requireExpected {} configuration proven.tip expected
  let generation := generationAfter proven.tip
  let _ ← Stage.require (generation ≠ 0) (.failure ⟨.writeFailed, none, none⟩)
  let leaf := publicationLeaf generation expected
  let note := preparedProgress generation leaf publication
  let temporaryStatus ← writeAnonymousRecord note configuration publication
  recheckPredecessor note configuration leaf proven.tip expected
  perform note .failure .revalidateUnitDirectory
  let _ ← reproveAuthority note .failure configuration refusePublication proven.token
  Stage.pure ⟨proven, generation, leaf, temporaryStatus⟩

/-! ## Publication, from the commit point on -/

def linkRecord (note : PublicationProgress) (leaf : Bytes) : PublishStage Unit := do
  let answer ← Stage.query note (Request.linkRecord leaf)
  match (show LinkAnswer from answer) with
  | .linked => Stage.pure ()
  | .replaced => Stage.leave (.failure (concurrentReplacement (some leaf)))
  | .failed => Stage.leave (.failure ⟨.renameFailed, some leaf, none⟩)

/-- A failed read of the predecessor that shows it has changed. -/
def isDefiniteDivergence : StoreFailureKind → Bool
  | .concurrentReplacement | .unsupportedFileType | .ownershipMismatch | .unsafePermissions
  | .multipleHardLinks | .recordTooLarge => true
  | _ => false

section Committed

variable (note : PublicationProgress) (configuration : StoreConfiguration) (record : ObservedRecord)

def uncertain (issue : PostPublicationIssue) (entry : Option Bytes) (failure : StoreFailure) :
    PublishResult :=
  .publishedUncertain (some record) issue failure.kind entry

def historyUncertain (failure : StoreFailure) : PublishResult :=
  uncertain record .authoritativeHistoryUncertain (some record.leafName) failure

/-- What a failed read of the predecessor means after the commit. -/
def predecessorReadUncertain (failure : StoreFailure) : PublishResult :=
  if isDefiniteDivergence failure.kind then historyUncertain record failure
  else uncertain record .predecessorObservationUncertain (some record.leafName) failure

/-- The predecessor after the commit. -/
def verifyPredecessor :
    Option ScannedGeneration → Option ObservedRecord → PublishStage Unit
  | some current, some expected => do
      let currentLeaf := current.leaf.leaf
      let named ← inspectNamedEntry note
        (uncertain record .predecessorObservationUncertain (some record.leafName)) currentLeaf
      let _ ← Stage.require (named.any fun status =>
          matchesPredecessorIdentity status expected.identity)
        (historyUncertain record (concurrentReplacement none))
      let contents ← rereadDescriptorContents note (predecessorReadUncertain record)
        configuration currentLeaf
      let _ ← Stage.require (contents = expected.rawContents)
        (historyUncertain record (concurrentReplacement none))
      Stage.pure ()
  | _, _ => Stage.pure ()

/-- The name of the new record, and that it is the one written. -/
def verifyPublished (temporaryStatus publishedStatus : FileStatus) : PublishStage Unit := do
  let identityUncertain :=
    uncertain record .publishedIdentityUncertain (some record.leafName)
  let answer ← Stage.query note (Request.inspectNamedEntry record.leafName)
  let named := (show Except StoreFailure (Option FileStatus) from answer).toOption.join
  let _ ← Stage.require (named.any fun namedStatus =>
      sameRelocatedRecordState temporaryStatus publishedStatus &&
        sameRecordState publishedStatus namedStatus)
    (identityUncertain (concurrentReplacement (some record.leafName)))
  leaveOn identityUncertain
    (named.bind fun namedStatus =>
      validateEntryStatus namedStatus record.leafName configuration.expectedOwner)

/-- The steps after the last proof. -/
def closePublication : PublishStage Unit := do
  perform note (uncertain record .publishedIdentityUncertain (some record.leafName)) .closeRecord
  perform note (uncertain record .directorySyncUncertain none) .syncUnitDirectory
  perform note (uncertain record .unitDirectoryIdentityUncertain none) .revalidateUnitDirectory
  perform note (uncertain record .directoryCloseFailed none) .closeUnitDirectory
  perform note (uncertain record .directoryCloseFailed none) .closeLock
  perform note (uncertain record .lineageRevalidationFailed none) .requireUnchangedLineage

end Committed

/-- The checks of a record that has its name. -/
def verifyCommit (configuration : StoreConfiguration) (publication : Bytes)
    (expected : Option ObservedRecord) (prepared : Prepared) : PublishStage PublishResult := do
  let committed :=
    { preparedProgress prepared.generation prepared.leaf publication with phase := .committed }
  let publishedStatus ← statDescriptor committed
    (fun failure => .publishedUncertain none .publishedIdentityUncertain failure.kind
      (some prepared.leaf)) .record
  let record : ObservedRecord :=
    ⟨prepared.generation, prepared.leaf, recordIdentityFromStatus publishedStatus, publication⟩
  let note := { committed with record := some record, recordIdentified := true }
  verifyPredecessor note configuration record prepared.proven.tip expected
  verifyPublished note configuration record prepared.temporaryStatus publishedStatus
  let _ ← reproveAuthority note (historyUncertain record) configuration
    (fun _ => Stage.leave (historyUncertain record (concurrentReplacement none)))
    (extendProofToken prepared.proven.token prepared.leaf record.identity publication)
  closePublication note record
  Stage.pure (.published record)

/-- `publish_generation_store`. -/
def publishStage (configuration : StoreConfiguration) (publication : Bytes)
    (expected : Option ObservedRecord) : PublishStage PublishResult := do
  let prepared ← prepareCommit configuration publication expected
  linkRecord (preparedProgress prepared.generation prepared.leaf publication) prepared.leaf
  verifyCommit configuration publication expected prepared

/-- `publish_xdg_generation_store`, but for the exceptions, which can end it at
any request. -/
def publishGenerationStore (configuration : StoreConfiguration) (publication : Bytes)
    (expected : Option ObservedRecord) :
    Program Request Answer PublicationProgress PublishResult :=
  Program.bind (publishStage configuration publication expected) fun
    | .ok result => .done result
    | .error result => .done result

/-! ## Lookup -/

abbrev ReadStage (α : Type) : Type := StoreStage Unit ReadResult α

/-- An unsafe history is an answer too, so the lineage is checked first. -/
def refuseRead (observed : StoreUnsafeHistory) : ReadStage ProvenChain := do
  perform () .failure .requireUnchangedLineage
  Stage.leave (.unsafeHistory observed)

/-- The steps of a lookup before its first proof. -/
def openForRead (configuration : StoreConfiguration) : ReadStage ProvenChain := do
  let storeAnswer ← Stage.query () Request.storeExists
  let hasStore ← orLeave .failure storeAnswer
  let _ ← Stage.require hasStore .missing
  perform () .failure .lockStore
  let unitAnswer ← Stage.query () Request.unitExists
  let hasUnit ← orLeave .failure unitAnswer
  match hasUnit with
  | false => do
      perform () .failure .requireUnchangedLineage
      Stage.leave .missing
  | true => do
      perform () .failure .openUnitDirectory
      proveAuthority () .failure configuration refuseRead

/-- The end of a lookup that found a unit. -/
def closeRead : ReadStage Unit := do
  perform () .failure .closeUnitDirectory
  perform () .failure .closeLock
  perform () .failure .requireUnchangedLineage

/-- The lookup of a tip. -/
def readTip (configuration : StoreConfiguration) (proven : ProvenChain)
    (current : ScannedGeneration) : ReadStage ReadResult := do
  let leaf := current.leaf.leaf
  openExistingEntry () .failure configuration leaf current.status
  let named ← inspectNamedEntry () .failure leaf
  let _ ← Stage.require (named.any (sameRecordState current.status))
    (.failure (concurrentReplacement (some leaf)))
  let raw ← readAllBytes () .failure configuration leaf current.status
  perform () .failure .closeRecord
  let boundary ← reproveAuthority () .failure configuration refuseRead proven.token
  let _ ← Stage.require (raw = boundary.tipContents)
    (.failure (concurrentReplacement (some leaf)))
  perform () .failure .revalidateUnitDirectory
  closeRead
  Stage.pure (.loaded
    ⟨current.leaf.generation, leaf, recordIdentityFromStatus current.status, raw⟩)

/-- The lookup of a unit without records. -/
def readEmpty (configuration : StoreConfiguration) (proven : ProvenChain) :
    ReadStage ReadResult := do
  let _ ← reproveAuthority () .failure configuration refuseRead proven.token
  perform () .failure .revalidateUnitDirectory
  perform () .failure .requireUnchangedLineage
  Stage.pure .missing

def readStage (configuration : StoreConfiguration) : ReadStage ReadResult := do
  let proven ← openForRead configuration
  match proven.tip with
  | none => readEmpty configuration proven
  | some current => readTip configuration proven current

/-- `read_xdg_generation_store`. -/
def readGenerationStore (configuration : StoreConfiguration) :
    Program Request Answer Unit ReadResult :=
  Program.bind (readStage configuration) fun
    | .ok result => .done result
    | .error result => .done result

end Moguet.Store.Publish
