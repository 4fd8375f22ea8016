import Moguet.Receipt.Protocol
import Moguet.Receipt.Transaction

/-!
# The store of the receipt helper

`TrustedAlpmReceiptStateStore` (`trusted_alpm_receipt_helper_state.cpp`): the
helper prepares a transaction, a hook of the package manager records what was
installed, and the helper hands the receipt out once. Every function is the
sequence of system calls it makes on the directory of one token.
-/

namespace Moguet.Receipt.Store

open Verified.ByteString Verified.Dialogue Verified.Processes Install.Request Protocol Transaction

/-- The entries of a transaction directory; the hook stands in `hooks`. -/
inductive ReceiptName
  | prepared
  | hooks
  | hook
  | receipt
  | partialReceipt
  deriving DecidableEq

def ReceiptName.parent : ReceiptName → Option ReceiptName
  | .hook => some .hooks
  | _ => none

abbrev ReceiptRequest : Type := Request ReceiptName Empty

abbrev ReceiptAnswer : ReceiptRequest → Type := Answer Empty.elim

/-- Every failure is one exception; its text is left out. -/
abbrev ReceiptStage (α : Type) : Type := StoreStage ReceiptName Empty Empty.elim Unit α

abbrev ReceiptTreeStage (α : Type) : Type := TreeStage ReceiptName Empty Empty.elim Unit α

abbrev ReceiptState : Type := TransactionState (FileTree ReceiptName)

def receiptTreeEffect :
    Effect (FileTree ReceiptName) (TreeRequest ReceiptName Empty) (TreeAnswer Empty.elim) :=
  treeEffect (fileEffect ReceiptName.parent) fun _ operation _ _ => operation.elim

def receiptEffect : Effect ReceiptState ReceiptRequest ReceiptAnswer :=
  storeEffect emptyTree (fun tree => tree = emptyTree) receiptTreeEffect

/-- A token that has never been prepared. -/
def freshState : ReceiptState := ⟨none, none, none, fun _ => emptyTree, 0⟩

def thrown : Errno → Unit := fun _ => ()

/-- A document that has to be read or written. -/
def orRefuse {Call : Type} {CallAnswer : Call → Type} {α : Type} :
    ReceiptResult α → Stage Call CallAnswer Unit Unit α
  | .ok value => Stage.pure value
  | .error _ => Stage.leave ()

/-- A path that is fixed when the program is built, such as
`MOGUET_ALPM_RECEIPT_HELPER_PATH`; the kernel takes no longer one. -/
structure HelperPath where
  path : Bytes
  path_short : path.length < 4096

theorem installedHelper_short :
    (ascii "/usr/lib/moguet/moguet-alpm-receipt-helper").length < 4096 := by decide

def hookContents (helperPath : HelperPath) (transactionToken : Bytes) : Bytes :=
  ascii "[Trigger]\nOperation = Install\nType = Package\nTarget = *\n\n[Action]\n" ++
    ascii "Description = Record Moguet transaction-local package installs\n" ++
    ascii "When = PostTransaction\nExec = " ++ helperPath.path ++ ascii " record " ++
    transactionToken ++ ascii " " ++ owner ++ ascii "\nNeedsTargets\n"

section Helpers

variable (helperPath : HelperPath) (transactionToken : Bytes)

def validatePreparedState : ReceiptTreeStage ReceiptPreparedState := do
  openPrivateFile thrown .prepared
  let preparedProtocol ← readBounded thrown .prepared receiptMaximumBytes
  let state ← orRefuse (parsePreparedState preparedProtocol)
  check thrown (state.transactionToken = transactionToken)
  openDirectoryInside thrown .hooks
  requireExactEntries thrown (some .hooks) [.hook]
  openPrivateFile thrown .hook
  let observedHook ← readBounded thrown .hook receiptMaximumBytes
  check thrown (observedHook = hookContents helperPath transactionToken)
  Stage.pure state

/-- The entries of a transaction with the receipts it has. -/
def expectedEntries (hasReceipt hasPartialReceipt : Bool) : List ReceiptName :=
  [.prepared, .hooks] ++ (if hasReceipt then [.receipt] else []) ++
    if hasPartialReceipt then [.partialReceipt] else []

def removePrivateFile (name : ReceiptName) : ReceiptTreeStage Unit := do
  openPrivateFile thrown name
  unlinkFile thrown name

def removeOptionalFile (shouldRemove : Bool) (name : ReceiptName) : ReceiptTreeStage Unit :=
  if shouldRemove then removePrivateFile name else Stage.pure ()

def cleanupRetiredTransaction (hasReceipt hasPartialReceipt : Bool) :
    ReceiptTreeStage Unit := do
  requireExactEntries thrown none (expectedEntries hasReceipt hasPartialReceipt)
  openDirectoryInside thrown .hooks
  requireExactEntries thrown (some .hooks) [.hook]
  removePrivateFile .hook
  removeDirectory thrown .hooks
  removePrivateFile .prepared
  removeOptionalFile hasReceipt .receipt
  removeOptionalFile hasPartialReceipt .partialReceipt
  requireExactEntries thrown none []
  synchronizeFile thrown none

/-- `unlink_if_present` with its result dropped. -/
def unlinkIgnoring (operation : FileOperation ReceiptName) :
    ReceiptTreeStage Unit := do
  let _ ← Stage.query () (TreeRequest.file operation)
  Stage.pure ()

/-- The part of `cleanup_preparing_directory` below the staging directory. -/
def cleanupPreparingFiles : ReceiptTreeStage Unit := do
  let hooks ← Stage.query () (TreeRequest.file (.openDirectory .hooks))
  match hooks with
  | .ok _ => unlinkIgnoring (.unlink .hook)
  | .error _ => Stage.pure ()
  unlinkIgnoring (.removeDirectory .hooks)
  unlinkIgnoring (.unlink .prepared)

/-- `cleanup_preparing_directory`. -/
def cleanupPreparingDirectory : ReceiptStage Bool := cleanupStaging cleanupPreparingFiles

/-- The files that `prepare` writes. -/
def writePreparedFiles (preparedProtocol : Bytes) : ReceiptTreeStage Unit := do
  createPrivateFile thrown .prepared
  writeAll thrown .prepared preparedProtocol
  synchronizeFile thrown (some .prepared)
  ensurePrivateDirectory thrown .hooks
  createPrivateFile thrown .hook
  writeAll thrown .hook (hookContents helperPath transactionToken)
  synchronizeFile thrown (some .hook)
  synchronizeFile thrown (some .hooks)
  requireExactEntries thrown none [.prepared, .hooks]
  synchronizeFile thrown none

/-- The body of `prepare` up to the publishing rename. -/
def fillStaging (preparedProtocol : Bytes) : ReceiptStage Unit := do
  let staging ← openDirectoryAt thrown .staging
  below staging (writePreparedFiles helperPath transactionToken preparedProtocol)
  publishTransaction thrown

/-- The handler of `prepare` once the transaction is published. -/
def retirePublished : ReceiptStage Unit := do
  let transaction ← openTransaction thrown
  let _ ← below transaction (validatePreparedState helperPath transactionToken)
  let retired ← retireTransaction thrown transaction
  below retired (cleanupRetiredTransaction false false)

/-- Whether the cleanup works or not, a failure in the body is thrown. -/
def prepare (requestedPackageNames : List Bytes) : ReceiptStage Unit := do
  check thrown (isValidTrustedAlpmReceiptToken transactionToken)
  let preparedProtocol ←
    orRefuse (serializePreparedState ⟨transactionToken, requestedPackageNames⟩)
  requireEntryAbsent thrown .used
  requireEntryAbsent thrown .active
  requireEntryAbsent thrown .staging
  makeStaging thrown
  catching (fillStaging helperPath transactionToken preparedProtocol) fun _ => do
    let _ ← cleanupPreparingDirectory
    Stage.leave ()
  catching (synchronizeDirectory thrown .active) fun _ => do
    catching (retirePublished helperPath transactionToken) fun _ => Stage.leave ()
    Stage.leave ()

/-- A transaction that has no receipt yet. -/
def validateRecordable : ReceiptTreeStage Unit := do
  let _ ← validatePreparedState helperPath transactionToken
  requireExactEntries thrown none [.prepared, .hooks]

def writePartialReceipt (receiptProtocol : Bytes) : ReceiptTreeStage Unit := do
  createPrivateFile thrown .partialReceipt
  writeAll thrown .partialReceipt receiptProtocol
  synchronizeFile thrown (some .partialReceipt)

/-- From here on the receipt is complete. -/
def completeReceipt : ReceiptTreeStage Unit := do
  renameNoreplace thrown .partialReceipt .receipt
  synchronizeFile thrown none
  requireExactEntries thrown none [.prepared, .hooks, .receipt]

/-- `needsTargetsInput` is what reading the descriptor gives. -/
def record (needsTargetsInput : Except Errno Bytes) : ReceiptStage Unit := do
  check thrown (isValidTrustedAlpmReceiptToken transactionToken)
  let transaction ← openTransaction thrown
  below transaction (validateRecordable helperPath transactionToken)
  let input ← orThrow thrown needsTargetsInput
  check thrown (input.length ≤ receiptMaximumBytes)
  let packages ← orRefuse (parseNeedsTargets input)
  let receiptProtocol ← orRefuse (serializeMachineReceipt ⟨.complete, transactionToken, packages⟩)
  below transaction (writePartialReceipt receiptProtocol)
  requireNamedIdentity thrown .active transaction
  below transaction completeReceipt

/-- The receipt that `consume` hands out. -/
def readReceipt (hasReceipt : Bool) : ReceiptTreeStage MachineReceipt := do
  if hasReceipt then
    openPrivateFile thrown .receipt
    let protocol ← readBounded thrown .receipt receiptMaximumBytes
    let complete ← orRefuse (parseMachineReceipt protocol)
    check thrown (complete.state = .complete)
    check thrown (complete.transactionToken = transactionToken)
    Stage.pure complete
  else
    Stage.pure ⟨.missing, transactionToken, []⟩

/-- What `consume` reads before it retires the transaction. -/
def readConsumable : ReceiptTreeStage (Bool × MachineReceipt) := do
  let _ ← validatePreparedState helperPath transactionToken
  let hasReceipt ← entryExists thrown .receipt
  let hasPartialReceipt ← entryExists thrown .partialReceipt
  check thrown !hasPartialReceipt
  requireExactEntries thrown none (expectedEntries hasReceipt false)
  let receipt ← readReceipt transactionToken hasReceipt
  Stage.pure (hasReceipt, receipt)

def consume : ReceiptStage Bytes := do
  check thrown (isValidTrustedAlpmReceiptToken transactionToken)
  let transaction ← openTransaction thrown
  let (hasReceipt, receipt) ← below transaction (readConsumable helperPath transactionToken)
  requireNamedIdentity thrown .active transaction
  let retired ← retireTransaction thrown transaction
  below retired (cleanupRetiredTransaction hasReceipt false)
  orRefuse (serializeMachineReceipt receipt)

/-- What `abort` reads before it retires the transaction. -/
def readAbortable : ReceiptTreeStage (Bool × Bool) := do
  let _ ← validatePreparedState helperPath transactionToken
  let hasReceipt ← entryExists thrown .receipt
  let hasPartialReceipt ← entryExists thrown .partialReceipt
  check thrown !(hasReceipt && hasPartialReceipt)
  validateOptionalPrivateFile thrown .receipt
  validateOptionalPrivateFile thrown .partialReceipt
  requireExactEntries thrown none (expectedEntries hasReceipt hasPartialReceipt)
  Stage.pure (hasReceipt, hasPartialReceipt)

def abort : ReceiptStage Unit := do
  check thrown (isValidTrustedAlpmReceiptToken transactionToken)
  let transaction ← openTransaction thrown
  let (hasReceipt, hasPartialReceipt) ←
    below transaction (readAbortable helperPath transactionToken)
  requireNamedIdentity thrown .active transaction
  let retired ← retireTransaction thrown transaction
  below retired (cleanupRetiredTransaction hasReceipt hasPartialReceipt)

end Helpers

def receiptNames : List ReceiptName := [.prepared, .hooks, .hook, .receipt, .partialReceipt]

theorem mem_receiptNames (name : ReceiptName) : name ∈ receiptNames := by
  cases name <;> decide

/-- No name is there. -/
def isEmptyTree (tree : FileTree ReceiptName) : Bool :=
  receiptNames.all fun name => (tree name).isNone

def respondTree (tree : FileTree ReceiptName) :
    (request : TreeRequest ReceiptName Empty) →
      TreeAnswer Empty.elim request × FileTree ReceiptName
  | .file operation => respondFile receiptNames ReceiptName.parent tree operation

def receiptMachine (state : ReceiptState) :
    (request : ReceiptRequest) → ReceiptAnswer request × ReceiptState :=
  respondStore emptyTree isEmptyTree respondTree state

theorem receiptMachine_effect (state : ReceiptState) (request : ReceiptRequest) :
    receiptEffect state request (receiptMachine state request).1
      (receiptMachine state request).2 := by
  apply respondStore_effect
  · intro tree htree
    funext name
    have habsent := List.all_eq_true.mp htree name (mem_receiptNames name)
    simpa [emptyTree] using habsent
  · intro tree request
    cases request with
    | file operation => exact respondFile_effect mem_receiptNames tree operation
    | extra operation => exact operation.elim

end Moguet.Receipt.Store
