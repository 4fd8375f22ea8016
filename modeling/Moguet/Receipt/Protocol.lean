import Moguet.Install.PreparedRoundTrip

/-!
# The documents of an ALPM receipt

The unprivileged side and the helper that runs as root exchange three line
formats (`trusted_alpm_receipt_protocol.cpp`): the state the helper keeps
between two calls, its answer to a preparation, and the receipt a hook has
recorded. Each has a fixed head, repeated records of package names in two of
them, and an end record.
-/

namespace Moguet.Receipt.Protocol

open Verified.ByteString Verified.Checked Verified.Fields Install.Request Install.PreparedRoundTrip

variable {lines packages after : List Bytes} {packageName label line token text expected : Bytes}

/-! ## Data -/

def receiptMaximumBytes : Nat := 16 * 1024 * 1024

def receiptMaximumPackageNameBytes : Nat := 4096

/-- `TrustedAlpmReceiptProtocolIssueKind`, less the kinds of the helper's
argument list. -/
inductive ReceiptIssueKind
  | invalidTransactionToken
  | invalidTransactionOwner
  | emptyRequestedPackageSet
  | invalidPackageName
  | duplicatePackageName
  | inputTooLarge
  | tooManyPackages
  | missingFinalNewline
  | invalidHeader
  | truncatedProtocol
  | unexpectedRecord
  | invalidHookDirectory
  | invalidReceiptState
  deriving DecidableEq

/-- What a writer throws and what a reader returns. -/
inductive ReceiptFailure
  | invalidArgument (what : String)
  | issue (kind : ReceiptIssueKind)
  deriving DecidableEq

/-- The result of a reader or a writer. -/
abbrev ReceiptResult := Except ReceiptFailure

/-- `TrustedAlpmReceiptPreparedState`. -/
structure ReceiptPreparedState where
  transactionToken : Bytes
  requestedPackageNames : List Bytes
  deriving DecidableEq

variable {state : ReceiptPreparedState}

/-- `TrustedAlpmReceiptPrepareResponse`. -/
structure ReceiptPrepareResponse where
  transactionToken : Bytes
  hookDirectory : Bytes
  deriving DecidableEq

variable {response : ReceiptPrepareResponse}

inductive ReceiptMachineState
  | missing
  | complete
  deriving DecidableEq

/-- `TrustedAlpmReceiptMachineReceipt`. -/
structure MachineReceipt where
  state : ReceiptMachineState
  transactionToken : Bytes
  installedPackageNames : List Bytes
  deriving DecidableEq

variable {receipt : MachineReceipt}

/-! ## Labels -/

def owner : Bytes := ascii "selected-repository-provider"

def preparedHeader : Bytes := ascii "MOGUET-ALPM-PREPARED\t1"

def prepareResponseHeader : Bytes := ascii "MOGUET-ALPM-PREPARE-RESPONSE\t1"

def receiptHeader : Bytes := ascii "MOGUET-ALPM-RECEIPT\t1"

def tokenLabel : Bytes := ascii "TOKEN\t"

def ownerLabel : Bytes := ascii "OWNER\t"

def requestLabel : Bytes := ascii "REQUEST\t"

def hookDirectoryLabel : Bytes := ascii "HOOKDIR\t"

def stateLabel : Bytes := ascii "STATE\t"

def installLabel : Bytes := ascii "INSTALL\t"

def endRecord : Bytes := ascii "END"

/-! ## Records -/

def splitReceiptLines (protocol : Bytes) : ReceiptResult (List Bytes) :=
  if receiptMaximumBytes < protocol.length then .error (.issue .inputTooLarge)
  else if protocol = [] ∨ protocol.getLast? ≠ some (byte '\n') then
    .error (.issue .missingFinalNewline)
  else
    takeLines (byte '\n') (.issue .truncatedProtocol) (.issue .tooManyPackages)
      (trustedAlpmReceiptMaximumPackages + 8) protocol.length [] protocol

/-- A name that both sides let into a package set. -/
def packageNameFits (packageName : Bytes) : Bool :=
  packageName.length ≤ receiptMaximumPackageNameBytes &&
    isValidTrustedAlpmReceiptPackageName packageName

/-- `retain_unique_package`. The set of the names seen so far is the set of
the packages kept so far. -/
def retainUniquePackage (packages : List Bytes) (packageName : Bytes) :
    ReceiptResult (List Bytes) :=
  if packageNameFits packageName = false then .error (.issue .invalidPackageName)
  else if trustedAlpmReceiptMaximumPackages ≤ packages.length then
    .error (.issue .tooManyPackages)
  else if packageName ∈ packages then .error (.issue .duplicatePackageName)
  else .ok (packages ++ [packageName])

def readPackage (label : Bytes) (packages : List Bytes) (line : Bytes) :
    ReceiptResult (List Bytes) :=
  match recordValue label line with
  | none => .error (.issue .unexpectedRecord)
  | some packageName => retainUniquePackage packages packageName

def readPackages (label : Bytes) (lines : List Bytes) : ReceiptResult (List Bytes) :=
  lines.foldlM (readPackage label) []

/-- `parse_trusted_alpm_receipt_needs_targets`: the names a hook is given, one
a line. -/
def parseNeedsTargets (input : Bytes) : ReceiptResult (List Bytes) := do
  let lines ← splitReceiptLines input
  let packages ← lines.foldlM retainUniquePackage []
  if packages = [] then .error (.issue .emptyRequestedPackageSet) else .ok packages

def requireSerializableToken (transactionToken : Bytes) : ReceiptResult Unit :=
  if isValidTrustedAlpmReceiptToken transactionToken then .ok ()
  else .error (.invalidArgument "invalid trusted ALPM receipt token")

def requireSerializablePackages (packages : List Bytes) (allowEmpty : Bool) :
    ReceiptResult Unit :=
  if !allowEmpty ∧ packages = [] then
    .error (.invalidArgument "empty trusted ALPM receipt package set")
  else if trustedAlpmReceiptMaximumPackages < packages.length then
    .error (.invalidArgument "oversized trusted ALPM receipt package set")
  else if packages.all packageNameFits && packages.Nodup then .ok ()
  else .error (.invalidArgument "invalid trusted ALPM receipt package set")

/-! ## The prepared state -/

def preparedStateLines (state : ReceiptPreparedState) : List Bytes :=
  [preparedHeader, tokenLabel ++ state.transactionToken, ownerLabel ++ owner] ++
    (state.requestedPackageNames.map (requestLabel ++ ·) ++ [endRecord])

def serializePreparedState (state : ReceiptPreparedState) : ReceiptResult Bytes := do
  requireSerializableToken state.transactionToken
  requireSerializablePackages state.requestedPackageNames false
  let protocol := terminated (byte '\n') (preparedStateLines state)
  if receiptMaximumBytes < protocol.length then
    .error (.invalidArgument "oversized trusted ALPM prepared protocol")
  else .ok protocol

def readToken (line : Bytes) : ReceiptResult Bytes :=
  match recordValue tokenLabel line with
  | none => .error (.issue .invalidTransactionToken)
  | some token =>
    if isValidTrustedAlpmReceiptToken token then .ok token
    else .error (.issue .invalidTransactionToken)

def requireOwner (line : Bytes) : ReceiptResult Unit :=
  if recordValue ownerLabel line = some owner then .ok ()
  else .error (.issue .invalidTransactionOwner)

def parsePreparedStateLines (lines : List Bytes) : ReceiptResult ReceiptPreparedState :=
  match lines with
  | header :: tokenLine :: ownerLine :: first :: second :: others =>
    let rest := first :: second :: others
    if header ≠ preparedHeader then .error (.issue .invalidHeader)
    else do
      let token ← readToken tokenLine
      requireOwner ownerLine
      if rest.getLast? ≠ some endRecord then .error (.issue .truncatedProtocol)
      else do
        let packages ← readPackages requestLabel rest.dropLast
        if packages = [] then .error (.issue .emptyRequestedPackageSet)
        else .ok ⟨token, packages⟩
  | _ => .error (.issue .truncatedProtocol)

def parsePreparedState (protocol : Bytes) : ReceiptResult ReceiptPreparedState := do
  let lines ← splitReceiptLines protocol
  parsePreparedStateLines lines

/-! ## The prepare response -/

/-- The text of `trusted_alpm_receipt_hook_directory`. -/
def hookDirectoryText (transactionToken : Bytes) : Bytes :=
  ascii "/run/moguet/alpm-receipts/active/" ++ transactionToken ++ ascii "/hooks"

def hookDirectory (transactionToken : Bytes) : ReceiptResult Bytes := do
  requireSerializableToken transactionToken
  .ok (hookDirectoryText transactionToken)

def prepareResponseLines (response : ReceiptPrepareResponse) : List Bytes :=
  [prepareResponseHeader, tokenLabel ++ response.transactionToken, ownerLabel ++ owner,
    hookDirectoryLabel ++ response.hookDirectory, endRecord]

def serializePrepareResponse (response : ReceiptPrepareResponse) : ReceiptResult Bytes := do
  requireSerializableToken response.transactionToken
  let directory ← hookDirectory response.transactionToken
  if response.hookDirectory ≠ directory then
    .error (.invalidArgument "invalid trusted ALPM hook directory")
  else .ok (terminated (byte '\n') (prepareResponseLines response))

def parsePrepareResponseLines (expectedTransactionToken : Bytes) (lines : List Bytes) :
    ReceiptResult ReceiptPrepareResponse :=
  match lines with
  | [header, tokenLine, ownerLine, directoryLine, endLine] =>
    if header ≠ prepareResponseHeader then .error (.issue .invalidHeader)
    else if recordValue tokenLabel tokenLine ≠ some expectedTransactionToken then
      .error (.issue .invalidTransactionToken)
    else do
      requireOwner ownerLine
      let directory ← hookDirectory expectedTransactionToken
      if recordValue hookDirectoryLabel directoryLine ≠ some directory then
        .error (.issue .invalidHookDirectory)
      else if endLine ≠ endRecord then .error (.issue .truncatedProtocol)
      else .ok ⟨expectedTransactionToken, directory⟩
  | _ =>
    .error (.issue (if lines.length < 5 then .truncatedProtocol else .unexpectedRecord))

def parsePrepareResponse (protocol expectedTransactionToken : Bytes) :
    ReceiptResult ReceiptPrepareResponse :=
  if isValidTrustedAlpmReceiptToken expectedTransactionToken = false then
    .error (.issue .invalidTransactionToken)
  else do
    let lines ← splitReceiptLines protocol
    parsePrepareResponseLines expectedTransactionToken lines

/-! ## The machine receipt -/

def serializeMachineState : ReceiptMachineState → Bytes
  | .complete => ascii "Complete"
  | .missing => ascii "Missing"

def parseMachineState (value : Bytes) : Option ReceiptMachineState :=
  if value = ascii "Complete" then some .complete
  else if value = ascii "Missing" then some .missing
  else none

def machineReceiptLines (receipt : MachineReceipt) : List Bytes :=
  [receiptHeader, tokenLabel ++ receipt.transactionToken, ownerLabel ++ owner,
    stateLabel ++ serializeMachineState receipt.state] ++
    (receipt.installedPackageNames.map (installLabel ++ ·) ++ [endRecord])

def serializeMachineReceipt (receipt : MachineReceipt) : ReceiptResult Bytes := do
  requireSerializableToken receipt.transactionToken
  requireSerializablePackages receipt.installedPackageNames (receipt.state = .missing)
  if receipt.state = .missing ∧ receipt.installedPackageNames ≠ [] then
    .error (.invalidArgument "missing trusted ALPM receipt contains packages")
  else
    let protocol := terminated (byte '\n') (machineReceiptLines receipt)
    if receiptMaximumBytes < protocol.length then
      .error (.invalidArgument "oversized trusted ALPM receipt protocol")
    else .ok protocol

def readMachineState (line : Bytes) : ReceiptResult ReceiptMachineState :=
  match recordValue stateLabel line >>= parseMachineState with
  | none => .error (.issue .invalidReceiptState)
  | some state => .ok state

def parseMachineReceiptLines (lines : List Bytes) : ReceiptResult MachineReceipt :=
  match lines with
  | header :: tokenLine :: ownerLine :: stateLine :: first :: others =>
    let rest := first :: others
    if header ≠ receiptHeader then .error (.issue .invalidHeader)
    else do
      let token ← readToken tokenLine
      requireOwner ownerLine
      let state ← readMachineState stateLine
      if rest.getLast? ≠ some endRecord then .error (.issue .truncatedProtocol)
      else do
        let packages ← readPackages installLabel rest.dropLast
        if state = .complete ∧ packages = [] then
          .error (.issue .emptyRequestedPackageSet)
        else if state = .missing ∧ packages ≠ [] then .error (.issue .unexpectedRecord)
        else .ok ⟨state, token, packages⟩
  | _ => .error (.issue .truncatedProtocol)

def parseMachineReceipt (protocol : Bytes) : ReceiptResult MachineReceipt := do
  let lines ← splitReceiptLines protocol
  parseMachineReceiptLines lines

theorem splitReceiptLines_terminated (hne : lines ≠ []) (hclean : ∀ line ∈ lines, byte '\n' ∉ line)
    (hcount : lines.length ≤ trustedAlpmReceiptMaximumPackages + 8)
    (hsize : (terminated (byte '\n') lines).length ≤ receiptMaximumBytes) :
    splitReceiptLines (terminated (byte '\n') lines) = .ok lines :=
  message_terminated hne hclean hcount hsize

theorem splitReceiptLines_ok {protocol : Bytes} (h : splitReceiptLines protocol = .ok lines) :
    protocol = terminated (byte '\n') lines ∧ protocol.length ≤ receiptMaximumBytes ∧
      lines.length ≤ trustedAlpmReceiptMaximumPackages + 8 :=
  message_ok h

/-! ## Package sets -/

/-- A package set that can be written: distinct valid names, not too many. -/
structure PackageSet (packages : List Bytes) : Prop where
  count : packages.length ≤ trustedAlpmReceiptMaximumPackages
  fits : ∀ packageName ∈ packages, packageNameFits packageName = true
  nodup : packages.Nodup

theorem PackageSet.nil : PackageSet [] :=
  ⟨Nat.zero_le _, by simp, List.nodup_nil⟩

theorem requireSerializablePackages_ok_iff {allowEmpty : Bool} :
    requireSerializablePackages packages allowEmpty = .ok () ↔
      (allowEmpty = true ∨ packages ≠ []) ∧ PackageSet packages := by
  unfold requireSerializablePackages
  by_cases hempty : !allowEmpty ∧ packages = []
  · rw [if_pos hempty]
    constructor
    · intro h
      cases h
    · rintro ⟨hallowed, -⟩
      obtain ⟨hforbidden, hnil⟩ := hempty
      simp [hnil] at hallowed
      simp [hallowed] at hforbidden
  · rw [if_neg hempty]
    have hfilled : allowEmpty = true ∨ packages ≠ [] := by
      cases allowEmpty <;> simp at hempty ⊢
      exact hempty
    by_cases hcount : trustedAlpmReceiptMaximumPackages < packages.length
    · rw [if_pos hcount]
      constructor
      · intro h
        cases h
      · rintro ⟨-, hset⟩
        exact absurd hset.count (Nat.not_le.mpr hcount)
    · rw [if_neg hcount]
      by_cases hnames : (packages.all packageNameFits && packages.Nodup) = true
      · rw [if_pos hnames]
        simp only [Bool.and_eq_true, List.all_eq_true, decide_eq_true_eq] at hnames
        simp only [true_iff]
        exact ⟨hfilled, Nat.not_lt.mp hcount, hnames.1, hnames.2⟩
      · rw [if_neg hnames]
        constructor
        · intro h
          cases h
        · rintro ⟨-, hset⟩
          refine absurd ?_ hnames
          simp only [Bool.and_eq_true, List.all_eq_true, decide_eq_true_eq]
          exact ⟨hset.fits, hset.nodup⟩

theorem retainUniquePackage_eq_ok_iff (hset : PackageSet packages) :
    retainUniquePackage packages packageName = .ok after ↔
      after = packages ++ [packageName] ∧ PackageSet after := by
  unfold retainUniquePackage
  constructor
  · intro h
    split at h
    · cases h
    · rename_i hfits
      split at h
      · cases h
      · rename_i hcount
        split at h
        · cases h
        · rename_i hfresh
          injection h with h
          refine ⟨h.symm, ?_⟩
          rw [← h]
          refine ⟨?_, ?_, ?_⟩
          · rw [List.length_append, List.length_singleton]
            omega
          · intro name hname
            rcases List.mem_append.mp hname with hname | hname
            · exact hset.fits name hname
            · rw [List.mem_singleton.mp hname]
              simpa using hfits
          · rw [List.nodup_append]
            refine ⟨hset.nodup, List.nodup_singleton _, ?_⟩
            intro name hname other hother hsame
            rw [List.mem_singleton.mp hother] at hsame
            rw [hsame] at hname
            exact hfresh hname
  · rintro ⟨rfl, hafter⟩
    have hfits := hafter.fits packageName (by simp)
    have hcount := hafter.count
    rw [List.length_append, List.length_singleton] at hcount
    have hfresh : packageName ∉ packages := by
      intro hmem
      have hdisjoint := (List.nodup_append.mp hafter.nodup).2.2
      exact hdisjoint packageName hmem packageName (List.mem_singleton.mpr rfl) rfl
    rw [if_neg (by simp [hfits]), if_neg (by omega), if_neg hfresh]

theorem readPackage_eq_ok_iff (hset : PackageSet packages) :
    readPackage label packages line = .ok after ↔
      ∃ packageName, line = label ++ packageName ∧ after = packages ++ [packageName] ∧
        PackageSet after := by
  unfold readPackage
  constructor
  · intro h
    split at h
    · cases h
    · rename_i packageName hvalue
      obtain ⟨hafter, hfits⟩ := (retainUniquePackage_eq_ok_iff hset).mp h
      exact ⟨packageName, recordValue_eq_some hvalue, hafter, hfits⟩
  · rintro ⟨packageName, rfl, hafter, hfits⟩
    rw [recordValue_append]
    exact (retainUniquePackage_eq_ok_iff hset).mpr ⟨hafter, hfits⟩

/-- A part of a package set is one. -/
theorem PackageSet.part {more : List Bytes} (h : PackageSet (packages ++ more)) :
    PackageSet packages := by
  refine ⟨?_, ?_, (List.nodup_append.mp h.nodup).1⟩
  · have hcount := h.count
    rw [List.length_append] at hcount
    omega
  · intro packageName hname
    exact h.fits packageName (List.mem_append_left _ hname)

/-- The repeated records of a document are the names of a package set. -/
theorem readPackages_eq_ok_iff : readPackages label lines = .ok packages ↔
      lines = packages.map (label ++ ·) ∧ PackageSet packages := by
  unfold readPackages
  rw [foldlM_append_iff PackageSet.part readPackage_eq_ok_iff PackageSet.nil]
  simp

/-! ## The head of a document -/

theorem readToken_eq_ok_iff : readToken line = .ok token ↔
      line = tokenLabel ++ token ∧ isValidTrustedAlpmReceiptToken token = true := by
  unfold readToken
  constructor
  · intro h
    split at h
    · cases h
    · rename_i value hvalue
      split at h
      · rename_i hvalid
        injection h with h
        rw [← h]
        exact ⟨recordValue_eq_some hvalue, hvalid⟩
      · cases h
  · rintro ⟨rfl, hvalid⟩
    rw [recordValue_append]
    dsimp only
    rw [if_pos hvalid]

theorem recordValue_eq_some_iff {record value : Bytes} :
    recordValue label record = some value ↔ record = label ++ value := by
  constructor
  · exact recordValue_eq_some
  · rintro rfl
    exact recordValue_append label value

theorem requireOwner_ok_iff : requireOwner line = .ok () ↔ line = ownerLabel ++ owner := by
  unfold requireOwner
  simp only [recordValue_eq_some_iff]
  split
  · simp [*]
  · simp [*]

theorem requireSerializableToken_ok_iff : requireSerializableToken token = .ok () ↔
      isValidTrustedAlpmReceiptToken token = true := by
  unfold requireSerializableToken
  split
  · simp [*]
  · simp [*]

theorem readMachineState_eq_ok_iff {state : ReceiptMachineState} :
    readMachineState line = .ok state ↔ line = stateLabel ++ serializeMachineState state := by
  have hparse : ∀ value : Bytes, parseMachineState value = some state ↔
      value = serializeMachineState state := by
    intro value
    unfold parseMachineState
    cases state with
    | complete =>
      by_cases hvalue : value = ascii "Complete"
      · simp [hvalue, serializeMachineState]
      · simp [hvalue, serializeMachineState]
    | missing =>
      by_cases hvalue : value = ascii "Complete"
      · have hother : ascii "Complete" ≠ ascii "Missing" := by decide
        simp [hvalue, serializeMachineState, hother]
      · simp [hvalue, serializeMachineState]
  unfold readMachineState
  constructor
  · intro h
    split at h
    · cases h
    · rename_i found hfound
      injection h with h
      obtain ⟨value, hvalue, hstate⟩ := Option.bind_eq_some_iff.mp hfound
      rw [h] at hstate
      rw [recordValue_eq_some hvalue, (hparse value).mp hstate]
  · rintro rfl
    have hread : (recordValue stateLabel (stateLabel ++ serializeMachineState state) >>=
        parseMachineState) = some state := by
      rw [recordValue_append]
      exact (hparse _).mpr rfl
    rw [hread]

theorem visible_of_packageNameFits (h : packageNameFits packageName = true) :
    Visible packageName := by
  simp only [packageNameFits, isValidTrustedAlpmReceiptPackageName, Bool.and_eq_true,
    List.all_eq_true] at h
  exact visible_of_identifier h.2.2

/-- The records of a package set and the end record have no line break. -/
theorem no_newline_records (hlabel : byte '\n' ∉ label) (hset : PackageSet packages) :
    ∀ line ∈ packages.map (label ++ ·) ++ [endRecord], byte '\n' ∉ line := by
  intro line hline
  rcases List.mem_append.mp hline with hline | hline
  · obtain ⟨packageName, hname, rfl⟩ := List.mem_map.mp hline
    exact no_newline_of_label hlabel (visible_of_packageNameFits (hset.fits _ hname))
  · rw [List.mem_singleton.mp hline]
    decide

/-- A row of lines that ends with the end record. -/
theorem eq_concat_of_getLast? {rest : List Bytes} (h : rest.getLast? = some endRecord) :
    rest = rest.dropLast ++ [endRecord] :=
  (List.dropLast_append_getLast? endRecord h).symm

/-! ## The prepared state, written and read -/

/-- A prepared state that can be written, and its text. -/
structure PreparedText (state : ReceiptPreparedState) (text : Bytes) : Prop where
  token : isValidTrustedAlpmReceiptToken state.transactionToken = true
  filled : state.requestedPackageNames ≠ []
  packages : PackageSet state.requestedPackageNames
  lines : text = terminated (byte '\n') (preparedStateLines state)
  size : text.length ≤ receiptMaximumBytes

theorem serializePreparedState_eq_ok_iff :
    serializePreparedState state = .ok text ↔ PreparedText state text := by
  unfold serializePreparedState
  simp only [bind_eq_ok]
  constructor
  · rintro ⟨_, htoken, _, hpackages, h⟩
    obtain ⟨hfilled, hset⟩ := requireSerializablePackages_ok_iff.mp hpackages
    split at h
    · cases h
    · rename_i hsize
      injection h with h
      rw [← h]
      exact ⟨requireSerializableToken_ok_iff.mp htoken, by simpa using hfilled, hset, rfl,
        Nat.not_lt.mp hsize⟩
  · intro h
    refine ⟨(), requireSerializableToken_ok_iff.mpr h.token, (),
      requireSerializablePackages_ok_iff.mpr ⟨Or.inr h.filled, h.packages⟩, ?_⟩
    rw [← h.lines, if_neg (Nat.not_lt.mpr h.size)]

theorem parsePreparedStateLines_eq_ok_iff : parsePreparedStateLines lines = .ok state ↔
      lines = preparedStateLines state ∧
        isValidTrustedAlpmReceiptToken state.transactionToken = true ∧
        state.requestedPackageNames ≠ [] ∧ PackageSet state.requestedPackageNames := by
  unfold parsePreparedStateLines
  constructor
  · intro h
    split at h
    · rename_i header tokenLine ownerLine first second others
      dsimp only at h
      split at h
      · cases h
      · rename_i hheader
        simp only [bind_eq_ok] at h
        obtain ⟨token, htoken, _, howner, h⟩ := h
        split at h
        · cases h
        · rename_i hlast
          rw [bind_eq_ok] at h
          obtain ⟨packages, hpackages, h⟩ := h
          split at h
          · cases h
          · rename_i hfilled
            injection h with h
            obtain ⟨htokenLine, hvalid⟩ := readToken_eq_ok_iff.mp htoken
            obtain ⟨hrecords, hset⟩ := readPackages_eq_ok_iff.mp hpackages
            have hrest := eq_concat_of_getLast? (not_not.mp hlast)
            rw [hrecords] at hrest
            rw [← h]
            refine ⟨?_, hvalid, hfilled, hset⟩
            rw [hrest, htokenLine, requireOwner_ok_iff.mp howner, not_not.mp hheader]
            rfl
    · cases h
  · rintro ⟨rfl, hvalid, hfilled, hset⟩
    obtain ⟨token, packages⟩ := state
    dsimp only at hvalid hfilled hset
    cases packages with
    | nil => exact absurd rfl hfilled
    | cons packageName packages =>
      obtain ⟨second, others, hrest⟩ := List.exists_cons_of_ne_nil
        (List.concat_ne_nil endRecord (packages.map (requestLabel ++ ·)))
      have hshape : preparedStateLines ⟨token, packageName :: packages⟩ =
          preparedHeader :: (tokenLabel ++ token) :: (ownerLabel ++ owner) ::
            (requestLabel ++ packageName) :: second :: others := by
        unfold preparedStateLines
        rw [← hrest]
        rfl
      have hall : (requestLabel ++ packageName) :: second :: others =
          (packageName :: packages).map (requestLabel ++ ·) ++ [endRecord] := by
        rw [← hrest]
        rfl
      rw [hshape]
      dsimp only
      rw [if_neg (by simp), bind_of_ok (readToken_eq_ok_iff.mpr ⟨rfl, hvalid⟩),
        bind_of_ok (requireOwner_ok_iff.mpr rfl), hall, List.dropLast_concat,
        if_neg (not_not.mpr List.getLast?_concat),
        bind_of_ok (readPackages_eq_ok_iff.mpr ⟨rfl, hset⟩), if_neg hfilled]

theorem preparedStateLines_no_newline
    (htoken : isValidTrustedAlpmReceiptToken state.transactionToken = true)
    (hset : PackageSet state.requestedPackageNames) :
    ∀ line ∈ preparedStateLines state, byte '\n' ∉ line := by
  intro line hline
  rcases List.mem_append.mp hline with hline | hline
  · simp only [List.mem_cons, List.not_mem_nil, or_false] at hline
    rcases hline with rfl | rfl | rfl
    · decide
    · exact no_newline_of_label (by decide) (visible_of_token htoken)
    · decide
  · exact no_newline_records (by decide) hset line hline

theorem parsePreparedState_eq_ok_iff :
    parsePreparedState text = .ok state ↔ PreparedText state text := by
  unfold parsePreparedState
  rw [bind_eq_ok]
  constructor
  · rintro ⟨lines, hlines, h⟩
    obtain ⟨htext, hsize, -⟩ := splitReceiptLines_ok hlines
    obtain ⟨hstate, htoken, hfilled, hset⟩ := parsePreparedStateLines_eq_ok_iff.mp h
    rw [hstate] at htext
    exact ⟨htoken, hfilled, hset, htext, hsize⟩
  · intro h
    refine ⟨preparedStateLines state, ?_, parsePreparedStateLines_eq_ok_iff.mpr
      ⟨rfl, h.token, h.filled, h.packages⟩⟩
    have hsize := h.size
    rw [h.lines] at hsize ⊢
    refine splitReceiptLines_terminated (by simp [preparedStateLines])
      (preparedStateLines_no_newline h.token h.packages) ?_ hsize
    have hcount := h.packages.count
    simp only [preparedStateLines, List.length_append, List.length_cons, List.length_nil,
      List.length_map]
    omega

/-! ## The prepare response, written and read -/

/-- A response that can be written, and its text. -/
structure ResponseText (response : ReceiptPrepareResponse) (text : Bytes) : Prop where
  token : isValidTrustedAlpmReceiptToken response.transactionToken = true
  directory : response.hookDirectory = hookDirectoryText response.transactionToken
  lines : text = terminated (byte '\n') (prepareResponseLines response)

theorem hookDirectory_of_token (h : isValidTrustedAlpmReceiptToken token = true) :
    hookDirectory token = .ok (hookDirectoryText token) := by
  unfold hookDirectory
  rw [bind_of_ok (requireSerializableToken_ok_iff.mpr h)]

theorem serializePrepareResponse_eq_ok_iff :
    serializePrepareResponse response = .ok text ↔ ResponseText response text := by
  unfold serializePrepareResponse
  rw [bind_eq_ok]
  constructor
  · rintro ⟨_, htoken, h⟩
    have hvalid := requireSerializableToken_ok_iff.mp htoken
    rw [bind_of_ok (hookDirectory_of_token hvalid)] at h
    split at h
    · cases h
    · rename_i hdirectory
      injection h with h
      exact ⟨hvalid, not_not.mp hdirectory, h.symm⟩
  · intro h
    refine ⟨(), requireSerializableToken_ok_iff.mpr h.token, ?_⟩
    rw [bind_of_ok (hookDirectory_of_token h.token), if_neg (not_not.mpr h.directory), h.lines]

theorem parsePrepareResponseLines_eq_ok_iff
    (hvalid : isValidTrustedAlpmReceiptToken expected = true) :
    parsePrepareResponseLines expected lines = .ok response ↔
      response = ⟨expected, hookDirectoryText expected⟩ ∧
        lines = prepareResponseLines response := by
  unfold parsePrepareResponseLines
  constructor
  · intro h
    split at h
    · rename_i header tokenLine ownerLine directoryLine endLine
      split at h
      · cases h
      · rename_i hheader
        split at h
        · cases h
        · rename_i htoken
          rw [bind_eq_ok] at h
          obtain ⟨_, howner, h⟩ := h
          rw [bind_of_ok (hookDirectory_of_token hvalid)] at h
          split at h
          · cases h
          · rename_i hdirectory
            split at h
            · cases h
            · rename_i hend
              injection h with h
              refine ⟨h.symm, ?_⟩
              rw [← h, not_not.mp hheader, recordValue_eq_some (not_not.mp htoken),
                requireOwner_ok_iff.mp howner, recordValue_eq_some (not_not.mp hdirectory),
                not_not.mp hend]
              rfl
    · cases h
  · rintro ⟨rfl, rfl⟩
    unfold prepareResponseLines
    dsimp only
    rw [if_neg (by simp), if_neg (not_not.mpr (recordValue_append _ _)),
      bind_of_ok (requireOwner_ok_iff.mpr rfl), bind_of_ok (hookDirectory_of_token hvalid),
      if_neg (not_not.mpr (recordValue_append _ _)), if_neg (by simp)]

theorem length_of_token (h : isValidTrustedAlpmReceiptToken token = true) : token.length = 64 := by
  simp only [isValidTrustedAlpmReceiptToken, Bool.and_eq_true, decide_eq_true_eq] at h
  exact h.1

/-- A response is always short enough to be read. -/
theorem ResponseText.size (h : ResponseText response text) : text.length ≤ receiptMaximumBytes := by
  have htoken := length_of_token h.token
  rw [h.lines]
  unfold prepareResponseLines
  rw [h.directory]
  unfold hookDirectoryText
  simp only [terminated_cons, terminated_nil, List.length_append, List.length_cons,
    List.length_nil, htoken]
  decide

theorem prepareResponseLines_no_newline (h : ResponseText response text) :
    ∀ line ∈ prepareResponseLines response, byte '\n' ∉ line := by
  have htoken := visible_of_token h.token
  have hopening : Visible (ascii "/run/moguet/alpm-receipts/active/") := by
    unfold Visible
    decide
  have hending : Visible (ascii "/hooks") := by
    unfold Visible
    decide
  intro line hline
  simp only [prepareResponseLines, List.mem_cons, List.not_mem_nil, or_false] at hline
  rcases hline with rfl | rfl | rfl | rfl | rfl
  · decide
  · exact no_newline_of_label (by decide) htoken
  · decide
  · rw [h.directory]
    refine no_newline_of_label (by decide) ?_
    intro b hb
    rcases List.mem_append.mp hb with hb | hb
    · rcases List.mem_append.mp hb with hb | hb
      · exact hopening b hb
      · exact htoken b hb
    · exact hending b hb
  · decide

theorem parsePrepareResponse_eq_ok_iff : parsePrepareResponse text expected = .ok response ↔
      expected = response.transactionToken ∧ ResponseText response text := by
  unfold parsePrepareResponse
  constructor
  · intro h
    split at h
    · cases h
    · rename_i hexpected
      have hvalid : isValidTrustedAlpmReceiptToken expected = true := by
        simpa using hexpected
      rw [bind_eq_ok] at h
      obtain ⟨lines, hlines, h⟩ := h
      obtain ⟨hresponse, hread⟩ := (parsePrepareResponseLines_eq_ok_iff hvalid).mp h
      have htext := (splitReceiptLines_ok hlines).1
      rw [hread] at htext
      rw [hresponse] at htext ⊢
      exact ⟨rfl, hvalid, rfl, htext⟩
  · rintro ⟨rfl, h⟩
    rw [if_neg (by simp [h.token]), bind_eq_ok]
    refine ⟨prepareResponseLines response, ?_, ?_⟩
    · have hsize := h.size
      rw [h.lines] at hsize ⊢
      exact splitReceiptLines_terminated (by simp [prepareResponseLines])
        (prepareResponseLines_no_newline h) (by simp [prepareResponseLines]) hsize
    · refine (parsePrepareResponseLines_eq_ok_iff h.token).mpr ⟨?_, rfl⟩
      rw [← h.directory]

/-! ## The machine receipt, written and read -/

/-- A receipt that can be written, and its text. -/
structure ReceiptText (receipt : MachineReceipt) (text : Bytes) : Prop where
  token : isValidTrustedAlpmReceiptToken receipt.transactionToken = true
  filled : receipt.state = .complete ↔ receipt.installedPackageNames ≠ []
  packages : PackageSet receipt.installedPackageNames
  lines : text = terminated (byte '\n') (machineReceiptLines receipt)
  size : text.length ≤ receiptMaximumBytes

theorem serializeMachineReceipt_eq_ok_iff :
    serializeMachineReceipt receipt = .ok text ↔ ReceiptText receipt text := by
  unfold serializeMachineReceipt
  simp only [bind_eq_ok]
  constructor
  · rintro ⟨_, htoken, _, hpackages, h⟩
    obtain ⟨hfilled, hset⟩ := requireSerializablePackages_ok_iff.mp hpackages
    split at h
    · cases h
    · rename_i hmissing
      split at h
      · cases h
      · rename_i hsize
        injection h with h
        refine ⟨requireSerializableToken_ok_iff.mp htoken, ?_, hset, h.symm, ?_⟩
        · cases hstate : receipt.state with
          | missing => simpa [hstate] using hmissing
          | complete => simpa [hstate] using hfilled
        · rw [← h]
          exact Nat.not_lt.mp hsize
  · intro h
    refine ⟨(), requireSerializableToken_ok_iff.mpr h.token, (),
      requireSerializablePackages_ok_iff.mpr ⟨?_, h.packages⟩, ?_⟩
    · cases hstate : receipt.state with
      | missing => exact Or.inl (by simp)
      | complete => exact Or.inr (h.filled.mp hstate)
    · have hagrees : ¬ (receipt.state = .missing ∧ receipt.installedPackageNames ≠ []) := by
        rintro ⟨hmissing, hnames⟩
        rw [h.filled.mpr hnames] at hmissing
        cases hmissing
      rw [if_neg hagrees, ← h.lines, if_neg (Nat.not_lt.mpr h.size)]

theorem parseMachineReceiptLines_eq_ok_iff : parseMachineReceiptLines lines = .ok receipt ↔
      lines = machineReceiptLines receipt ∧
        isValidTrustedAlpmReceiptToken receipt.transactionToken = true ∧
        (receipt.state = .complete ↔ receipt.installedPackageNames ≠ []) ∧
        PackageSet receipt.installedPackageNames := by
  unfold parseMachineReceiptLines
  constructor
  · intro h
    split at h
    · rename_i header tokenLine ownerLine stateLine first others
      dsimp only at h
      split at h
      · cases h
      · rename_i hheader
        simp only [bind_eq_ok] at h
        obtain ⟨token, htoken, _, howner, state, hstate, h⟩ := h
        split at h
        · cases h
        · rename_i hlast
          rw [bind_eq_ok] at h
          obtain ⟨packages, hpackages, h⟩ := h
          split at h
          · cases h
          · rename_i hcomplete
            split at h
            · cases h
            · rename_i hmissing
              injection h with h
              obtain ⟨htokenLine, hvalid⟩ := readToken_eq_ok_iff.mp htoken
              obtain ⟨hrecords, hset⟩ := readPackages_eq_ok_iff.mp hpackages
              have hrest := eq_concat_of_getLast? (not_not.mp hlast)
              rw [hrecords] at hrest
              rw [← h]
              refine ⟨?_, hvalid, ?_, hset⟩
              · rw [hrest, htokenLine, requireOwner_ok_iff.mp howner,
                  readMachineState_eq_ok_iff.mp hstate, not_not.mp hheader]
                rfl
              · cases state with
                | missing => simpa using hmissing
                | complete => simpa using hcomplete
    · cases h
  · rintro ⟨rfl, hvalid, hfilled, hset⟩
    obtain ⟨state, token, packages⟩ := receipt
    dsimp only at hvalid hfilled hset
    obtain ⟨first, others, hrest⟩ := List.exists_cons_of_ne_nil
      (List.concat_ne_nil endRecord (packages.map (installLabel ++ ·)))
    have hshape : machineReceiptLines ⟨state, token, packages⟩ =
        receiptHeader :: (tokenLabel ++ token) :: (ownerLabel ++ owner) ::
          (stateLabel ++ serializeMachineState state) :: first :: others := by
      unfold machineReceiptLines
      rw [← hrest]
      rfl
    have hcomplete : ¬ (state = .complete ∧ packages = []) := fun h =>
      hfilled.mp h.1 h.2
    have hmissing : ¬ (state = .missing ∧ packages ≠ []) := by
      rintro ⟨hstate, hnames⟩
      rw [hfilled.mpr hnames] at hstate
      cases hstate
    rw [hshape]
    dsimp only
    rw [if_neg (by simp), bind_of_ok (readToken_eq_ok_iff.mpr ⟨rfl, hvalid⟩),
      bind_of_ok (requireOwner_ok_iff.mpr rfl),
      bind_of_ok (readMachineState_eq_ok_iff.mpr rfl), ← hrest, List.dropLast_concat,
      if_neg (not_not.mpr List.getLast?_concat),
      bind_of_ok (readPackages_eq_ok_iff.mpr ⟨rfl, hset⟩), if_neg hcomplete,
      if_neg hmissing]

theorem machineReceiptLines_no_newline
    (htoken : isValidTrustedAlpmReceiptToken receipt.transactionToken = true)
    (hset : PackageSet receipt.installedPackageNames) :
    ∀ line ∈ machineReceiptLines receipt, byte '\n' ∉ line := by
  intro line hline
  rcases List.mem_append.mp hline with hline | hline
  · simp only [List.mem_cons, List.not_mem_nil, or_false] at hline
    rcases hline with rfl | rfl | rfl | rfl
    · decide
    · exact no_newline_of_label (by decide) (visible_of_token htoken)
    · decide
    · cases receipt.state with
      | missing => decide
      | complete => decide
  · exact no_newline_records (by decide) hset line hline

theorem parseMachineReceipt_eq_ok_iff :
    parseMachineReceipt text = .ok receipt ↔ ReceiptText receipt text := by
  unfold parseMachineReceipt
  rw [bind_eq_ok]
  constructor
  · rintro ⟨lines, hlines, h⟩
    obtain ⟨htext, hsize, -⟩ := splitReceiptLines_ok hlines
    obtain ⟨hreceipt, htoken, hfilled, hset⟩ := parseMachineReceiptLines_eq_ok_iff.mp h
    rw [hreceipt] at htext
    exact ⟨htoken, hfilled, hset, htext, hsize⟩
  · intro h
    refine ⟨machineReceiptLines receipt, ?_, parseMachineReceiptLines_eq_ok_iff.mpr
      ⟨rfl, h.token, h.filled, h.packages⟩⟩
    have hsize := h.size
    rw [h.lines] at hsize ⊢
    refine splitReceiptLines_terminated (by simp [machineReceiptLines])
      (machineReceiptLines_no_newline h.token h.packages) ?_ hsize
    have hcount := h.packages.count
    simp only [machineReceiptLines, List.length_append, List.length_cons, List.length_nil,
      List.length_map]
    omega

/-- **Receipt documents**: a prepared state, a prepare response and a machine
receipt are written as a text exactly when the text is read as them, byte for
byte. A response is read against the token it was asked for. -/
theorem receiptDocuments_iff_parse :
    (∀ state text, serializePreparedState state = .ok text ↔
        parsePreparedState text = .ok state) ∧
      (∀ response text, serializePrepareResponse response = .ok text ↔
        parsePrepareResponse text response.transactionToken = .ok response) ∧
      (∀ expected response text, parsePrepareResponse text expected = .ok response →
        serializePrepareResponse response = .ok text) ∧
      (∀ receipt text, serializeMachineReceipt receipt = .ok text ↔
        parseMachineReceipt text = .ok receipt) := by
  refine ⟨?_, ?_, ?_, ?_⟩
  · intro state text
    rw [serializePreparedState_eq_ok_iff, parsePreparedState_eq_ok_iff]
  · intro response text
    rw [serializePrepareResponse_eq_ok_iff, parsePrepareResponse_eq_ok_iff]
    simp
  · intro expected response text h
    exact serializePrepareResponse_eq_ok_iff.mpr (parsePrepareResponse_eq_ok_iff.mp h).2
  · intro receipt text
    rw [serializeMachineReceipt_eq_ok_iff, parseMachineReceipt_eq_ok_iff]

/-- A missing receipt has five lines. -/
example : parseMachineReceipt (terminated (byte '\n')
    [receiptHeader, tokenLabel ++ List.replicate 64 (byte '0'), ownerLabel ++ owner,
      stateLabel ++ ascii "Missing", endRecord]) =
    .ok ⟨.missing, List.replicate 64 (byte '0'), []⟩ := by
  decide +kernel

end Moguet.Receipt.Protocol
