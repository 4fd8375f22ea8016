import Moguet.Install.ResponseRoundTrip

/-!
# The documents of an install, written and read

The receipt and the observation of an execution, and then all three documents
together. The reader of a receipt bounds the lines and its writer does not, so
there are receipts that are written and not read back.
-/

namespace Moguet.Install.DocumentsRoundTrip

open Verified ByteString Checked Decimal Fields Request PreparedState PreparedRoundTrip Documents
open ResponseRoundTrip
open Plan.Constraint (isIdentifierByte)
open Receipt.Protocol (stateLabel installLabel)

variable {packages lines : List Bytes} {receipt : RootReceipt}
  {text value tokenLine ownerLine : Bytes} {refusal : Option SealingRefusal}
  {observation : ExecutionObservation} {count : Nat}

/-! ## Receipts -/

/-- Distinct valid names, any number of them. -/
structure InstalledNames (packages : List Bytes) : Prop where
  valid : ∀ packageName ∈ packages, isValidTrustedAlpmReceiptPackageName packageName = true
  nodup : packages.Nodup

theorem InstalledNames.nil : InstalledNames [] :=
  ⟨by simp, List.nodup_nil⟩

theorem InstalledNames.part {more : List Bytes} (h : InstalledNames (packages ++ more)) :
    InstalledNames packages :=
  ⟨fun packageName hname => h.valid packageName (List.mem_append_left _ hname),
    (List.nodup_append.mp h.nodup).1⟩

theorem installedNames_concat_iff {packageName : Bytes} :
    InstalledNames (packages ++ [packageName]) ↔
      InstalledNames packages ∧ isValidTrustedAlpmReceiptPackageName packageName = true ∧
        packageName ∉ packages := by
  constructor
  · intro h
    refine ⟨h.part, h.valid packageName (by simp), ?_⟩
    intro hmem
    have hdisjoint := (List.nodup_append.mp h.nodup).2.2
    exact hdisjoint packageName hmem packageName (List.mem_singleton.mpr rfl) rfl
  · rintro ⟨hset, hvalid, hfresh⟩
    refine ⟨?_, ?_⟩
    · intro other hother
      rcases List.mem_append.mp hother with hother | hother
      · exact hset.valid other hother
      · rw [List.mem_singleton.mp hother]
        exact hvalid
    · rw [← List.concat_eq_append]
      exact hset.nodup.concat hfresh

/-- The loop of the writer checks each name against those before it. -/
theorem requireReceiptPackages_ok_iff : ∀ {packages prior : List Bytes}, InstalledNames prior →
      (requireReceiptPackages prior packages = .ok () ↔ InstalledNames (prior ++ packages)) := by
  intro packages
  induction packages with
  | nil =>
    intro prior hprior
    rw [requireReceiptPackages, List.append_nil]
    simp [hprior]
  | cons packageName packages ih =>
    intro prior hprior
    have hsplit : prior ++ packageName :: packages = prior ++ [packageName] ++ packages := by
      simp
    rw [requireReceiptPackages, hsplit]
    by_cases hvalid : isValidTrustedAlpmReceiptPackageName packageName = false
    · rw [if_pos hvalid]
      constructor
      · intro h
        cases h
      · intro h
        have hname := (installedNames_concat_iff.mp h.part).2.1
        rw [hvalid] at hname
        cases hname
    · rw [if_neg hvalid]
      by_cases hmem : packageName ∈ prior
      · rw [if_pos hmem]
        constructor
        · intro h
          cases h
        · intro h
          exact absurd hmem (installedNames_concat_iff.mp h.part).2.2
      · rw [if_neg hmem]
        exact ih (installedNames_concat_iff.mpr ⟨hprior, by simpa using hvalid, hmem⟩)

theorem readInstalledPackage_eq_ok_iff {after : List Bytes} {line : Bytes}
    (hset : InstalledNames packages) :
    readInstalledPackage packages line = .ok after ↔
      ∃ packageName, line = installLabel ++ packageName ∧
        after = packages ++ [packageName] ∧ InstalledNames after := by
  unfold readInstalledPackage
  constructor
  · intro h
    split at h
    · cases h
    · rename_i packageName hvalue
      split at h
      · cases h
      · rename_i hfresh
        rw [not_or, Bool.not_eq_false] at hfresh
        injection h with h
        refine ⟨packageName, recordValue_eq_some hvalue, h.symm, ?_⟩
        rw [← h]
        exact installedNames_concat_iff.mpr ⟨hset, hfresh⟩
  · rintro ⟨packageName, rfl, rfl, hafter⟩
    obtain ⟨-, hvalid, hfresh⟩ := installedNames_concat_iff.mp hafter
    rw [recordValue_append]
    dsimp only
    rw [if_neg (by simp [hvalid, hfresh])]

theorem readInstalledPackages_eq_ok_iff : lines.foldlM readInstalledPackage [] = .ok packages ↔
      lines = packages.map (installLabel ++ ·) ∧ InstalledNames packages := by
  rw [foldlM_append_iff InstalledNames.part readInstalledPackage_eq_ok_iff InstalledNames.nil]
  simp

/-- A receipt that can be written, apart from the size of its text. -/
structure ReceiptFits (receipt : RootReceipt) : Prop where
  token : isValidTrustedAlpmReceiptToken receipt.transactionToken = true
  state : receiptStateFits receipt.state receipt.installedPackageNames = true
  names : InstalledNames receipt.installedPackageNames

theorem serializeRootReceipt_eq_ok_iff : serializeRootReceipt receipt = .ok text ↔
      ReceiptFits receipt ∧ text = terminated (byte '\n') (rootReceiptLines receipt) ∧
        text.length ≤ maximumProtocolBytes := by
  unfold serializeRootReceipt
  constructor
  · intro h
    split at h
    · cases h
    · rename_i hfields
      rw [not_or, Bool.not_eq_false, Bool.not_eq_false] at hfields
      rw [bind_eq_ok] at h
      obtain ⟨_, hnames, h⟩ := h
      dsimp only at h
      split at h
      · cases h
      · rename_i hsize
        injection h with h
        rw [← h]
        exact ⟨⟨hfields.1, hfields.2,
          (requireReceiptPackages_ok_iff InstalledNames.nil).mp hnames⟩, rfl,
          Nat.not_lt.mp hsize⟩
  · rintro ⟨hfits, rfl, hsize⟩
    have hnames := (requireReceiptPackages_ok_iff InstalledNames.nil).mpr hfits.names
    rw [if_neg (by simp [hfits.token, hfits.state]), bind_of_ok hnames]
    exact if_neg (Nat.not_lt.mpr hsize)

theorem parseReceiptState_eq_some_iff {state : RootReceiptState} :
    parseReceiptState value = some state ↔ value = serializeReceiptState state := by
  constructor
  · intro h
    unfold parseReceiptState at h
    split at h
    · rename_i hvalue
      injection h with h
      rw [← h, hvalue]
      rfl
    · split at h
      · rename_i hvalue
        injection h with h
        rw [← h, hvalue]
        rfl
      · cases h
  · rintro rfl
    cases state with
    | missing => decide
    | complete => decide

theorem readRecipient_eq_some_iff {token : Bytes} : readRecipient tokenLine ownerLine = some token ↔
      tokenLine = tokenLabel ++ token ∧ ownerLine = ownerLabel ++ owner ∧
        isValidTrustedAlpmReceiptToken token = true := by
  simp only [readRecipient, Option.bind_eq_bind, Option.bind_eq_some_iff,
    Option.guard_eq_some', recordValue_eq_some_iff]
  constructor
  · rintro ⟨value, hvalue, _, hvalid, name, hname, _, rfl, h⟩
    injection h with h
    rw [← h]
    exact ⟨hvalue, hname, hvalid⟩
  · rintro ⟨hvalue, hname, hvalid⟩
    exact ⟨token, hvalue, (), hvalid, owner, hname, (), rfl, rfl⟩

theorem parseRootReceiptLines_eq_ok_iff : parseRootReceiptLines lines = .ok receipt ↔
      ReceiptFits receipt ∧ lines = rootReceiptLines receipt := by
  unfold parseRootReceiptLines
  constructor
  · intro h
    split at h
    · rename_i header tokenLine ownerLine stateLine first others
      dsimp only at h
      split at h
      · cases h
      · rename_i hshape
        rw [not_or, not_not, not_not] at hshape
        split at h
        · rename_i token stateValue htoken hstateLine
          split at h
          · cases h
          · rename_i state hstate
            rw [bind_eq_ok] at h
            obtain ⟨packages, hpackages, h⟩ := h
            split at h
            · cases h
            · rename_i hfits
              injection h with h
              obtain ⟨htokenLine, hownerLine, hvalid⟩ := readRecipient_eq_some_iff.mp htoken
              obtain ⟨hlines, hnames⟩ := readInstalledPackages_eq_ok_iff.mp hpackages
              have hrest := List.dropLast_append_getLast? endRecord hshape.2
              rw [← h, ← hrest, hlines, htokenLine, hownerLine, hshape.1,
                recordValue_eq_some hstateLine, parseReceiptState_eq_some_iff.mp hstate]
              exact ⟨⟨hvalid, by simpa using hfits, hnames⟩, rfl⟩
        · cases h
    · cases h
  · rintro ⟨hfits, rfl⟩
    obtain ⟨state, token, packages⟩ := receipt
    obtain ⟨first, others, hrest⟩ := List.exists_cons_of_ne_nil
      (List.concat_ne_nil endRecord (packages.map (installLabel ++ ·)))
    have hshape : rootReceiptLines ⟨state, token, packages⟩ =
        receiptHeader :: (tokenLabel ++ token) :: (ownerLabel ++ owner) ::
          (stateLabel ++ serializeReceiptState state) :: first :: others := by
      unfold rootReceiptLines
      rw [← hrest]
      rfl
    have hstate := hfits.state
    dsimp only at hstate
    rw [hshape]
    dsimp only
    rw [← hrest, List.dropLast_concat, if_neg (by simp),
      readRecipient_eq_some_iff.mpr ⟨rfl, rfl, hfits.token⟩, recordValue_append]
    dsimp only
    rw [parseReceiptState_eq_some_iff.mpr rfl]
    dsimp only
    rw [bind_of_ok (readInstalledPackages_eq_ok_iff.mpr ⟨rfl, hfits.names⟩),
      if_neg (by simp [hstate])]

/-! ## The number of packages -/

/-- The names that the lines of a receipt leave room for. -/
def receiptReadablePackages : Nat := trustedAlpmReceiptMaximumPackages + 11

theorem rootReceiptLines_length (receipt : RootReceipt) :
    (rootReceiptLines receipt).length = receipt.installedPackageNames.length + 5 := by
  simp [rootReceiptLines]

theorem rootReceiptLines_no_newline (h : ReceiptFits receipt) :
    ∀ line ∈ rootReceiptLines receipt, byte '\n' ∉ line := by
  intro line hline
  rcases List.mem_append.mp hline with hline | hline
  · simp only [List.mem_cons, List.not_mem_nil, or_false] at hline
    rcases hline with rfl | rfl | rfl | rfl
    · decide
    · exact no_newline_of_label (by decide) (visible_of_token h.token)
    · decide
    · cases receipt.state with
      | missing => decide
      | complete => decide
  · rcases List.mem_append.mp hline with hline | hline
    · obtain ⟨packageName, hname, rfl⟩ := List.mem_map.mp hline
      have hvalid := h.names.valid packageName hname
      simp only [isValidTrustedAlpmReceiptPackageName, Bool.and_eq_true, List.all_eq_true] at hvalid
      exact no_newline_of_label (by decide) (visible_of_identifier hvalid.2)
    · rw [List.mem_singleton.mp hline]
      decide

theorem parseRootReceipt_eq_ok_iff : parseRootReceipt text = .ok receipt ↔
      serializeRootReceipt receipt = .ok text ∧
        receipt.installedPackageNames.length ≤ receiptReadablePackages := by
  unfold parseRootReceipt receiptReadablePackages
  rw [bind_eq_ok, serializeRootReceipt_eq_ok_iff]
  constructor
  · rintro ⟨lines, hlines, h⟩
    obtain ⟨htext, hsize, hcount⟩ := splitProtocolLines_ok hlines
    obtain ⟨hfits, rfl⟩ := parseRootReceiptLines_eq_ok_iff.mp h
    rw [rootReceiptLines_length] at hcount
    exact ⟨⟨hfits, htext, hsize⟩, by omega⟩
  · rintro ⟨⟨hfits, htext, hsize⟩, hcount⟩
    refine ⟨rootReceiptLines receipt, ?_, parseRootReceiptLines_eq_ok_iff.mpr ⟨hfits, rfl⟩⟩
    have hne : rootReceiptLines receipt ≠ [] := List.cons_ne_nil _ _
    rw [htext] at hsize ⊢
    refine splitProtocolLines_terminated hne (rootReceiptLines_no_newline hfits) ?_ hsize
    rw [rootReceiptLines_length]
    omega

/-! ## Observations -/

theorem parseExecutionEvidence_eq_some_iff {evidence : ExecutionEvidence} :
    parseExecutionEvidence value = some evidence ↔ value = executionEvidenceText evidence := by
  constructor
  · intro h
    unfold parseExecutionEvidence at h
    have hfound := List.find?_some h
    exact (of_decide_eq_true hfound).symm
  · rintro rfl
    cases evidence with
    | unobserved => decide
    | preTransaction => decide
    | postTransaction => decide

theorem parseSealingReason_eq_some_iff {reason : SealingFailure} :
    parseSealingReason value = some reason ↔ value = sealingReasonText reason := by
  constructor
  · intro h
    unfold parseSealingReason at h
    have hfound := List.find?_some h
    exact (of_decide_eq_true hfound).symm
  · rintro rfl
    cases reason <;> decide +kernel

theorem sealingReasonText_ne_none (reason : SealingFailure) :
    sealingReasonText reason ≠ noReason := by
  cases reason <;> decide

/-- The two values a refusal is written as. -/
def refusalReason : Option SealingRefusal → Bytes
  | none => noReason
  | some refusal => sealingReasonText refusal.reason

def refusalErrno : Option SealingRefusal → Nat
  | none => 0
  | some refusal => refusal.errorNumber.toInt.toNat

def refusalFits (refusal : Option SealingRefusal) : Prop :=
  ∀ sealing ∈ refusal, 0 ≤ sealing.errorNumber.toInt

theorem refusalTexts_eq_ok_iff {texts : Bytes × Bytes} : refusalTexts refusal = .ok texts ↔
      refusalFits refusal ∧
        texts = (refusalReason refusal, writeUnsigned (refusalErrno refusal)) := by
  cases refusal with
  | none =>
    simp only [refusalTexts, refusalFits, refusalReason, refusalErrno, Except.ok.injEq,
      Option.not_mem_none, false_implies, implies_true, true_and]
    exact eq_comm
  | some sealing =>
    have hzero : (0 : Int32).toInt = 0 := rfl
    by_cases hnegative : sealing.errorNumber < 0
    · have hlow := Int32.lt_iff_toInt_lt.mp hnegative
      simp only [refusalTexts, if_pos hnegative, refusalFits, Option.mem_some_iff, forall_eq']
      constructor
      · intro h
        cases h
      · rintro ⟨hhigh, -⟩
        omega
    · have hhigh : 0 ≤ sealing.errorNumber.toInt := by
        rw [Int32.lt_iff_toInt_lt] at hnegative
        omega
      simp only [refusalTexts, if_neg hnegative, refusalFits, refusalReason, refusalErrno,
        Except.ok.injEq, Option.mem_some_iff, forall_eq', hhigh, true_and]
      exact eq_comm

/-- An error number of the text fits an `int`, so nothing of it is lost. -/
theorem parseRefusal_eq_some_iff {reason : Bytes} {errorNumber : Nat}
    (hbound : errorNumber < 2 ^ 31) :
    parseRefusal reason errorNumber = some refusal ↔
      refusalFits refusal ∧ reason = refusalReason refusal ∧
        errorNumber = refusalErrno refusal := by
  have hwritten := Int32.toInt_ofNat_of_lt hbound
  unfold parseRefusal
  by_cases hnone : reason = noReason
  · rw [if_pos hnone]
    cases refusal with
    | none =>
      by_cases hzero : errorNumber = 0
      · simp [hzero, hnone, refusalFits, refusalReason, refusalErrno]
      · simp [hzero, refusalErrno]
    | some sealing =>
      have hother := sealingReasonText_ne_none sealing.reason
      rw [hnone]
      constructor
      · intro h
        split at h
        · cases h
        · cases h
      · rintro ⟨-, h, -⟩
        exact absurd h.symm hother
  · rw [if_neg hnone, Option.map_eq_some_iff]
    constructor
    · rintro ⟨failure, hfailure, h⟩
      have hreason := parseSealingReason_eq_some_iff.mp hfailure
      rw [← h]
      refine ⟨?_, hreason, ?_⟩
      · intro sealing hsealing
        rw [← Option.mem_some_iff.mp hsealing, hwritten]
        omega
      · show errorNumber = (Int32.ofNat errorNumber).toInt.toNat
        rw [hwritten]
        omega
    · rintro ⟨hfits, hreason, herrno⟩
      cases refusal with
      | none => exact absurd hreason hnone
      | some sealing =>
        have hhigh := hfits sealing rfl
        refine ⟨sealing.reason, parseSealingReason_eq_some_iff.mpr hreason, ?_⟩
        have hnumber : Int32.ofNat errorNumber = sealing.errorNumber := by
          apply Int32.toInt_inj.mp
          rw [hwritten, herrno]
          show ((sealing.errorNumber.toInt.toNat : Nat) : Int) = _
          omega
        rw [hnumber]

theorem refusalErrno_lt (refusal : Option SealingRefusal) : refusalErrno refusal < 2 ^ 31 := by
  cases refusal with
  | none => decide
  | some sealing =>
    have hupper := sealing.errorNumber.toInt_lt
    show sealing.errorNumber.toInt.toNat < 2 ^ 31
    omega

theorem refusalReason_ne_none_iff (refusal : Option SealingRefusal) :
    decide (refusalReason refusal ≠ noReason) = refusal.isSome := by
  cases refusal with
  | none => rfl
  | some sealing => exact decide_eq_true (sealingReasonText_ne_none sealing.reason)

def observationLines (observation : ExecutionObservation) : List Bytes :=
  executionObservationLines observation (refusalReason observation.refusal)
    (writeUnsigned (refusalErrno observation.refusal))

structure ObservationFits (observation : ExecutionObservation) : Prop where
  token : isValidTrustedAlpmReceiptToken observation.transactionToken = true
  evidence : evidenceFits observation.authorized observation.refusal.isSome
    observation.executionEvidence = true
  refusal : refusalFits observation.refusal

theorem serializeExecutionObservation_eq_ok_iff :
    serializeExecutionObservation observation = .ok text ↔ ObservationFits observation ∧
        text = terminated (byte '\n') (observationLines observation) := by
  unfold serializeExecutionObservation
  constructor
  · intro h
    split at h
    · cases h
    · rename_i hfields
      rw [not_or, Bool.not_eq_false, Bool.not_eq_false] at hfields
      rw [bind_eq_ok] at h
      obtain ⟨texts, htexts, h⟩ := h
      obtain ⟨hrefusal, hvalues⟩ := refusalTexts_eq_ok_iff.mp htexts
      injection h with h
      rw [hvalues] at h
      exact ⟨⟨hfields.1, hfields.2, hrefusal⟩, h.symm⟩
  · rintro ⟨hfits, rfl⟩
    rw [if_neg (by simp [hfits.token, hfits.evidence]),
      bind_of_ok (refusalTexts_eq_ok_iff.mpr ⟨hfits.refusal, rfl⟩)]
    rfl

theorem parseExecutionRecords_eq_some_iff {authorizedLine evidenceLine reasonLine errnoLine : Bytes}
    :
    parseExecutionRecords tokenLine ownerLine authorizedLine evidenceLine reasonLine
        errnoLine = some observation ↔
      ObservationFits observation ∧
        [executionHeader, tokenLine, ownerLine, authorizedLine, evidenceLine, reasonLine,
          errnoLine, endRecord] = observationLines observation := by
  have hsingle : ∀ refusal : Option SealingRefusal,
      decide (refusalReason refusal ≠ noReason) = refusal.isSome := refusalReason_ne_none_iff
  simp only [parseExecutionRecords, Option.bind_eq_bind, Option.bind_eq_some_iff,
    Option.guard_eq_some', recordValue_eq_some_iff, readRecipient_eq_some_iff,
    parseExecutionEvidence_eq_some_iff, parseCanonicalUnsigned_eq_some_iff]
  constructor
  · rintro ⟨token, ⟨htokenLine, hownerLine, htoken⟩, authorizedText, hauthorizedLine,
      evidenceText, hevidenceLine, reasonText, hreasonLine, errnoText, herrnoLine,
      authorized, hauthorized, errorNumber, ⟨herrnoText, -⟩, _, hbound, evidence, hevidence,
      _, hfits, refusal, hrefusal, h⟩
    injection h with h
    obtain ⟨hnonneg, hreason, herrno⟩ := (parseRefusal_eq_some_iff hbound).mp hrefusal
    rw [hreason, hsingle] at hfits
    rw [← h]
    refine ⟨⟨htoken, hfits, hnonneg⟩, ?_⟩
    rw [htokenLine, hownerLine, hauthorizedLine, hevidenceLine, hreasonLine, herrnoLine,
      herrnoText, hevidence, hreason, herrno, ← parseBoolean_eq_some hauthorized]
    rfl
  · rintro ⟨hfits, hlines⟩
    simp only [observationLines, executionObservationLines, List.cons.injEq, true_and,
      and_true] at hlines
    obtain ⟨htoken, howner, hauthorized, hevidence, hreason, herrno⟩ := hlines
    have hbound := refusalErrno_lt observation.refusal
    have hevidenceFits := hfits.evidence
    rw [← hsingle] at hevidenceFits
    exact ⟨_, ⟨htoken, howner, hfits.token⟩, _, hauthorized, _, hevidence, _, hreason, _,
      herrno, _, parseBoolean_serialize _, _, ⟨rfl, by omega⟩, (), hbound, _, rfl, (),
      hevidenceFits, _, (parseRefusal_eq_some_iff hbound).mpr ⟨hfits.refusal, rfl, rfl⟩, rfl⟩

theorem observationLines_line (h : ObservationFits observation) :
    ∀ line ∈ observationLines observation, byte '\n' ∉ line ∧ line.length < 256 := by
  have htoken := token_length h.token
  have herrno : (writeUnsigned (refusalErrno observation.refusal)).length ≤ 10 := by
    apply writeUnsigned_length_le (by omega)
    have hbound := refusalErrno_lt observation.refusal
    omega
  intro line hline
  simp only [observationLines, executionObservationLines, List.mem_cons, List.not_mem_nil,
    or_false] at hline
  rcases hline with rfl | rfl | rfl | rfl | rfl | rfl | rfl | rfl
  · exact ⟨by decide, by decide⟩
  · refine ⟨no_newline_of_label (by decide) (visible_of_token h.token), ?_⟩
    have hlabel : tokenLabel.length = 6 := rfl
    rw [List.length_append]
    omega
  · exact ⟨by decide, by decide⟩
  · cases observation.authorized with
    | false => exact ⟨by decide, by decide⟩
    | true => exact ⟨by decide, by decide⟩
  · cases observation.executionEvidence with
    | unobserved => exact ⟨by decide, by decide⟩
    | preTransaction => exact ⟨by decide, by decide⟩
    | postTransaction => exact ⟨by decide, by decide⟩
  · cases observation.refusal with
    | none => exact ⟨by decide, by decide⟩
    | some sealing =>
      show byte '\n' ∉ reasonLabel ++ sealingReasonText sealing.reason ∧
        (reasonLabel ++ sealingReasonText sealing.reason).length < 256
      cases sealing.reason <;> exact ⟨by decide, by decide⟩
  · refine ⟨no_newline_of_label (by decide) (visible_writeUnsigned _), ?_⟩
    have hlabel : errnoLabel.length = 6 := rfl
    rw [List.length_append]
    omega
  · exact ⟨by decide, by decide⟩

/-- The writer and the reader of an execution observation. -/
theorem serializeExecutionObservation_iff_parse (observation : ExecutionObservation)
    (text : Bytes) :
    serializeExecutionObservation observation = .ok text ↔
      parseExecutionObservation text = .ok observation := by
  rw [serializeExecutionObservation_eq_ok_iff]
  unfold parseExecutionObservation
  rw [bind_eq_ok]
  constructor
  · rintro ⟨hfits, rfl⟩
    have hlines := observationLines_line hfits
    have hwidth := terminated_length_le (byte '\n') fun line hline => (hlines line hline).2
    have hcount : (observationLines observation).length = 8 := rfl
    refine ⟨observationLines observation, ?_, ?_⟩
    · apply splitProtocolLines_terminated (List.cons_ne_nil _ _)
      · intro line hline
        exact (hlines line hline).1
      · exact Nat.le_add_left 8 _
      · refine hwidth.trans ?_
        show 8 * 256 ≤ maximumProtocolBytes
        decide
    · have hrecords := parseExecutionRecords_eq_some_iff.mpr ⟨hfits, rfl⟩
      dsimp only [observationLines, executionObservationLines] at hrecords ⊢
      rw [if_neg (by simp), hrecords]
  · rintro ⟨lines, hlines, h⟩
    obtain ⟨htext, -⟩ := splitProtocolLines_ok hlines
    split at h
    · split at h
      · cases h
      · rename_i hshape
        rw [not_or, not_not, not_not] at hshape
        split at h
        · cases h
        · rename_i found hfound
          injection h with h
          obtain ⟨hfits, hwritten⟩ := parseExecutionRecords_eq_some_iff.mp hfound
          rw [← h]
          refine ⟨hfits, ?_⟩
          rw [htext, ← hwritten, hshape.1, hshape.2]
    · cases h

/-- **Install documents**: a prepare response and an execution observation are
written as a text exactly when the text is read as them. A receipt that is
read is written as the text it was read from; a receipt that is written is read
back exactly when its names leave room within the lines of a protocol. -/
theorem installDocuments_roundTrip (response : RootPrepareResponse)
    (request : RootPrepareRequest) (observation : ExecutionObservation)
    (receipt : RootReceipt) (text : Bytes) :
    (serializePrepareResponse response request = .ok text ↔
        parsePrepareResponse text request = .ok response) ∧
      (serializeExecutionObservation observation = .ok text ↔
        parseExecutionObservation text = .ok observation) ∧
      (parseRootReceipt text = .ok receipt → serializeRootReceipt receipt = .ok text) ∧
      (serializeRootReceipt receipt = .ok text →
        (parseRootReceipt text = .ok receipt ↔
          receipt.installedPackageNames.length ≤ receiptReadablePackages)) := by
  refine ⟨serializePrepareResponse_iff_parse response request text,
    serializeExecutionObservation_iff_parse observation text, ?_, ?_⟩
  · intro h
    exact (parseRootReceipt_eq_ok_iff.mp h).1
  · intro h
    rw [parseRootReceipt_eq_ok_iff]
    exact and_iff_right h

/-! ## A receipt that is not read back -/

theorem isValidTrustedAlpmReceiptPackageName_writeUnsigned (value : Nat) :
    isValidTrustedAlpmReceiptPackageName (writeUnsigned value) = true := by
  have hne := writeUnsigned_ne_nil value
  have hdigits : ∀ b ∈ writeUnsigned value, isAsciiDigit b = true := writeUnsigned_digit
  have hfirst : ∀ b rest, writeUnsigned value = b :: rest → isAsciiDigit b = true := by
    intro b rest h
    exact hdigits b (by rw [h]; exact List.mem_cons_self)
  have hdot : isAsciiDigit (byte '.') = false := by decide
  have hdash : isAsciiDigit (byte '-') = false := by decide
  have hother : ∀ b rest, isAsciiDigit b = false → writeUnsigned value ≠ b :: rest := by
    intro b rest hb h
    rw [hfirst b rest h] at hb
    cases hb
  have hhead : (writeUnsigned value).head? ≠ some (byte '-') := by
    intro h
    obtain ⟨rest, hrest⟩ := List.head?_eq_some_iff.mp h
    exact hother _ rest hdash hrest
  have hall : (writeUnsigned value).all isIdentifierByte = true := by
    rw [List.all_eq_true]
    intro b hmem
    simp [isIdentifierByte, isAsciiAlphanumeric, hdigits b hmem]
  simp only [isValidTrustedAlpmReceiptPackageName, Bool.and_eq_true, decide_eq_true_eq]
  exact ⟨⟨⟨⟨hne, hother _ [] hdot⟩, hother _ [byte '.'] hdot⟩, hhead⟩, hall⟩

/-- A receipt of `count` packages that are named by numbers. -/
def numberedReceipt (count : Nat) : RootReceipt where
  state := .complete
  transactionToken := List.replicate 64 (byte '0')
  installedPackageNames := (List.range count).map writeUnsigned

theorem numberedReceipt_length (count : Nat) :
    (numberedReceipt count).installedPackageNames.length = count := by
  rw [numberedReceipt, List.length_map, List.length_range]

theorem numberedReceipt_fits (h : 0 < count) : ReceiptFits (numberedReceipt count) := by
  have hnames : (numberedReceipt count).installedPackageNames ≠ [] := by
    intro hnil
    have hlength := numberedReceipt_length count
    rw [hnil, List.length_nil] at hlength
    omega
  refine ⟨?_, decide_eq_true hnames, ?_, ?_⟩
  · show isValidTrustedAlpmReceiptToken (List.replicate 64 (byte '0')) = true
    decide
  · intro packageName hname
    obtain ⟨value, -, rfl⟩ := List.mem_map.mp hname
    exact isValidTrustedAlpmReceiptPackageName_writeUnsigned value
  · exact List.nodup_range.map fun value other h => writeUnsigned_injective h

theorem numberedReceipt_line (h : count ≤ 10 ^ 6) :
    ∀ line ∈ rootReceiptLines (numberedReceipt count), line.length < 128 := by
  intro line hline
  rcases List.mem_append.mp hline with hline | hline
  · simp only [List.mem_cons, List.not_mem_nil, or_false] at hline
    rcases hline with rfl | rfl | rfl | rfl
    · decide
    · show (tokenLabel ++ List.replicate 64 (byte '0')).length < 128
      decide
    · decide
    · show (stateLabel ++ ascii "Complete").length < 128
      decide
  · rcases List.mem_append.mp hline with hline | hline
    · obtain ⟨packageName, hname, rfl⟩ := List.mem_map.mp hline
      obtain ⟨value, hvalue, rfl⟩ := List.mem_map.mp hname
      have hrange : value < count := List.mem_range.mp hvalue
      have hdigits : (writeUnsigned value).length ≤ 6 :=
        writeUnsigned_length_le (by omega) (by omega)
      have hlabel : installLabel.length = 8 := rfl
      rw [List.length_append]
      omega
    · rw [List.mem_singleton.mp hline]
      decide

theorem serializeRootReceipt_numberedReceipt (hpos : 0 < count)
    (hcount : (count + 5) * 128 ≤ maximumProtocolBytes) :
    serializeRootReceipt (numberedReceipt count) =
      .ok (terminated (byte '\n') (rootReceiptLines (numberedReceipt count))) := by
  refine serializeRootReceipt_eq_ok_iff.mpr ⟨numberedReceipt_fits hpos, rfl, ?_⟩
  have hsmall : count ≤ 10 ^ 6 := by
    unfold maximumProtocolBytes at hcount
    omega
  have hwidth := terminated_length_le (byte '\n') (numberedReceipt_line hsmall)
  rw [rootReceiptLines_length, numberedReceipt_length] at hwidth
  exact hwidth.trans hcount

/-- The writer accepts a receipt of one package more than its reader takes. -/
theorem serializeRootReceipt_not_read :
    ∃ text, serializeRootReceipt (numberedReceipt (receiptReadablePackages + 1)) = .ok text ∧
      parseRootReceipt text ≠ .ok (numberedReceipt (receiptReadablePackages + 1)) := by
  have hroom : (receiptReadablePackages + 1 + 5) * 128 ≤ maximumProtocolBytes := by
    unfold receiptReadablePackages trustedAlpmReceiptMaximumPackages maximumProtocolBytes
    omega
  refine ⟨_, serializeRootReceipt_numberedReceipt (Nat.succ_pos _) hroom, ?_⟩
  intro hread
  have hcount := (parseRootReceipt_eq_ok_iff.mp hread).2
  rw [numberedReceipt_length] at hcount
  exact Nat.not_succ_le_self _ hcount

end Moguet.Install.DocumentsRoundTrip
