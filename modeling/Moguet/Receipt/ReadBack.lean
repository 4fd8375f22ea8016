import Moguet.Receipt.Protocol
import Moguet.Install.DocumentsRoundTrip

/-!
# Reading a recorded receipt back

The hook that runs after the package transaction reads the installed names
from its input and writes them into a receipt. The input and the receipt are
held to the same number of bytes (`maximum_bytes` of
`trusted_alpm_receipt_protocol.cpp`, `MAXIMUM_PROTOCOL_BYTES` of
`source_artifact_install_trusted_protocol.cpp`), but each name takes a label
more in the receipt, and a receipt has a head and an end record. The number of
lines does leave room for these; the number of bytes does not.
-/

namespace Moguet.Receipt.ReadBack

open Verified.ByteString Verified.Checked Verified.Fields Install.Request
open Plan.Constraint (isIdentifierByte)
open Install.PreparedRoundTrip Protocol
open Install.Documents (RootReceipt rootReceiptLines receiptStateFits
  serializeReceiptState serializeRootReceipt parseRootReceipt)
open Install.DocumentsRoundTrip (ReceiptFits receiptReadablePackages
  serializeRootReceipt_eq_ok_iff parseRootReceipt_eq_ok_iff)

variable {packages : List Bytes} {input token : Bytes} {index : Nat}

/-- A label before each of the lines. -/
theorem terminated_labelled_length (separator : UInt8) (label : Bytes) (lines : List Bytes) :
    (terminated separator (lines.map (label ++ ·))).length =
      (terminated separator lines).length + label.length * lines.length := by
  induction lines with
  | nil => rfl
  | cons line lines ih =>
    rw [List.map_cons, terminated_cons, List.length_append, List.length_cons, ih,
      terminated_cons, List.length_append, List.length_append, List.length_cons,
      List.length_cons, Nat.mul_succ]
    omega

/-- Lines without the separator are counted by it. -/
theorem count_terminated {separator : UInt8} :
    ∀ {lines : List Bytes}, (∀ line ∈ lines, separator ∉ line) →
      (terminated separator lines).count separator = lines.length := by
  intro lines
  induction lines with
  | nil =>
    intro _
    rfl
  | cons line lines ih =>
    intro hclean
    have hline : line.count separator = 0 :=
      List.count_eq_zero.mpr (hclean line List.mem_cons_self)
    have hlines : (terminated separator lines).count separator = lines.length :=
      ih fun other hother => hclean other (List.mem_cons_of_mem _ hother)
    rw [terminated_cons, List.count_append, List.count_cons_self, hline, hlines, List.length_cons]
    omega

/-- The input of a hook and the names it carries. -/
structure NeedsTargets (input : Bytes) (packages : List Bytes) : Prop where
  filled : packages ≠ []
  names : PackageSet packages
  lines : input = terminated (byte '\n') packages
  size : input.length ≤ receiptMaximumBytes

theorem no_newline_packages (hset : PackageSet packages) : ∀ line ∈ packages, byte '\n' ∉ line := by
  intro line hline
  have hvisible := visible_of_packageNameFits (hset.fits line hline)
  have hclean : byte '\n' ∉ [] ++ line := no_newline_of_label (by decide) hvisible
  rwa [List.nil_append] at hclean

theorem readNames_eq_ok_iff {lines : List Bytes} :
    lines.foldlM retainUniquePackage [] = .ok packages ↔
      lines = packages ∧ PackageSet packages := by
  have hstep : ∀ {values : List Bytes} {item : Bytes} {after : List Bytes},
      PackageSet values → (retainUniquePackage values item = .ok after ↔
        ∃ value, item = id value ∧ after = values ++ [value] ∧ PackageSet after) := by
    intro values item after hvalues
    rw [retainUniquePackage_eq_ok_iff hvalues]
    simp
  rw [foldlM_append_iff PackageSet.part hstep PackageSet.nil]
  constructor
  · rintro ⟨names, hlines, rfl, hset⟩
    rw [List.map_id] at hlines
    exact ⟨hlines, hset⟩
  · rintro ⟨rfl, hset⟩
    exact ⟨lines, (List.map_id _).symm, rfl, hset⟩

theorem parseNeedsTargets_eq_ok_iff :
    parseNeedsTargets input = .ok packages ↔ NeedsTargets input packages := by
  unfold parseNeedsTargets
  simp only [bind_eq_ok]
  constructor
  · rintro ⟨lines, hlines, names, hnames, h⟩
    obtain ⟨htext, hsize, -⟩ := splitReceiptLines_ok hlines
    obtain ⟨hsame, hset⟩ := readNames_eq_ok_iff.mp hnames
    by_cases hfilled : names = []
    · rw [if_pos hfilled] at h
      cases h
    · rw [if_neg hfilled] at h
      injection h with h
      rw [hsame] at htext
      rw [← h]
      exact ⟨hfilled, hset, htext, hsize⟩
  · intro h
    have hsize := h.size
    rw [h.lines] at hsize
    have hcount := h.names.count
    refine ⟨packages, ?_, packages, readNames_eq_ok_iff.mpr ⟨rfl, h.names⟩, if_neg h.filled⟩
    rw [h.lines]
    exact splitReceiptLines_terminated h.filled (no_newline_packages h.names) (by omega) hsize

/-- The machine receipt of a completed transaction is written and read back. -/
def MachineReceiptReadsBack (token : Bytes) (packages : List Bytes) : Prop :=
  ∃ protocol, serializeMachineReceipt ⟨.complete, token, packages⟩ = .ok protocol ∧
    parseMachineReceipt protocol = .ok ⟨.complete, token, packages⟩

/-- The root receipt of a completed transaction is written and read back. -/
def RootReceiptReadsBack (token : Bytes) (packages : List Bytes) : Prop :=
  ∃ protocol, serializeRootReceipt ⟨.complete, token, packages⟩ = .ok protocol ∧
    parseRootReceipt protocol = .ok ⟨.complete, token, packages⟩

/-- The bytes of a machine receipt besides its package records. -/
def machineReceiptOverhead : Nat := 147

/-- The bytes of a root receipt besides its package records. -/
def rootReceiptOverhead : Nat := 153

/-- The bytes that the label of a package record adds to each name. -/
def installLabelBytes : Nat := 8

theorem machineReceipt_length (packages : List Bytes)
    (htoken : isValidTrustedAlpmReceiptToken token = true) :
    (terminated (byte '\n') (machineReceiptLines ⟨.complete, token, packages⟩)).length =
      (terminated (byte '\n') packages).length + installLabelBytes * packages.length +
        machineReceiptOverhead := by
  have hlength := length_of_token htoken
  have hlabel : installLabel.length = installLabelBytes := by decide
  have hheader : receiptHeader.length = 21 := by decide
  have htokenLabel : tokenLabel.length = 6 := by decide
  have howner : (ownerLabel ++ owner).length = 34 := by decide
  have hstate : (stateLabel ++ serializeMachineState .complete).length = 14 := by decide
  have hend : endRecord.length = 3 := by decide
  unfold machineReceiptLines machineReceiptOverhead
  rw [terminated_append, terminated_append, List.length_append, List.length_append,
    terminated_labelled_length, hlabel]
  simp only [terminated_cons, terminated_nil, List.length_append, List.length_cons,
    List.length_nil] at howner hstate ⊢
  omega

theorem rootReceipt_length (packages : List Bytes)
    (htoken : isValidTrustedAlpmReceiptToken token = true) :
    (terminated (byte '\n') (rootReceiptLines ⟨.complete, token, packages⟩)).length =
      (terminated (byte '\n') packages).length + installLabelBytes * packages.length +
        rootReceiptOverhead := by
  have hlength := length_of_token htoken
  have hlabel : installLabel.length = installLabelBytes := by decide
  have hheader : Install.Documents.receiptHeader.length = 32 := by decide
  have htokenLabel : Install.PreparedState.tokenLabel.length = 6 := by decide
  have howner : (Install.PreparedState.ownerLabel ++ Install.PreparedState.owner).length = 29 := by
    decide
  have hstate : (stateLabel ++ serializeReceiptState .complete).length = 14 := by decide
  have hend : Install.PreparedState.endRecord.length = 3 := by decide
  unfold rootReceiptLines rootReceiptOverhead
  rw [terminated_append, terminated_append, List.length_append, List.length_append,
    terminated_labelled_length, hlabel]
  simp only [terminated_cons, terminated_nil, List.length_append, List.length_cons,
    List.length_nil] at howner hstate ⊢
  omega

/-- A machine receipt that is not too long is written and read. -/
theorem machineReceiptReadsBack_iff (hinput : NeedsTargets input packages)
    (htoken : isValidTrustedAlpmReceiptToken token = true) :
    MachineReceiptReadsBack token packages ↔
      input.length + installLabelBytes * packages.length + machineReceiptOverhead ≤
        receiptMaximumBytes := by
  have hlength := machineReceipt_length packages htoken
  rw [← hinput.lines] at hlength
  rw [← hlength]
  unfold MachineReceiptReadsBack
  constructor
  · rintro ⟨protocol, hwritten, _⟩
    have htext := serializeMachineReceipt_eq_ok_iff.mp hwritten
    have hsize := htext.size
    rwa [htext.lines] at hsize
  · intro hsize
    have htext : ReceiptText ⟨.complete, token, packages⟩
        (terminated (byte '\n') (machineReceiptLines ⟨.complete, token, packages⟩)) :=
      ⟨htoken, iff_of_true rfl hinput.filled, hinput.names, rfl, hsize⟩
    exact ⟨_, serializeMachineReceipt_eq_ok_iff.mpr htext, parseMachineReceipt_eq_ok_iff.mpr htext⟩

/-- The names of a package set are names a root receipt can hold. -/
theorem receiptFits_of_names (hinput : NeedsTargets input packages)
    (htoken : isValidTrustedAlpmReceiptToken token = true) :
    ReceiptFits ⟨.complete, token, packages⟩ := by
  have hstate : receiptStateFits .complete packages = true := by
    simpa [receiptStateFits] using hinput.filled
  refine ⟨htoken, hstate, ?_, hinput.names.nodup⟩
  intro packageName hname
  have hfits := hinput.names.fits packageName hname
  unfold packageNameFits at hfits
  rw [Bool.and_eq_true] at hfits
  exact hfits.2

/-- A root receipt that is not too long is written and read: the hook lets
fewer names through than the receipt has lines for. -/
theorem rootReceiptReadsBack_iff (hinput : NeedsTargets input packages)
    (htoken : isValidTrustedAlpmReceiptToken token = true) :
    RootReceiptReadsBack token packages ↔
      input.length + installLabelBytes * packages.length + rootReceiptOverhead ≤
        receiptMaximumBytes := by
  have hlength := rootReceipt_length packages htoken
  have hlimit : receiptMaximumBytes = maximumProtocolBytes := rfl
  rw [← hinput.lines] at hlength
  rw [← hlength, hlimit]
  unfold RootReceiptReadsBack
  constructor
  · rintro ⟨protocol, hwritten, _⟩
    have htext := serializeRootReceipt_eq_ok_iff.mp hwritten
    have hsize := htext.2.2
    rwa [htext.2.1] at hsize
  · intro hsize
    have hwritten : serializeRootReceipt ⟨.complete, token, packages⟩ =
        .ok (terminated (byte '\n') (rootReceiptLines ⟨.complete, token, packages⟩)) :=
      serializeRootReceipt_eq_ok_iff.mpr ⟨receiptFits_of_names hinput htoken, rfl, hsize⟩
    have hcount : packages.length ≤ receiptReadablePackages := by
      have hset := hinput.names.count
      unfold receiptReadablePackages
      omega
    exact ⟨_, hwritten, parseRootReceipt_eq_ok_iff.mpr ⟨hwritten, hcount⟩⟩

/-- The bytes of the package records that an input makes: a line break ends
each of its names. -/
def packageRecordBytes (input : Bytes) : Nat :=
  input.length + installLabelBytes * input.count (byte '\n')

theorem packageRecordBytes_eq (hinput : NeedsTargets input packages) :
    packageRecordBytes input = input.length + installLabelBytes * packages.length := by
  have hcount : input.count (byte '\n') = packages.length := by
    rw [hinput.lines]
    exact count_terminated (no_newline_packages hinput.names)
  unfold packageRecordBytes
  rw [hcount]

/-- **Receipts read back**: when the hook accepts its input, the receipt of the
names is written and read back with the same token and names in the same order
exactly when the package records and the fixed records stay within the limit;
this holds for the machine receipt, for the root receipt and, with the larger
of the two overheads, for both. -/
theorem recordedNames_readBack_iff (input token : Bytes) (packages : List Bytes)
    (hinput : parseNeedsTargets input = .ok packages)
    (htoken : isValidTrustedAlpmReceiptToken token = true) :
    (MachineReceiptReadsBack token packages ↔
        packageRecordBytes input + machineReceiptOverhead ≤ receiptMaximumBytes) ∧
      (RootReceiptReadsBack token packages ↔
        packageRecordBytes input + rootReceiptOverhead ≤ receiptMaximumBytes) ∧
      (MachineReceiptReadsBack token packages ∧ RootReceiptReadsBack token packages ↔
        packageRecordBytes input + rootReceiptOverhead ≤ receiptMaximumBytes) := by
  have hnames := parseNeedsTargets_eq_ok_iff.mp hinput
  have hmachine := machineReceiptReadsBack_iff hnames htoken
  have hroot := rootReceiptReadsBack_iff hnames htoken
  rw [← packageRecordBytes_eq hnames] at hmachine hroot
  refine ⟨hmachine, hroot, ?_⟩
  rw [hmachine, hroot]
  constructor
  · intro h
    exact h.2
  · intro h
    unfold machineReceiptOverhead rootReceiptOverhead at *
    exact ⟨by omega, h⟩

/-- The token of the two closed runs below. -/
def zeroToken : Bytes := List.replicate 64 (byte '0')

theorem recordedNames_readBack_single :
    MachineReceiptReadsBack zeroToken [ascii "moguet"] ∧
      RootReceiptReadsBack zeroToken [ascii "moguet"] := by
  have hinput : parseNeedsTargets (ascii "moguet\n") = .ok [ascii "moguet"] := by
    decide +kernel
  have htoken : isValidTrustedAlpmReceiptToken zeroToken = true := by decide
  have hsize : packageRecordBytes (ascii "moguet\n") + rootReceiptOverhead ≤
      receiptMaximumBytes := by
    decide +kernel
  exact (recordedNames_readBack_iff _ zeroToken _ hinput htoken).2.2.mpr hsize

/-- A name as long as a name may be; the names differ in where `b` starts. -/
def crowdedName (index : Nat) : Bytes :=
  List.replicate index (byte 'a') ++ List.replicate (4096 - index) (byte 'b')

/-- As many such names as the input of a hook can hold. -/
def crowdedNames : List Bytes := (List.range 4095).map crowdedName

theorem crowdedName_length (h : index < 4095) : (crowdedName index).length = 4096 := by
  unfold crowdedName
  rw [List.length_append, List.length_replicate, List.length_replicate]
  omega

theorem crowdedName_count (index : Nat) : (crowdedName index).count (byte 'a') = index := by
  have hother : (byte 'b' == byte 'a') = false := by decide
  unfold crowdedName
  rw [List.count_append, List.count_replicate_self, List.count_replicate, hother]
  simp

theorem crowdedName_fits (h : index < 4095) : packageNameFits (crowdedName index) = true := by
  have hlength := crowdedName_length h
  have hbytes : ∀ b ∈ crowdedName index, b = byte 'a' ∨ b = byte 'b' := by
    intro b hb
    rcases List.mem_append.mp hb with hb | hb
    · exact Or.inl (List.eq_of_mem_replicate hb)
    · exact Or.inr (List.eq_of_mem_replicate hb)
  have hidentifier : ∀ b ∈ crowdedName index, isIdentifierByte b = true := by
    intro b hb
    rcases hbytes b hb with rfl | rfl
    · decide
    · decide
  have hhead : (crowdedName index).head? ≠ some (byte '-') := by
    intro hdash
    have hmem : byte '-' ∈ crowdedName index := List.mem_of_mem_head? hdash
    rcases hbytes _ hmem with hsame | hsame
    · exact absurd hsame (by decide)
    · exact absurd hsame (by decide)
  have hlong : ∀ other : Bytes, other.length < 4096 → crowdedName index ≠ other := by
    intro other hother hsame
    rw [hsame] at hlength
    omega
  unfold packageNameFits isValidTrustedAlpmReceiptPackageName receiptMaximumPackageNameBytes
  simp only [hlength, hhead, hlong [] (by decide), hlong (ascii ".") (by decide),
    hlong (ascii "..") (by decide), List.all_eq_true.mpr hidentifier, le_refl, ne_eq,
    not_false_eq_true, decide_true, Bool.and_self]

theorem crowdedNames_packageSet : PackageSet crowdedNames := by
  refine ⟨?_, ?_, ?_⟩
  · unfold crowdedNames trustedAlpmReceiptMaximumPackages
    rw [List.length_map, List.length_range]
    omega
  · intro packageName hname
    obtain ⟨index, hindex, rfl⟩ := List.mem_map.mp hname
    exact crowdedName_fits (List.mem_range.mp hindex)
  · refine List.Nodup.map ?_ List.nodup_range
    intro first second hsame
    rw [← crowdedName_count first, ← crowdedName_count second, hsame]

theorem crowdedNames_length : crowdedNames.length = 4095 := by
  unfold crowdedNames
  rw [List.length_map, List.length_range]

theorem crowdedInput_length : (terminated (byte '\n') crowdedNames).length = 4095 * 4097 := by
  have hlengths : (crowdedNames.map fun line => line.length + 1) = List.replicate 4095 4097 := by
    refine List.eq_replicate_iff.mpr ⟨?_, ?_⟩
    · rw [List.length_map, crowdedNames_length]
    · intro length hlength
      obtain ⟨packageName, hname, rfl⟩ := List.mem_map.mp hlength
      obtain ⟨index, hindex, rfl⟩ := List.mem_map.mp hname
      rw [crowdedName_length (List.mem_range.mp hindex)]
  rw [terminated_length, hlengths, List.sum_replicate]
  rfl

/-- The hook takes the names, but neither receipt of them is written. -/
theorem recordedNames_lost :
    parseNeedsTargets (terminated (byte '\n') crowdedNames) = .ok crowdedNames ∧
      isValidTrustedAlpmReceiptToken zeroToken = true ∧
      ¬ MachineReceiptReadsBack zeroToken crowdedNames ∧
      ¬ RootReceiptReadsBack zeroToken crowdedNames := by
  have hlength := crowdedInput_length
  have hcount := crowdedNames_length
  have htoken : isValidTrustedAlpmReceiptToken zeroToken = true := by decide
  have hfilled : crowdedNames ≠ [] := by
    intro hnil
    rw [hnil] at hcount
    cases hcount
  have hinput : NeedsTargets (terminated (byte '\n') crowdedNames) crowdedNames := by
    refine ⟨hfilled, crowdedNames_packageSet, rfl, ?_⟩
    rw [hlength]
    decide
  refine ⟨parseNeedsTargets_eq_ok_iff.mpr hinput, htoken, ?_, ?_⟩
  · rw [machineReceiptReadsBack_iff hinput htoken, hlength, hcount]
    decide
  · rw [rootReceiptReadsBack_iff hinput htoken, hlength, hcount]
    decide

end Moguet.Receipt.ReadBack
