import Moguet.Install.PreparedState

/-!
# One text for each prepared state

The helper that runs as root trusts the text of a prepared state, so the text
must have one reading and the state one spelling. No field of a valid request
has a separator in it, numbers are written without leading zeros, and the
records of the exact layout cannot be taken for the start of the state they
precede.
-/

namespace Moguet.Install.PreparedRoundTrip

open Verified ByteString Checked Decimal Fields Plan.Constraint Request PreparedState

variable {text value label packageBase protocol : Bytes} {legacy : Bool}
  {artifact : RootArtifactExpectation} {request : RootPrepareRequest} {lines : List Bytes}
  {fields : PreparedFields}

/-! ## Visible bytes -/

/-- No control byte and no blank, so no separator of the protocol. -/
def Visible (text : Bytes) : Prop := ∀ b ∈ text, 32 < b.toNat

theorem Visible.no_tab (h : Visible text) : byte '\t' ∉ text := by
  intro hmem
  have htab : (byte '\t').toNat = 9 := by decide
  have hvisible := h _ hmem
  omega

theorem Visible.no_newline (h : Visible text) : byte '\n' ∉ text := by
  intro hmem
  have hnewline : (byte '\n').toNat = 10 := by decide
  have hvisible := h _ hmem
  omega

theorem visible_of_lowerHex (h : text.all isLowerHex = true) : Visible text := by
  intro b hmem
  have hb := List.all_eq_true.mp h b hmem
  have hlow : (byte 'a').toNat = 97 := by decide
  simp only [isLowerHex, Bool.or_eq_true, Bool.and_eq_true, decide_eq_true_eq,
    isAsciiDigit_iff, UInt8.le_iff_toNat_le, hlow] at hb
  omega

theorem visible_of_identifier {text : Bytes} (h : ∀ b ∈ text, isIdentifierByte b = true) :
    Visible text := by
  intro b hmem
  have hb := h b hmem
  have hlower : (byte 'a').toNat = 97 := by decide
  have hupper : (byte 'A').toNat = 65 := by decide
  simp only [isIdentifierByte, isAsciiAlphanumeric, isAsciiLower, isAsciiUpper,
    Bool.or_eq_true, Bool.and_eq_true, decide_eq_true_eq, isAsciiDigit_iff,
    UInt8.le_iff_toNat_le, hlower, hupper] at hb
  rcases hb with ((((hb | rfl) | rfl) | rfl) | rfl) | rfl
  · omega
  · decide
  · decide
  · decide
  · decide
  · decide

theorem visible_writeUnsigned (value : Nat) : Visible (writeUnsigned value) := by
  intro b hmem
  have hb := (isAsciiDigit_iff b).mp (writeUnsigned_digit b hmem)
  omega

theorem visible_of_metadata {maximumBytes : Nat}
    (h : metadataValueIsValid value maximumBytes = true) : Visible value := by
  simp only [metadataValueIsValid, Bool.and_eq_true, List.all_eq_true] at h
  intro b hmem
  have hb := h.2 b hmem
  simp only [isMetadataByte, Bool.and_eq_true, decide_eq_true_eq, UInt8.lt_iff_toNat_lt] at hb
  exact hb.1

theorem visible_dash : Visible (ascii "-") := by
  unfold Visible
  decide

theorem visible_of_sha256 {digest : Bytes}
    (h : isValidSourceArtifactInstallSha256 digest = true) : Visible digest := by
  simp only [isValidSourceArtifactInstallSha256, Bool.and_eq_true] at h
  exact visible_of_lowerHex h.2

theorem visible_of_token {token : Bytes} (h : isValidTrustedAlpmReceiptToken token = true) :
    Visible token := by
  simp only [isValidTrustedAlpmReceiptToken, Bool.and_eq_true] at h
  exact visible_of_lowerHex h.2

theorem visible_of_packageName {name : Bytes} (h : isValidPackageName name = true) : Visible name :=
  visible_of_identifier (isValidPackageName_bytes h).2

/-! ## Records -/

theorem recordValue_append (label value : Bytes) :
    recordValue label (label ++ value) = some value := by
  unfold recordValue
  rw [if_pos (isPrefixOf_append label value), List.drop_left]

theorem recordValue_eq_some {record : Bytes} (h : recordValue label record = some value) :
    record = label ++ value := by
  unfold recordValue at h
  split at h
  · rename_i hlabel
    injection h with h
    obtain ⟨rest, hrest⟩ := List.isPrefixOf_iff_prefix.mp hlabel
    rw [← hrest, List.drop_left] at h
    rw [← hrest, h]
  · cases h

theorem parseBoolean_serialize (value : Bool) :
    parseBoolean (serializeBoolean value) = some value := by
  cases value with
  | false => decide
  | true => decide

theorem parseBoolean_eq_some {value : Bool} (h : parseBoolean text = some value) :
    serializeBoolean value = text := by
  unfold parseBoolean at h
  split at h
  · rename_i htext
    injection h with h
    rw [← h, htext]
    rfl
  · split at h
    · rename_i htext
      injection h with h
      rw [← h, htext]
      rfl
    · cases h

theorem parseDirective_serialize (directive : TrustedDirective) :
    parseDirective (serializeDirective directive) = some directive := by
  cases directive with
  | preserveExistingReason => decide
  | asDependency => decide
  | asExplicit => decide

theorem parseDirective_eq_some {directive : TrustedDirective}
    (h : parseDirective text = some directive) : serializeDirective directive = text := by
  unfold parseDirective at h
  split at h
  · rename_i htext
    injection h with h
    rw [← h, htext]
    rfl
  · split at h
    · rename_i htext
      injection h with h
      rw [← h, htext]
      rfl
    · split at h
      · rename_i htext
        injection h with h
        rw [← h, htext]
        rfl
      · cases h

/-! ## Artifacts -/

/-- What the check of an artifact says about its fields. -/
theorem artifactIsValid_visible (h : artifactIsValid artifact packageBase legacy = true) :
    ∀ field ∈ artifactFields artifact, Visible field := by
  simp only [artifactIsValid, Bool.and_eq_true] at h
  obtain ⟨⟨⟨⟨⟨⟨⟨⟨⟨_, hname⟩, _⟩, hversion⟩, horigin⟩, _⟩, _⟩, _⟩, harchive⟩, hsignature⟩ := h
  have hbase : Visible artifact.packageBase ∧ Visible artifact.architecture := by
    unfold artifactOriginIsValid at horigin
    split at horigin
    · simp only [Bool.and_eq_true, decide_eq_true_eq] at horigin
      rw [horigin.1, horigin.2]
      exact ⟨visible_dash, visible_dash⟩
    · simp only [Bool.and_eq_true] at horigin
      exact ⟨visible_of_packageName horigin.1.1, visible_of_metadata horigin.2⟩
  have hsigned : Visible artifact.signatureSha256 := by
    unfold artifactSignatureIsValid at hsignature
    split at hsignature
    · simp only [Bool.or_eq_true, Bool.and_eq_true, decide_eq_true_eq] at hsignature
      rcases hsignature with hsignature | ⟨_, hsignature⟩
      · rw [hsignature]
        exact visible_dash
      · rw [hsignature]
        exact visible_of_lowerHex (by decide)
    · exact visible_of_sha256 hsignature
  intro field hmem
  simp only [artifactFields, List.mem_cons, List.not_mem_nil, or_false] at hmem
  rcases hmem with rfl | rfl | rfl | rfl | rfl | rfl | rfl | rfl | rfl
  · exact visible_writeUnsigned _
  · exact visible_of_packageName hname
  · exact visible_of_metadata hversion
  · exact hbase.1
  · exact hbase.2
  · exact visible_writeUnsigned _
  · exact visible_writeUnsigned _
  · exact visible_of_sha256 harchive
  · exact hsigned

theorem artifactIsValid_digests (h : artifactIsValid artifact packageBase legacy = true) :
    artifactDigestsAreValid artifact.archiveSha256 artifact.signatureSha256 = true := by
  simp only [artifactIsValid, Bool.and_eq_true] at h
  obtain ⟨⟨_, harchive⟩, hsignature⟩ := h
  unfold artifactDigestsAreValid
  rw [harchive, Bool.true_and, Bool.or_eq_true, decide_eq_true_eq]
  unfold artifactSignatureIsValid at hsignature
  split at hsignature
  · simp only [Bool.or_eq_true, Bool.and_eq_true, decide_eq_true_eq] at hsignature
    rcases hsignature with hsignature | ⟨_, hsignature⟩
    · exact Or.inl hsignature
    · rw [hsignature]
      exact Or.inr (by decide)
  · exact Or.inr hsignature

theorem artifactIsValid_bounds (h : artifactIsValid artifact packageBase legacy = true) :
    artifact.artifactIndex < 2 ^ 64 ∧ artifact.artifactSize < 2 ^ 64 ∧
      artifact.signatureSize < 2 ^ 64 := by
  simp only [artifactIsValid, Bool.and_eq_true, decide_eq_true_eq] at h
  obtain ⟨⟨⟨⟨⟨⟨⟨⟨⟨hindex, _⟩, _⟩, _⟩, _⟩, _⟩, hsize⟩, hsignature⟩, _⟩, _⟩ := h
  unfold maximumArtifacts at hindex
  unfold maximumArtifactBytes at hsize
  unfold maximumSignatureBytes at hsignature
  omega

theorem parseArtifactFields_artifactFields (hmtree : artifact.rawMtreeSha256 = ascii "-")
    (h : artifactIsValid artifact packageBase legacy = true) :
    parseArtifactFields (artifactFields artifact) packageBase legacy = some artifact := by
  obtain ⟨hindex, hsize, hsignature⟩ := artifactIsValid_bounds h
  have hreadIndex := parseCanonicalUnsigned_eq_some_iff.mpr ⟨rfl, hindex⟩
  have hreadSize := parseCanonicalUnsigned_eq_some_iff.mpr ⟨rfl, hsize⟩
  have hreadSignature := parseCanonicalUnsigned_eq_some_iff.mpr ⟨rfl, hsignature⟩
  have hsame : { artifact with rawMtreeSha256 := ascii "-" } = artifact := by
    rw [← hmtree]
  dsimp only [parseArtifactFields, artifactFields]
  rw [hreadIndex, hreadSize, hreadSignature]
  show (guard (artifactIsValid { artifact with rawMtreeSha256 := ascii "-" } packageBase
    legacy = true) >>= fun _ => some { artifact with rawMtreeSha256 := ascii "-" }) = _
  rw [hsame, h]
  rfl

theorem parseArtifactFields_eq_some {fields : List Bytes} (hlength : fields.length = 9)
    (h : parseArtifactFields fields packageBase legacy = some artifact) :
    artifactFields artifact = fields ∧ artifact.rawMtreeSha256 = ascii "-" := by
  unfold parseArtifactFields at h
  split at h
  · rename_i rest
    have hrest : rest = [] := by
      rw [← List.length_eq_zero_iff]
      simpa using hlength
    simp only [Option.bind_eq_bind, Option.bind_eq_some_iff] at h
    obtain ⟨index, hindex, size, hsize, signatureSize, hsignature, _, _, h⟩ := h
    injection h with h
    have hindexText := (parseCanonicalUnsigned_eq_some_iff.mp hindex).1
    have hsizeText := (parseCanonicalUnsigned_eq_some_iff.mp hsize).1
    have hsignatureText := (parseCanonicalUnsigned_eq_some_iff.mp hsignature).1
    rw [← h, hrest, hindexText, hsizeText, hsignatureText]
    exact ⟨rfl, rfl⟩
  · cases h

theorem parseArtifactRecord_artifactRecord (hmtree : artifact.rawMtreeSha256 = ascii "-")
    (h : artifactIsValid artifact packageBase legacy = true) :
    parseArtifactRecord packageBase legacy (artifactRecord artifact) = .ok artifact := by
  have hsplit : splitTabs (artifactRecord artifact) =
      ascii "ARTIFACT" :: artifactFields artifact := by
    refine List.splitOn_intercalate _ ?_ (List.cons_ne_nil _ _)
    intro field hmem
    rcases List.mem_cons.mp hmem with rfl | hmem
    · decide
    · exact (artifactIsValid_visible h field hmem).no_tab
  have hdigests := artifactIsValid_digests h
  have hfields := parseArtifactFields_artifactFields hmtree h
  unfold parseArtifactRecord
  rw [hsplit]
  dsimp only [artifactFields] at hfields ⊢
  rw [hdigests, hfields]
  rfl

theorem parseArtifactRecord_eq_ok {line : Bytes}
    (h : parseArtifactRecord packageBase legacy line = .ok artifact) :
    artifactRecord artifact = line ∧ artifact.rawMtreeSha256 = ascii "-" := by
  unfold parseArtifactRecord at h
  split at h
  · rename_i tag index packageName fullVersion base architecture size signatureSize
      archiveSha256 signatureSha256 hsplit
    split at h
    · cases h
    · rename_i htag
      split at h
      · cases h
      · split at h
        · cases h
        · rename_i parsed hparsed
          injection h with h
          rw [h] at hparsed
          obtain ⟨hfields, hmtree⟩ := parseArtifactFields_eq_some rfl hparsed
          refine ⟨?_, hmtree⟩
          have htext : [byte '\t'].intercalate (line.splitOn (byte '\t')) = line :=
            List.intercalate_splitOn (byte '\t')
          unfold splitTabs at hsplit
          rw [hsplit] at htext
          rw [← htext]
          unfold artifactRecord joinTabs
          rw [hfields, not_not.mp htag]
  · cases h

/-! ## Requests -/

/-- What the reader and the writer need of the checks of a request. -/
structure Checked (request : RootPrepareRequest) : Prop where
  token : isValidTrustedAlpmReceiptToken request.transactionToken = true
  base : isValidPackageName request.packageBase = true
  artifacts_ne : request.artifacts ≠ []
  artifacts_length : request.artifacts.length ≤ maximumArtifacts
  mtree : ∀ artifact ∈ request.artifacts, mtreeIsValid request.purpose artifact = true
  artifact : ∀ artifact ∈ request.artifacts,
    artifactIsValid artifact request.packageBase
      (request.purpose = .legacyArtifactInstall) = true

theorem checkArtifact_some {totals after : RequestTotals}
    (h : checkArtifact request totals artifact = some after) :
    mtreeIsValid request.purpose artifact = true ∧ artifactIsValid artifact request.packageBase
        (request.purpose = .legacyArtifactInstall) = true := by
  simp only [checkArtifact, Option.bind_eq_bind, Option.bind_eq_some_iff] at h
  obtain ⟨_, hmtree, _, hartifact, _⟩ := h
  exact ⟨by simpa using hmtree, by simpa using hartifact⟩

theorem isValidRootRequest_checked (h : isValidRootRequest request = true) : Checked request := by
  simp only [isValidRootRequest, Bool.and_eq_true, decide_eq_true_eq] at h
  obtain ⟨⟨⟨⟨⟨htoken, hbase⟩, hne⟩, hlength⟩, _⟩, hloop⟩ := h
  obtain ⟨totals, htotals⟩ := Option.isSome_iff_exists.mp hloop
  have hsteps := foldlM_some_mem htotals
  refine ⟨htoken, hbase, by simpa using hne, hlength, ?_, ?_⟩
  · intro artifact hmem
    obtain ⟨before, after, hstep⟩ := hsteps artifact hmem
    exact (checkArtifact_some hstep).1
  · intro artifact hmem
    obtain ⟨before, after, hstep⟩ := hsteps artifact hmem
    exact (checkArtifact_some hstep).2

theorem Checked.dash (h : Checked request) (hpurpose : request.purpose ≠ .exactInstalledBinding) :
    ∀ artifact ∈ request.artifacts, artifact.rawMtreeSha256 = ascii "-" := by
  intro artifact hmem
  have hmtree := h.mtree artifact hmem
  rw [mtreeIsValid, if_neg hpurpose] at hmtree
  exact of_decide_eq_true hmtree

/-! ## Lines -/

theorem no_newline_of_label (hlabel : byte '\n' ∉ label) (hvalue : Visible value) :
    byte '\n' ∉ label ++ value := by
  intro hmem
  rcases List.mem_append.mp hmem with hmem | hmem
  · exact hlabel hmem
  · exact hvalue.no_newline hmem

theorem visible_serializeDirective (directive : TrustedDirective) :
    Visible (serializeDirective directive) := by
  unfold Visible
  cases directive with
  | preserveExistingReason => decide
  | asDependency => decide
  | asExplicit => decide

theorem visible_serializeBoolean (value : Bool) : Visible (serializeBoolean value) := by
  unfold Visible
  cases value with
  | false => decide
  | true => decide

theorem no_newline_joinTabs : ∀ {fields : List Bytes}, (∀ field ∈ fields, Visible field) →
      byte '\n' ∉ joinTabs fields := by
  intro fields
  induction fields with
  | nil => intro _; decide
  | cons field fields ih =>
    intro h hmem
    have hfield := (h field List.mem_cons_self).no_newline
    have hrest := ih fun other hother => h other (List.mem_cons_of_mem _ hother)
    cases fields with
    | nil =>
      rw [joinTabs, List.intercalate_singleton] at hmem
      exact hfield hmem
    | cons other fields =>
      rw [joinTabs, List.intercalate_cons_cons, List.mem_append, List.mem_append] at hmem
      rcases hmem with (hmem | hmem) | hmem
      · exact hfield hmem
      · exact absurd hmem (by decide)
      · exact hrest hmem

theorem artifactRecord_no_newline (h : artifactIsValid artifact packageBase legacy = true) :
    byte '\n' ∉ artifactRecord artifact := by
  apply no_newline_joinTabs
  intro field hmem
  rcases List.mem_cons.mp hmem with rfl | hmem
  · unfold Visible
    decide
  · exact artifactIsValid_visible h field hmem

theorem Checked.no_newline (h : Checked request) :
    ∀ line ∈ preparedLines request, byte '\n' ∉ line := by
  intro line hmem
  rcases List.mem_append.mp hmem with hmem | hmem
  · simp only [List.mem_cons, List.not_mem_nil, or_false] at hmem
    rcases hmem with rfl | rfl | rfl | rfl | rfl | rfl | rfl
    · split
      · decide
      · decide
    · exact no_newline_of_label (by decide) (visible_of_token h.token)
    · decide
    · exact no_newline_of_label (by decide) (visible_of_packageName h.base)
    · exact no_newline_of_label (by decide) (visible_serializeDirective _)
    · exact no_newline_of_label (by decide) (visible_serializeBoolean _)
    · exact no_newline_of_label (by decide) (visible_serializeBoolean _)
  · rcases List.mem_append.mp hmem with hmem | hmem
    · obtain ⟨artifact, hartifact, rfl⟩ := List.mem_map.mp hmem
      exact artifactRecord_no_newline (h.artifact artifact hartifact)
    · rw [List.mem_singleton] at hmem
      rw [hmem]
      decide

theorem splitProtocolLines_terminated (hne : lines ≠ []) (hclean : ∀ line ∈ lines, byte '\n' ∉ line)
    (hcount : lines.length ≤ trustedAlpmReceiptMaximumPackages + 16)
    (hsize : (terminated (byte '\n') lines).length ≤ maximumProtocolBytes) :
    splitProtocolLines (terminated (byte '\n') lines) = .ok lines :=
  message_terminated hne hclean hcount hsize

theorem splitProtocolLines_ok (h : splitProtocolLines protocol = .ok lines) :
    protocol = terminated (byte '\n') lines ∧ protocol.length ≤ maximumProtocolBytes ∧
      lines.length ≤ trustedAlpmReceiptMaximumPackages + 16 :=
  message_ok h

/-! ## The cleanup and legacy layouts -/

theorem parsePreparedFields_write (h : Checked request) :
    parsePreparedFields (tokenLabel ++ request.transactionToken) (ownerLabel ++ owner)
      (packageBaseLabel ++ request.packageBase)
      (directiveLabel ++ serializeDirective request.directive)
      (neededLabel ++ serializeBoolean request.needed)
      (noConfirmLabel ++ serializeBoolean request.noConfirm) =
    some ⟨request.transactionToken, request.packageBase, request.directive, request.needed,
      request.noConfirm⟩ := by
  simp [parsePreparedFields, recordValue_append, h.token, h.base, parseDirective_serialize,
    parseBoolean_serialize]

/-- The lines that the fields of a layout were read from. -/
theorem parsePreparedFields_eq_some
    {tokenLine ownerLine packageBaseLine directiveLine neededLine noConfirmLine : Bytes}
    (h : parsePreparedFields tokenLine ownerLine packageBaseLine directiveLine neededLine
      noConfirmLine = some fields) :
    tokenLine = tokenLabel ++ fields.transactionToken ∧ ownerLine = ownerLabel ++ owner ∧
      packageBaseLine = packageBaseLabel ++ fields.packageBase ∧
      directiveLine = directiveLabel ++ serializeDirective fields.directive ∧
      neededLine = neededLabel ++ serializeBoolean fields.needed ∧
      noConfirmLine = noConfirmLabel ++ serializeBoolean fields.noConfirm := by
  simp only [parsePreparedFields, Option.bind_eq_bind, Option.bind_eq_some_iff] at h
  obtain ⟨token, htoken, _, _, ownerValue, howner, _, hsame, base, hbase, _, _, directiveText,
    hdirectiveText, neededText, hneededText, noConfirmText, hnoConfirmText, directive,
    hdirective, needed, hneeded, noConfirm, hnoConfirm, h⟩ := h
  injection h with h
  have hownerValue : ownerValue = owner := by simpa using hsame
  rw [hownerValue] at howner
  rw [← h]
  refine ⟨recordValue_eq_some htoken, recordValue_eq_some howner, recordValue_eq_some hbase,
    ?_, ?_, ?_⟩
  · rw [parseDirective_eq_some hdirective]
    exact recordValue_eq_some hdirectiveText
  · rw [parseBoolean_eq_some hneeded]
    exact recordValue_eq_some hneededText
  · rw [parseBoolean_eq_some hnoConfirm]
    exact recordValue_eq_some hnoConfirmText

theorem parsePreparedRecords_write (h : Checked request)
    (hvalid : isValidRootRequest request = true)
    (hpurpose : request.purpose ≠ .exactInstalledBinding) :
    parsePreparedRecords (request.purpose = .legacyArtifactInstall)
      ⟨request.transactionToken, request.packageBase, request.directive, request.needed,
        request.noConfirm⟩ (request.artifacts.map artifactRecord ++ [endRecord]) =
      .ok request := by
  have hread : (request.artifacts.map artifactRecord).mapM (parseArtifactRecord request.packageBase
        (request.purpose = .legacyArtifactInstall)) = .ok request.artifacts := by
    apply mapM_map_ok
    intro artifact hmem
    exact parseArtifactRecord_artifactRecord (h.dash hpurpose artifact hmem)
      (h.artifact artifact hmem)
  have hkind : (if decide (request.purpose = .legacyArtifactInstall) = true then
      TrustedPurpose.legacyArtifactInstall else .cleanupInstallOnly) = request.purpose := by
    cases hcase : request.purpose with
    | cleanupInstallOnly => rfl
    | exactInstalledBinding => exact absurd hcase hpurpose
    | legacyArtifactInstall => rfl
  unfold parsePreparedRecords
  rw [List.dropLast_concat, bind_of_ok hread, hkind]
  unfold requireValidRootRequest
  rw [if_pos hvalid]

theorem parsePreparedLines_write (h : Checked request) (hvalid : isValidRootRequest request = true)
    (hpurpose : request.purpose ≠ .exactInstalledBinding) :
    parsePreparedLines (preparedLines request) = .ok request := by
  have hfields := parsePreparedFields_write h
  have hrecords := parsePreparedRecords_write h hvalid hpurpose
  have hlast : (request.artifacts.map artifactRecord ++ [endRecord]).getLast? =
      some endRecord := List.getLast?_concat
  -- At least one artifact, so the rest has the two lines the reader asks for.
  obtain ⟨first, second, others, hrest⟩ : ∃ first second others,
      request.artifacts.map artifactRecord ++ [endRecord] = first :: second :: others := by
    cases hartifacts : request.artifacts with
    | nil => exact absurd hartifacts h.artifacts_ne
    | cons artifact artifacts =>
      cases artifacts with
      | nil => exact ⟨_, _, _, rfl⟩
      | cons other artifacts => exact ⟨_, _, _, rfl⟩
  unfold preparedLines
  rw [hrest] at hlast hrecords ⊢
  dsimp only [List.cons_append, List.nil_append, parsePreparedLines]
  by_cases hlegacy : request.purpose = .legacyArtifactInstall
  · have haccepted : ¬ ((legacyPreparedHeader ≠ preparedHeader ∧
        legacyPreparedHeader ≠ legacyPreparedHeader) ∨
        (first :: second :: others).getLast? ≠ some endRecord) := by
      rw [hlast]
      decide
    simp only [hlegacy, if_true] at hrecords ⊢
    rw [if_neg haccepted, hfields]
    exact hrecords
  · have haccepted : ¬ ((preparedHeader ≠ preparedHeader ∧ preparedHeader ≠ legacyPreparedHeader) ∨
        (first :: second :: others).getLast? ≠ some endRecord) := by
      rw [hlast]
      decide
    have hheader : decide (preparedHeader = legacyPreparedHeader) = false := by decide
    simp only [hlegacy, if_false, decide_false] at hrecords ⊢
    rw [if_neg haccepted, hfields, hheader]
    exact hrecords

theorem requireValidRootRequest_ok {accepted : RootPrepareRequest}
    (h : requireValidRootRequest request = .ok accepted) :
    isValidRootRequest accepted = true ∧ request = accepted := by
  unfold requireValidRootRequest at h
  split at h
  · rename_i hvalid
    injection h with h
    rw [← h]
    exact ⟨hvalid, rfl⟩
  · cases h

theorem parsePreparedRecords_ok {rest : List Bytes}
    (h : parsePreparedRecords legacy fields rest = .ok request) :
    isValidRootRequest request = true ∧ request.artifacts.map artifactRecord = rest.dropLast ∧
      request.purpose = (if legacy then .legacyArtifactInstall else .cleanupInstallOnly) ∧
      fields = ⟨request.transactionToken, request.packageBase, request.directive,
        request.needed, request.noConfirm⟩ := by
  unfold parsePreparedRecords at h
  rw [bind_eq_ok] at h
  obtain ⟨artifacts, hartifacts, h⟩ := h
  obtain ⟨hvalid, hsame⟩ := requireValidRootRequest_ok h
  have hwritten : artifacts.map artifactRecord = rest.dropLast :=
    map_of_mapM_ok (fun text item hread => (parseArtifactRecord_eq_ok hread).1) hartifacts
  rw [← hsame] at hvalid ⊢
  exact ⟨hvalid, hwritten, rfl, rfl⟩

theorem parsePreparedLines_ok (h : parsePreparedLines lines = .ok request) :
    isValidRootRequest request = true ∧ preparedLines request = lines ∧
      request.purpose ≠ .exactInstalledBinding := by
  unfold parsePreparedLines at h
  split at h
  · rename_i header tokenLine ownerLine packageBaseLine directiveLine neededLine
      noConfirmLine first second others
    dsimp only at h
    split at h
    · cases h
    · rename_i haccepted
      split at h
      · cases h
      · rename_i fields hfields
        obtain ⟨hvalid, hartifacts, hpurpose, hsame⟩ := parsePreparedRecords_ok h
        obtain ⟨htoken, howner, hbase, hdirective, hneeded, hnoConfirm⟩ :=
          parsePreparedFields_eq_some hfields
        rw [hsame] at htoken hbase hdirective hneeded hnoConfirm
        simp only [not_or, not_and, not_not] at haccepted
        have hrest : (first :: second :: others).dropLast ++ [endRecord] =
            first :: second :: others :=
          List.dropLast_append_getLast? endRecord haccepted.2
        refine ⟨hvalid, ?_, ?_⟩
        · unfold preparedLines
          rw [hartifacts, hrest, ← htoken, ← howner, ← hbase, ← hdirective, ← hneeded, ← hnoConfirm]
          by_cases hlegacy : header = legacyPreparedHeader
          · simp [hpurpose, hlegacy]
          · have hheader : header = preparedHeader := by
              by_contra hother
              exact hlegacy (haccepted.1 hother)
            simp [hpurpose, hheader]
            decide
        · rw [hpurpose]
          split
          · decide
          · decide
  · cases h

theorem preparedLines_length (request : RootPrepareRequest) :
    (preparedLines request).length = request.artifacts.length + 8 := by
  simp [preparedLines]

/-- The writer and the reader of the two plain layouts. -/
theorem serializePlainPreparedState_iff_parse (request : RootPrepareRequest) (protocol : Bytes) :
    (request.purpose ≠ .exactInstalledBinding ∧
      serializePlainPreparedState request = .ok protocol) ↔
    parsePlainPreparedState protocol = .ok request := by
  constructor
  · rintro ⟨hpurpose, h⟩
    unfold serializePlainPreparedState at h
    split at h
    · rename_i hvalid
      dsimp only at h
      split at h
      · cases h
      · rename_i hsize
        injection h with h
        have hchecked := isValidRootRequest_checked hvalid
        have hne : preparedLines request ≠ [] := by
          unfold preparedLines
          exact List.cons_ne_nil _ _
        have hcount : (preparedLines request).length ≤ trustedAlpmReceiptMaximumPackages + 16 := by
          have hlength := hchecked.artifacts_length
          rw [preparedLines_length]
          unfold maximumArtifacts at hlength
          unfold trustedAlpmReceiptMaximumPackages
          omega
        have hlines := splitProtocolLines_terminated hne hchecked.no_newline hcount
          (Nat.not_lt.mp hsize)
        unfold parsePlainPreparedState
        rw [← h, bind_of_ok hlines]
        exact parsePreparedLines_write hchecked hvalid hpurpose
    · cases h
  · intro h
    unfold parsePlainPreparedState at h
    rw [bind_eq_ok] at h
    obtain ⟨lines, hlines, h⟩ := h
    obtain ⟨hprotocol, hsize, -⟩ := splitProtocolLines_ok hlines
    obtain ⟨hvalid, hwritten, hpurpose⟩ := parsePreparedLines_ok h
    refine ⟨hpurpose, ?_⟩
    unfold serializePlainPreparedState
    rw [if_pos hvalid, hwritten, ← hprotocol]
    exact if_neg (Nat.not_lt.mpr hsize)

/-! ## The exact layout -/

theorem mtreeRecord_no_newline
    (h : isValidSourceArtifactInstallSha256 artifact.rawMtreeSha256 = true) :
    byte '\n' ∉ mtreeRecord artifact := by
  refine no_newline_of_label ?_ (visible_of_sha256 h)
  intro hmem
  unfold mtreeLabel at hmem
  rcases List.mem_append.mp hmem with hmem | hmem
  · rcases List.mem_append.mp hmem with hmem | hmem
    · exact absurd hmem (by decide)
    · exact (visible_writeUnsigned _).no_newline hmem
  · exact absurd hmem (by decide)

/-- No file-list record has the second byte of the enclosed header. -/
theorem mtreeRecord_no_header
    (h : isValidSourceArtifactInstallSha256 artifact.rawMtreeSha256 = true) :
    byte 'O' ∉ mtreeRecord artifact := by
  have hletter : (byte 'O').toNat = 79 := by decide
  intro hmem
  unfold mtreeRecord mtreeLabel at hmem
  rcases List.mem_append.mp hmem with hmem | hmem
  · rcases List.mem_append.mp hmem with hmem | hmem
    · rcases List.mem_append.mp hmem with hmem | hmem
      · exact absurd hmem (by decide)
      · have hdigit := (isAsciiDigit_iff _).mp (writeUnsigned_digit _ hmem)
        omega
    · exact absurd hmem (by decide)
  · simp only [isValidSourceArtifactInstallSha256, Bool.and_eq_true, List.all_eq_true] at h
    exact absurd (h.2 _ hmem) (by decide)

theorem mtreeRecords_no_header {artifacts : List RootArtifactExpectation}
    (h : ∀ artifact ∈ artifacts,
      isValidSourceArtifactInstallSha256 artifact.rawMtreeSha256 = true) :
    byte 'O' ∉ terminated (byte '\n') (artifacts.map mtreeRecord) := by
  intro hmem
  obtain ⟨line, hline, hmem⟩ := List.mem_flatMap.mp hmem
  obtain ⟨artifact, hartifact, rfl⟩ := List.mem_map.mp hline
  rcases List.mem_append.mp hmem with hmem | hmem
  · exact mtreeRecord_no_header (h artifact hartifact) hmem
  · exact absurd hmem (by decide)

theorem mtreeRecords_getLast? (artifacts : List RootArtifactExpectation) :
    (terminated (byte '\n') (artifacts.map mtreeRecord)).getLast? ≠ some (byte 'M') := by
  cases artifacts with
  | nil => simp
  | cons artifact artifacts =>
    rw [List.map_cons, getLast?_terminated (List.cons_ne_nil _ _)]
    decide

theorem readMtreeRecords_write : ∀ {artifacts : List RootArtifactExpectation},
      (∀ artifact ∈ artifacts, isValidSourceArtifactInstallSha256 artifact.rawMtreeSha256 = true) →
      readMtreeRecords (artifacts.map fun artifact =>
          { artifact with rawMtreeSha256 := ascii "-" })
        (terminated (byte '\n') (artifacts.map mtreeRecord)) = .ok artifacts := by
  intro artifacts
  induction artifacts with
  | nil => intro _; rfl
  | cons artifact artifacts ih =>
    intro h
    have hdigest := h artifact List.mem_cons_self
    have htake := takeField_append (mtreeRecord_no_newline hdigest)
      (terminated (byte '\n') (artifacts.map mtreeRecord))
    have hrest := ih fun other hmem => h other (List.mem_cons_of_mem _ hmem)
    have hvalue : recordValue (mtreeLabel { artifact with rawMtreeSha256 := ascii "-" })
        (mtreeRecord artifact) = some artifact.rawMtreeSha256 :=
      recordValue_append (mtreeLabel artifact) artifact.rawMtreeSha256
    rw [List.map_cons, List.map_cons, terminated_cons]
    dsimp only [readMtreeRecords]
    rw [htake]
    dsimp only
    rw [hvalue]
    dsimp only
    rw [if_pos hdigest, bind_of_ok hrest]

/-- The enclosed state starts with the header of its layout. -/
theorem serializePlainPreparedState_cleanup (hpurpose : request.purpose = .cleanupInstallOnly)
    (h : serializePlainPreparedState request = .ok protocol) :
    ∃ rest, protocol = preparedHeader ++ rest := by
  unfold serializePlainPreparedState at h
  split at h
  · dsimp only at h
    split at h
    · cases h
    · injection h with h
      rw [← h]
      unfold preparedLines
      rw [hpurpose, List.cons_append, terminated_cons]
      exact ⟨_, rfl⟩
  · cases h

theorem parseExactPreparedState_write (hpurpose : request.purpose = .exactInstalledBinding)
    (h : serializeExactPreparedState request = .ok protocol) :
    exactPreparedOpening.isPrefixOf protocol = true ∧
      parseExactPreparedState protocol = .ok request := by
  have hall : serializeRootPreparedState request = .ok protocol := by
    unfold serializeRootPreparedState
    rw [if_pos hpurpose]
    exact h
  unfold serializeExactPreparedState at h
  split at h
  · rename_i hvalid
    rw [bind_eq_ok] at h
    obtain ⟨enclosed, henclosed, h⟩ := h
    dsimp only at h
    split at h
    · cases h
    · rename_i hsize
      injection h with h
      have hdigests : ∀ artifact ∈ request.artifacts,
          isValidSourceArtifactInstallSha256 artifact.rawMtreeSha256 = true := by
        intro artifact hmem
        have hmtree := (isValidRootRequest_checked hvalid).mtree artifact hmem
        rw [mtreeIsValid, if_pos hpurpose] at hmtree
        exact hmtree
      obtain ⟨rest, hrest⟩ := serializePlainPreparedState_cleanup rfl henclosed
      have hprojection : parsePlainPreparedState enclosed = .ok (cleanupProjection request) :=
        (serializePlainPreparedState_iff_parse _ _).mp ⟨TrustedPurpose.noConfusion, henclosed⟩
      have hrecords : readMtreeRecords (cleanupProjection request).artifacts
          (terminated (byte '\n') (request.artifacts.map mtreeRecord)) =
          .ok request.artifacts := readMtreeRecords_write hdigests
      have hfound : splitAtText preparedHeader
          (terminated (byte '\n') (request.artifacts.map mtreeRecord) ++ enclosed) =
          some (terminated (byte '\n') (request.artifacts.map mtreeRecord), rest) := by
        rw [hrest]
        exact splitAtText_append rest (mtreeRecords_no_header hdigests)
          (mtreeRecords_getLast? request.artifacts)
      have hrequest : (⟨request.transactionToken, request.packageBase, request.directive,
          request.needed, request.noConfirm, request.artifacts, .exactInstalledBinding⟩ :
          RootPrepareRequest) = request := by
        rw [← hpurpose]
      have hagain : requireWrittenAs protocol request = .ok request := by
        rw [requireWrittenAs, bind_of_ok hall]
        exact if_neg (not_not.mpr rfl)
      refine ⟨?_, ?_⟩
      · rw [← h]
        exact isPrefixOf_append _ _
      · unfold parseExactPreparedState
        rw [h] at hsize
        have hdrop : protocol.drop exactPreparedOpening.length =
            terminated (byte '\n') (request.artifacts.map mtreeRecord) ++ enclosed := by
          rw [← h, List.drop_left]
        rw [if_neg hsize, hdrop, hfound]
        dsimp only
        rw [← hrest, bind_of_ok hprojection, bind_of_ok hrecords]
        dsimp only [cleanupProjection]
        rw [hrequest]
        exact hagain
  · cases h

theorem parseExactPreparedState_ok (h : parseExactPreparedState protocol = .ok request) :
    serializeRootPreparedState request = .ok protocol := by
  unfold parseExactPreparedState at h
  split at h
  · cases h
  · split at h
    · cases h
    · rw [bind_eq_ok] at h
      obtain ⟨projection, _, h⟩ := h
      rw [bind_eq_ok] at h
      obtain ⟨artifacts, _, h⟩ := h
      rw [requireWrittenAs, bind_eq_ok] at h
      obtain ⟨written, hwritten, h⟩ := h
      split at h
      · cases h
      · rename_i hsame
        injection h with h
        rw [← h, ← not_not.mp hsame]
        exact hwritten

/-- A plain state does not start like an exact one. -/
theorem serializePlainPreparedState_not_exact
    (h : serializePlainPreparedState request = .ok protocol) :
    exactPreparedOpening.isPrefixOf protocol = false := by
  unfold serializePlainPreparedState at h
  split at h
  · dsimp only at h
    split at h
    · cases h
    · injection h with h
      rw [← h]
      unfold preparedLines
      rw [List.cons_append, terminated_cons]
      split
      · rfl
      · rfl
  · cases h

/-- The writer and the reader of prepared states are inverse to each other. -/
theorem serializeRootPreparedState_iff_parse (request : RootPrepareRequest)
    (protocol : Bytes) :
    serializeRootPreparedState request = .ok protocol ↔
      parseRootPreparedState protocol = .ok request := by
  constructor
  · intro h
    by_cases hpurpose : request.purpose = .exactInstalledBinding
    · rw [serializeRootPreparedState, if_pos hpurpose] at h
      obtain ⟨hopening, hparse⟩ := parseExactPreparedState_write hpurpose h
      rw [parseRootPreparedState, if_pos hopening]
      exact hparse
    · rw [serializeRootPreparedState, if_neg hpurpose] at h
      have hopening := serializePlainPreparedState_not_exact h
      rw [parseRootPreparedState, hopening]
      exact (serializePlainPreparedState_iff_parse request protocol).mp ⟨hpurpose, h⟩
  · intro h
    unfold parseRootPreparedState at h
    split at h
    · exact parseExactPreparedState_ok h
    · obtain ⟨hpurpose, hwritten⟩ :=
        (serializePlainPreparedState_iff_parse request protocol).mpr h
      rw [serializeRootPreparedState, if_neg hpurpose]
      exact hwritten

/-- A request that binds the file list of its one artifact. -/
def exactSample : RootPrepareRequest where
  transactionToken := List.replicate 64 (byte 'a')
  packageBase := ascii "app"
  directive := .asDependency
  needed := true
  noConfirm := false
  artifacts := [{
    artifactIndex := 10
    packageName := ascii "app"
    fullVersion := ascii "1:2.0-1"
    packageBase := ascii "app"
    architecture := ascii "x86_64"
    artifactSize := 2048
    signatureSize := 0
    archiveSha256 := List.replicate 64 (byte '0')
    signatureSha256 := ascii "-"
    rawMtreeSha256 := List.replicate 64 (byte 'f') }]
  purpose := .exactInstalledBinding

example : ((serializeRootPreparedState exactSample).toOption.bind fun protocol =>
    (parseRootPreparedState protocol).toOption) = some exactSample := by
  decide +kernel

end Moguet.Install.PreparedRoundTrip
