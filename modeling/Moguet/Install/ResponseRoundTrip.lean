import Moguet.Install.Documents
import Moguet.Install.PreparedRoundTrip

/-!
# One text for each prepare response

A request leaves one response, up to the digest of its stage. Both the loop
of the writer and the loop of the reader accept exactly that response, and the
line breaks and the length of a digest cut the exact layout in one way only.
-/

namespace Moguet.Install.ResponseRoundTrip

open Verified ByteString Checked Decimal Fields Request PreparedState PreparedRoundTrip Documents
open Receipt.Protocol (hookDirectoryLabel)

variable {transactionToken line text label : Bytes} {ordinal : Nat} {staged : StagedArtifact}
  {request : RootPrepareRequest} {response : RootPrepareResponse}

/-! ## Staged artifacts -/

/-- What a request leaves for its staged artifacts: the index of each and the
path of its position. -/
def expectedStaged (transactionToken : Bytes) :
    Nat → List RootArtifactExpectation → List StagedArtifact
  | _, [] => []
  | ordinal, expected :: artifacts =>
    ⟨expected.artifactIndex, stagedArtifactPathText transactionToken ordinal⟩ ::
      expectedStaged transactionToken (ordinal + 1) artifacts

theorem expectedStaged_length (transactionToken : Bytes) :
    ∀ (artifacts : List RootArtifactExpectation) (ordinal : Nat),
      (expectedStaged transactionToken ordinal artifacts).length = artifacts.length := by
  intro artifacts
  induction artifacts with
  | nil => intro _; rfl
  | cons expected artifacts ih =>
    intro ordinal
    rw [expectedStaged, List.length_cons, ih, List.length_cons]

theorem stagedArtifactPath_ok (htoken : isValidTrustedAlpmReceiptToken transactionToken = true)
    (hordinal : ordinal < maximumArtifacts) :
    stagedArtifactPath transactionToken ordinal =
      .ok (stagedArtifactPathText transactionToken ordinal) := by
  unfold stagedArtifactPath
  rw [if_pos (by simp [htoken, hordinal])]

theorem hookDirectory_ok (htoken : isValidTrustedAlpmReceiptToken transactionToken = true) :
    hookDirectory transactionToken = .ok (hookDirectoryText transactionToken) :=
  if_pos htoken

theorem serializeStaged_eq_ok_iff (htoken : isValidTrustedAlpmReceiptToken transactionToken = true)
    :
    ∀ {artifacts : List RootArtifactExpectation} {response : List StagedArtifact}
      {ordinal : Nat} {lines : List Bytes}, response.length = artifacts.length →
      ordinal + artifacts.length ≤ maximumArtifacts →
      (serializeStaged transactionToken ordinal artifacts response = .ok lines ↔
        response = expectedStaged transactionToken ordinal artifacts ∧
          lines = response.map stagedRecord) := by
  intro artifacts
  induction artifacts with
  | nil =>
    intro response ordinal lines hlength _
    have hnil : response = [] := List.eq_nil_of_length_eq_zero hlength
    rw [hnil, serializeStaged, expectedStaged]
    · constructor
      · intro h
        injection h with h
        exact ⟨rfl, h.symm⟩
      · rintro ⟨-, h⟩
        rw [h]
        rfl
    · intro expected artifacts staged others h
      cases h
  | cons expected artifacts ih =>
    intro response ordinal lines hlength hordinal
    rw [List.length_cons] at hlength hordinal
    cases response with
    | nil =>
      rw [List.length_nil] at hlength
      omega
    | cons staged response =>
      have hrest := @ih response (ordinal + 1)
      rw [List.length_cons] at hlength
      have hfits : ordinal < maximumArtifacts := by omega
      have hpath := stagedArtifactPath_ok htoken hfits
      rw [serializeStaged, expectedStaged]
      by_cases hindex : staged.artifactIndex = expected.artifactIndex
      · rw [if_neg (not_not.mpr hindex), bind_of_ok hpath]
        by_cases hsame : staged.path = stagedArtifactPathText transactionToken ordinal
        · rw [if_neg (not_not.mpr hsame), bind_eq_ok]
          have hstaged : staged = ⟨expected.artifactIndex,
              stagedArtifactPathText transactionToken ordinal⟩ := by
            rw [← hindex, ← hsame]
          constructor
          · rintro ⟨more, hmore, h⟩
            injection h with h
            obtain ⟨hresponse, hlines⟩ := (hrest (by omega) (by omega)).mp hmore
            rw [← h, hlines]
            exact ⟨by rw [← hstaged, ← hresponse], rfl⟩
          · rintro ⟨hall, hlines⟩
            injection hall with _ hresponse
            refine ⟨response.map stagedRecord,
              (hrest (by omega) (by omega)).mpr ⟨hresponse, rfl⟩, ?_⟩
            rw [hlines]
            rfl
        · rw [if_pos hsame]
          constructor
          · intro h
            cases h
          · rintro ⟨hall, -⟩
            injection hall with hstaged _
            rw [hstaged] at hsame
            exact absurd rfl hsame
      · rw [if_pos hindex]
        constructor
        · intro h
          cases h
        · rintro ⟨hall, -⟩
          injection hall with hstaged _
          rw [hstaged] at hindex
          exact absurd rfl hindex

theorem visible_stagedArtifactPath (ordinal : Nat)
    (htoken : isValidTrustedAlpmReceiptToken transactionToken = true) :
    Visible (stagedArtifactPathText transactionToken ordinal) := by
  intro b hmem
  simp only [stagedArtifactPathText, List.mem_append] at hmem
  rcases hmem with (((hmem | hmem) | hmem) | hmem) | hmem
  · revert b
    decide
  · exact visible_of_token htoken b hmem
  · revert b
    decide
  · exact visible_writeUnsigned ordinal b hmem
  · revert b
    decide

theorem splitTabs_stagedRecord (hpath : Visible staged.path) : splitTabs (stagedRecord staged) =
      [ascii "STAGED", writeUnsigned staged.artifactIndex, staged.path] := by
  apply List.splitOn_intercalate
  · intro field hmem
    simp only [List.mem_cons, List.not_mem_nil, or_false] at hmem
    rcases hmem with rfl | rfl | rfl
    · decide
    · exact (visible_writeUnsigned _).no_tab
    · exact hpath.no_tab
  · exact List.cons_ne_nil _ _

theorem parseStagedRecord_eq_ok_iff {expected : RootArtifactExpectation}
    (htoken : isValidTrustedAlpmReceiptToken transactionToken = true)
    (hordinal : ordinal < maximumArtifacts) (hindex : expected.artifactIndex < maximumArtifacts) :
    parseStagedRecord transactionToken ordinal expected line = .ok staged ↔
      staged = ⟨expected.artifactIndex, stagedArtifactPathText transactionToken ordinal⟩ ∧
        line = stagedRecord staged := by
  have hpath := stagedArtifactPath_ok htoken hordinal
  have hnumber : parseCanonicalUnsigned (2 ^ 64) (writeUnsigned expected.artifactIndex) =
      some expected.artifactIndex := by
    refine parseCanonicalUnsigned_eq_some_iff.mpr ⟨rfl, ?_⟩
    unfold maximumArtifacts at hindex
    omega
  unfold parseStagedRecord
  constructor
  · intro h
    split at h
    · rename_i tag index path hsplit
      have hline : joinTabs [tag, index, path] = line := by
        rw [← hsplit]
        exact List.intercalate_splitOn (byte '\t')
      split at h
      · cases h
      · rename_i htag
        rw [bind_of_ok hpath] at h
        split at h
        · cases h
        · rename_i hfields
          rw [not_or, not_not, not_not] at hfields
          injection h with h
          refine ⟨h.symm, ?_⟩
          obtain ⟨hread, -⟩ := parseCanonicalUnsigned_eq_some_iff.mp hfields.1
          rw [← h, ← hline, hread, hfields.2, not_not.mp htag]
          rfl
    · cases h
  · rintro ⟨rfl, rfl⟩
    rw [splitTabs_stagedRecord (visible_stagedArtifactPath ordinal htoken)]
    dsimp only
    rw [if_neg (not_not.mpr rfl), bind_of_ok hpath, if_neg]
    rw [not_or, not_not, not_not]
    exact ⟨hnumber, rfl⟩

theorem parseStaged_eq_ok_iff (htoken : isValidTrustedAlpmReceiptToken transactionToken = true) :
    ∀ {artifacts : List RootArtifactExpectation} {lines : List Bytes} {ordinal : Nat}
      {response : List StagedArtifact}, lines.length = artifacts.length →
      ordinal + artifacts.length ≤ maximumArtifacts →
      (∀ expected ∈ artifacts, expected.artifactIndex < maximumArtifacts) →
      (parseStaged transactionToken ordinal artifacts lines = .ok response ↔
        response = expectedStaged transactionToken ordinal artifacts ∧
          lines = response.map stagedRecord) := by
  intro artifacts
  induction artifacts with
  | nil =>
    intro lines ordinal response hlength _ _
    have hnil : lines = [] := List.eq_nil_of_length_eq_zero hlength
    rw [hnil, parseStaged, expectedStaged]
    · constructor
      · intro h
        injection h with h
        rw [← h]
        exact ⟨rfl, rfl⟩
      · rintro ⟨h, -⟩
        rw [h]
    · intro expected artifacts line others h
      cases h
  | cons expected artifacts ih =>
    intro lines ordinal response hlength hordinal hindices
    rw [List.length_cons] at hlength hordinal
    cases lines with
    | nil =>
      rw [List.length_nil] at hlength
      omega
    | cons line lines =>
      rw [List.length_cons] at hlength
      have hfits : ordinal < maximumArtifacts := by omega
      have hfirst := hindices expected List.mem_cons_self
      have hrest := @ih lines (ordinal + 1)
      rw [parseStaged, expectedStaged, bind_eq_ok]
      constructor
      · rintro ⟨staged, hstaged, h⟩
        rw [bind_eq_ok] at h
        obtain ⟨more, hmore, h⟩ := h
        injection h with h
        obtain ⟨hvalue, hline⟩ :=
          (parseStagedRecord_eq_ok_iff htoken hfits hfirst).mp hstaged
        obtain ⟨hvalues, hlines⟩ := (hrest (by omega) (by omega) fun other hmem =>
          hindices other (List.mem_cons_of_mem _ hmem)).mp hmore
        rw [← h]
        exact ⟨by rw [hvalue, hvalues], by rw [hline, hlines]; rfl⟩
      · rintro ⟨rfl, hlines⟩
        injection hlines with hline hlines
        refine ⟨_, (parseStagedRecord_eq_ok_iff htoken hfits hfirst).mpr ⟨rfl, hline⟩, ?_⟩
        rw [bind_of_ok ((hrest (by omega) (by omega) fun other hmem =>
          hindices other (List.mem_cons_of_mem _ hmem)).mpr ⟨rfl, hlines⟩)]

/-! ## Responses -/

/-- The one response a request leaves, up to the digest of its stage. -/
def expectedResponse (request : RootPrepareRequest) (stagedIdentitySha256 : Bytes) :
    RootPrepareResponse where
  transactionToken := request.transactionToken
  hookDirectory := hookDirectoryText request.transactionToken
  artifacts := expectedStaged request.transactionToken 0 request.artifacts
  stagedIdentitySha256 := stagedIdentitySha256

def prepareResponseLines (response : RootPrepareResponse) : List Bytes :=
  prepareResponseHead response ++ (response.artifacts.map stagedRecord ++ [endRecord])

theorem artifactIndex_lt (h : Checked request) :
    ∀ expected ∈ request.artifacts, expected.artifactIndex < maximumArtifacts := by
  intro expected hmem
  have hvalid := h.artifact expected hmem
  simp only [artifactIsValid, Bool.and_eq_true, decide_eq_true_eq] at hvalid
  exact hvalid.1.1.1.1.1.1.1.1.1

theorem visible_hookDirectory (htoken : isValidTrustedAlpmReceiptToken transactionToken = true) :
    Visible (hookDirectoryText transactionToken) := by
  intro b hmem
  simp only [hookDirectoryText, List.mem_append] at hmem
  rcases hmem with (hmem | hmem) | hmem
  · revert b
    decide
  · exact visible_of_token htoken b hmem
  · revert b
    decide

/-- A staged artifact that a valid request leaves: short fields without a
separator. -/
theorem expectedStaged_mem {transactionToken : Bytes} :
    ∀ {artifacts : List RootArtifactExpectation} {ordinal : Nat},
      (∀ expected ∈ artifacts, expected.artifactIndex < maximumArtifacts) →
      ordinal + artifacts.length ≤ maximumArtifacts →
      ∀ staged ∈ expectedStaged transactionToken ordinal artifacts,
        staged.artifactIndex < maximumArtifacts ∧ ∃ position < maximumArtifacts,
            staged.path = stagedArtifactPathText transactionToken position := by
  intro artifacts
  induction artifacts with
  | nil =>
    intro ordinal _ _ staged hmem
    cases hmem
  | cons expected artifacts ih =>
    intro ordinal hindices hordinal staged hmem
    rw [List.length_cons] at hordinal
    rcases List.mem_cons.mp hmem with rfl | hmem
    · have hfits : ordinal < maximumArtifacts := by omega
      exact ⟨hindices expected List.mem_cons_self, ordinal, hfits, rfl⟩
    · exact ih (fun other hother => hindices other (List.mem_cons_of_mem _ hother))
        (by omega) staged hmem

theorem token_length {token : Bytes} (h : isValidTrustedAlpmReceiptToken token = true) :
    token.length = 64 := by
  simp only [isValidTrustedAlpmReceiptToken, Bool.and_eq_true, decide_eq_true_eq] at h
  exact h.1

theorem writeUnsigned_position_length {position : Nat} (h : position < maximumArtifacts) :
    (writeUnsigned position).length ≤ 4 := by
  apply writeUnsigned_length_le (by omega)
  unfold maximumArtifacts at h
  omega

/-- The lines of a response are short and hold no line break. -/
theorem prepareResponseLines_line (h : Checked request) (stagedIdentitySha256 : Bytes) :
    ∀ line ∈ prepareResponseLines (expectedResponse request stagedIdentitySha256),
      byte '\n' ∉ line ∧ line.length < 256 := by
  have htoken := token_length h.token
  intro line hline
  rcases List.mem_append.mp hline with hline | hline
  · simp only [prepareResponseHead, List.mem_cons, List.not_mem_nil, or_false] at hline
    rcases hline with rfl | rfl | rfl | rfl
    · exact ⟨by decide, by decide⟩
    · refine ⟨no_newline_of_label (by decide) (visible_of_token h.token), ?_⟩
      have hlabel : tokenLabel.length = 6 := rfl
      simp only [expectedResponse, List.length_append]
      omega
    · exact ⟨by decide, by decide⟩
    · refine ⟨no_newline_of_label (by decide) (visible_hookDirectory h.token), ?_⟩
      have hlabel : hookDirectoryLabel.length = 8 := rfl
      have hactive : activeDirectory.length = 44 := rfl
      have hhooks : (ascii "/hooks").length = 6 := rfl
      simp only [expectedResponse, hookDirectoryText, List.length_append]
      omega
  · rcases List.mem_append.mp hline with hline | hline
    · obtain ⟨staged, hstaged, rfl⟩ := List.mem_map.mp hline
      have hcount := h.artifacts_length
      obtain ⟨hindex, position, hposition, hpath⟩ :=
        expectedStaged_mem (artifactIndex_lt h) (by omega) staged hstaged
      have hindexLength := writeUnsigned_position_length hindex
      have hpositionLength := writeUnsigned_position_length hposition
      constructor
      · apply no_newline_joinTabs
        intro field hfield
        simp only [List.mem_cons, List.not_mem_nil, or_false] at hfield
        rcases hfield with rfl | rfl | rfl
        · unfold Visible
          decide
        · exact visible_writeUnsigned _
        · rw [hpath]
          exact visible_stagedArtifactPath position h.token
      · have htag : (ascii "STAGED").length = 6 := rfl
        have hactive : activeDirectory.length = 44 := rfl
        have hartifacts : (ascii "/artifacts/artifact-").length = 20 := rfl
        have hsuffix : (ascii ".pkg.tar.zst").length = 12 := rfl
        have hpathLength := congrArg List.length hpath
        simp only [stagedArtifactPathText, List.length_append] at hpathLength
        simp only [stagedRecord, joinTabs, List.intercalate, List.intersperse,
          List.flatten_cons, List.flatten_nil, List.length_append, List.length_cons,
          List.length_nil]
        omega
    · rw [List.mem_singleton.mp hline]
      exact ⟨by decide, by decide⟩

theorem prepareResponseLines_length (request : RootPrepareRequest) (stagedIdentitySha256 : Bytes) :
    (prepareResponseLines (expectedResponse request stagedIdentitySha256)).length =
      request.artifacts.length + 5 := by
  simp only [prepareResponseLines, prepareResponseHead, expectedResponse,
    List.length_append, List.length_cons, List.length_nil, List.length_map,
    expectedStaged_length]
  omega

theorem prepareResponseText_length (h : Checked request) (stagedIdentitySha256 : Bytes) :
    (terminated (byte '\n') (prepareResponseLines
      (expectedResponse request stagedIdentitySha256))).length + 1024 ≤
      maximumProtocolBytes := by
  have hwidth := terminated_length_le (byte '\n') fun line hline =>
    (prepareResponseLines_line h stagedIdentitySha256 line hline).2
  have hcount := h.artifacts_length
  rw [prepareResponseLines_length] at hwidth
  unfold maximumArtifacts at hcount
  unfold maximumProtocolBytes
  omega

theorem serializeStageIdentity_eq_ok_iff {purpose : TrustedPurpose} {stagedIdentitySha256 : Bytes} :
    serializeStageIdentity purpose stagedIdentitySha256 = .ok text ↔
      (purpose = .exactInstalledBinding ∧
        isValidSourceArtifactInstallSha256 stagedIdentitySha256 = true ∧
        text = exactResponseOpening ++ stageLabel ++ stagedIdentitySha256 ++ [byte '\n']) ∨
      (purpose ≠ .exactInstalledBinding ∧ stagedIdentitySha256 = [] ∧ text = []) := by
  unfold serializeStageIdentity
  by_cases hpurpose : purpose = .exactInstalledBinding
  · rw [if_pos hpurpose]
    by_cases hdigest : isValidSourceArtifactInstallSha256 stagedIdentitySha256 = true
    · rw [if_pos hdigest]
      simp only [Except.ok.injEq, hpurpose, hdigest, ne_eq, not_true, true_and, false_and, or_false]
      exact eq_comm
    · rw [if_neg hdigest]
      simp [hpurpose, hdigest]
  · rw [if_neg hpurpose]
    by_cases hempty : stagedIdentitySha256 = []
    · rw [if_neg (not_not.mpr hempty)]
      simp only [Except.ok.injEq, hpurpose, hempty, ne_eq, not_false_eq_true, true_and,
        false_and, false_or]
      exact eq_comm
    · rw [if_pos hempty]
      simp [hpurpose, hempty]

/-- What the writer writes: the response that the request leaves, behind the
records of its digest. -/
theorem serializePrepareResponse_eq_ok_iff : serializePrepareResponse response request = .ok text ↔
      isValidRootRequest request = true ∧
        response = expectedResponse request response.stagedIdentitySha256 ∧
        ∃ identity, serializeStageIdentity request.purpose response.stagedIdentitySha256 =
            .ok identity ∧
          text = identity ++ terminated (byte '\n') (prepareResponseLines response) := by
  unfold serializePrepareResponse
  constructor
  · intro h
    split at h
    · cases h
    · rename_i hrequest
      rw [not_or, not_not, Bool.not_eq_false] at hrequest
      obtain ⟨hvalid, htoken⟩ := hrequest
      have hchecked := isValidRootRequest_checked hvalid
      rw [bind_of_ok (hookDirectory_ok hchecked.token)] at h
      split at h
      · cases h
      · rename_i hfields
        rw [not_or, not_not, not_not] at hfields
        obtain ⟨hhooks, hlength⟩ := hfields
        rw [bind_eq_ok] at h
        obtain ⟨identity, hidentity, h⟩ := h
        rw [bind_eq_ok] at h
        obtain ⟨lines, hlines, h⟩ := h
        injection h with h
        have hcount := hchecked.artifacts_length
        obtain ⟨hstaged, hwritten⟩ :=
          (serializeStaged_eq_ok_iff hchecked.token hlength (by omega)).mp hlines
        refine ⟨hvalid, ?_, identity, hidentity, ?_⟩
        · obtain ⟨token, hooks, artifacts, digest⟩ := response
          dsimp only at htoken hhooks hstaged
          rw [htoken, hhooks, hstaged]
          rfl
        · rw [← h, hwritten]
          rfl
  · rintro ⟨hvalid, hexpected, identity, hidentity, htext⟩
    have hchecked := isValidRootRequest_checked hvalid
    have hcount := hchecked.artifacts_length
    have htoken : response.transactionToken = request.transactionToken := by
      rw [hexpected]
      rfl
    have hhooks : response.hookDirectory = hookDirectoryText request.transactionToken := by
      rw [hexpected]
      rfl
    have hstaged : response.artifacts =
        expectedStaged request.transactionToken 0 request.artifacts := by
      rw [hexpected]
      rfl
    have hlength : response.artifacts.length = request.artifacts.length := by
      rw [hstaged, expectedStaged_length]
    have hlines := (serializeStaged_eq_ok_iff hchecked.token hlength (by omega)).mpr
      ⟨hstaged, rfl⟩
    rw [if_neg (by simp [hvalid, htoken]), bind_of_ok (hookDirectory_ok hchecked.token),
      if_neg (by simp [hhooks, hlength]), bind_of_ok hidentity, bind_of_ok hlines, htext]
    rfl

theorem recordValue_eq_some_iff {value : Bytes} :
    recordValue label line = some value ↔ line = label ++ value := by
  constructor
  · exact recordValue_eq_some
  · intro h
    rw [h, recordValue_append]

theorem parsePrepareResponseLines_eq_ok_iff {lines : List Bytes} (hchecked : Checked request) :
    parsePrepareResponseLines request lines = .ok response ↔
      response = expectedResponse request [] ∧ lines = prepareResponseLines response := by
  have hcount := hchecked.artifacts_length
  have hhooks := hookDirectory_ok hchecked.token
  unfold parsePrepareResponseLines
  constructor
  · intro h
    split at h
    · rename_i header tokenLine ownerLine hooksLine rest
      split at h
      · cases h
      · rename_i hshape
        simp only [not_or, not_not] at hshape
        obtain ⟨hlength, hheader, hlast⟩ := hshape
        rw [bind_of_ok hhooks] at h
        split at h
        · cases h
        · rename_i hrecords
          simp only [not_or, not_not, recordValue_eq_some_iff] at hrecords
          obtain ⟨htoken, howner, hhooksLine⟩ := hrecords
          rw [bind_eq_ok] at h
          obtain ⟨staged, hstaged, h⟩ := h
          injection h with h
          simp only [List.length_cons] at hlength
          have hrest : rest.length = request.artifacts.length + 1 := by omega
          have hne : rest ≠ [] := by
            intro hnil
            rw [hnil, List.length_nil] at hrest
            omega
          have hend : rest.getLast? = some endRecord := by
            obtain ⟨front, last, rfl⟩ := (List.eq_nil_or_concat rest).resolve_left hne
            simpa [List.getLast?_cons] using hlast
          obtain ⟨hexpected, hlines⟩ := (parseStaged_eq_ok_iff hchecked.token
            (by rw [List.length_dropLast]; omega) (by omega)
            (artifactIndex_lt hchecked)).mp hstaged
          rw [← h]
          refine ⟨by rw [hexpected]; rfl, ?_⟩
          rw [htoken, howner, hhooksLine, hheader,
            ← List.dropLast_append_getLast? endRecord hend, hlines]
          rfl
    · cases h
  · rintro ⟨rfl, rfl⟩
    have hlength := prepareResponseLines_length request []
    have hstaged : parseStaged request.transactionToken 0 request.artifacts
        ((expectedResponse request []).artifacts.map stagedRecord ++ [endRecord]).dropLast =
        .ok (expectedResponse request []).artifacts := by
      rw [List.dropLast_concat]
      exact (parseStaged_eq_ok_iff hchecked.token
        (by rw [List.length_map]; exact expectedStaged_length _ _ _) (by omega)
        (artifactIndex_lt hchecked)).mpr ⟨rfl, rfl⟩
    have hlast : (prepareResponseLines (expectedResponse request [])).getLast? =
        some endRecord := by
      rw [prepareResponseLines, ← List.append_assoc, List.getLast?_concat]
    show (if (prepareResponseLines (expectedResponse request [])).length ≠
          request.artifacts.length + 5 ∨ prepareResponseHeader ≠ prepareResponseHeader ∨
          (prepareResponseLines (expectedResponse request [])).getLast? ≠ some endRecord then
        _ else _) = _
    rw [if_neg (by simp [hlength, hlast]), bind_of_ok hhooks]
    rw [if_neg (by simp [recordValue_append, expectedResponse])]
    exact bind_of_ok hstaged

theorem parsePlainPrepareResponse_eq_ok_iff :
    parsePlainPrepareResponse text request = .ok response ↔
      isValidRootRequest request = true ∧ response = expectedResponse request [] ∧
        text = terminated (byte '\n') (prepareResponseLines response) := by
  unfold parsePlainPrepareResponse
  by_cases hvalid : isValidRootRequest request = true
  · have hchecked := isValidRootRequest_checked hvalid
    rw [if_neg (by simp [hvalid]), bind_eq_ok]
    constructor
    · rintro ⟨lines, hlines, h⟩
      obtain ⟨hresponse, hwritten⟩ := (parsePrepareResponseLines_eq_ok_iff hchecked).mp h
      obtain ⟨htext, -⟩ := splitProtocolLines_ok hlines
      exact ⟨hvalid, hresponse, by rw [htext, hwritten]⟩
    · rintro ⟨-, hresponse, htext⟩
      refine ⟨prepareResponseLines response, ?_,
        (parsePrepareResponseLines_eq_ok_iff hchecked).mpr ⟨hresponse, rfl⟩⟩
      rw [htext, hresponse]
      have hsize := prepareResponseText_length hchecked []
      have hcount := hchecked.artifacts_length
      have hne : prepareResponseLines (expectedResponse request []) ≠ [] :=
        List.cons_ne_nil _ _
      apply splitProtocolLines_terminated hne
      · intro line hline
        exact (prepareResponseLines_line hchecked [] line hline).1
      · rw [prepareResponseLines_length]
        unfold maximumArtifacts at hcount
        unfold trustedAlpmReceiptMaximumPackages
        omega
      · omega
  · rw [Bool.not_eq_true] at hvalid
    rw [if_pos hvalid]
    simp [hvalid]

/-! ## Exact responses -/

/-- The artifact without its file list, as the cleanup projection has it. -/
def unbound (artifact : RootArtifactExpectation) : RootArtifactExpectation :=
  { artifact with rawMtreeSha256 := ascii "-" }

theorem checkArtifact_unbound {totals after : RequestTotals} {artifact : RootArtifactExpectation}
    (hpurpose : request.purpose = .exactInstalledBinding)
    (h : checkArtifact request totals artifact = some after) :
    checkArtifact (cleanupProjection request)
        { totals with prior := totals.prior.map unbound } (unbound artifact) =
      some { after with prior := after.prior.map unbound } := by
  simp only [checkArtifact, Option.bind_eq_bind, Option.bind_eq_some_iff, Option.guard_eq_some',
    hpurpose] at h
  obtain ⟨_, -, _, hvalid, size, hsize, total, htotal, _, hfits, _, hfresh, h⟩ := h
  injection h with h
  have hmtree : mtreeIsValid .cleanupInstallOnly (unbound artifact) = true := rfl
  have hvalid' : artifactIsValid (unbound artifact) request.packageBase
      (decide (TrustedPurpose.cleanupInstallOnly = .legacyArtifactInstall)) = true := hvalid
  have hfresh' : ∀ prior ∈ totals.prior.map unbound, prior.artifactIndex ≠ artifact.artifactIndex ∧
        prior.packageName ≠ artifact.packageName := by
    intro prior hprior
    obtain ⟨before, hbefore, rfl⟩ := List.mem_map.mp hprior
    exact hfresh before hbefore
  simp only [checkArtifact, Option.bind_eq_bind, Option.bind_eq_some_iff, Option.guard_eq_some']
  refine ⟨(), hmtree, (), hvalid', size, hsize, total, htotal, (), hfits, (), hfresh', ?_⟩
  rw [← h, List.map_append]
  rfl

theorem checkArtifacts_unbound (hpurpose : request.purpose = .exactInstalledBinding) :
    ∀ {artifacts : List RootArtifactExpectation} {totals after : RequestTotals},
      artifacts.foldlM (checkArtifact request) totals = some after →
      (artifacts.map unbound).foldlM (checkArtifact (cleanupProjection request))
          { totals with prior := totals.prior.map unbound } =
        some { after with prior := after.prior.map unbound } := by
  intro artifacts
  induction artifacts with
  | nil =>
    intro totals after h
    injection h with h
    rw [← h]
    rfl
  | cons artifact artifacts ih =>
    intro totals after h
    rw [List.foldlM_cons, Option.bind_eq_bind, Option.bind_eq_some_iff] at h
    obtain ⟨next, hnext, h⟩ := h
    rw [List.map_cons, List.foldlM_cons, checkArtifact_unbound hpurpose hnext]
    exact ih h

theorem isValidRootRequest_cleanupProjection (hpurpose : request.purpose = .exactInstalledBinding)
    (h : isValidRootRequest request = true) :
    isValidRootRequest (cleanupProjection request) = true := by
  simp only [isValidRootRequest, Bool.and_eq_true, Bool.or_eq_true, decide_eq_true_eq,
    hpurpose] at h
  obtain ⟨⟨⟨⟨⟨htoken, hbase⟩, hne⟩, hlength⟩, hdirective⟩, hloop⟩ := h
  obtain ⟨totals, htotals⟩ := Option.isSome_iff_exists.mp hloop
  have hprojected := checkArtifacts_unbound hpurpose htotals
  simp only [isValidRootRequest, Bool.and_eq_true, Bool.or_eq_true, decide_eq_true_eq]
  refine ⟨⟨⟨⟨⟨htoken, hbase⟩, ?_⟩, ?_⟩, ?_⟩, ?_⟩
  · simpa [cleanupProjection] using hne
  · simpa [cleanupProjection] using hlength
  · exact Or.inl (hdirective.resolve_right (by decide))
  · exact Option.isSome_iff_exists.mpr ⟨_, hprojected⟩

theorem expectedStaged_unbound (transactionToken : Bytes) :
    ∀ (artifacts : List RootArtifactExpectation) (ordinal : Nat),
      expectedStaged transactionToken ordinal (artifacts.map unbound) =
        expectedStaged transactionToken ordinal artifacts := by
  intro artifacts
  induction artifacts with
  | nil => intro _; rfl
  | cons expected artifacts ih =>
    intro ordinal
    rw [List.map_cons, expectedStaged, expectedStaged, ih]
    rfl

theorem expectedResponse_cleanupProjection (request : RootPrepareRequest)
    (stagedIdentitySha256 : Bytes) :
    expectedResponse (cleanupProjection request) stagedIdentitySha256 =
      expectedResponse request stagedIdentitySha256 := by
  have hstaged := expectedStaged_unbound request.transactionToken request.artifacts 0
  unfold expectedResponse
  dsimp only [cleanupProjection]
  unfold unbound at hstaged
  rw [hstaged]

/-- A label, a digest and a line break, cut at fixed places. -/
theorem eq_of_cut (hlabel : label.isPrefixOf text = true)
    (hbreak : text[label.length + 64]? = some (byte '\n')) :
    text = label ++ (text.drop label.length).take 64 ++ [byte '\n'] ++
      text.drop (label.length + 65) := by
  obtain ⟨rest, rfl⟩ := List.isPrefixOf_iff_prefix.mp hlabel
  rw [List.getElem?_append_right (by omega), Nat.add_sub_cancel_left] at hbreak
  obtain ⟨hlength, hvalue⟩ := List.getElem?_eq_some_iff.mp hbreak
  have hcut : rest.drop 64 = byte '\n' :: rest.drop 65 := by
    rw [List.drop_eq_getElem_cons hlength, hvalue]
  rw [List.drop_left, List.drop_append, List.drop_eq_nil_of_le (by omega),
    Nat.add_sub_cancel_left, List.nil_append, List.append_assoc, List.append_assoc,
    List.singleton_append, ← hcut, List.take_append_drop]

theorem sha256_length {digest : Bytes}
    (h : isValidSourceArtifactInstallSha256 digest = true) : digest.length = 64 := by
  simp only [isValidSourceArtifactInstallSha256, Bool.and_eq_true, decide_eq_true_eq] at h
  exact h.1

theorem parseExactPrepareResponse_eq_ok_iff (hvalid : isValidRootRequest request = true)
    (hpurpose : request.purpose = .exactInstalledBinding) :
    parseExactPrepareResponse text request = .ok response ↔
      isValidSourceArtifactInstallSha256 response.stagedIdentitySha256 = true ∧
        response = expectedResponse request response.stagedIdentitySha256 ∧
        text = exactResponseOpening ++ stageLabel ++ response.stagedIdentitySha256 ++
          [byte '\n'] ++ terminated (byte '\n') (prepareResponseLines response) := by
  have hprojection := isValidRootRequest_cleanupProjection hpurpose hvalid
  unfold parseExactPrepareResponse
  constructor
  · intro h
    dsimp only at h
    split at h
    · cases h
    · rename_i hshape
      simp only [not_or, not_not, Bool.not_eq_false] at hshape
      obtain ⟨-, hlabel, -, hbreak, hdigest⟩ := hshape
      have htext := eq_of_cut hlabel hbreak
      rw [bind_eq_ok] at h
      obtain ⟨enclosed, henclosed, h⟩ := h
      injection h with h
      obtain ⟨-, hexpected, hrest⟩ := parsePlainPrepareResponse_eq_ok_iff.mp henclosed
      rw [expectedResponse_cleanupProjection] at hexpected
      rw [hexpected] at hrest h
      rw [← h]
      refine ⟨hdigest, rfl, ?_⟩
      rw [hrest] at htext
      exact htext
  · rintro ⟨hdigest, hexpected, htext⟩
    have hlength := sha256_length hdigest
    have hchecked := isValidRootRequest_checked hvalid
    have hsize := prepareResponseText_length hchecked response.stagedIdentitySha256
    rw [← hexpected] at hsize
    have hopening : (exactResponseOpening ++ stageLabel).length = 77 := rfl
    have hcut : text.drop (exactResponseOpening ++ stageLabel).length =
        response.stagedIdentitySha256 ++
          (byte '\n' :: terminated (byte '\n') (prepareResponseLines response)) := by
      rw [htext, List.append_assoc, List.append_assoc, List.drop_left]
      rfl
    have hlabel : (exactResponseOpening ++ stageLabel).isPrefixOf text = true := by
      rw [htext, List.append_assoc, List.append_assoc]
      exact isPrefixOf_append _ _
    have htotal := congrArg List.length htext
    simp only [List.length_append, List.length_singleton] at htotal hopening
    have hbreak : text[(exactResponseOpening ++ stageLabel).length + 64]? = some (byte '\n') := by
      rw [← List.getElem?_drop, hcut, List.getElem?_append_right (by omega), hlength]
      rfl
    have hread : (text.drop (exactResponseOpening ++ stageLabel).length).take 64 =
        response.stagedIdentitySha256 := by
      rw [hcut, List.take_left' hlength]
    have hrest : text.drop ((exactResponseOpening ++ stageLabel).length + 65) =
        terminated (byte '\n') (prepareResponseLines response) := by
      rw [← List.drop_drop, hcut, List.drop_append, List.drop_eq_nil_of_le (by omega),
        hlength]
      rfl
    have henclosed : parsePlainPrepareResponse
        (terminated (byte '\n') (prepareResponseLines response)) (cleanupProjection request) =
        .ok (expectedResponse request []) := by
      refine parsePlainPrepareResponse_eq_ok_iff.mpr ⟨hprojection, ?_, ?_⟩
      · rw [expectedResponse_cleanupProjection]
      · rw [hexpected]
        rfl
    dsimp only
    rw [if_neg, hrest, bind_of_ok henclosed, hread, hexpected]
    · rfl
    · rw [not_or, not_or, not_or, not_or, not_not, Bool.not_eq_false, Bool.not_eq_false, hread]
      have hlabelLength := @List.length_append _ exactResponseOpening stageLabel
      exact ⟨by omega, hlabel, by omega, hbreak, hdigest⟩

/-- The writer and the reader of a prepare response. -/
theorem serializePrepareResponse_iff_parse (response : RootPrepareResponse)
    (request : RootPrepareRequest) (text : Bytes) :
    serializePrepareResponse response request = .ok text ↔
      parsePrepareResponse text request = .ok response := by
  rw [serializePrepareResponse_eq_ok_iff]
  unfold parsePrepareResponse
  by_cases hvalid : isValidRootRequest request = true
  · rw [if_neg (by simp [hvalid])]
    by_cases hpurpose : request.purpose = .exactInstalledBinding
    · rw [if_pos hpurpose, parseExactPrepareResponse_eq_ok_iff hvalid hpurpose]
      simp only [serializeStageIdentity_eq_ok_iff, hpurpose]
      constructor
      · rintro ⟨-, hexpected, identity, ⟨-, hdigest, hidentity⟩ | ⟨hother, -⟩, htext⟩
        · rw [hidentity] at htext
          exact ⟨hdigest, hexpected, htext⟩
        · exact absurd rfl hother
      · rintro ⟨hdigest, hexpected, htext⟩
        exact ⟨hvalid, hexpected, _, Or.inl ⟨trivial, hdigest, rfl⟩, htext⟩
    · rw [if_neg hpurpose, parsePlainPrepareResponse_eq_ok_iff]
      simp only [serializeStageIdentity_eq_ok_iff, hpurpose]
      constructor
      · rintro ⟨-, hexpected, identity, ⟨hother, -⟩ | ⟨-, hdigest, hidentity⟩, htext⟩
        · cases hother
        · rw [hidentity] at htext
          rw [hdigest] at hexpected
          exact ⟨hvalid, hexpected, htext⟩
      · rintro ⟨-, hexpected, htext⟩
        have hdigest : response.stagedIdentitySha256 = [] := by
          rw [hexpected]
          rfl
        refine ⟨hvalid, ?_, [], Or.inr ⟨hpurpose, hdigest, rfl⟩, htext⟩
        rw [hdigest]
        exact hexpected
  · rw [Bool.not_eq_true] at hvalid
    rw [if_pos hvalid]
    simp [hvalid]

end Moguet.Install.ResponseRoundTrip
