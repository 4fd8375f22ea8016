import Moguet.Install.ExactOperation
import Moguet.Installed.RecordRoundTrip
import Moguet.Verified.Frames

/-!
# The evidence of an exact transaction

After the transaction the helper that runs as root hands back all it has seen: the
database world, what was installed before, the operations of the two hooks and what they
found afterwards (`exact_artifact_transaction_protocol.cpp`). Each part is a frame, and a
list of observations is again a row of frames. The text is complete before the evidence
on disk is destroyed; only the digit that says how the cleanup went is written later.
-/

namespace Moguet.Install.ExactEvidence

open Verified ByteString Checked Decimal Fields Frames Request
open Install.PreparedState (serializeRootPreparedState)
open ExactOperation Installed.Record Installed.RecordRoundTrip Store.Sha256
open Store.Chain (contentDigestHex)
open Store.LeafRoundTrip (contentDigestHex_eq length_hashHex)

variable {protocol key payload after text stage packageName opening fragment : Bytes}
  {manifest : RootPrepareRequest} {observation : InstalledPackageRecordObservation}
  {world : InstalledDatabaseWorldResult}

/-! ## Data -/

structure ExactArtifactRecordObservation where
  artifactIndex : Nat
  packageName : Bytes
  observation : InstalledPackageRecordObservation
  deriving DecidableEq

variable {record : ExactArtifactRecordObservation}

abbrev Observations := List ExactArtifactRecordObservation

variable {observations : Observations}

inductive ExactArtifactRecordObservationsResult
  | known (observations : Observations)
  | issue (issue : Issue)
  deriving DecidableEq

variable {result : ExactArtifactRecordObservationsResult}

inductive ExactArtifactRootCleanup
  | complete
  | retirementFailed
  | privateStageCleanupFailed
  deriving DecidableEq

structure ExactArtifactRootEvidence where
  cleanup : ExactArtifactRootCleanup := .complete
  world : InstalledDatabaseWorldResult := .issue .unsupportedDatabaseWorld
  baseline : ExactArtifactRecordObservationsResult := .issue .missingBaseline
  installs : Option Bytes := none
  upgrades : Option Bytes := none
  installAnchors : ExactArtifactRecordObservationsResult := .issue .missingAnchor
  upgradeAnchors : ExactArtifactRecordObservationsResult := .issue .missingAnchor
  deriving DecidableEq

variable {evidence : ExactArtifactRootEvidence}

/-- What a writer throws. -/
inductive EvidenceFailure
  | protocol (failure : TrustedProtocolFailure)
  | observation (issue : Issue)
  deriving DecidableEq

abbrev Writing := Except EvidenceFailure

/-! ## Writing -/

def appendFrame (protocol key payload : Bytes) : Writing Bytes :=
  let framed := protocol ++ frame key payload
  if maximumProtocolBytes < framed.length then
    .error (.protocol (.invalidArgument "oversized exact protocol frame"))
  else .ok framed

def evidencePrefix (manifest : RootPrepareRequest) (stage : Bytes) : Protocol Bytes := do
  let _ ← fragmentPrefix manifest stage .install
  let prepared ← serializeRootPreparedState manifest
  .ok (ascii "MOGUET-EXACT-ARTIFACT-EVIDENCE\t2\nOWNER\tsource-artifact-install\n" ++
    ascii "PURPOSE\tExactInstalledBinding\nTOKEN\t" ++ manifest.transactionToken ++
    ascii "\nMANIFEST\t" ++ rawContentsSha256 prepared ++ ascii "\nSTAGE\t" ++ stage ++
    ascii "\n")

def observationsHeader : Bytes := ascii "MOGUET-EXACT-RECORD-OBSERVATIONS\t1"

def failureLine : Bytes := ascii "FAILURE\n"

/-- The key of the frame of one package. -/
def recordKey (artifactIndex : Nat) (packageName : Bytes) : Bytes :=
  ascii "RECORD\t" ++ (writeUnsigned artifactIndex ++ byte '\t' :: packageName)

def writtenObservation (observation : InstalledPackageRecordObservation) : Writing Bytes :=
  (serializeInstalledPackageRecordObservation observation).mapError .observation

def appendRecord (protocol : Bytes) (record : ExactArtifactRecordObservation) :
    Writing Bytes := do
  let payload ← writtenObservation record.observation
  appendFrame protocol (recordKey record.artifactIndex record.packageName) payload

/-- `serialize_exact_artifact_record_observations`. -/
def serializeRecordObservations (observations : Observations) : Writing Bytes :=
  if maximumArtifacts < observations.length then
    .error (.protocol (.invalidArgument "oversized exact record observations"))
  else do
    let protocol ← observations.foldlM appendRecord (observationsHeader ++ ascii "\n")
    .ok (protocol ++ fragmentEnd)

def serializeRecordResult : ExactArtifactRecordObservationsResult → Writing Bytes
  | .issue issue => do
      let failure ← writtenObservation (.issue issue)
      .ok (observationsHeader ++ ascii "\n" ++ failureLine ++ failure)
  | .known observations => serializeRecordObservations observations

def cleanupDigit : ExactArtifactRootCleanup → UInt8
  | .complete => byte '0'
  | .retirementFailed => byte '1'
  | .privateStageCleanupFailed => byte '2'

def cleanupLine (cleanup : ExactArtifactRootCleanup) : Bytes :=
  ascii "CLEANUP\t" ++ [cleanupDigit cleanup]

/-- `serialize_exact_artifact_root_evidence`. -/
def serializeRootEvidence (evidence : ExactArtifactRootEvidence)
    (manifest : RootPrepareRequest) (stage : Bytes) : Writing Bytes := do
  let protocol ← (evidencePrefix manifest stage).mapError .protocol
  let world ← (serializeInstalledDatabaseWorld evidence.world).mapError .observation
  let protocol ← appendFrame protocol (ascii "WORLD") world
  let baseline ← serializeRecordResult evidence.baseline
  let protocol ← appendFrame protocol (ascii "BASELINE") baseline
  let protocol ← appendFrame protocol (ascii "INSTALL") (evidence.installs.getD [])
  let protocol ← appendFrame protocol (ascii "UPGRADE") (evidence.upgrades.getD [])
  let installAnchors ← serializeRecordResult evidence.installAnchors
  let protocol ← appendFrame protocol (ascii "INSTALL-ANCHORS") installAnchors
  let upgradeAnchors ← serializeRecordResult evidence.upgradeAnchors
  let protocol ← appendFrame protocol (ascii "UPGRADE-ANCHORS") upgradeAnchors
  .ok (protocol ++ (cleanupLine evidence.cleanup ++ ascii "\n") ++ fragmentEnd)

/-- What `consume_exact` writes over the digit when the cleanup fails. -/
def recordCleanup (protocol : Bytes) (retired : Bool) : Bytes :=
  protocol.set (protocol.length - 6) (if retired then byte '2' else byte '1')

/-! ## Reading -/

/-- The frames of the packages, in the order of the manifest; a package may have none. -/
def takeRecords : List RootArtifactExpectation → Bytes → Option (Observations × Bytes)
  | [], protocol => some ([], protocol)
  | artifact :: artifacts, protocol =>
    let key := recordKey artifact.artifactIndex artifact.packageName
    if (key ++ [byte '\t']).isPrefixOf protocol then do
      let (payload, rest) ← takeFrame maximumProtocolBytes key protocol
      let (records, last) ← takeRecords artifacts rest
      some (⟨artifact.artifactIndex, artifact.packageName,
        parseInstalledPackageRecordObservation payload⟩ :: records, last)
    else takeRecords artifacts protocol

def readRecordObservations (protocol : Bytes) (manifest : RootPrepareRequest) :
    Option ExactArtifactRecordObservationsResult :=
  if maximumProtocolBytes < protocol.length then none
  else do
    let (header, rest) ← takeField (byte '\n') protocol
    if header ≠ observationsHeader then none
    else if failureLine.isPrefixOf rest then
      match parseInstalledPackageRecordObservation (rest.drop failureLine.length) with
      | .issue issue => some (.issue issue)
      | _ => none
    else do
      let (records, last) ← takeRecords manifest.artifacts rest
      if last ≠ fragmentEnd then none else some (.known records)

/-- `parse_exact_artifact_record_observations`; whatever is thrown is one issue. -/
def parseRecordObservations (protocol : Bytes) (manifest : RootPrepareRequest) :
    ExactArtifactRecordObservationsResult :=
  (readRecordObservations protocol manifest).getD (.issue .malformedMetadata)

def parseCleanup (line : Bytes) : Option ExactArtifactRootCleanup :=
  if line = ascii "CLEANUP\t0" then some .complete
  else if line = ascii "CLEANUP\t1" then some .retirementFailed
  else if line = ascii "CLEANUP\t2" then some .privateStageCleanupFailed
  else none

/-- An empty fragment is one that is absent. -/
def presentFragment (payload : Bytes) : Option Bytes :=
  if payload = [] then none else some payload

def readRootEvidence (manifest : RootPrepareRequest) (protocol : Bytes) :
    Option ExactArtifactRootEvidence := do
  let (world, protocol) ← takeFrame maximumProtocolBytes (ascii "WORLD") protocol
  let (baseline, protocol) ← takeFrame maximumProtocolBytes (ascii "BASELINE") protocol
  let (installs, protocol) ← takeFrame maximumProtocolBytes (ascii "INSTALL") protocol
  let (upgrades, protocol) ← takeFrame maximumProtocolBytes (ascii "UPGRADE") protocol
  let (installAnchors, protocol) ←
    takeFrame maximumProtocolBytes (ascii "INSTALL-ANCHORS") protocol
  let (upgradeAnchors, protocol) ←
    takeFrame maximumProtocolBytes (ascii "UPGRADE-ANCHORS") protocol
  let (line, protocol) ← takeField (byte '\n') protocol
  let cleanup ← parseCleanup line
  if protocol ≠ fragmentEnd then none
  else
    some {
      cleanup
      world := parseInstalledDatabaseWorld world
      baseline := parseRecordObservations baseline manifest
      installs := presentFragment installs
      upgrades := presentFragment upgrades
      installAnchors := parseRecordObservations installAnchors manifest
      upgradeAnchors := parseRecordObservations upgradeAnchors manifest }

/-- `parse_exact_artifact_root_evidence`; what throws is invalid. -/
def parseRootEvidence (protocol : Bytes) (manifest : RootPrepareRequest) (stage : Bytes) :
    Except ExactArtifactReceiptIssue ExactArtifactRootEvidence :=
  match evidencePrefix manifest stage with
  | .error _ => .error .invalid
  | .ok opening =>
    if maximumProtocolBytes < protocol.length ∨ opening.isPrefixOf protocol = false then
      .error .invalid
    else
      match readRootEvidence manifest (protocol.drop opening.length) with
      | none => .error .invalid
      | some evidence => .ok evidence

/-! ## Texts -/

def observationText (observation : InstalledPackageRecordObservation) : Bytes :=
  (serializeInstalledPackageRecordObservation observation).toOption.getD []

/-- Every observation is written. -/
theorem serializeObservation_eq (observation : InstalledPackageRecordObservation) :
    serializeInstalledPackageRecordObservation observation = .ok (observationText observation) := by
  have htotal : ∃ text, serializeInstalledPackageRecordObservation observation = .ok text := by
    cases observation with
    | snapshot record => exact ⟨_, serialize_snapshot record⟩
    | absent =>
      obtain ⟨text, htext, _⟩ := parse_serialize_absent
      exact ⟨text, htext⟩
    | issue issue =>
      obtain ⟨text, htext, _⟩ := parse_serialize_record_issue issue
      exact ⟨text, htext⟩
  obtain ⟨text, htext⟩ := htotal
  unfold observationText
  rw [htext]
  rfl

theorem writtenObservation_eq (observation : InstalledPackageRecordObservation) :
    writtenObservation observation = .ok (observationText observation) := by
  unfold writtenObservation
  rw [serializeObservation_eq]
  rfl

def worldText (world : InstalledDatabaseWorldResult) : Bytes :=
  (serializeInstalledDatabaseWorld world).toOption.getD []

/-- Every world is written. -/
theorem serializeWorld_eq (world : InstalledDatabaseWorldResult) :
    serializeInstalledDatabaseWorld world = .ok (worldText world) := by
  have htotal : ∃ text, serializeInstalledDatabaseWorld world = .ok text := by
    cases world with
    | known world => exact ⟨_, serialize_known world⟩
    | issue issue =>
      obtain ⟨text, htext, _⟩ := parse_serialize_world_issue issue
      exact ⟨text, htext⟩
  obtain ⟨text, htext⟩ := htotal
  unfold worldText
  rw [htext]
  rfl

def recordFrame (record : ExactArtifactRecordObservation) : Bytes :=
  frame (recordKey record.artifactIndex record.packageName)
    (observationText record.observation)

/-- The frames of a list of observations, after the header. -/
def recordFrames (observations : Observations) : Bytes :=
  observationsHeader ++ ascii "\n" ++ observations.flatMap recordFrame

def resultText : ExactArtifactRecordObservationsResult → Bytes
  | .issue issue =>
    observationsHeader ++ ascii "\n" ++ failureLine ++ observationText (.issue issue)
  | .known observations => recordFrames observations ++ fragmentEnd

/-- What is written of a row of keys and payloads. -/
def framesText (parts : List (Bytes × Bytes)) : Bytes :=
  parts.flatMap fun part => frame part.1 part.2

/-- The keys and payloads of evidence. -/
def evidenceParts (evidence : ExactArtifactRootEvidence) : List (Bytes × Bytes) :=
  [(ascii "WORLD", worldText evidence.world),
    (ascii "BASELINE", resultText evidence.baseline),
    (ascii "INSTALL", evidence.installs.getD []),
    (ascii "UPGRADE", evidence.upgrades.getD []),
    (ascii "INSTALL-ANCHORS", resultText evidence.installAnchors),
    (ascii "UPGRADE-ANCHORS", resultText evidence.upgradeAnchors)]

/-- The text of evidence with a cleanup digit, after the prefix of the transaction. -/
def evidenceText (opening : Bytes) (evidence : ExactArtifactRootEvidence)
    (cleanup : ExactArtifactRootCleanup) : Bytes :=
  opening ++ framesText (evidenceParts evidence) ++ (cleanupLine cleanup ++ ascii "\n") ++
    fragmentEnd

/-! ## What is written -/

theorem appendFrame_eq_ok_iff : appendFrame protocol key payload = .ok after ↔
      after = protocol ++ frame key payload ∧ after.length ≤ maximumProtocolBytes := by
  unfold appendFrame
  by_cases hfits : maximumProtocolBytes < (protocol ++ frame key payload).length
  · rw [if_pos hfits]
    constructor
    · intro h
      cases h
    · intro h
      rw [h.1] at h
      omega
  · rw [if_neg hfits]
    constructor
    · intro h
      injection h with h
      rw [← h]
      exact ⟨rfl, Nat.not_lt.mp hfits⟩
    · intro h
      rw [h.1]

theorem appendRecord_eq_ok_iff : appendRecord protocol record = .ok after ↔
      after = protocol ++ recordFrame record ∧ after.length ≤ maximumProtocolBytes := by
  unfold appendRecord
  rw [bind_of_ok (writtenObservation_eq _)]
  exact appendFrame_eq_ok_iff

/-- The frames of all records fit when the last one does. -/
theorem appendRecords_eq_ok_iff :
    ∀ {protocol after : Bytes}, protocol.length ≤ maximumProtocolBytes →
      (observations.foldlM appendRecord protocol = .ok after ↔
        after = protocol ++ observations.flatMap recordFrame ∧
          after.length ≤ maximumProtocolBytes) := by
  induction observations with
  | nil =>
    intro protocol after hfits
    rw [List.foldlM_nil, List.flatMap_nil, List.append_nil]
    constructor
    · intro h
      injection h with h
      rw [← h]
      exact ⟨rfl, hfits⟩
    · intro h
      rw [h.1]
      rfl
  | cons record observations ih =>
    intro protocol after hfits
    rw [List.foldlM_cons, bind_eq_ok, List.flatMap_cons, ← List.append_assoc]
    constructor
    · rintro ⟨next, hnext, hrest⟩
      obtain ⟨htext, hlength⟩ := appendRecord_eq_ok_iff.mp hnext
      rw [← htext]
      exact (ih hlength).mp hrest
    · intro h
      have hlength : (protocol ++ recordFrame record).length ≤ maximumProtocolBytes := by
        have hall := h.2
        rw [h.1, List.length_append] at hall
        omega
      exact ⟨_, appendRecord_eq_ok_iff.mpr ⟨rfl, hlength⟩, (ih hlength).mpr h⟩

/-- A result that can be written. -/
def ResultFits : ExactArtifactRecordObservationsResult → Prop
  | .issue _ => True
  | .known observations =>
    observations.length ≤ maximumArtifacts ∧
      (recordFrames observations).length ≤ maximumProtocolBytes

theorem serializeRecordResult_eq_ok_iff :
    serializeRecordResult result = .ok text ↔ ResultFits result ∧ text = resultText result := by
  cases result with
  | issue issue =>
    unfold serializeRecordResult
    dsimp only
    rw [bind_of_ok (writtenObservation_eq _)]
    constructor
    · intro h
      injection h with h
      exact ⟨trivial, h.symm⟩
    · intro h
      rw [h.2]
      rfl
  | known observations =>
    have hheader : (observationsHeader ++ ascii "\n").length ≤ maximumProtocolBytes := by
      decide
    show serializeRecordObservations observations = .ok text ↔ _
    unfold serializeRecordObservations
    by_cases hcount : maximumArtifacts < observations.length
    · rw [if_pos hcount]
      constructor
      · intro h
        cases h
      · intro h
        have hfits : observations.length ≤ maximumArtifacts := h.1.1
        omega
    · rw [if_neg hcount, bind_eq_ok]
      constructor
      · rintro ⟨protocol, hprotocol, h⟩
        obtain ⟨htext, hlength⟩ := (appendRecords_eq_ok_iff hheader).mp hprotocol
        injection h with h
        rw [htext] at h hlength
        exact ⟨⟨Nat.not_lt.mp hcount, hlength⟩, h.symm⟩
      · intro h
        refine ⟨_, (appendRecords_eq_ok_iff hheader).mpr ⟨rfl, h.1.2⟩, ?_⟩
        rw [h.2]
        rfl

/-- What evidence must be to be written: the frames fit, and the lists in them. -/
structure EvidenceWritten (evidence : ExactArtifactRootEvidence) (opening : Bytes) :
    Prop where
  baseline : ResultFits evidence.baseline
  installAnchors : ResultFits evidence.installAnchors
  upgradeAnchors : ResultFits evidence.upgradeAnchors
  size : (opening ++ framesText (evidenceParts evidence)).length ≤ maximumProtocolBytes

theorem mapError_eq_ok {ε ε' α : Type} {result : Except ε α} {wrap : ε → ε'} {value : α} :
    result.mapError wrap = .ok value ↔ result = .ok value := by
  cases result with
  | error failure => exact ⟨nofun, nofun⟩
  | ok found =>
    show Except.ok found = Except.ok value ↔ _
    rw [Except.ok.injEq, Except.ok.injEq]

theorem framesText_cons (key payload : Bytes) (parts : List (Bytes × Bytes)) :
    framesText ((key, payload) :: parts) = frame key payload ++ framesText parts := rfl

theorem framesText_nil : framesText [] = [] := rfl

/-- The size is checked after each frame, and not after the records that follow. -/
theorem serializeRootEvidence_text : serializeRootEvidence evidence manifest stage = .ok text ↔
      ∃ opening, evidencePrefix manifest stage = .ok opening ∧ EvidenceWritten evidence opening ∧
        text = evidenceText opening evidence evidence.cleanup := by
  have hworld := serializeWorld_eq evidence.world
  unfold serializeRootEvidence
  rw [hworld]
  simp only [bind_eq_ok, mapError_eq_ok, appendFrame_eq_ok_iff, Except.ok.injEq,
    serializeRecordResult_eq_ok_iff]
  constructor
  · rintro ⟨opening, hopening, _, rfl, p₁, ⟨hp₁, _⟩, _, ⟨hbaseline, rfl⟩, p₂, ⟨hp₂, _⟩,
      p₃, ⟨hp₃, _⟩, p₄, ⟨hp₄, _⟩, _, ⟨hinstalls, rfl⟩, p₅, ⟨hp₅, _⟩, _, ⟨hupgrades, rfl⟩,
      p₆, ⟨hp₆, hsize⟩, htext⟩
    have hall : p₆ = opening ++ framesText (evidenceParts evidence) := by
      rw [hp₆, hp₅, hp₄, hp₃, hp₂, hp₁]
      unfold evidenceParts
      simp only [framesText_cons, framesText_nil, List.append_assoc, List.append_nil]
    refine ⟨opening, hopening, ⟨hbaseline, hinstalls, hupgrades, ?_⟩, ?_⟩
    · rw [← hall]
      exact hsize
    · unfold evidenceText
      rw [← hall]
      exact htext.symm
  · rintro ⟨opening, hopening, hwritten, htext⟩
    have hsize := hwritten.size
    unfold evidenceParts at hsize
    simp only [framesText_cons, List.length_append] at hsize
    refine ⟨opening, hopening, _, rfl, _, ⟨rfl, ?_⟩, _, ⟨hwritten.baseline, rfl⟩, _,
      ⟨rfl, ?_⟩, _, ⟨rfl, ?_⟩, _, ⟨rfl, ?_⟩, _, ⟨hwritten.installAnchors, rfl⟩, _,
      ⟨rfl, ?_⟩, _, ⟨hwritten.upgradeAnchors, rfl⟩, _, ⟨rfl, ?_⟩, ?_⟩
    iterate 6
      · simp only [List.length_append]
        omega
    · rw [htext]
      unfold evidenceText evidenceParts
      simp only [framesText_cons, framesText_nil, List.append_assoc, List.append_nil]

/-! ## What is read of an observation -/

/-- An observation that its format carries. -/
def CarriedObservation : InstalledPackageRecordObservation → Prop
  | .snapshot record => CarriedSnapshot record
  | .absent => True
  | .issue _ => True

/-- What arrives of an observation. -/
def arrivedObservation (observation : InstalledPackageRecordObservation) :
    InstalledPackageRecordObservation :=
  parseInstalledPackageRecordObservation (observationText observation)

theorem observationText_of_ok
    (h : serializeInstalledPackageRecordObservation observation = .ok text) :
    observationText observation = text := by
  rw [serializeObservation_eq] at h
  injection h

theorem arrivedObservation_eq_iff :
    arrivedObservation observation = observation ↔ CarriedObservation observation := by
  unfold arrivedObservation
  cases observation with
  | snapshot record =>
    rw [observationText_of_ok (serialize_snapshot record)]
    exact parse_serialize_snapshot_iff
  | absent =>
    obtain ⟨text, htext, hread⟩ := parse_serialize_absent
    rw [observationText_of_ok htext]
    exact iff_of_true hread trivial
  | issue issue =>
    obtain ⟨text, htext, hread⟩ := parse_serialize_record_issue issue
    rw [observationText_of_ok htext]
    exact iff_of_true hread trivial

/-- A world that its format carries. -/
def CarriedWorldResult : InstalledDatabaseWorldResult → Prop
  | .known world => CarriedWorld world
  | .issue _ => True

/-- What arrives of a world. -/
def arrivedWorld (world : InstalledDatabaseWorldResult) : InstalledDatabaseWorldResult :=
  parseInstalledDatabaseWorld (worldText world)

theorem worldText_of_ok (h : serializeInstalledDatabaseWorld world = .ok text) :
    worldText world = text := by
  rw [serializeWorld_eq] at h
  injection h

theorem arrivedWorld_eq_iff : arrivedWorld world = world ↔ CarriedWorldResult world := by
  unfold arrivedWorld
  cases world with
  | known world =>
    rw [worldText_of_ok (serialize_known world)]
    exact parse_serialize_world_iff
  | issue issue =>
    obtain ⟨text, htext, hread⟩ := parse_serialize_world_issue issue
    rw [worldText_of_ok htext]
    exact iff_of_true hread trivial

/-! ## What is read of a list -/

/-- The observations are of packages of the manifest, in its order. -/
def FollowsManifest (manifest : RootPrepareRequest) (observations : Observations) : Prop :=
  (observations.map fun record => (record.artifactIndex, record.packageName)).Sublist
    (manifest.artifacts.map fun artifact => (artifact.artifactIndex, artifact.packageName))

def ResultFollows (manifest : RootPrepareRequest) :
    ExactArtifactRecordObservationsResult → Prop
  | .issue _ => True
  | .known observations => FollowsManifest manifest observations

def arrivedRecord (record : ExactArtifactRecordObservation) :
    ExactArtifactRecordObservation :=
  { record with observation := arrivedObservation record.observation }

def arrivedResult :
    ExactArtifactRecordObservationsResult → ExactArtifactRecordObservationsResult
  | .issue issue => .issue issue
  | .known observations => .known (observations.map arrivedRecord)

def CarriedResult : ExactArtifactRecordObservationsResult → Prop
  | .issue _ => True
  | .known observations =>
    ∀ record ∈ observations, CarriedObservation record.observation

theorem arrivedResult_eq_iff : arrivedResult result = result ↔ CarriedResult result := by
  cases result with
  | issue issue => exact iff_of_true rfl trivial
  | known observations =>
    have hrecord : ∀ record : ExactArtifactRecordObservation,
        arrivedRecord record = record ↔ CarriedObservation record.observation := by
      intro record
      rw [← arrivedObservation_eq_iff]
      constructor
      · intro h
        exact congrArg ExactArtifactRecordObservation.observation h
      · intro h
        unfold arrivedRecord
        rw [h]
    show ExactArtifactRecordObservationsResult.known (observations.map arrivedRecord) =
      .known observations ↔ ∀ record ∈ observations, CarriedObservation record.observation
    rw [ExactArtifactRecordObservationsResult.known.injEq]
    constructor
    · intro h record hmem
      have hsame : ∀ each ∈ observations, arrivedRecord each = id each :=
        List.map_inj_left.mp (by rw [h, List.map_id])
      exact (hrecord record).mp (hsame record hmem)
    · intro h
      conv_rhs => rw [← List.map_id observations]
      apply List.map_congr_left
      intro record hmem
      exact (hrecord record).mpr (h record hmem)

/-- The name of a package of the manifest. -/
theorem visible_of_manifest (hvalid : isValidRootRequest manifest = true) :
    ∀ artifact ∈ manifest.artifacts, PreparedRoundTrip.Visible artifact.packageName := by
  intro artifact hmem
  have hchecked := PreparedRoundTrip.isValidRootRequest_checked hvalid
  have hartifact := hchecked.artifact artifact hmem
  simp only [artifactIsValid, isValidTrustedAlpmReceiptPackageName, Bool.and_eq_true,
    List.all_eq_true] at hartifact
  have hname := hartifact.1.1.1.1.1.1.1.2
  exact PreparedRoundTrip.visible_of_identifier hname.2

theorem recordKey_no_newline (artifactIndex : Nat) (h : PreparedRoundTrip.Visible packageName) :
    byte '\n' ∉ recordKey artifactIndex packageName := by
  intro hmem
  rcases List.mem_append.mp hmem with hmem | hmem
  · exact absurd hmem (by decide)
  · rcases List.mem_append.mp hmem with hmem | hmem
    · exact (PreparedRoundTrip.visible_writeUnsigned artifactIndex).no_newline hmem
    · rcases List.mem_cons.mp hmem with hmem | hmem
      · exact absurd hmem (by decide)
      · exact h.no_newline hmem

/-- The frame of a package starts with its key. -/
theorem recordFrame_key (record : ExactArtifactRecordObservation) (more : Bytes) :
    ∃ rest, recordFrame record ++ more =
      recordKey record.artifactIndex record.packageName ++ [byte '\t'] ++ rest := by
  refine ⟨writeUnsigned (observationText record.observation).length ++
    byte '\n' :: (observationText record.observation ++ more), ?_⟩
  unfold recordFrame frame
  simp only [List.append_assoc, List.cons_append, List.nil_append]

/-- The key of a package does not start the frame of another. -/
theorem recordKey_apart {artifactIndex : Nat} (h : artifactIndex ≠ record.artifactIndex)
    (more : Bytes) :
    (recordKey artifactIndex packageName ++ [byte '\t']).isPrefixOf
      (recordFrame record ++ more) = false := by
  by_contra hstarts
  rw [Bool.not_eq_false] at hstarts
  obtain ⟨rest, hrest⟩ := List.isPrefixOf_iff_prefix.mp hstarts
  obtain ⟨other, hother⟩ := recordFrame_key record more
  rw [hother] at hrest
  unfold recordKey at hrest
  simp only [List.append_assoc, List.cons_append] at hrest
  have hfields := List.append_cancel_left hrest
  have htab : ∀ value : Nat, byte '\t' ∉ writeUnsigned value := fun value =>
    (PreparedRoundTrip.visible_writeUnsigned value).no_tab
  have hread := congrArg (takeField (byte '\t')) hfields
  rw [takeField_append (htab _), takeField_append (htab _)] at hread
  injection Option.some.inj hread with hindex _
  exact h (writeUnsigned_injective hindex)

theorem takeRecords_written :
    ∀ {artifacts : List RootArtifactExpectation} {observations : Observations}, Distinct artifacts →
      (∀ artifact ∈ artifacts, PreparedRoundTrip.Visible artifact.packageName) →
      (observations.map fun record => (record.artifactIndex, record.packageName)).Sublist
        (artifacts.map fun artifact => (artifact.artifactIndex, artifact.packageName)) →
      (∀ record ∈ observations,
        (observationText record.observation).length ≤ maximumProtocolBytes) →
      takeRecords artifacts (observations.flatMap recordFrame ++ fragmentEnd) =
        some (observations.map arrivedRecord, fragmentEnd) := by
  intro artifacts
  induction artifacts with
  | nil =>
    intro observations _ _ hsub _
    rw [List.map_nil, List.sublist_nil, List.map_eq_nil_iff] at hsub
    rw [hsub]
    rfl
  | cons artifact artifacts ih =>
    intro observations hdistinct hvisible hsub hfits
    have hapart := (List.pairwise_cons.mp hdistinct).1
    have hrest : Distinct artifacts := (List.pairwise_cons.mp hdistinct).2
    have hothers : ∀ other ∈ artifacts, PreparedRoundTrip.Visible other.packageName :=
      fun other hother => hvisible other (List.mem_cons_of_mem _ hother)
    unfold takeRecords
    dsimp only
    cases observations with
    | nil =>
      rw [if_neg (by exact Bool.false_ne_true)]
      exact ih hrest hothers (List.nil_sublist _) hfits
    | cons record observations =>
      rw [List.map_cons, List.map_cons] at hsub
      rw [List.flatMap_cons, List.append_assoc]
      by_cases hkey : (record.artifactIndex, record.packageName) =
          (artifact.artifactIndex, artifact.packageName)
      · rw [hkey] at hsub
        injection hkey with hindex hname
        have htail := ih hrest hothers (List.cons_sublist_cons.mp hsub)
          (fun other hother => hfits other (List.mem_cons_of_mem _ hother))
        obtain ⟨rest, hstarts⟩ := recordFrame_key record
          (observations.flatMap recordFrame ++ fragmentEnd)
        have hclean := recordKey_no_newline record.artifactIndex
          (hvisible artifact List.mem_cons_self)
        rw [← hname] at hclean
        have htaken : takeFrame maximumProtocolBytes
            (recordKey record.artifactIndex record.packageName)
            (recordFrame record ++ (observations.flatMap recordFrame ++ fragmentEnd)) =
            some (observationText record.observation,
              observations.flatMap recordFrame ++ fragmentEnd) :=
          takeFrame_frame hclean (hfits record List.mem_cons_self) (by decide) _
        rw [← hindex, ← hname, if_pos (by rw [hstarts]; exact isPrefixOf_append _ _), htaken]
        simp only [Option.bind_eq_bind, Option.bind_some, htail]
        rfl
      · -- The first package has no frame: its key differs from that of the next.
        have hlater : ((record.artifactIndex, record.packageName) ::
            observations.map fun record => (record.artifactIndex, record.packageName)).Sublist
            (artifacts.map fun artifact =>
              (artifact.artifactIndex, artifact.packageName)) := by
          rcases List.cons_sublist_cons'.mp hsub with hlater | hsame
          · exact hlater
          · exact absurd hsame.1 hkey
        obtain ⟨other, hother, hsame⟩ :=
          List.mem_map.mp (hlater.subset List.mem_cons_self)
        injection hsame with hindex _
        have hne : artifact.artifactIndex ≠ record.artifactIndex := by
          rw [← hindex]
          exact (hapart other hother).1
        rw [if_neg (by rw [recordKey_apart hne]; exact Bool.false_ne_true)]
        have hall := @ih (record :: observations) hrest hothers hlater hfits
        rw [List.flatMap_cons, List.append_assoc] at hall
        exact hall

theorem payload_fits {limit : Nat} (h : (recordFrames observations ++ fragmentEnd).length ≤ limit) :
    ∀ record ∈ observations, (observationText record.observation).length ≤ limit := by
  intro record hmem
  obtain ⟨front, back, hobservations⟩ := List.append_of_mem hmem
  have hframe := payload_length_le_frame (recordKey record.artifactIndex record.packageName)
    (observationText record.observation)
  rw [hobservations] at h
  unfold recordFrames recordFrame at h
  rw [List.flatMap_append, List.flatMap_cons] at h
  simp only [List.length_append] at h
  omega

/-- What is read of a list that was written. -/
theorem parseRecordObservations_written (hvalid : isValidRootRequest manifest = true)
    (hfollows : ResultFollows manifest result)
    (hfits : (resultText result).length ≤ maximumProtocolBytes) :
    parseRecordObservations (resultText result) manifest = arrivedResult result := by
  have hheader : ∀ rest, takeField (byte '\n') (observationsHeader ++ ascii "\n" ++ rest) =
      some (observationsHeader, rest) := by
    intro rest
    rw [List.append_assoc]
    exact takeField_append (by decide) rest
  unfold parseRecordObservations readRecordObservations
  rw [if_neg (Nat.not_lt.mpr hfits)]
  cases result with
  | issue issue =>
    have hissue : parseInstalledPackageRecordObservation (observationText (.issue issue)) =
        .issue issue := arrivedObservation_eq_iff.mpr trivial
    have htaken : takeField (byte '\n') (resultText (.issue issue)) =
        some (observationsHeader, failureLine ++ observationText (.issue issue)) := by
      unfold resultText
      rw [List.append_assoc]
      exact hheader _
    rw [htaken, Option.bind_eq_bind, Option.bind_some]
    dsimp only
    rw [if_neg (not_not.mpr rfl), if_pos (isPrefixOf_append _ _), List.drop_left, hissue]
    rfl
  | known observations =>
    have htaken : takeField (byte '\n') (resultText (.known observations)) =
        some (observationsHeader, observations.flatMap recordFrame ++ fragmentEnd) := by
      unfold resultText recordFrames
      rw [List.append_assoc]
      exact hheader _
    have hfailure : failureLine.isPrefixOf
        (observations.flatMap recordFrame ++ fragmentEnd) = false := by
      cases observations with
      | nil => rfl
      | cons record observations =>
        obtain ⟨rest, hrest⟩ := recordFrame_key record
          (observations.flatMap recordFrame ++ fragmentEnd)
        rw [List.flatMap_cons, List.append_assoc, hrest]
        rfl
    have hread := takeRecords_written (distinct_of_valid hvalid) (visible_of_manifest hvalid)
      hfollows (payload_fits hfits)
    rw [htaken, Option.bind_eq_bind, Option.bind_some]
    dsimp only
    rw [if_neg (not_not.mpr rfl), if_neg (by rw [hfailure]; exact Bool.false_ne_true), hread,
      Option.bind_eq_bind, Option.bind_some]
    dsimp only
    rw [if_neg (not_not.mpr rfl)]
    rfl

/-! ## What is read of evidence -/

theorem parseCleanup_line (cleanup : ExactArtifactRootCleanup) :
    parseCleanup (cleanupLine cleanup) = some cleanup := by
  cases cleanup <;> decide

theorem cleanupLine_no_newline (cleanup : ExactArtifactRootCleanup) :
    byte '\n' ∉ cleanupLine cleanup := by
  cases cleanup <;> decide

/-- The fragments of the two hooks are absent or not empty. -/
def FragmentPresent : Option Bytes → Prop
  | none => True
  | some payload => payload ≠ []

theorem presentFragment_written {fragment : Option Bytes} (h : FragmentPresent fragment) :
    presentFragment (fragment.getD []) = fragment := by
  cases fragment with
  | none => rfl
  | some payload => exact if_neg h

/-- What arrives of evidence with a cleanup digit. -/
def arrivedEvidence (evidence : ExactArtifactRootEvidence)
    (cleanup : ExactArtifactRootCleanup) : ExactArtifactRootEvidence where
  cleanup := cleanup
  world := arrivedWorld evidence.world
  baseline := arrivedResult evidence.baseline
  installs := evidence.installs
  upgrades := evidence.upgrades
  installAnchors := arrivedResult evidence.installAnchors
  upgradeAnchors := arrivedResult evidence.upgradeAnchors

/-- Evidence as a helper makes it: its lists follow the manifest, its fragments are absent
or not empty. -/
structure Transportable (manifest : RootPrepareRequest)
    (evidence : ExactArtifactRootEvidence) : Prop where
  baseline : ResultFollows manifest evidence.baseline
  installAnchors : ResultFollows manifest evidence.installAnchors
  upgradeAnchors : ResultFollows manifest evidence.upgradeAnchors
  installs : FragmentPresent evidence.installs
  upgrades : FragmentPresent evidence.upgrades

/-- The first of a row of frames is taken, and the row is left without it. -/
theorem takeFrame_framesText (hkey : byte '\n' ∉ key)
    (hsize : payload.length ≤ maximumProtocolBytes) (parts : List (Bytes × Bytes)) (rest : Bytes) :
    takeFrame maximumProtocolBytes key (framesText ((key, payload) :: parts) ++ rest) =
      some (payload, framesText parts ++ rest) := by
  rw [framesText_cons, List.append_assoc]
  exact takeFrame_frame hkey hsize (by decide) _

theorem readRootEvidence_written (hvalid : isValidRootRequest manifest = true)
    (htransport : Transportable manifest evidence)
    (hfits : (framesText (evidenceParts evidence)).length ≤ maximumProtocolBytes)
    (cleanup : ExactArtifactRootCleanup) :
    readRootEvidence manifest (framesText (evidenceParts evidence) ++
        (cleanupLine cleanup ++ byte '\n' :: fragmentEnd)) =
      some (arrivedEvidence evidence cleanup) := by
  have hpart : ∀ part ∈ evidenceParts evidence, part.2.length ≤ maximumProtocolBytes := by
    intro part hmem
    obtain ⟨front, back, hparts⟩ := List.append_of_mem hmem
    have hframe := payload_length_le_frame part.1 part.2
    rw [hparts] at hfits
    unfold framesText at hfits
    rw [List.flatMap_append, List.flatMap_cons] at hfits
    simp only [List.length_append] at hfits
    omega
  simp only [evidenceParts, List.forall_mem_cons] at hpart
  obtain ⟨hworld, hbaseline, hinstalls, hupgrades, hinstallAnchors, hupgradeAnchors, _⟩ := hpart
  unfold readRootEvidence evidenceParts
  rw [takeFrame_framesText (by decide) hworld]
  simp only [Option.bind_eq_bind, Option.bind_some]
  rw [takeFrame_framesText (by decide) hbaseline]
  simp only [Option.bind_some]
  rw [takeFrame_framesText (by decide) hinstalls]
  simp only [Option.bind_some]
  rw [takeFrame_framesText (by decide) hupgrades]
  simp only [Option.bind_some]
  rw [takeFrame_framesText (by decide) hinstallAnchors]
  simp only [Option.bind_some]
  rw [takeFrame_framesText (by decide) hupgradeAnchors]
  simp only [Option.bind_some]
  rw [framesText_nil, List.nil_append, takeField_append (cleanupLine_no_newline cleanup)]
  simp only [Option.bind_some]
  rw [parseCleanup_line]
  simp only [Option.bind_some]
  rw [if_neg (not_not.mpr rfl),
    parseRecordObservations_written hvalid htransport.baseline hbaseline,
    parseRecordObservations_written hvalid htransport.installAnchors hinstallAnchors,
    parseRecordObservations_written hvalid htransport.upgradeAnchors hupgradeAnchors,
    presentFragment_written htransport.installs, presentFragment_written htransport.upgrades]
  rfl

/-- The bytes that follow the frames. -/
def closingBytes : Nat := 14

theorem evidenceText_length (opening : Bytes) (evidence : ExactArtifactRootEvidence)
    (cleanup : ExactArtifactRootCleanup) :
    (evidenceText opening evidence cleanup).length =
      (opening ++ framesText (evidenceParts evidence)).length + closingBytes := by
  have hclosing : (cleanupLine cleanup ++ ascii "\n" ++ fragmentEnd).length = closingBytes := by
    cases cleanup <;> decide
  unfold evidenceText
  rw [List.append_assoc _ (cleanupLine cleanup ++ ascii "\n") fragmentEnd, List.length_append,
    hclosing]

/-- A text of evidence is read when it is not too long. -/
theorem parseRootEvidence_transported (hvalid : isValidRootRequest manifest = true)
    (hopening : evidencePrefix manifest stage = .ok opening)
    (htransport : Transportable manifest evidence) (cleanup : ExactArtifactRootCleanup) :
    parseRootEvidence (evidenceText opening evidence cleanup) manifest stage =
      if maximumProtocolBytes < (opening ++ framesText (evidenceParts evidence)).length +
        closingBytes then .error .invalid
      else .ok (arrivedEvidence evidence cleanup) := by
  have hlength := evidenceText_length opening evidence cleanup
  have hshape : evidenceText opening evidence cleanup = opening ++
      (framesText (evidenceParts evidence) ++
        (cleanupLine cleanup ++ byte '\n' :: fragmentEnd)) := by
    unfold evidenceText
    simp only [List.append_assoc]
    rfl
  unfold parseRootEvidence
  rw [hopening]
  dsimp only
  rw [hlength]
  by_cases hfits : maximumProtocolBytes <
      (opening ++ framesText (evidenceParts evidence)).length + closingBytes
  · rw [if_pos (Or.inl hfits), if_pos hfits]
  · have hstarts : opening.isPrefixOf (evidenceText opening evidence cleanup) = true := by
      rw [hshape]
      exact isPrefixOf_append _ _
    have hframes : (framesText (evidenceParts evidence)).length ≤ maximumProtocolBytes := by
      rw [List.length_append] at hfits
      omega
    rw [if_neg (by rw [hstarts, not_or]; exact ⟨hfits, nofun⟩), if_neg hfits, hshape, List.drop_left,
      readRootEvidence_written hvalid htransport hframes cleanup]

/-- The digit of a failed cleanup is written over that of a complete one. -/
theorem recordCleanup_text (opening : Bytes) (evidence : ExactArtifactRootEvidence)
    (cleanup : ExactArtifactRootCleanup) (retired : Bool) :
    recordCleanup (evidenceText opening evidence cleanup) retired = evidenceText opening evidence
        (if retired then .privateStageCleanupFailed else .retirementFailed) := by
  have hshape : ∀ each : ExactArtifactRootCleanup, evidenceText opening evidence each =
      (opening ++ framesText (evidenceParts evidence) ++ ascii "CLEANUP\t") ++
        cleanupDigit each :: (ascii "\n" ++ fragmentEnd) := by
    intro each
    unfold evidenceText cleanupLine
    simp only [List.append_assoc, List.cons_append, List.nil_append]
  have hoffset : (evidenceText opening evidence cleanup).length - 6 =
      (opening ++ framesText (evidenceParts evidence) ++ ascii "CLEANUP\t").length := by
    have htail : (ascii "\n" ++ fragmentEnd).length = 5 := by decide
    rw [hshape, List.length_append, List.length_cons, htail]
    omega
  unfold recordCleanup
  rw [hoffset, hshape, hshape, List.set_append_right _ _ (Nat.le_refl _), Nat.sub_self,
    List.set_cons_zero]
  cases retired <;> rfl

/-! ## Which evidence survives -/

/-- The text, and the text with each of the digits that a failed cleanup may leave, are
read back. -/
def Survives (evidence : ExactArtifactRootEvidence) (manifest : RootPrepareRequest)
    (stage text : Bytes) : Prop :=
  parseRootEvidence text manifest stage = .ok evidence ∧
    parseRootEvidence (recordCleanup text false) manifest stage =
      .ok { evidence with cleanup := .retirementFailed } ∧
    parseRootEvidence (recordCleanup text true) manifest stage =
      .ok { evidence with cleanup := .privateStageCleanupFailed }

/-- The observations are ones that their formats carry. -/
structure Carried (evidence : ExactArtifactRootEvidence) : Prop where
  world : CarriedWorldResult evidence.world
  baseline : CarriedResult evidence.baseline
  installAnchors : CarriedResult evidence.installAnchors
  upgradeAnchors : CarriedResult evidence.upgradeAnchors

theorem arrivedEvidence_eq_iff {cleanup : ExactArtifactRootCleanup} :
    arrivedEvidence evidence cleanup = { evidence with cleanup := cleanup } ↔ Carried evidence := by
  unfold arrivedEvidence
  rw [ExactArtifactRootEvidence.mk.injEq, arrivedWorld_eq_iff, arrivedResult_eq_iff,
    arrivedResult_eq_iff, arrivedResult_eq_iff]
  constructor
  · intro h
    exact ⟨h.2.1, h.2.2.1, h.2.2.2.2.2.1, h.2.2.2.2.2.2⟩
  · intro h
    exact ⟨rfl, h.world, h.baseline, rfl, rfl, h.installAnchors, h.upgradeAnchors⟩

/-! ## Sizes -/

/-- The length of the text of an observation that failed. -/
def issueBytes (issue : Issue) : Nat :=
  (issueNames.getD (issues.idxOf issue) []).length + 47

def worldResultBytes : InstalledDatabaseWorldResult → Nat
  | .known world => worldBytes world
  | .issue issue => issueBytes issue

def observationBytes : InstalledPackageRecordObservation → Nat
  | .snapshot record => snapshotBytes record
  | .absent => 45
  | .issue issue => issueBytes issue

def recordBytes (record : ExactArtifactRecordObservation) : Nat :=
  frameBytes ((writeUnsigned record.artifactIndex).length + record.packageName.length + 8)
    (observationBytes record.observation)

def resultBytes : ExactArtifactRecordObservationsResult → Nat
  | .issue issue => issueBytes issue + 43
  | .known observations => (observations.map recordBytes).sum + 39

def fragmentBytes : Option Bytes → Nat
  | none => 0
  | some payload => payload.length

/-- The length of the prefix and the frames of evidence. -/
def evidenceBytes (evidence : ExactArtifactRootEvidence) : Nat :=
  frameBytes 5 (worldResultBytes evidence.world) +
    frameBytes 8 (resultBytes evidence.baseline) +
    frameBytes 7 (fragmentBytes evidence.installs) +
    frameBytes 7 (fragmentBytes evidence.upgrades) +
    frameBytes 15 (resultBytes evidence.installAnchors) +
    frameBytes 15 (resultBytes evidence.upgradeAnchors) + 309

theorem serializeFailure_length {header : Bytes} (hheader : header.length = 33) {issue : Issue}
    (h : serializeFailure header issue = .ok text) : text.length = issueBytes issue := by
  have hname : issueText issue = .ok (issueNames.getD (issues.idxOf issue) []) := by
    cases issue <;> rfl
  have hfailure : (ascii "FAILURE\t").length = 8 := by decide
  have hend : (ascii "\nEND\n").length = 5 := by decide
  have hline : (ascii "\n").length = 1 := by decide
  unfold serializeFailure at h
  rw [bind_of_ok hname] at h
  injection h with h
  rw [← h]
  unfold issueBytes
  simp only [List.length_append, hheader, hfailure, hend, hline]
  omega

theorem observationText_length (observation : InstalledPackageRecordObservation) :
    (observationText observation).length = observationBytes observation := by
  cases observation with
  | snapshot record =>
    rw [observationText_of_ok (serialize_snapshot record), snapshotLines_length]
    rfl
  | absent => rfl
  | issue issue =>
    have hwritten : serializeFailure recordHeader issue =
        .ok (observationText (.issue issue)) := serializeObservation_eq (.issue issue)
    exact serializeFailure_length rfl hwritten

theorem worldText_length (world : InstalledDatabaseWorldResult) :
    (worldText world).length = worldResultBytes world := by
  cases world with
  | known world =>
    rw [worldText_of_ok (serialize_known world), worldLines_length]
    rfl
  | issue issue =>
    have hwritten : serializeFailure worldHeader issue = .ok (worldText (.issue issue)) :=
      serializeWorld_eq (.issue issue)
    exact serializeFailure_length rfl hwritten

theorem recordFrame_length (record : ExactArtifactRecordObservation) :
    (recordFrame record).length = recordBytes record := by
  have hkey : (recordKey record.artifactIndex record.packageName).length =
      (writeUnsigned record.artifactIndex).length + record.packageName.length + 8 := by
    have hlabel : (ascii "RECORD\t").length = 7 := by decide
    unfold recordKey
    rw [List.length_append, List.length_append, List.length_cons, hlabel]
    omega
  unfold recordFrame recordBytes
  rw [frame_length, hkey, observationText_length]

theorem resultText_length (result : ExactArtifactRecordObservationsResult) :
    (resultText result).length = resultBytes result := by
  have hheader : (observationsHeader ++ ascii "\n").length = 35 := by decide
  cases result with
  | issue issue =>
    have hfailure : failureLine.length = 8 := by decide
    unfold resultText resultBytes
    rw [List.length_append, List.length_append, hheader, hfailure, observationText_length]
    show 35 + 8 + issueBytes issue = issueBytes issue + 43
    omega
  | known observations =>
    show _ = (observations.map recordBytes).sum + 39
    have hend : fragmentEnd.length = 4 := by decide
    have hframes : (observations.flatMap recordFrame).length =
        (observations.map recordBytes).sum := by
      rw [List.length_flatMap]
      congr 1
      apply List.map_congr_left
      intro record _
      exact recordFrame_length record
    unfold resultText recordFrames
    rw [List.length_append, List.length_append, hheader, hend, hframes]
    omega

theorem fragment_length (fragment : Option Bytes) :
    (fragment.getD []).length = fragmentBytes fragment := by
  cases fragment with
  | none => rfl
  | some payload => rfl

theorem frames_length (evidence : ExactArtifactRootEvidence) :
    (framesText (evidenceParts evidence)).length + 309 = evidenceBytes evidence := by
  unfold evidenceParts evidenceBytes
  simp only [framesText_cons, framesText_nil, List.length_append, List.length_nil,
    frame_length, worldText_length, resultText_length, fragment_length]
  have hworld : (ascii "WORLD").length = 5 := by decide
  have hbaseline : (ascii "BASELINE").length = 8 := by decide
  have hinstall : (ascii "INSTALL").length = 7 := by decide
  have hupgrade : (ascii "UPGRADE").length = 7 := by decide
  have hinstallAnchors : (ascii "INSTALL-ANCHORS").length = 15 := by decide
  have hupgradeAnchors : (ascii "UPGRADE-ANCHORS").length = 15 := by decide
  rw [hworld, hbaseline, hinstall, hupgrade, hinstallAnchors, hupgradeAnchors]
  omega

/-- The prepared state of an exact transaction is within the limit. -/
theorem preparedState_fits {prepared : Bytes} (hpurpose : manifest.purpose = .exactInstalledBinding)
    (h : serializeRootPreparedState manifest = .ok prepared) :
    prepared.length ≤ maximumProtocolBytes := by
  unfold serializeRootPreparedState at h
  rw [if_pos hpurpose] at h
  unfold PreparedState.serializeExactPreparedState at h
  split at h
  · obtain ⟨enclosed, _, h⟩ := bind_eq_ok.mp h
    dsimp only at h
    split at h
    · cases h
    · rename_i hfits
      injection h with h
      rw [← h]
      exact Nat.not_lt.mp hfits
  · cases h

/-- The prefix of a transaction has no part of variable length. -/
theorem evidencePrefix_length (h : evidencePrefix manifest stage = .ok opening) :
    opening.length = 309 := by
  unfold evidencePrefix at h
  obtain ⟨fragment, hfragment, h⟩ := bind_eq_ok.mp h
  obtain ⟨prepared, hprepared, h⟩ := bind_eq_ok.mp h
  injection h with h
  unfold fragmentPrefix at hfragment
  split at hfragment
  · cases hfragment
  · rename_i hauthority
    simp only [Bool.or_eq_true, Bool.not_eq_true', decide_eq_true_eq, not_or,
      Bool.not_eq_false, not_not] at hauthority
    obtain ⟨⟨hvalid, hpurpose⟩, hstage⟩ := hauthority
    have htoken : manifest.transactionToken.length = 64 := by
      have hchecked := (PreparedRoundTrip.isValidRootRequest_checked hvalid).token
      simp only [isValidTrustedAlpmReceiptToken, Bool.and_eq_true, decide_eq_true_eq] at hchecked
      exact hchecked.1
    have hstageLength : stage.length = 64 := (digest_spec hstage).1
    have hdigest : (rawContentsSha256 prepared).length = 64 := by
      have hfits := preparedState_fits hpurpose hprepared
      have hbound : prepared.length < 2 ^ 64 := by
        unfold maximumProtocolBytes at hfits
        omega
      obtain ⟨hash, hhash⟩ := contentDigestHex_eq hbound
      unfold contentDigestHex at hhash
      rw [hhash]
      exact length_hashHex hash
    have hlabels : (ascii "MOGUET-EXACT-ARTIFACT-EVIDENCE\t2\nOWNER\tsource-artifact-install\n" ++
        ascii "PURPOSE\tExactInstalledBinding\nTOKEN\t").length = 99 := by decide
    have hmanifestLabel : (ascii "\nMANIFEST\t").length = 10 := by decide
    have hstageLabel : (ascii "\nSTAGE\t").length = 7 := by decide
    rw [← h]
    simp only [List.length_append] at hlabels ⊢
    rw [htoken, hstageLength, hdigest, hmanifestLabel, hstageLabel]
    have hline : (ascii "\n").length = 1 := by decide
    omega

/-- **Exact root evidence**: when the evidence of a valid exact transaction is written,
it is read back, with the cleanup digit it arrives with, exactly when its world and
observations are ones that their formats carry and the records after the last frame
still fit. -/
theorem rootEvidence_survives_iff (manifest : RootPrepareRequest) (stage text : Bytes)
    (evidence : ExactArtifactRootEvidence) (hvalid : isValidRootRequest manifest = true)
    (htransport : Transportable manifest evidence)
    (hwritten : serializeRootEvidence evidence manifest stage = .ok text) :
    Survives evidence manifest stage text ↔
      Carried evidence ∧ evidenceBytes evidence + closingBytes ≤ maximumProtocolBytes := by
  obtain ⟨opening, hopening, _, htext⟩ := serializeRootEvidence_text.mp hwritten
  have hlength : (opening ++ framesText (evidenceParts evidence)).length =
      evidenceBytes evidence := by
    rw [List.length_append, evidencePrefix_length hopening, ← frames_length]
    omega
  have hread := parseRootEvidence_transported hvalid hopening htransport
  rw [hlength] at hread
  unfold Survives
  rw [htext, recordCleanup_text, recordCleanup_text, hread, hread, hread]
  by_cases hfits : maximumProtocolBytes < evidenceBytes evidence + closingBytes
  · rw [if_pos hfits]
    constructor
    · intro h
      cases h.1
    · intro h
      omega
  · simp only [if_neg hfits, Except.ok.injEq]
    constructor
    · intro h
      exact ⟨arrivedEvidence_eq_iff.mp h.1, Nat.not_lt.mp hfits⟩
    · intro h
      have hsame : ∀ cleanup, arrivedEvidence evidence cleanup =
          { evidence with cleanup := cleanup } :=
        fun cleanup => arrivedEvidence_eq_iff.mpr h.1
      exact ⟨hsame evidence.cleanup, hsame .retirementFailed,
        hsame .privateStageCleanupFailed⟩

/-- The stage of the two closed runs below. -/
def zeroStage : Bytes := List.replicate 64 (byte '0')

theorem evidencePrefix_sample :
    ∃ opening, evidencePrefix PreparedRoundTrip.exactSample zeroStage = .ok opening := by
  have hread : (evidencePrefix PreparedRoundTrip.exactSample zeroStage).toOption.isSome =
      true := by decide +kernel
  obtain ⟨opening, hopening⟩ := Option.isSome_iff_exists.mp hread
  exact ⟨opening, eq_ok_of_toOption hopening⟩

/-- An upgrade of a package that was not installed, whose install hook left nothing. -/
def sampleEvidence : ExactArtifactRootEvidence where
  world := .known ⟨ascii "/", ascii "/var/lib/pacman", ascii "1:2"⟩
  baseline := .known [⟨10, ascii "app", .absent⟩]
  upgrades := some (ascii "INVALID\n")

theorem rootEvidence_survives_sample :
    ∃ text, serializeRootEvidence sampleEvidence PreparedRoundTrip.exactSample zeroStage =
        .ok text ∧
      Survives sampleEvidence PreparedRoundTrip.exactSample zeroStage text := by
  obtain ⟨opening, hopening⟩ := evidencePrefix_sample
  have htransport : Transportable PreparedRoundTrip.exactSample sampleEvidence :=
    ⟨List.Sublist.refl _, trivial, trivial, trivial, nofun⟩
  have hsize : evidenceBytes sampleEvidence + closingBytes ≤ maximumProtocolBytes := by
    decide +kernel
  have hlength : (opening ++ framesText (evidenceParts sampleEvidence)).length =
      evidenceBytes sampleEvidence := by
    rw [List.length_append, evidencePrefix_length hopening, ← frames_length]
    omega
  have hfits : EvidenceWritten sampleEvidence opening := by
    refine ⟨⟨by decide, by decide +kernel⟩, trivial, trivial, ?_⟩
    rw [hlength]
    omega
  have hwritten := serializeRootEvidence_text.mpr ⟨opening, hopening, hfits, rfl⟩
  refine ⟨_, hwritten, ?_⟩
  apply (rootEvidence_survives_iff PreparedRoundTrip.exactSample zeroStage _ sampleEvidence
    (by decide +kernel) htransport hwritten).mpr
  refine ⟨⟨⟨rfl, by decide, rfl, by decide, by decide, by decide⟩, ?_, trivial, trivial⟩, hsize⟩
  intro record hmem
  rw [List.mem_singleton.mp hmem]
  trivial

/-! ## Evidence that fills the limit -/

/-- Evidence of which the helper saw an install fragment and nothing else. -/
def fragmentEvidence (fragment : Bytes) : ExactArtifactRootEvidence where
  installs := some fragment

/-- A fragment of this length leaves no byte after the last frame. -/
def crowdedBytes : Nat := 16776436

theorem fragmentEvidence_bytes (h : fragment.length = crowdedBytes) :
    evidenceBytes (fragmentEvidence fragment) = maximumProtocolBytes := by
  have hlength : fragmentBytes (fragmentEvidence fragment).installs = crowdedBytes := h
  have hdigits : (writeUnsigned crowdedBytes).length = 8 := by decide +kernel
  have hframe : frameBytes 7 crowdedBytes = 7 + 8 + crowdedBytes + 2 := by
    unfold frameBytes
    rw [hdigits]
  have hworld : frameBytes 5 (worldResultBytes (.issue .unsupportedDatabaseWorld)) = 80 := by
    decide +kernel
  have hbaseline : frameBytes 8 (resultBytes (.issue .missingBaseline)) = 118 := by
    decide +kernel
  have hupgrades : frameBytes 7 (fragmentBytes none) = 10 := by decide +kernel
  have hanchors : frameBytes 15 (resultBytes (.issue .missingAnchor)) = 123 := by
    decide +kernel
  unfold evidenceBytes
  rw [hlength, hframe]
  unfold fragmentEvidence
  dsimp only
  rw [hworld, hbaseline, hupgrades, hanchors]
  rfl

/-- Evidence that is written and that no reader accepts. -/
theorem fragmentEvidence_refused (h : fragment.length = crowdedBytes) :
    Transportable PreparedRoundTrip.exactSample (fragmentEvidence fragment) ∧
      ∃ text, serializeRootEvidence (fragmentEvidence fragment) PreparedRoundTrip.exactSample
          zeroStage = .ok text ∧
        parseRootEvidence text PreparedRoundTrip.exactSample zeroStage = .error .invalid := by
  obtain ⟨opening, hopening⟩ := evidencePrefix_sample
  have hvalid : isValidRootRequest PreparedRoundTrip.exactSample = true := by decide +kernel
  have hlength : (opening ++ framesText (evidenceParts (fragmentEvidence fragment))).length =
      maximumProtocolBytes := by
    rw [List.length_append, evidencePrefix_length hopening, ← fragmentEvidence_bytes h,
      ← frames_length]
    omega
  have hpresent : fragment ≠ [] := by
    intro hnil
    rw [hnil] at h
    exact absurd h (by decide)
  have htransport : Transportable PreparedRoundTrip.exactSample (fragmentEvidence fragment) :=
    ⟨trivial, trivial, trivial, hpresent, trivial⟩
  have hwritten := serializeRootEvidence_text.mpr ⟨opening, hopening,
    (⟨trivial, trivial, trivial, Nat.le_of_eq hlength⟩ :
      EvidenceWritten (fragmentEvidence fragment) opening), rfl⟩
  refine ⟨htransport, _, hwritten, ?_⟩
  rw [parseRootEvidence_transported hvalid hopening htransport, hlength]
  exact if_pos (by decide)

theorem rootEvidence_lost :
    isValidRootRequest PreparedRoundTrip.exactSample = true ∧
      Transportable PreparedRoundTrip.exactSample
        (fragmentEvidence (List.replicate crowdedBytes (byte 'x'))) ∧
      ∃ text, serializeRootEvidence (fragmentEvidence (List.replicate crowdedBytes (byte 'x')))
          PreparedRoundTrip.exactSample zeroStage = .ok text ∧
        parseRootEvidence text PreparedRoundTrip.exactSample zeroStage = .error .invalid := by
  have hlength : (List.replicate crowdedBytes (byte 'x')).length = crowdedBytes :=
    List.length_replicate
  exact ⟨by decide +kernel, fragmentEvidence_refused hlength⟩

end Moguet.Install.ExactEvidence
