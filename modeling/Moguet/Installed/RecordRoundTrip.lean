import Moguet.Install.PreparedRoundTrip
import Moguet.Installed.Observation
import Moguet.Store.LeafRoundTrip

/-!
# Observations, written and read

A reader checks everything it reads, down to the text it would write itself,
so what it accepts is the text of its value. The other direction rests on what
an observer can observe: names and versions that were checked on the way, and
identities and generations short enough for a message.
-/

namespace Moguet.Installed.RecordRoundTrip

open Verified ByteString Checked Decimal Dialogue Dialogue.Program Fields Hexadecimal
open Plan.Constraint Install.Request Install.PreparedRoundTrip Store.Sha256 Store.LeafRoundTrip
open Record Observation

variable {text protocol : Bytes} {issue : Issue} {world : InstalledDatabaseWorld}
  {records : List Bytes} {record : InstalledPackageRecordSnapshot} {α β : Type}
  {observation : InstalledPackageRecordObservation}
  {events : List (Event ObservationRequest ObservationAnswer)}
  {result : InstalledDatabaseWorldResult} {post : β → Prop} {part : Observing α}
  {next : α → Observing β}

/-! ## Lines -/

/-- A line that can be part of a message. -/
def CleanLine (line : Bytes) : Prop := byte '\n' ∉ line ∧ 0 ∉ line

theorem cleanLine_append {front back : Bytes} (hfront : CleanLine front)
    (hback : CleanLine back) : CleanLine (front ++ back) := by
  constructor
  · intro hmem
    rcases List.mem_append.mp hmem with hmem | hmem
    · exact hfront.1 hmem
    · exact hback.1 hmem
  · intro hmem
    rcases List.mem_append.mp hmem with hmem | hmem
    · exact hfront.2 hmem
    · exact hback.2 hmem

theorem cleanLine_hexBytes (bytes : Bytes) : CleanLine (hexBytes bytes) :=
  ⟨hexBytes_clean (by decide) bytes, hexBytes_clean (by decide) bytes⟩

theorem cleanLine_labelled {label : Bytes} (h : byte '\n' ∉ label ∧ 0 ∉ label) (bytes : Bytes) :
    CleanLine (label ++ hexBytes bytes) :=
  cleanLine_append h (cleanLine_hexBytes bytes)

theorem cleanLine_of_lowerHex (h : text.all isLowerHex = true) : CleanLine text := by
  have hall : ∀ b ∈ text, isLowerHex b = true := by simpa using h
  constructor
  · intro hmem
    exact absurd (hall _ hmem) (by decide)
  · intro hmem
    exact absurd (hall _ hmem) (by decide)

/-- Clean lines within the limits are read back. -/
theorem lines_terminated (hclean : ∀ line ∈ records, CleanLine line) (hne : records ≠ [])
    (hcount : records.length ≤ 16)
    (hfits : (terminated (byte '\n') records).length ≤ maxProtocolBytes) :
    lines (terminated (byte '\n') records) = .ok records := by
  have hlast : (terminated (byte '\n') records).getLast? = some (byte '\n') :=
    getLast?_terminated hne
  have hzero : 0 ∉ terminated (byte '\n') records :=
    not_mem_terminated (by decide) fun line hline => (hclean line hline).2
  unfold lines
  rw [if_neg]
  · exact takeLines_terminated (fun line hline => (hclean line hline).1)
      (show ([] ++ records).length ≤ 16 from hcount) (Nat.le_refl _)
  · rintro (h | h | h | h)
    · omega
    · rw [h] at hlast
      cases hlast
    · exact h hlast
    · exact hzero h

/-- A hexadecimal field is read back. -/
theorem value_hexBytes (key : Bytes) {bytes : Bytes} (h : 2 * bytes.length ≤ maxProtocolBytes) :
    value (key ++ hexBytes bytes) key = .ok bytes := by
  unfold value
  rw [recordValue_append]
  dsimp only
  unfold decodeHex
  rw [if_neg, decodePairs_hexBytes]
  rw [hexBytes_length]
  omega

/-! ## Failures -/

theorem serializeFailure_eq {header : Bytes} (h : issueText issue = .ok text) :
    serializeFailure header issue = .ok (terminated (byte '\n')
      [header, ascii "FAILURE\t" ++ text, ascii "END"]) := by
  unfold serializeFailure
  rw [bind_of_ok h, terminated_cons, terminated_cons, terminated_cons, terminated_nil,
    show ascii "\nEND\n" = byte '\n' :: (ascii "END" ++ [byte '\n']) from rfl,
    show ascii "\n" = [byte '\n'] from rfl]
  simp only [List.append_assoc, List.cons_append, List.nil_append]

/-- A failure of either format is written, and read as its three lines. -/
theorem serializeFailure_lines (header : Bytes) (hheader : CleanLine header)
    (hlength : header.length ≤ 64) (issue : Issue) :
    ∃ text protocol, issueText issue = .ok text ∧ serializeFailure header issue = .ok protocol ∧
      lines protocol = .ok [header, ascii "FAILURE\t" ++ text, ascii "END"] ∧
      parseFailure (ascii "FAILURE\t" ++ text) = .ok issue := by
  obtain ⟨text, htext, hparsed, hshort, hline, hzero⟩ := issueText_spec issue
  refine ⟨text, _, htext, serializeFailure_eq htext, ?_, ?_⟩
  · apply lines_terminated
    · intro line hmem
      simp only [List.mem_cons, List.not_mem_nil, or_false] at hmem
      rcases hmem with rfl | rfl | rfl
      · exact hheader
      · exact cleanLine_append ⟨by decide, by decide⟩ ⟨hline, hzero⟩
      · exact ⟨by decide, by decide⟩
    · exact List.cons_ne_nil _ _
    · show 3 ≤ 16
      omega
    · have hfailure : (ascii "FAILURE\t" ++ text).length = 8 + text.length :=
        List.length_append
      have hend : (ascii "END").length = 3 := rfl
      rw [terminated_length]
      simp only [List.map_cons, List.map_nil, List.sum_cons, List.sum_nil, hfailure, hend]
      unfold maxProtocolBytes
      omega
  · unfold parseFailure
    rw [recordValue_append]
    exact hparsed

theorem parse_serialize_world_issue (issue : Issue) :
    ∃ protocol, serializeInstalledDatabaseWorld (.issue issue) = .ok protocol ∧
      parseInstalledDatabaseWorld protocol = .issue issue := by
  obtain ⟨text, protocol, -, hwritten, hread, hparsed⟩ :=
    serializeFailure_lines worldHeader ⟨by decide, by decide⟩ (by decide) issue
  refine ⟨protocol, hwritten, ?_⟩
  unfold parseInstalledDatabaseWorld readInstalledDatabaseWorld
  rw [bind_of_ok hread]
  simp [bind_of_ok hparsed]

theorem parse_serialize_record_issue (issue : Issue) :
    ∃ protocol, serializeInstalledPackageRecordObservation (.issue issue) = .ok protocol ∧
      parseInstalledPackageRecordObservation protocol = .issue issue := by
  obtain ⟨text, protocol, -, hwritten, hread, hparsed⟩ :=
    serializeFailure_lines recordHeader ⟨by decide, by decide⟩ (by decide) issue
  have hother : ascii "FAILURE\t" ++ text ≠ ascii "ABSENT" := by
    intro h
    have hhead := congrArg List.head? h
    simp [ascii] at hhead
  refine ⟨protocol, hwritten, ?_⟩
  unfold parseInstalledPackageRecordObservation readInstalledPackageRecordObservation
  rw [bind_of_ok hread]
  simp [hother, bind_of_ok hparsed]

theorem parse_serialize_absent :
    ∃ protocol, serializeInstalledPackageRecordObservation .absent = .ok protocol ∧
      parseInstalledPackageRecordObservation protocol = .absent :=
  ⟨_, rfl, by decide +kernel⟩

/-! ## Worlds -/

/-- What a world is when it comes from the descriptors of its database. -/
structure SoundWorld (world : InstalledDatabaseWorld) : Prop where
  root : world.rootDirectory = ascii "/"
  path_ne : world.databasePath ≠ []
  path_head : world.databasePath.head? = some (byte '/')
  path_zero : 0 ∉ world.databasePath
  path_length : world.databasePath.length ≤ 4096
  identity_ne : world.descriptorIdentity ≠ []
  identity_length : world.descriptorIdentity.length ≤ 29799

def worldLines (world : InstalledDatabaseWorld) : List Bytes :=
  [worldHeader, ascii "ROOT\t" ++ hexBytes world.rootDirectory,
    ascii "DB\t" ++ hexBytes world.databasePath,
    ascii "IDENTITY\t" ++ hexBytes world.descriptorIdentity, ascii "END"]

theorem serialize_known (world : InstalledDatabaseWorld) :
    serializeInstalledDatabaseWorld (.known world) =
      .ok (terminated (byte '\n') (worldLines world)) := by
  unfold serializeInstalledDatabaseWorld worldLines
  simp only [terminated_cons, terminated_nil,
    show ascii "\nEND\n" = byte '\n' :: (ascii "END" ++ [byte '\n']) from rfl,
    show ascii "\nDB\t" = byte '\n' :: ascii "DB\t" from rfl,
    show ascii "\nIDENTITY\t" = byte '\n' :: ascii "IDENTITY\t" from rfl,
    show ascii "\n" = [byte '\n'] from rfl, List.append_assoc, List.cons_append,
    List.nil_append]

/-- The length of a world's text. -/
def worldBytes (world : InstalledDatabaseWorld) : Nat :=
  2 * (world.rootDirectory.length + world.databasePath.length +
    world.descriptorIdentity.length) + 58

theorem worldLines_length (world : InstalledDatabaseWorld) :
    (terminated (byte '\n') (worldLines world)).length = worldBytes world := by
  rw [terminated_length]
  simp only [worldLines, List.map_cons, List.map_nil, List.sum_cons, List.sum_nil,
    List.length_append, hexBytes_length,
    show worldHeader.length = 33 from rfl, show (ascii "ROOT\t").length = 5 from rfl,
    show (ascii "DB\t").length = 3 from rfl,
    show (ascii "IDENTITY\t").length = 9 from rfl, show (ascii "END").length = 3 from rfl]
  unfold worldBytes
  omega

/-- What a world is that the format carries. -/
structure CarriedWorld (world : InstalledDatabaseWorld) : Prop where
  root : world.rootDirectory = ascii "/"
  path_ne : world.databasePath ≠ []
  path_head : world.databasePath.head? = some (byte '/')
  path_zero : 0 ∉ world.databasePath
  identity_ne : world.descriptorIdentity ≠ []
  size : worldBytes world ≤ maxProtocolBytes

theorem SoundWorld.carried (h : SoundWorld world) : CarriedWorld world := by
  refine ⟨h.root, h.path_ne, h.path_head, h.path_zero, h.identity_ne, ?_⟩
  have hroot : world.rootDirectory.length = 1 := by
    rw [h.root]
    rfl
  have hpath := h.path_length
  have hidentity := h.identity_length
  unfold worldBytes maxProtocolBytes
  omega

/-- What is read within the limit of the format. -/
theorem lines_fits (h : lines protocol = .ok records) : protocol.length ≤ maxProtocolBytes := by
  unfold lines at h
  split at h
  · cases h
  · rename_i hfits
    rw [not_or] at hfits
    exact Nat.not_lt.mp hfits.1

/-- A world is read back exactly when the format carries it. -/
theorem parse_serialize_world_iff :
    parseInstalledDatabaseWorld (terminated (byte '\n') (worldLines world)) = .known world ↔
      CarriedWorld world := by
  have hwritten := serialize_known world
  have hlength := worldLines_length world
  constructor
  · intro h
    unfold parseInstalledDatabaseWorld at h
    split at h
    · rename_i result hresult
      rw [h] at hresult
      unfold readInstalledDatabaseWorld at hresult
      obtain ⟨records, hrecords, hresult⟩ := bind_eq_ok.mp hresult
      have hfits := lines_fits hrecords
      rw [hlength] at hfits
      split at hresult
      · cases hresult
      · split at hresult
        · obtain ⟨issue, _, hissue⟩ := bind_eq_ok.mp hresult
          cases hissue
        · obtain ⟨root, _, hresult⟩ := bind_eq_ok.mp hresult
          obtain ⟨database, _, hresult⟩ := bind_eq_ok.mp hresult
          obtain ⟨identity, _, hresult⟩ := bind_eq_ok.mp hresult
          dsimp only at hresult
          split at hresult
          · cases hresult
          · rename_i hchecks
            injection hresult with hresult
            injection hresult with hworld
            rw [← hworld] at hfits ⊢
            simp only [not_or, not_not] at hchecks
            exact ⟨hchecks.1, hchecks.2.1, hchecks.2.2.1, hchecks.2.2.2.1, hchecks.2.2.2.2.1, hfits⟩
        · cases hresult
    · cases h
  · intro h
    have hsize := h.size
    have hread : lines (terminated (byte '\n') (worldLines world)) = .ok (worldLines world) := by
      apply lines_terminated
      · intro line hmem
        simp only [worldLines, List.mem_cons, List.not_mem_nil, or_false] at hmem
        rcases hmem with rfl | rfl | rfl | rfl | rfl
        · exact ⟨by decide, by decide⟩
        · exact cleanLine_labelled (by decide) _
        · exact cleanLine_labelled (by decide) _
        · exact cleanLine_labelled (by decide) _
        · exact ⟨by decide, by decide⟩
      · exact List.cons_ne_nil _ _
      · show 5 ≤ 16
        omega
      · rw [hlength]
        exact hsize
    have hfield : ∀ (key field : Bytes), 2 * field.length ≤ worldBytes world →
        value (key ++ hexBytes field) key = .ok field := by
      intro key field hfits
      exact value_hexBytes key (Nat.le_trans hfits hsize)
    have hroot := hfield (ascii "ROOT\t") world.rootDirectory (by unfold worldBytes; omega)
    have hpath := hfield (ascii "DB\t") world.databasePath (by unfold worldBytes; omega)
    have hidentity := hfield (ascii "IDENTITY\t") world.descriptorIdentity
      (by unfold worldBytes; omega)
    unfold parseInstalledDatabaseWorld readInstalledDatabaseWorld
    rw [bind_of_ok hread]
    unfold worldLines
    dsimp only
    rw [if_neg (by simp), bind_of_ok hroot, bind_of_ok hpath, bind_of_ok hidentity, if_neg]
    rintro (hne | hne | hne | hne | hne | hne)
    · exact hne h.root
    · exact h.path_ne hne
    · exact hne h.path_head
    · exact h.path_zero hne
    · exact h.identity_ne hne
    · exact hne hwritten

theorem parse_serialize_world (h : SoundWorld world) :
    ∃ protocol, serializeInstalledDatabaseWorld (.known world) = .ok protocol ∧
      parseInstalledDatabaseWorld protocol = .known world :=
  ⟨_, serialize_known world, parse_serialize_world_iff.mpr h.carried⟩

/-! ## Records -/

/-- What a snapshot is when its parts were read and checked one by one. -/
structure SoundSnapshot (record : InstalledPackageRecordSnapshot) : Prop where
  valid : snapshotValid record = true
  name_length : record.packageName.length ≤ 4096
  base_length : record.packageBase.length ≤ 4096
  identity_length : record.descriptorIdentity.length ≤ 923

def snapshotLines (record : InstalledPackageRecordSnapshot) : List Bytes :=
  [recordHeader, ascii "NAME\t" ++ hexBytes record.packageName,
    ascii "BASE\t" ++ hexBytes record.packageBase,
    ascii "VERSION\t" ++ hexBytes record.fullVersion,
    ascii "ARCH\t" ++ hexBytes record.architecture,
    ascii "GENERATION\t" ++ hexBytes record.recordGeneration,
    ascii "MTREE\t" ++ record.rawMtreeSha256,
    ascii "DATABASE\t" ++ record.rawDatabaseSha256,
    ascii "IDENTITY\t" ++ hexBytes record.descriptorIdentity, ascii "END"]

theorem serialize_snapshot (record : InstalledPackageRecordSnapshot) :
    serializeInstalledPackageRecordObservation (.snapshot record) =
      .ok (terminated (byte '\n') (snapshotLines record)) := by
  unfold serializeInstalledPackageRecordObservation snapshotLines
  simp only [terminated_cons, terminated_nil,
    show ascii "\nEND\n" = byte '\n' :: (ascii "END" ++ [byte '\n']) from rfl,
    show ascii "\nBASE\t" = byte '\n' :: ascii "BASE\t" from rfl,
    show ascii "\nVERSION\t" = byte '\n' :: ascii "VERSION\t" from rfl,
    show ascii "\nARCH\t" = byte '\n' :: ascii "ARCH\t" from rfl,
    show ascii "\nGENERATION\t" = byte '\n' :: ascii "GENERATION\t" from rfl,
    show ascii "\nMTREE\t" = byte '\n' :: ascii "MTREE\t" from rfl,
    show ascii "\nDATABASE\t" = byte '\n' :: ascii "DATABASE\t" from rfl,
    show ascii "\nIDENTITY\t" = byte '\n' :: ascii "IDENTITY\t" from rfl,
    show ascii "\n" = [byte '\n'] from rfl, List.append_assoc, List.cons_append,
    List.nil_append]

theorem fieldValid_length {field : Bytes} (h : fieldValid field = true) : field.length ≤ 4096 := by
  simp only [fieldValid, Bool.and_eq_true, decide_eq_true_eq] at h
  exact h.1.2

theorem digest_spec {digest : Bytes} (h : isValidSourceArtifactInstallSha256 digest = true) :
    digest.length = 64 ∧ CleanLine digest := by
  simp only [isValidSourceArtifactInstallSha256, Bool.and_eq_true, decide_eq_true_eq] at h
  exact ⟨h.1, cleanLine_of_lowerHex h.2⟩

/-- The checks of a snapshot, one by one. -/
structure SnapshotFacts (record : InstalledPackageRecordSnapshot) : Prop where
  version : record.fullVersion.length ≤ 4096
  architecture : record.architecture.length ≤ 4096
  generation : record.recordGeneration.length ≤ 1024
  mtree : record.rawMtreeSha256.length = 64 ∧ CleanLine record.rawMtreeSha256
  database : record.rawDatabaseSha256.length = 64 ∧ CleanLine record.rawDatabaseSha256

theorem snapshotFacts (h : snapshotValid record = true) : SnapshotFacts record := by
  simp only [snapshotValid, Bool.and_eq_true, decide_eq_true_eq] at h
  obtain ⟨⟨⟨⟨⟨⟨⟨⟨⟨-, -⟩, hversion⟩, harchitecture⟩, -⟩, hgeneration⟩, -⟩, -⟩, hmtree⟩,
    hdatabase⟩ := h
  exact ⟨fieldValid_length hversion, fieldValid_length harchitecture, hgeneration,
    digest_spec hmtree, digest_spec hdatabase⟩

/-- The length of a snapshot's text. -/
def snapshotBytes (record : InstalledPackageRecordSnapshot) : Nat :=
  2 * (record.packageName.length + record.packageBase.length + record.fullVersion.length +
      record.architecture.length + record.recordGeneration.length +
      record.descriptorIdentity.length) +
    record.rawMtreeSha256.length + record.rawDatabaseSha256.length + 104

theorem snapshotLines_length (record : InstalledPackageRecordSnapshot) :
    (terminated (byte '\n') (snapshotLines record)).length = snapshotBytes record := by
  rw [terminated_length]
  simp only [snapshotLines, List.map_cons, List.map_nil, List.sum_cons, List.sum_nil,
    List.length_append, hexBytes_length,
    show recordHeader.length = 33 from rfl, show (ascii "NAME\t").length = 5 from rfl,
    show (ascii "BASE\t").length = 5 from rfl, show (ascii "VERSION\t").length = 8 from rfl,
    show (ascii "ARCH\t").length = 5 from rfl,
    show (ascii "GENERATION\t").length = 11 from rfl,
    show (ascii "MTREE\t").length = 6 from rfl,
    show (ascii "DATABASE\t").length = 9 from rfl,
    show (ascii "IDENTITY\t").length = 9 from rfl, show (ascii "END").length = 3 from rfl]
  unfold snapshotBytes
  omega

/-- What a snapshot is that the format carries. -/
structure CarriedSnapshot (record : InstalledPackageRecordSnapshot) : Prop where
  valid : snapshotValid record = true
  size : snapshotBytes record ≤ maxProtocolBytes

theorem SoundSnapshot.carried (h : SoundSnapshot record) : CarriedSnapshot record := by
  refine ⟨h.valid, ?_⟩
  have hfacts := snapshotFacts h.valid
  have hname := h.name_length
  have hbase := h.base_length
  have hversion := hfacts.version
  have harchitecture := hfacts.architecture
  have hgeneration := hfacts.generation
  have hidentity := h.identity_length
  have hmtree := hfacts.mtree.1
  have hdatabase := hfacts.database.1
  unfold snapshotBytes maxProtocolBytes
  omega

/-- A snapshot is read back exactly when the format carries it. -/
theorem parse_serialize_snapshot_iff :
    parseInstalledPackageRecordObservation (terminated (byte '\n') (snapshotLines record)) =
        .snapshot record ↔
      CarriedSnapshot record := by
  have hwritten := serialize_snapshot record
  have hlength := snapshotLines_length record
  constructor
  · intro h
    unfold parseInstalledPackageRecordObservation at h
    split at h
    · rename_i result hresult
      rw [h] at hresult
      unfold readInstalledPackageRecordObservation at hresult
      obtain ⟨records, hrecords, hresult⟩ := bind_eq_ok.mp hresult
      have hfits := lines_fits hrecords
      rw [hlength] at hfits
      split at hresult
      · cases hresult
      · split at hresult
        · split at hresult
          · cases hresult
          · obtain ⟨issue, _, hissue⟩ := bind_eq_ok.mp hresult
            cases hissue
        · simp only [bind_eq_ok] at hresult
          obtain ⟨_, _, _, _, _, _, _, _, _, _, _, _, _, _, _, _, hresult⟩ := hresult
          split at hresult
          · cases hresult
          · rename_i hchecks
            injection hresult with hresult
            injection hresult with hrecord
            rw [hrecord] at hchecks
            rw [not_or, Bool.not_eq_false] at hchecks
            exact ⟨hchecks.1, hfits⟩
        · cases hresult
    · cases h
  · intro h
    have hsize := h.size
    have hfacts := snapshotFacts h.valid
    have hread : lines (terminated (byte '\n') (snapshotLines record)) =
        .ok (snapshotLines record) := by
      apply lines_terminated
      · intro line hmem
        simp only [snapshotLines, List.mem_cons, List.not_mem_nil, or_false] at hmem
        rcases hmem with rfl | rfl | rfl | rfl | rfl | rfl | rfl | rfl | rfl | rfl
        · exact ⟨by decide, by decide⟩
        · exact cleanLine_labelled (by decide) _
        · exact cleanLine_labelled (by decide) _
        · exact cleanLine_labelled (by decide) _
        · exact cleanLine_labelled (by decide) _
        · exact cleanLine_labelled (by decide) _
        · exact cleanLine_append ⟨by decide, by decide⟩ hfacts.mtree.2
        · exact cleanLine_append ⟨by decide, by decide⟩ hfacts.database.2
        · exact cleanLine_labelled (by decide) _
        · exact ⟨by decide, by decide⟩
      · exact List.cons_ne_nil _ _
      · show 10 ≤ 16
        omega
      · rw [hlength]
        exact hsize
    have hfield : ∀ (key field : Bytes), 2 * field.length ≤ snapshotBytes record →
        value (key ++ hexBytes field) key = .ok field := by
      intro key field hfits
      exact value_hexBytes key (Nat.le_trans hfits hsize)
    have hplain : ∀ key digest, plainValue (key ++ digest) key = .ok digest := by
      intro key digest
      unfold plainValue
      rw [recordValue_append]
    have hname := hfield (ascii "NAME\t") record.packageName (by unfold snapshotBytes; omega)
    have hbase := hfield (ascii "BASE\t") record.packageBase (by unfold snapshotBytes; omega)
    have hversion := hfield (ascii "VERSION\t") record.fullVersion (by unfold snapshotBytes; omega)
    have harchitecture := hfield (ascii "ARCH\t") record.architecture
      (by unfold snapshotBytes; omega)
    have hgeneration := hfield (ascii "GENERATION\t") record.recordGeneration
      (by unfold snapshotBytes; omega)
    have hidentity := hfield (ascii "IDENTITY\t") record.descriptorIdentity
      (by unfold snapshotBytes; omega)
    unfold parseInstalledPackageRecordObservation readInstalledPackageRecordObservation
    rw [bind_of_ok hread]
    unfold snapshotLines
    dsimp only
    rw [if_neg (by simp), bind_of_ok (hplain _ _), bind_of_ok (hplain _ _),
      bind_of_ok hname, bind_of_ok hbase, bind_of_ok hversion, bind_of_ok harchitecture,
      bind_of_ok hgeneration, bind_of_ok hidentity, if_neg]
    rintro (hne | hne)
    · rw [h.valid] at hne
      cases hne
    · exact hne hwritten

theorem parse_serialize_snapshot (h : SoundSnapshot record) :
    ∃ protocol, serializeInstalledPackageRecordObservation (.snapshot record) = .ok protocol ∧
      parseInstalledPackageRecordObservation protocol = .snapshot record :=
  ⟨_, serialize_snapshot record, parse_serialize_snapshot_iff.mpr h.carried⟩

/-! ## What an observer returns -/

/-- The values of a part of an observation, whatever is answered on the way. -/
def Observes {α : Type} (post : α → Prop) (part : Observing α) : Prop :=
  Stage.Keeps (fun _ _ => True) (fun _ => True) post part

theorem observes_any (part : Observing α) : Observes (fun _ => True) part := by
  unfold Observes Stage.Keeps
  induction part with
  | done result =>
    cases result with
    | error issue => trivial
    | ok value => trivial
  | ask note request next ih => exact ⟨trivial, fun answer => ih answer⟩

theorem observes_bind {middle : α → Prop} (hpart : Observes middle part)
    (hnext : ∀ value, middle value → Observes post (next value)) : Observes post (part >>= next) :=
  Stage.keeps_bind hpart hnext

/-- What a part returns does not depend on what is not looked at. -/
theorem observes_skip (hnext : ∀ value, Observes post (next value)) :
    Observes post (part >>= next) :=
  observes_bind (observes_any part) fun value _ => hnext value

theorem observes_require {condition : Bool} {next : PUnit → Observing β}
    (hnext : condition = true → Observes post (next ⟨⟩)) :
    Observes post (Stage.require condition issue >>= next) :=
  observes_bind (Stage.keeps_require trivial) fun _ h => hnext h

theorem observes_leave {post : α → Prop} : Observes post (Stage.leave issue : Observing α) := trivial

theorem observes_pure {post : α → Prop} {value : α} (h : post value) :
    Observes post (Stage.pure value : Observing α) := h

theorem observes_ofExcept {computed : Except Issue α}
    (hnext : ∀ value, computed = .ok value → Observes post (next value)) :
    Observes post (ofExcept computed >>= next) := by
  have hcomputed : Observes (fun value => computed = .ok value) (ofExcept computed) := by
    cases computed with
    | error issue => trivial
    | ok value => exact rfl
  exact observes_bind hcomputed hnext

/-! ## Identities -/

theorem writeWord_length (value : UInt64) : (writeWord value).length ≤ 20 := by
  apply writeUnsigned_length_le (by decide)
  have hlt := value.toNat_lt
  omega

theorem writeSigned_length (value : Int64) : (writeSigned value).length ≤ 20 := by
  have hlow := value.le_toInt
  have hhigh := value.toInt_lt
  have hdigits : (writeUnsigned value.toInt.natAbs).length ≤ 19 :=
    writeUnsigned_length_le (by decide) (by omega)
  unfold writeSigned
  split
  · rw [List.length_cons]
    omega
  · omega

theorem encode_length (identity : Identity) : identity.encode.length ≤ 230 := by
  have hword := writeWord_length
  have hsigned := writeSigned_length
  have hcolon : (ascii ":").length = 1 := rfl
  have hdevice := hword identity.device
  have hinode := hword identity.inode
  have hmode := hword identity.mode
  have howner := hword identity.owner
  have hgroup := hword identity.group
  have hlinks := hword identity.links
  have hsize := hword identity.size
  have hmtime := hsigned identity.mtimeSeconds
  have hmnano := hsigned identity.mtimeNanoseconds
  have hctime := hsigned identity.ctimeSeconds
  have hcnano := hsigned identity.ctimeNanoseconds
  unfold Identity.encode
  simp only [List.length_append, hcolon]
  omega

theorem identities_length (entries : List RetainedEntry) :
    (entries.flatMap fun entry => entry.identity.encode ++ ascii ";").length ≤
      entries.length * 231 := by
  induction entries with
  | nil => exact Nat.le_refl _
  | cons entry rest ih =>
    have hentry := encode_length entry.identity
    have hsemicolon : (ascii ";").length = 1 := rfl
    rw [List.flatMap_cons, List.length_append, List.length_append, List.length_cons, hsemicolon]
    omega

/-! ## The database -/

theorem openComponents_length {names : List Bytes} :
    ∀ {entries : List RetainedEntry} {parent : Int}, entries ≠ [] → entries.length ≤ 128 →
      Observes (fun opened => opened.1 ≠ [] ∧ opened.1.length ≤ 128)
        (openComponents entries parent names) := by
  induction names with
  | nil =>
    intro entries parent hne hlength
    exact observes_pure ⟨hne, hlength⟩
  | cons name rest ih =>
    intro entries parent hne hlength
    unfold openComponents
    apply observes_require
    intro _
    apply observes_skip
    intro entry
    apply observes_require
    intro hfits
    exact ih (by simp) (of_decide_eq_true hfits)

/-- A database that was opened: its path is plain, and its identity short. -/
structure OpenedPath (databasePath : Bytes) (database : DatabaseDescriptors) : Prop where
  path_ne : databasePath ≠ []
  path_head : databasePath.head? = some (byte '/')
  path_zero : 0 ∉ databasePath
  path_length : databasePath.length ≤ 4096
  identity_ne : database.identity ≠ []
  identity_length : database.identity.length ≤ 29799

theorem open_observes (databasePath : Bytes) :
    Observes (OpenedPath databasePath) (DatabaseDescriptors.open databasePath) := by
  unfold DatabaseDescriptors.open
  apply observes_require
  intro hpath
  obtain ⟨hne, hhead, hlength, hzero, -⟩ := of_decide_eq_true hpath
  apply observes_skip
  intro root
  apply observes_bind (openComponents_length (List.cons_ne_nil _ _) (by simp))
  intro opened hopened
  obtain ⟨hnonempty, hcount⟩ := hopened
  apply observes_skip
  intro localEntry
  apply observes_skip
  intro _
  apply observes_pure
  refine ⟨hne, hhead, hzero, hlength, ?_, ?_⟩
  · obtain ⟨first, rest, hfirst⟩ := List.exists_cons_of_ne_nil hnonempty
    unfold DatabaseDescriptors.identity
    simp only [hfirst, List.cons_append, List.flatMap_cons]
    intro hnil
    have hsemicolon := (List.append_eq_nil_iff.mp (List.append_eq_nil_iff.mp hnil).1).2
    cases hsemicolon
  · have hidentity := identities_length (opened.1 ++ [localEntry])
    rw [List.length_append, List.length_singleton] at hidentity
    unfold DatabaseDescriptors.identity
    dsimp only
    omega

theorem resolveWorld_observes : Observes SoundWorld resolveWorld := by
  unfold resolveWorld
  apply observes_skip
  intro configuration
  apply observes_skip
  intro configured
  apply observes_skip
  intro databasePath
  apply observes_bind (open_observes databasePath)
  intro descriptors hopened
  apply observes_pure
  exact ⟨rfl, hopened.path_ne, hopened.path_head, hopened.path_zero, hopened.path_length,
    hopened.identity_ne, hopened.identity_length⟩

/-! ## The record -/

theorem descCore_names {raw : Bytes} {core : PackageCore} (h : descCore raw = .ok core) :
    isValidPackageName core.packageName = true ∧ isValidPackageName core.packageBase = true := by
  unfold descCore at h
  split at h
  · cases h
  · split at h
    · cases h
    · dsimp only at h
      split at h
      · cases h
      · rename_i hvalid
        injection h with h
        subst h
        simp only [not_or, Bool.not_eq_false] at hvalid
        exact ⟨hvalid.2.2.2.2.1, hvalid.2.2.2.2.2⟩

theorem semanticField_observes {index : Nat} :
    Observes (fun field => fieldValid field = true) (semanticField index) := by
  unfold semanticField
  apply observes_skip
  intro answer
  cases answer with
  | failure => exact observes_leave
  | null => exact observes_leave
  | text field =>
    dsimp only
    split
    · rename_i hvalid
      exact observes_pure hvalid
    · exact observes_leave

/-- What libalpm says is made of four sound fields. -/
structure SoundCore (core : PackageCore) : Prop where
  name : fieldValid core.packageName = true
  base : fieldValid core.packageBase = true
  version : fieldValid core.fullVersion = true
  architecture : fieldValid core.architecture = true

theorem semanticCore_observes : Observes SoundCore semanticCore := by
  unfold semanticCore
  apply observes_bind semanticField_observes
  intro packageName hname
  apply observes_bind semanticField_observes
  intro packageBase hbase
  apply observes_bind semanticField_observes
  intro fullVersion hversion
  apply observes_bind semanticField_observes
  intro architecture harchitecture
  apply observes_skip
  intro loaded
  apply observes_require
  intro _
  exact observes_pure ⟨hname, hbase, hversion, harchitecture⟩

/-- A file is no longer than its limit. -/
theorem readRaw_observes (entry : RetainedEntry) (limit : Nat) (text : Bool) :
    Observes (fun raw => raw.length ≤ limit) (readRaw entry limit text) := by
  unfold readRaw
  apply observes_require
  intro hlimit
  have hlimit := of_decide_eq_true hlimit
  apply observes_skip
  intro answered
  apply observes_skip
  intro contents
  apply observes_skip
  intro _
  apply observes_require
  intro _
  apply observes_pure
  rw [contents.property]
  exact hlimit

theorem rawContentsSha256_valid {contents : Bytes} (h : contents.length < 2 ^ 64) :
    isValidSourceArtifactInstallSha256 (rawContentsSha256 contents) = true := by
  obtain ⟨hash, hhash⟩ := contentDigestHex_eq h
  have hdigest : rawContentsSha256 contents = hashHex hash := hhash
  rw [hdigest]
  unfold isValidSourceArtifactInstallSha256
  rw [length_hashHex, Bool.and_eq_true]
  refine ⟨rfl, List.all_eq_true.mpr ?_⟩
  intro b hmem
  exact isLowerHex_hashHex hmem

/-! ## Generations -/

/-- What a generation is made of. -/
structure SoundGeneration (generation : Bytes) : Prop where
  ne : generation ≠ []
  length : generation.length ≤ 1024
  zero : generation.contains 0 = false

theorem hexInteger_zero (value digits : Nat) : 0 ∉ hexInteger value digits := by
  intro hmem
  exact absurd (isLowerHex_of_mem_hexInteger hmem) (by decide)

theorem writeUnsigned_zero_notMem (value : Nat) : 0 ∉ writeUnsigned value := by
  intro hmem
  exact absurd (writeUnsigned_digit 0 hmem) (by decide)

theorem generationText_sound (metadata : FilesystemMetadata) (handleType : Int32)
    {handle : Bytes} (h : handle.length ≤ maximumHandleBytes) :
    SoundGeneration (generationText (filesystemIdentity metadata) handleType handle) := by
  have hlimit : maximumHandleBytes = 128 := rfl
  have hcount : (writeUnsigned handle.length).length ≤ 3 :=
    writeUnsigned_length_le (by decide) (by omega)
  refine ⟨?_, ?_, ?_⟩
  · intro hnil
    have hlength := congrArg List.length hnil
    simp [generationText, ascii] at hlength
  · unfold generationText filesystemIdentity
    simp only [List.length_append, hexInteger_length, hexBytes_length,
      show (ascii "linux-name-to-handle-at-v1|").length = 27 from rfl,
      show (ascii "fs=").length = 3 from rfl, show (ascii "|fsid=").length = 6 from rfl,
      show (ascii "|type=").length = 6 from rfl, show (ascii "|length=").length = 8 from rfl,
      show (ascii "|handle=").length = 8 from rfl]
    omega
  · rw [List.contains_eq_mem, decide_eq_false_iff_not]
    unfold generationText filesystemIdentity
    have hhex : 0 ∉ hexBytes handle := hexBytes_clean (by decide) handle
    simp only [List.mem_append, not_or, hexInteger_zero, writeUnsigned_zero_notMem, hhex,
      not_false_eq_true, and_true]
    decide

/-- The filesystem is asked again before a generation is handed on. -/
theorem unmoved_observes (descriptor : Int) (filesystem : Bytes) {generation : Bytes}
    (h : SoundGeneration generation) :
    Observes SoundGeneration (do
      let after ← filesystemMetadata descriptor
      Stage.require (filesystemIdentity after = filesystem) .generationMismatch
      Stage.pure generation) := by
  apply observes_skip
  intro after
  apply observes_require
  intro _
  exact observes_pure h

theorem recordGeneration_observes (descriptor : Int) :
    Observes SoundGeneration (recordGeneration descriptor) := by
  unfold recordGeneration
  apply observes_skip
  intro before
  apply observes_skip
  intro sizing
  apply observes_require
  intro hsizing
  have hfits := (of_decide_eq_true hsizing).2.2.2
  apply observes_skip
  intro handle
  apply observes_require
  intro _
  have hlength : ((List.range sizing.handleBytes).map handle.memory).length ≤
      maximumHandleBytes := by
    rw [List.length_map, List.length_range]
    exact hfits
  have hsound := generationText_sound before handle.handleType hlength
  exact unmoved_observes _ _ hsound

/-! ## The observers -/

theorem databasePreimage_length {rawDesc rawFiles : Bytes}
    (hdesc : rawDesc.length ≤ maximumMetadataBytes)
    (hfiles : rawFiles.length ≤ maximumMetadataBytes) :
    (databasePreimage rawDesc rawFiles).length < 2 ^ 64 := by
  have hlimit : maximumMetadataBytes = 4194304 := rfl
  unfold databasePreimage
  simp only [List.length_append, List.length_singleton,
    show (ascii "desc").length = 4 from rfl, show (ascii "files").length = 5 from rfl]
  omega

/-- An observation other than a failure is sound. -/
def SoundObservation : InstalledPackageRecordObservation → Prop
  | .snapshot record => SoundSnapshot record
  | .absent => True
  | .issue _ => True

theorem snapshotRecord_observes (database : DatabaseDescriptors) (name : Bytes)
    (entriesBefore : List Bytes) (selected : SelectedRecord) (admittedFiles : Bytes) :
    Observes SoundObservation
      (snapshotRecord database name entriesBefore selected admittedFiles) := by
  unfold snapshotRecord
  apply observes_bind semanticCore_observes
  intro semantic hsemantic
  apply observes_require
  intro _
  apply observes_skip
  intro _
  apply observes_skip
  intro _
  apply observes_bind (recordGeneration_observes _)
  intro generation hgeneration
  apply observes_bind (readRaw_observes _ _ _)
  intro rawDesc hdesc
  apply observes_bind (readRaw_observes _ _ _)
  intro rawFiles hfiles
  apply observes_bind (readRaw_observes _ _ _)
  intro rawMtree hmtree
  apply observes_require
  intro _
  apply observes_require
  intro _
  apply observes_ofExcept
  intro core hcore
  apply observes_require
  intro hsame
  have hsame : core = semantic := of_decide_eq_true hsame
  subst hsame
  obtain ⟨hname, hbase⟩ := descCore_names hcore
  apply observes_skip
  intro again
  apply observes_require
  intro _
  apply observes_skip
  intro _
  apply observes_skip
  intro _
  apply observes_skip
  intro _
  apply observes_skip
  intro _
  apply observes_skip
  intro _
  apply observes_skip
  intro entriesAfter
  apply observes_require
  intro _
  apply observes_pure
  have hlimit : maximumMtreeBytes = 67108864 := rfl
  have hmtreeDigest := rawContentsSha256_valid (show rawMtree.length < 2 ^ 64 by omega)
  have hdatabaseDigest := rawContentsSha256_valid (databasePreimage_length hdesc hfiles)
  refine ⟨?_, fieldValid_length hsemantic.name, fieldValid_length hsemantic.base, ?_⟩
  · simp [snapshotValid, hname, hbase, hsemantic.version, hsemantic.architecture,
      hgeneration.ne, hgeneration.length, hmtreeDigest, hdatabaseDigest]
    have hsemicolon : ascii ";" ≠ [] := by decide
    have hzero := hgeneration.zero
    rw [List.contains_eq_mem, decide_eq_false_iff_not] at hzero
    exact ⟨hzero, Or.inr (Or.inl hsemicolon)⟩
  · have hrecord := encode_length selected.record.identity
    have hdesc := encode_length selected.desc.identity
    have hfiles := encode_length selected.files.identity
    have hmtree := encode_length selected.mtree.identity
    simp only [List.length_append, show (ascii ";").length = 1 from rfl]
    omega

theorem observeRecord_observes (world : InstalledDatabaseWorld) (name : Bytes) :
    Observes SoundObservation (observeRecord world name) := by
  unfold observeRecord
  apply observes_require
  intro _
  apply observes_skip
  intro database
  apply observes_require
  intro _
  apply observes_skip
  intro entriesBefore
  apply observes_skip
  intro selected
  apply observes_skip
  intro admittedFiles
  apply observes_skip
  intro _
  apply observes_skip
  intro loaded
  apply observes_require
  intro _
  apply observes_skip
  intro answer
  cases answer with
  | failure => exact observes_leave
  | notFound =>
    cases selected with
    | some selected => exact observes_leave
    | none =>
      apply observes_skip
      intro _
      apply observes_skip
      intro entriesAfter
      apply observes_require
      intro _
      exact observes_pure trivial
  | found =>
    cases selected with
    | none => exact observes_leave
    | some selected => exact snapshotRecord_observes _ _ _ _ _

/-! ## What a reader accepts -/

theorem readInstalledDatabaseWorld_known
    (h : readInstalledDatabaseWorld protocol = .ok (.known world)) :
    serializeInstalledDatabaseWorld (.known world) = .ok protocol := by
  unfold readInstalledDatabaseWorld at h
  obtain ⟨records, -, h⟩ := bind_eq_ok.mp h
  split at h
  · cases h
  · split at h
    · obtain ⟨issue, -, h⟩ := bind_eq_ok.mp h
      cases h
    · obtain ⟨root, -, h⟩ := bind_eq_ok.mp h
      obtain ⟨path, -, h⟩ := bind_eq_ok.mp h
      obtain ⟨identity, -, h⟩ := bind_eq_ok.mp h
      dsimp only at h
      split at h
      · cases h
      · rename_i hchecks
        simp only [not_or, not_not] at hchecks
        injection h with h
        injection h with h
        rw [← h]
        exact hchecks.2.2.2.2.2
    · cases h

theorem serialize_of_parse_world (h : parseInstalledDatabaseWorld protocol = .known world) :
    serializeInstalledDatabaseWorld (.known world) = .ok protocol := by
  unfold parseInstalledDatabaseWorld at h
  split at h
  · rename_i result hread
    rw [h] at hread
    exact readInstalledDatabaseWorld_known hread
  · cases h

/-- The lines that are read are the lines of the message. -/
theorem lines_ok (h : lines protocol = .ok records) :
    protocol = terminated (byte '\n') records := by
  unfold lines at h
  split at h
  · cases h
  · obtain ⟨more, hrecords, hprotocol, -⟩ := takeLines_ok h
    rw [hprotocol, hrecords, List.nil_append]

theorem readInstalledPackageRecordObservation_ok
    (h : readInstalledPackageRecordObservation protocol = .ok observation)
    (hvalue : ∀ issue, observation ≠ .issue issue) :
    serializeInstalledPackageRecordObservation observation = .ok protocol := by
  unfold readInstalledPackageRecordObservation at h
  obtain ⟨records, hlines, h⟩ := bind_eq_ok.mp h
  split at h
  · cases h
  · rename_i hends
    simp only [not_or, not_not] at hends
    split at h
    · rename_i header record last
      split at h
      · rename_i habsent
        injection h with h
        have hheader : header = recordHeader := by simpa using hends.1
        have hlast : last = ascii "END" := by simpa using hends.2
        rw [lines_ok hlines, ← h, hheader, habsent, hlast]
        decide +kernel
      · obtain ⟨issue, -, h⟩ := bind_eq_ok.mp h
        injection h with h
        exact absurd h.symm (hvalue issue)
    · obtain ⟨mtree, -, h⟩ := bind_eq_ok.mp h
      obtain ⟨database, -, h⟩ := bind_eq_ok.mp h
      obtain ⟨name, -, h⟩ := bind_eq_ok.mp h
      obtain ⟨base, -, h⟩ := bind_eq_ok.mp h
      obtain ⟨version, -, h⟩ := bind_eq_ok.mp h
      obtain ⟨architecture, -, h⟩ := bind_eq_ok.mp h
      obtain ⟨generation, -, h⟩ := bind_eq_ok.mp h
      obtain ⟨identity, -, h⟩ := bind_eq_ok.mp h
      dsimp only at h
      split at h
      · cases h
      · rename_i hchecks
        simp only [not_or, not_not] at hchecks
        injection h with h
        rw [← h]
        exact hchecks.2
    · cases h

theorem serialize_of_parse_record
    (h : parseInstalledPackageRecordObservation protocol = observation)
    (hvalue : ∀ issue, observation ≠ .issue issue) :
    serializeInstalledPackageRecordObservation observation = .ok protocol := by
  unfold parseInstalledPackageRecordObservation at h
  split at h
  · rename_i result hread
    rw [h] at hread
    exact readInstalledPackageRecordObservation_ok hread hvalue
  · exact absurd h.symm (hvalue _)

/-! ## Both formats -/

theorem parse_serialize_observation (h : SoundObservation observation) :
    ∃ protocol, serializeInstalledPackageRecordObservation observation = .ok protocol ∧
      parseInstalledPackageRecordObservation protocol = observation := by
  cases observation with
  | snapshot record => exact parse_serialize_snapshot h
  | absent => exact parse_serialize_absent
  | issue issue => exact parse_serialize_record_issue issue

theorem observed_sound {name : Bytes}
    (h : Reaches (observeInstalledPackageRecord world name) events (.done observation)) :
    SoundObservation observation := by
  have hholds : Holds (fun _ _ => True) SoundObservation
      (observeInstalledPackageRecord world name) := by
    apply Holds.bind _ (observeRecord_observes world name)
    intro result hresult
    cases result with
    | ok observed => exact hresult
    | error issue => trivial
  exact (hholds.reaches h).1

/-- A world that is known is sound. -/
def SoundWorldResult : InstalledDatabaseWorldResult → Prop
  | .known world => SoundWorld world
  | .issue _ => True

theorem resolved_sound (h : Reaches resolveTrustedInstalledDatabaseWorld events (.done result)) :
    SoundWorldResult result := by
  have hholds : Holds (fun _ _ => True) SoundWorldResult
      resolveTrustedInstalledDatabaseWorld := by
    apply Holds.bind _ resolveWorld_observes
    intro resolved hresolved
    cases resolved with
    | ok world => exact hresolved
    | error issue => trivial
  exact (hholds.reaches h).1

theorem parse_serialize_worldResult (h : SoundWorldResult result) :
    ∃ protocol, serializeInstalledDatabaseWorld result = .ok protocol ∧
      parseInstalledDatabaseWorld protocol = result := by
  cases result with
  | known world => exact parse_serialize_world h
  | issue issue => exact parse_serialize_world_issue issue

/-- Whatever the observers return, and every failure, is written and read back
unchanged; what a reader accepts as a value is the text of that value. -/
theorem installedCodec_faithful :
    (∀ events result,
      Reaches resolveTrustedInstalledDatabaseWorld events (.done result) →
      ∃ protocol, serializeInstalledDatabaseWorld result = .ok protocol ∧
        parseInstalledDatabaseWorld protocol = result) ∧
    (∀ world name events observation,
      Reaches (observeInstalledPackageRecord world name) events (.done observation) →
      ∃ protocol, serializeInstalledPackageRecordObservation observation = .ok protocol ∧
        parseInstalledPackageRecordObservation protocol = observation) ∧
    (∀ issue : Issue,
      (∃ protocol, serializeInstalledDatabaseWorld (.issue issue) = .ok protocol ∧
        parseInstalledDatabaseWorld protocol = .issue issue) ∧
      ∃ protocol, serializeInstalledPackageRecordObservation (.issue issue) = .ok protocol ∧
        parseInstalledPackageRecordObservation protocol = .issue issue) ∧
    (∀ protocol world, parseInstalledDatabaseWorld protocol = .known world →
      serializeInstalledDatabaseWorld (.known world) = .ok protocol) ∧
    ∀ protocol observation, parseInstalledPackageRecordObservation protocol = observation →
      (∀ issue, observation ≠ .issue issue) →
      serializeInstalledPackageRecordObservation observation = .ok protocol := by
  refine ⟨?_, ?_, ?_, ?_, ?_⟩
  · intro events result h
    exact parse_serialize_worldResult (resolved_sound h)
  · intro world name events observation h
    exact parse_serialize_observation (observed_sound h)
  · intro issue
    exact ⟨parse_serialize_world_issue issue, parse_serialize_record_issue issue⟩
  · intro protocol world h
    exact serialize_of_parse_world h
  · intro protocol observation h hvalue
    exact serialize_of_parse_record h hvalue

/-- A file system on which every directory is owned by root, and `pacman-conf`
names `/db`. -/
def plainAnswer : (request : ObservationRequest) → ObservationAnswer request
  | .openat _ _ _ => (3 : Int)
  | .fstat _ => some ⟨1, 2, 0o040755, 0, 0, 2, 40, 5, 6, 7, 8⟩
  | .fstatat _ _ => some ⟨1, 2, 0o040755, 0, 0, 2, 40, 5, 6, 7, 8⟩
  | .readdir _ => some []
  | .pread _ _ => none
  | .fstatfs _ => none
  | .nameToHandle _ _ => ⟨0, false, 0, 0, fun _ => 0⟩
  | .openDatabase _ => true
  | .getPackage _ => PackageAnswer.notFound
  | .getter _ => GetterAnswer.failure
  | .getFiles => false
  | .databaseConfiguration => some (ascii "RootDir = /\nDBPath = /db\n")

def plainWorld : InstalledDatabaseWorld where
  rootDirectory := ascii "/"
  databasePath := ascii "/db"
  descriptorIdentity :=
    ascii "1:2:16877:0:0:0:0:0:0:0:0;1:2:16877:0:0:0:0:0:0:0:0;1:2:16877:0:0:0:0:0:0:0:0;"

/-- The world of a plain file system is known and read back, and a package that
is not in it is read back as absent. -/
theorem installedCodec_faithful_plain :
    (∃ protocol, serializeInstalledDatabaseWorld (.known plainWorld) = .ok protocol ∧
      parseInstalledDatabaseWorld protocol = .known plainWorld) ∧
    ∃ protocol, serializeInstalledPackageRecordObservation .absent = .ok protocol ∧
      parseInstalledPackageRecordObservation protocol = .absent := by
  constructor
  · obtain ⟨events, hevents⟩ := reaches_run (fun (_ : Unit) request => (plainAnswer request, ()))
      resolveTrustedInstalledDatabaseWorld ()
    have hworld : (Program.run (fun (_ : Unit) request => (plainAnswer request, ())) ()
        resolveTrustedInstalledDatabaseWorld).1 = .known plainWorld := by
      decide +kernel
    rw [hworld] at hevents
    exact installedCodec_faithful.1 _ _ hevents
  · obtain ⟨events, hevents⟩ := reaches_run (fun (_ : Unit) request => (plainAnswer request, ()))
      (observeInstalledPackageRecord plainWorld (ascii "p")) ()
    have habsent : (Program.run (fun (_ : Unit) request => (plainAnswer request, ())) ()
        (observeInstalledPackageRecord plainWorld (ascii "p"))).1 = .absent := by
      decide +kernel
    rw [habsent] at hevents
    exact installedCodec_faithful.2.1 _ _ _ _ hevents

end Moguet.Installed.RecordRoundTrip
