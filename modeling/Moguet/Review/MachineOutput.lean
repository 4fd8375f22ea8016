import Moguet.Review.GitParser

/-!
# What Git prints, and what is read

The three streams of a comparison in the format of `-z`: every field ends in a
NUL, which no path contains, so tabs, newlines and quotes in a path are bytes
like any other. A record is printed here as Git prints it, and the readers of
`GitParser` recover exactly the records that were printed.
-/

namespace Moguet.Review.MachineOutput

open Verified ByteString Checked KeyedList Decimal Fields Verified Projection GitParser

variable {path oldPath newPath text rest output : Bytes} {record : StatusRecord} {code : StatusCode}
  {detectRenames : Bool} {content : ReviewedSourceContentChange}
  {version : ReviewedSourceFileVersion} {objectFormat : GitObjectFormat}

/-! ## Printing -/

/-- A path as Git knows it. -/
def IsPath (path : Bytes) : Prop := path ≠ [] ∧ 0 ∉ path

/-- `%03d`: the similarity score of a rename. -/
def writeScore (score : Nat) : Bytes :=
  [UInt8.ofNat (48 + score / 100 % 10), UInt8.ofNat (48 + score / 10 % 10),
    UInt8.ofNat (48 + score % 10)]

def statusLetter : StatusCode → Bytes
  | .added => ascii "A"
  | .modified => ascii "M"
  | .deleted => ascii "D"
  | .typeChanged => ascii "T"
  | .renamed => ascii "R"

def writeStatusRecord (record : StatusRecord) : Bytes :=
  match record.similarity with
  | some score =>
    terminated 0 [statusLetter record.code ++ writeScore score, record.oldPath,
      record.newPath]
  | none => terminated 0 [statusLetter record.code, record.newPath]

/-- A rename carries its score and two different paths, any other record the
one path it is about. -/
structure StatusPrinted (detectRenames : Bool) (record : StatusRecord) : Prop where
  old_path : IsPath record.oldPath
  new_path : IsPath record.newPath
  shape : (record.code = .renamed ∧ detectRenames = true ∧ record.oldPath ≠ record.newPath ∧
      ∃ score, record.similarity = some score ∧ 50 ≤ score ∧ score ≤ 100) ∨
    (record.code ≠ .renamed ∧ record.similarity = none ∧ record.oldPath = record.newPath)

def writeLineCounts : ReviewedSourceContentChange → Bytes
  | .binary => terminated (byte '\t') [ascii "-", ascii "-"]
  | .text addedLines deletedLines =>
    terminated (byte '\t') [writeUnsigned addedLines, writeUnsigned deletedLines]

/-- An empty path field announces the two paths of a rename. -/
def writeNumstatPaths (oldPath newPath : Bytes) : Bytes :=
  if oldPath = newPath then terminated 0 [newPath]
  else terminated 0 [[], oldPath, newPath]

def writeNumstatRecord (record : NumstatRecord) : Bytes :=
  writeLineCounts record.content ++ writeNumstatPaths record.oldPath record.newPath

/-- Line counts are those of the machine. -/
def CountsFit : ReviewedSourceContentChange → Prop
  | .binary => True
  | .text addedLines deletedLines => addedLines < 2 ^ 64 ∧ deletedLines < 2 ^ 64

structure NumstatPrinted (record : NumstatRecord) : Prop where
  old_path : IsPath record.oldPath
  new_path : IsPath record.newPath
  counts : CountsFit record.content

def modeText : ReviewedSourceFileMode → Bytes
  | .regular => ascii "100644"
  | .executable => ascii "100755"
  | .symbolicLink => ascii "120000"
  | .gitlink => ascii "160000"

def objectTypeText (mode : ReviewedSourceFileMode) : Bytes :=
  if mode = .gitlink then ascii "commit" else ascii "blob"

/-- A submodule link has no size. -/
def blobSizeText : Option Nat → Bytes
  | none => ascii "-"
  | some size => writeUnsigned size

def writeTreeMetadata (version : ReviewedSourceFileVersion) : Bytes :=
  terminated 0 [modeText version.mode, objectTypeText version.mode, version.objectId.value,
    blobSizeText version.blobSize]

def writeTreePath (version : ReviewedSourceFileVersion) : Bytes :=
  terminated 0 [version.rawPath]

structure VersionPrinted (objectFormat : GitObjectFormat)
    (version : ReviewedSourceFileVersion) : Prop where
  format : version.objectId.format = objectFormat
  size : ∀ size, version.blobSize = some size → size < 2 ^ 64

/-! ## Paths -/

theorem takePath_write (h : IsPath path) (rest : Bytes) :
    takePath (terminated 0 [path] ++ rest) = some (path, rest) := by
  have htake : takeField 0 (terminated 0 [path] ++ rest) = some (path, rest) := by
    rw [terminated_cons, terminated_nil, List.append_assoc]
    exact takeField_append h.2 rest
  unfold takePath
  rw [htake]
  simp [h.1]

theorem takePathPair_write (hold : IsPath oldPath) (hnew : IsPath newPath) (hne : oldPath ≠ newPath)
    (rest : Bytes) :
    takePathPair (terminated 0 [oldPath, newPath] ++ rest) = some ((oldPath, newPath), rest) := by
  have hfirst : takeField 0 (terminated 0 [oldPath, newPath] ++ rest) =
      some (oldPath, terminated 0 [newPath] ++ rest) := by
    rw [terminated_cons, List.append_assoc]
    exact takeField_append hold.2 _
  have hsecond : takeField 0 (terminated 0 [newPath] ++ rest) = some (newPath, rest) := by
    rw [terminated_cons, terminated_nil, List.append_assoc]
    exact takeField_append hnew.2 rest
  unfold takePathPair
  rw [hfirst, Option.bind_eq_bind, Option.bind_some]
  dsimp only
  rw [hsecond, Option.bind_some, guard_pos ⟨hold.1, hnew.1, hne⟩]
  rfl

theorem takePath_some (h : takePath text = some (path, rest)) : IsPath path := by
  unfold takePath at h
  obtain ⟨⟨taken, tail⟩, htake, h⟩ := Option.bind_eq_some_iff.mp h
  obtain ⟨_, hguard, h⟩ := Option.bind_eq_some_iff.mp h
  injection h with h
  injection h with hpath _
  rw [← hpath]
  exact ⟨of_guard hguard, (takeField_eq_some_iff.mp htake).1⟩

theorem takePathPair_some (h : takePathPair text = some ((oldPath, newPath), rest)) :
    IsPath oldPath ∧ IsPath newPath ∧ oldPath ≠ newPath := by
  unfold takePathPair at h
  obtain ⟨⟨first, middle⟩, hfirst, h⟩ := Option.bind_eq_some_iff.mp h
  obtain ⟨⟨second, tail⟩, hsecond, h⟩ := Option.bind_eq_some_iff.mp h
  obtain ⟨_, hguard, h⟩ := Option.bind_eq_some_iff.mp h
  have hcheck := of_guard hguard
  injection h with h
  injection h with hpaths _
  injection hpaths with hold hnew
  rw [← hold, ← hnew]
  exact ⟨⟨hcheck.1, (takeField_eq_some_iff.mp hfirst).1⟩,
    ⟨hcheck.2.1, (takeField_eq_some_iff.mp hsecond).1⟩, hcheck.2.2⟩

/-! ## Name-status records -/

theorem writeScore_spec : ∀ score < 101,
    parseUnsigned (2 ^ 32) (writeScore score) = some score ∧ 0 ∉ writeScore score := by
  decide +kernel

theorem readRenameStatus_write {score : Nat} (hold : IsPath record.oldPath)
    (hnew : IsPath record.newPath) (hcode : record.code = .renamed)
    (hne : record.oldPath ≠ record.newPath) (hscore : record.similarity = some score)
    (hlow : 50 ≤ score) (hhigh : score ≤ 100) (rest : Bytes) :
    readRenameStatus true (writeScore score)
        (terminated 0 [record.oldPath, record.newPath] ++ rest) = some (record, rest) := by
  obtain ⟨hparse, -⟩ := writeScore_spec score (by omega)
  have hrecord : (⟨.renamed, some score, record.oldPath, record.newPath⟩ : StatusRecord) =
      record := by
    rw [← hcode, ← hscore]
  unfold readRenameStatus
  rw [guard_pos rfl, hparse]
  simp only [Option.bind_eq_bind, Option.bind_some, guard_pos (And.intro hlow hhigh),
    takePathPair_write hold hnew hne rest, hrecord]

theorem plainStatusCode_letter (h : code ≠ .renamed) :
    plainStatusCode (statusLetter code) = some code := by
  cases code with
  | renamed => exact absurd rfl h
  | added | modified | deleted | typeChanged => decide

/-- A printed record is read off the text it stands in front of. -/
theorem readStatusRecord_write (h : StatusPrinted detectRenames record) (rest : Bytes) :
    readStatusRecord detectRenames (writeStatusRecord record ++ rest) = some (record, rest) := by
  rcases h.shape with ⟨hcode, hdetect, hne, score, hscore, hlow, hhigh⟩ | ⟨hcode, hscore, hsame⟩
  · obtain ⟨-, hnul⟩ := writeScore_spec score (by omega)
    have hfield : takeField 0 (writeStatusRecord record ++ rest) =
        some (byte 'R' :: writeScore score,
          terminated 0 [record.oldPath, record.newPath] ++ rest) := by
      unfold writeStatusRecord
      rw [hscore, hcode]
      dsimp only
      rw [terminated_cons, List.append_assoc]
      apply takeField_append
      show 0 ∉ byte 'R' :: writeScore score
      rw [List.mem_cons, not_or]
      exact ⟨by decide, hnul⟩
    unfold readStatusRecord
    rw [hfield]
    dsimp only
    rw [if_pos rfl, hdetect]
    exact readRenameStatus_write h.old_path h.new_path hcode hne hscore hlow hhigh rest
  · have hfield : takeField 0 (writeStatusRecord record ++ rest) =
        some (statusLetter record.code, terminated 0 [record.newPath] ++ rest) := by
      unfold writeStatusRecord
      rw [hscore]
      dsimp only
      rw [terminated_cons, List.append_assoc]
      apply takeField_append
      cases record.code <;> decide
    have hplain : readPlainStatus (statusLetter record.code)
        (terminated 0 [record.newPath] ++ rest) = some (record, rest) := by
      unfold readPlainStatus
      rw [plainStatusCode_letter hcode]
      simp only [takePath_write h.new_path rest, Option.bind_eq_bind, Option.bind_some]
      have hrecord : (⟨record.code, none, record.newPath, record.newPath⟩ : StatusRecord) =
          record := by
        cases record
        cases hscore
        cases hsame
        rfl
      rw [hrecord]
    have hletter : ∃ b tail, statusLetter record.code = b :: tail ∧ b ≠ byte 'R' := by
      cases hkind : record.code with
      | renamed => exact absurd hkind hcode
      | added => exact ⟨_, _, rfl, by decide⟩
      | modified => exact ⟨_, _, rfl, by decide⟩
      | deleted => exact ⟨_, _, rfl, by decide⟩
      | typeChanged => exact ⟨_, _, rfl, by decide⟩
    obtain ⟨b, tail, hletters, hb⟩ := hletter
    unfold readStatusRecord
    rw [hfield, hletters]
    dsimp only
    rw [if_neg hb, ← hletters]
    exact hplain

theorem plainStatusCode_ne_renamed {status : Bytes} (h : plainStatusCode status = some code) :
    code ≠ .renamed := by
  unfold plainStatusCode at h
  rintro rfl
  split at h
  · cases h
  · split at h
    · cases h
    · split at h
      · cases h
      · split at h <;> cases h

/-- What is read is a record that can be printed. -/
theorem readStatusRecord_printed (h : readStatusRecord detectRenames text = some (record, rest)) :
    StatusPrinted detectRenames record := by
  unfold readStatusRecord at h
  split at h
  · cases h
  · cases h
  · rename_i code score tail hfield
    split at h
    · unfold readRenameStatus at h
      obtain ⟨_, hdetect, h⟩ := Option.bind_eq_some_iff.mp h
      obtain ⟨similarity, hscore, h⟩ := Option.bind_eq_some_iff.mp h
      obtain ⟨_, hrange, h⟩ := Option.bind_eq_some_iff.mp h
      obtain ⟨⟨⟨oldPath, newPath⟩, after⟩, hpaths, h⟩ := Option.bind_eq_some_iff.mp h
      have hlimits := of_guard hrange
      injection h with h
      injection h with hrecord _
      obtain ⟨hold, hnew, hne⟩ := takePathPair_some hpaths
      rw [← hrecord]
      exact ⟨hold, hnew, Or.inl ⟨rfl, of_guard hdetect, hne, similarity, rfl, hlimits.1, hlimits.2⟩⟩
    · unfold readPlainStatus at h
      obtain ⟨kind, hkind, h⟩ := Option.bind_eq_some_iff.mp h
      obtain ⟨⟨path, after⟩, hpath, h⟩ := Option.bind_eq_some_iff.mp h
      injection h with h
      injection h with hrecord _
      have hvalid := takePath_some hpath
      rw [← hrecord]
      exact ⟨hvalid, hvalid, Or.inr ⟨plainStatusCode_ne_renamed hkind, rfl, rfl⟩⟩

/-! ## Numstat records -/

theorem writeUnsigned_ne_dash (value : Nat) : writeUnsigned value ≠ ascii "-" := by
  intro heq
  have hdash := @writeUnsigned_digit value (byte '-') (by rw [heq]; decide)
  exact absurd hdash (by decide)

def countFields : ReviewedSourceContentChange → Bytes × Bytes
  | .binary => (ascii "-", ascii "-")
  | .text addedLines deletedLines => (writeUnsigned addedLines, writeUnsigned deletedLines)

theorem writeLineCounts_eq (content : ReviewedSourceContentChange) (rest : Bytes) :
    writeLineCounts content ++ rest =
      (countFields content).1 ++ byte '\t' :: ((countFields content).2 ++ byte '\t' :: rest) := by
  cases content with
  | binary => rfl
  | text addedLines deletedLines =>
    unfold writeLineCounts countFields
    rw [terminated_cons, terminated_cons, terminated_nil]
    simp

theorem countFields_tab (content : ReviewedSourceContentChange) :
    byte '\t' ∉ (countFields content).1 ∧ byte '\t' ∉ (countFields content).2 := by
  cases content with
  | binary => decide
  | text addedLines deletedLines =>
    exact ⟨not_mem_writeUnsigned addedLines (by decide),
      not_mem_writeUnsigned deletedLines (by decide)⟩

theorem parseLineCounts_write (h : CountsFit content) :
    parseLineCounts (countFields content).1 (countFields content).2 = some content := by
  cases content with
  | binary => rfl
  | text addedLines deletedLines =>
    unfold countFields parseLineCounts
    rw [if_neg (fun hboth => writeUnsigned_ne_dash addedLines hboth.1),
      if_neg (not_or.mpr ⟨writeUnsigned_ne_dash addedLines, writeUnsigned_ne_dash deletedLines⟩),
      parseUnsigned_writeUnsigned h.1, parseUnsigned_writeUnsigned h.2]
    rfl

theorem parseLineCounts_fit {added deleted : Bytes}
    (h : parseLineCounts added deleted = some content) : CountsFit content := by
  unfold parseLineCounts at h
  split at h
  · injection h with h
    rw [← h]
    trivial
  · split at h
    · cases h
    · obtain ⟨addedLines, hadded, h⟩ := Option.bind_eq_some_iff.mp h
      obtain ⟨deletedLines, hdeleted, h⟩ := Option.bind_eq_some_iff.mp h
      injection h with h
      rw [← h]
      exact ⟨(parseUnsigned_eq_some_iff.mp hadded).2.2.2,
        (parseUnsigned_eq_some_iff.mp hdeleted).2.2.2⟩

/-- A plain path does not start with the byte that announces a rename. -/
theorem takeNumstatPaths_write (hold : IsPath oldPath) (hnew : IsPath newPath) (rest : Bytes) :
    takeNumstatPaths (writeNumstatPaths oldPath newPath ++ rest) =
      some ((oldPath, newPath), rest) := by
  unfold writeNumstatPaths
  by_cases hsame : oldPath = newPath
  · rw [if_pos hsame, hsame]
    have htake := takePath_write hnew rest
    have hfront : ∃ b tail, terminated 0 [newPath] ++ rest = b :: tail ∧ b ≠ 0 := by
      cases newPath with
      | nil => exact absurd rfl hnew.1
      | cons b path =>
        refine ⟨b, path ++ 0 :: rest, ?_, ?_⟩
        · rw [terminated_cons, terminated_nil, List.append_assoc]
          rfl
        · intro hb
          exact hnew.2 (by rw [hb]; exact List.mem_cons_self)
    obtain ⟨b, tail, htext, hb⟩ := hfront
    rw [htext] at htake
    rw [htext]
    unfold takeNumstatPaths
    split
    · rename_i hzero
      injection hzero with hzero _
      exact absurd hzero hb
    · rw [htake]
      rfl
  · rw [if_neg hsame]
    exact takePathPair_write hold hnew hsame rest

theorem takeNumstatPaths_some (h : takeNumstatPaths text = some ((oldPath, newPath), rest)) :
    IsPath oldPath ∧ IsPath newPath := by
  unfold takeNumstatPaths at h
  split at h
  · obtain ⟨hold, hnew, -⟩ := takePathPair_some h
    exact ⟨hold, hnew⟩
  · obtain ⟨⟨path, tail⟩, htake, h⟩ := Option.map_eq_some_iff.mp h
    injection h with hpaths _
    injection hpaths with hold hnew
    rw [← hold, ← hnew]
    exact ⟨takePath_some htake, takePath_some htake⟩

theorem readNumstatRecord_write {record : NumstatRecord} (h : NumstatPrinted record)
    (rest : Bytes) :
    readNumstatRecord (writeNumstatRecord record ++ rest) = some (record, rest) := by
  obtain ⟨hadded, hdeleted⟩ := countFields_tab record.content
  unfold readNumstatRecord writeNumstatRecord
  rw [List.append_assoc, writeLineCounts_eq, takeField_append hadded]
  simp only [Option.bind_eq_bind, Option.bind_some, takeField_append hdeleted,
    parseLineCounts_write h.counts, takeNumstatPaths_write h.old_path h.new_path rest]

theorem readNumstatRecord_printed {record : NumstatRecord}
    (h : readNumstatRecord text = some (record, rest)) : NumstatPrinted record := by
  unfold readNumstatRecord at h
  obtain ⟨⟨added, afterAdded⟩, -, h⟩ := Option.bind_eq_some_iff.mp h
  obtain ⟨⟨deleted, afterDeleted⟩, -, h⟩ := Option.bind_eq_some_iff.mp h
  obtain ⟨content, hcontent, h⟩ := Option.bind_eq_some_iff.mp h
  obtain ⟨⟨⟨oldPath, newPath⟩, after⟩, hpaths, h⟩ := Option.bind_eq_some_iff.mp h
  injection h with h
  injection h with hrecord _
  obtain ⟨hold, hnew⟩ := takeNumstatPaths_some hpaths
  rw [← hrecord]
  exact ⟨hold, hnew, parseLineCounts_fit hcontent⟩

/-! ## Trees -/

theorem isPath_rawPath (version : ReviewedSourceFileVersion) : IsPath version.rawPath :=
  ⟨version.path.nonempty, version.path.no_nul⟩

theorem objectId_make (objectId : ReviewedSourceObjectId) :
    ReviewedSourceObjectId.make objectId.value = some objectId := by
  unfold ReviewedSourceObjectId.make
  split
  · rename_i hformat
    rw [objectId.complete] at hformat
    cases hformat
  · rename_i format hformat
    rw [dif_pos objectId.lower_hex]
    have hsame : format = objectId.format := by
      have hboth := hformat.symm.trans objectId.complete
      exact Option.some.inj hboth
    cases objectId
    cases hsame
    rfl

theorem objectId_no_nul (objectId : ReviewedSourceObjectId) : 0 ∉ objectId.value := by
  intro hmem
  have hhex := List.all_eq_true.mp objectId.lower_hex 0 hmem
  exact absurd hhex (by decide)

theorem path_make (path : ReviewedSourcePath) :
    ReviewedSourcePath.make path.rawBytes = some path := by
  unfold ReviewedSourcePath.make
  rw [dif_pos ⟨path.nonempty, path.no_nul⟩]

theorem version_make (version : ReviewedSourceFileVersion) :
    ReviewedSourceFileVersion.make version.path version.mode version.objectId
      version.blobSize = some version := by
  unfold ReviewedSourceFileVersion.make
  rw [dif_pos version.consistent]

theorem parseBlobSize_write (hsize : ∀ size, version.blobSize = some size → size < 2 ^ 64) :
    parseBlobSize version.mode (blobSizeText version.blobSize) = some version.blobSize := by
  unfold parseBlobSize
  cases hblob : version.blobSize with
  | none =>
    rw [if_pos (version.consistent.mpr hblob)]
    rfl
  | some size =>
    have hmode : version.mode ≠ .gitlink := by
      intro hgitlink
      rw [version.consistent.mp hgitlink] at hblob
      cases hblob
    rw [if_neg hmode]
    unfold blobSizeText
    rw [parseUnsigned_writeUnsigned (hsize size hblob)]
    rfl

theorem blobSizeText_no_nul (blobSize : Option Nat) : 0 ∉ blobSizeText blobSize := by
  cases blobSize with
  | none => decide
  | some size => exact not_mem_writeUnsigned size (by decide)

theorem parseMode_write (mode : ReviewedSourceFileMode) :
    parseMode (modeText mode) = some mode ∧ 0 ∉ modeText mode ∧
      objectTypeMatchesMode (objectTypeText mode) mode = true ∧ 0 ∉ objectTypeText mode := by
  cases mode <;> decide

/-- A printed entry is read off the two texts it stands in front of. -/
theorem readTreeEntry_write (h : VersionPrinted objectFormat version) (metadata paths : Bytes) :
    readTreeEntry objectFormat (writeTreeMetadata version ++ metadata)
        (writeTreePath version ++ paths) = some (version, metadata, paths) := by
  obtain ⟨hmode, hmodeNul, htype, htypeNul⟩ := parseMode_write version.mode
  have hfields : writeTreeMetadata version ++ metadata =
      modeText version.mode ++ 0 :: (objectTypeText version.mode ++ 0 ::
        (version.objectId.value ++ 0 :: (blobSizeText version.blobSize ++ 0 :: metadata))) := by
    unfold writeTreeMetadata
    simp
  have hpath := takePath_write (isPath_rawPath version) paths
  have hmake : ReviewedSourcePath.make version.rawPath = some version.path :=
    path_make version.path
  unfold readTreeEntry
  rw [hfields, takeField_append hmodeNul]
  simp only [Option.bind_eq_bind, Option.bind_some, takeField_append htypeNul,
    takeField_append (objectId_no_nul version.objectId),
    takeField_append (blobSizeText_no_nul version.blobSize)]
  unfold writeTreePath
  simp only [hpath, Option.bind_some, hmode, htype, guard, if_true,
    parseBlobSize_write h.size, objectId_make, h.format, hmake, version_make]
  rfl

theorem writeTreeMetadata_ne_nil (version : ReviewedSourceFileVersion) :
    writeTreeMetadata version ≠ [] := by
  unfold writeTreeMetadata
  rw [terminated_cons]
  exact List.append_ne_nil_of_right_ne_nil _ (List.cons_ne_nil _ _)

/-- The entries of a printed tree are appended one by one: the induction is on
them, and a path that is not listed yet stays so. -/
theorem readTreeEntries_written (stream : ReviewedSourceMachineStream) :
    ∀ (versions : List ReviewedSourceFileVersion) (inventory : ReviewedSourceTreeInventory)
      (fuel : Nat), (∀ version ∈ versions, VersionPrinted objectFormat version) →
      KeyedList.Unique ReviewedSourceFileVersion.rawPath (inventory.entries ++ versions) →
      (versions.flatMap writeTreeMetadata).length ≤ fuel →
      ∃ read, readTreeEntries objectFormat stream fuel inventory
          (versions.flatMap writeTreeMetadata) (versions.flatMap writeTreePath) = .ok read ∧
        read.entries = inventory.entries ++ versions := by
  intro versions
  induction versions with
  | nil =>
    intro inventory fuel _ _ _
    refine ⟨inventory, ?_, (List.append_nil _).symm⟩
    cases fuel <;> rfl
  | cons version versions ih =>
    intro inventory fuel hprinted hunique hfuel
    have hread := readTreeEntry_write (hprinted version List.mem_cons_self)
      (versions.flatMap writeTreeMetadata) (versions.flatMap writeTreePath)
    have hlength := List.length_pos_iff.mpr (writeTreeMetadata_ne_nil version)
    rw [List.flatMap_cons, List.length_append] at hfuel
    rw [List.flatMap_cons, List.flatMap_cons]
    have hfresh : findEntry inventory version.rawPath = none := by
      unfold findEntry
      rw [lookup_eq_none_iff]
      unfold KeyedList.Unique at hunique
      rw [List.map_append, List.map_cons, List.nodup_append] at hunique
      intro item hitem hsame
      exact hunique.2.2 _ (List.mem_map_of_mem hitem) _ List.mem_cons_self hsame
    cases fuel with
    | zero => omega
    | succ fuel =>
      generalize hmetadata :
        writeTreeMetadata version ++ versions.flatMap writeTreeMetadata = metadata at hread ⊢
      cases metadata with
      | nil =>
        exact absurd (List.append_eq_nil_iff.mp hmetadata).1 (writeTreeMetadata_ne_nil version)
      | cons b metadata =>
        unfold readTreeEntries
        rw [hread]
        dsimp only
        rw [dif_pos hfresh]
        obtain ⟨read, hok, hentries⟩ := ih
          ⟨inventory.entries ++ [version], unique_concat inventory.unique_paths hfresh⟩ fuel
          (fun other hother => hprinted other (List.mem_cons_of_mem _ hother))
          (by rw [List.append_assoc]; exact hunique) (by omega)
        refine ⟨read, hok, ?_⟩
        rw [hentries, List.append_assoc]
        rfl

/-- What is read is an entry that can be printed. -/
theorem readTreeEntry_printed {metadata paths restMetadata restPaths : Bytes}
    (h : readTreeEntry objectFormat metadata paths = some (version, restMetadata, restPaths)) :
    VersionPrinted objectFormat version := by
  unfold readTreeEntry at h
  obtain ⟨⟨modeField, afterMode⟩, -, h⟩ := Option.bind_eq_some_iff.mp h
  obtain ⟨⟨typeField, afterType⟩, -, h⟩ := Option.bind_eq_some_iff.mp h
  obtain ⟨⟨objectField, afterObject⟩, -, h⟩ := Option.bind_eq_some_iff.mp h
  obtain ⟨⟨sizeField, afterSize⟩, -, h⟩ := Option.bind_eq_some_iff.mp h
  obtain ⟨⟨pathField, afterPath⟩, -, h⟩ := Option.bind_eq_some_iff.mp h
  obtain ⟨mode, -, h⟩ := Option.bind_eq_some_iff.mp h
  obtain ⟨_, -, h⟩ := Option.bind_eq_some_iff.mp h
  obtain ⟨blobSize, hsize, h⟩ := Option.bind_eq_some_iff.mp h
  obtain ⟨objectId, -, h⟩ := Option.bind_eq_some_iff.mp h
  obtain ⟨_, hformat, h⟩ := Option.bind_eq_some_iff.mp h
  obtain ⟨path, -, h⟩ := Option.bind_eq_some_iff.mp h
  obtain ⟨made, hmade, h⟩ := Option.bind_eq_some_iff.mp h
  injection h with h
  injection h with hversion _
  unfold ReviewedSourceFileVersion.make at hmade
  split at hmade
  · injection hmade with hmade
    rw [← hversion, ← hmade]
    refine ⟨of_guard hformat, ?_⟩
    intro size hblob
    change blobSize = some size at hblob
    rw [hblob] at hsize
    unfold parseBlobSize at hsize
    split at hsize
    · split at hsize
      · cases hsize
      · cases hsize
    · obtain ⟨known, hknown, hsame⟩ := Option.map_eq_some_iff.mp hsize
      injection hsame with hsame
      rw [← hsame]
      exact (parseUnsigned_eq_some_iff.mp hknown).2.2.2
  · cases hmade

theorem readTreeEntries_printed {stream : ReviewedSourceMachineStream} :
    ∀ {fuel : Nat} {inventory read : ReviewedSourceTreeInventory} {metadata paths : Bytes},
      readTreeEntries objectFormat stream fuel inventory metadata paths = .ok read →
      (∀ version ∈ inventory.entries, VersionPrinted objectFormat version) →
      ∀ version ∈ read.entries, VersionPrinted objectFormat version := by
  intro fuel
  induction fuel with
  | zero =>
    intro inventory read metadata paths h hprinted
    cases metadata with
    | nil =>
      unfold readTreeEntries at h
      split at h
      · injection h with h
        rw [← h]
        exact hprinted
      · cases h
    | cons b metadata => cases h
  | succ fuel ih =>
    intro inventory read metadata paths h hprinted
    cases metadata with
    | nil =>
      unfold readTreeEntries at h
      split at h
      · injection h with h
        rw [← h]
        exact hprinted
      · cases h
    | cons b metadata =>
      unfold readTreeEntries at h
      split at h
      · cases h
      · rename_i version restMetadata restPaths hread
        split at h
        · apply ih h
          intro other hother
          rcases List.mem_append.mp hother with hother | hother
          · exact hprinted other hother
          · rw [List.mem_singleton.mp hother]
            exact readTreeEntry_printed hread
        · cases h

/-! ## The streams -/

def writeNameStatus (records : List StatusRecord) : Bytes :=
  records.flatMap writeStatusRecord

def writeNumstat (records : List NumstatRecord) : Bytes :=
  records.flatMap writeNumstatRecord

/-- The two parallel outputs about a tree. -/
def writeTree (versions : List ReviewedSourceFileVersion) : Bytes × Bytes :=
  (versions.flatMap writeTreeMetadata, versions.flatMap writeTreePath)

def readTree (objectFormat : GitObjectFormat) (stream : ReviewedSourceMachineStream)
    (output : Bytes × Bytes) : Projected (List ReviewedSourceFileVersion) :=
  (parseReviewedSourceTreeOutput output.1 output.2 objectFormat stream).map (·.entries)

/-- A tree lists every path once. -/
structure TreePrinted (objectFormat : GitObjectFormat)
    (versions : List ReviewedSourceFileVersion) : Prop where
  printed : ∀ version ∈ versions, VersionPrinted objectFormat version
  unique_paths : KeyedList.Unique ReviewedSourceFileVersion.rawPath versions

theorem writeStatusRecord_ne_nil (record : StatusRecord) : writeStatusRecord record ≠ [] := by
  unfold writeStatusRecord
  split
  · rw [terminated_cons]
    exact List.append_ne_nil_of_right_ne_nil _ (List.cons_ne_nil _ _)
  · rw [terminated_cons]
    exact List.append_ne_nil_of_right_ne_nil _ (List.cons_ne_nil _ _)

theorem writeNumstatRecord_ne_nil (record : NumstatRecord) : writeNumstatRecord record ≠ [] := by
  unfold writeNumstatRecord
  rw [writeLineCounts_eq]
  exact List.append_ne_nil_of_right_ne_nil _ (List.cons_ne_nil _ _)

/-- Reading recovers what was printed, whatever is read could have been printed,
and no output is printed for two lists. -/
structure Recovers {ω ε α : Type} (read : ω → Except ε (List α)) (write : List α → ω)
    (Printed : List α → Prop) : Prop where
  reads : ∀ records, Printed records → read (write records) = .ok records
  accepts : ∀ output records, read output = .ok records → Printed records
  unique : ∀ first second, Printed first → Printed second → write first = write second →
    first = second

theorem Recovers.of_reads {ω ε α : Type} {read : ω → Except ε (List α)} {write : List α → ω}
    {Printed : List α → Prop}
    (hreads : ∀ records, Printed records → read (write records) = .ok records)
    (haccepts : ∀ output records, read output = .ok records → Printed records) :
    Recovers read write Printed where
  reads := hreads
  accepts := haccepts
  unique := by
    intro first second hfirst hsecond hsame
    have hread := hreads first hfirst
    rw [hsame, hreads second hsecond] at hread
    injection hread with hread
    exact hread.symm

theorem nameStatus_recovers (detectRenames : Bool) :
    Recovers (parseNameStatus · detectRenames) writeNameStatus
      (fun records => ∀ record ∈ records, StatusPrinted detectRenames record) := by
  apply Recovers.of_reads
  · intro records h
    exact readRecords_written records
      (fun record hrecord rest => readStatusRecord_write (h record hrecord) rest)
      (fun record _ => writeStatusRecord_ne_nil record) _ 0 (Nat.le_refl _)
  · intro output records h record hrecord
    obtain ⟨front, rest, hread⟩ := readRecords_mem h record hrecord
    exact readStatusRecord_printed hread

theorem numstat_recovers : Recovers parseNumstat writeNumstat
      (fun records => ∀ record ∈ records, NumstatPrinted record) := by
  apply Recovers.of_reads
  · intro records h
    exact readRecords_written records
      (fun record hrecord rest => readNumstatRecord_write (h record hrecord) rest)
      (fun record _ => writeNumstatRecord_ne_nil record) _ 0 (Nat.le_refl _)
  · intro output records h record hrecord
    obtain ⟨front, rest, hread⟩ := readRecords_mem h record hrecord
    exact readNumstatRecord_printed hread

theorem tree_recovers (objectFormat : GitObjectFormat) (stream : ReviewedSourceMachineStream) :
    Recovers (readTree objectFormat stream) writeTree (TreePrinted objectFormat) := by
  apply Recovers.of_reads
  · intro versions h
    obtain ⟨read, hread, hentries⟩ := readTreeEntries_written stream versions
      ReviewedSourceTreeInventory.empty _ h.printed h.unique_paths (Nat.le_refl _)
    unfold readTree writeTree parseReviewedSourceTreeOutput
    rw [hread]
    exact congrArg Except.ok hentries
  · intro output versions h
    unfold readTree at h
    cases hread : parseReviewedSourceTreeOutput output.1 output.2 objectFormat stream with
    | error failure =>
      rw [hread] at h
      cases h
    | ok inventory =>
      rw [hread] at h
      injection h with h
      rw [← h]
      exact ⟨readTreeEntries_printed hread (List.forall_mem_nil _), inventory.unique_paths⟩

/-- Without renames no more is read than with them. -/
theorem readStatusRecord_renames (h : readStatusRecord false text = some (record, rest)) :
    readStatusRecord true text = some (record, rest) := by
  unfold readStatusRecord at h ⊢
  split at h
  · cases h
  · cases h
  · split at h
    · cases h
    · rename_i hplain
      rw [if_neg hplain]
      exact h

theorem parseNameStatus_renames {records : List StatusRecord}
    (h : parseNameStatus output false = .ok records) : parseNameStatus output true = .ok records :=
  readRecords_mono (fun hread => readStatusRecord_renames hread) h

/-- An output read with and without renames is read as one list. -/
theorem parseNameStatus_unique {detected undetected : Bool} {first second : List StatusRecord}
    (hfirst : parseNameStatus output detected = .ok first)
    (hsecond : parseNameStatus output undetected = .ok second) : first = second := by
  have htrue : ∀ {detect : Bool} {records : List StatusRecord},
      parseNameStatus output detect = .ok records →
      parseNameStatus output true = .ok records := by
    intro detect records h
    cases detect with
    | true => exact h
    | false => exact parseNameStatus_renames h
  have hboth := (htrue hfirst).symm.trans (htrue hsecond)
  injection hboth

/-- The readers recover the records of the three streams, accept nothing that
could not have been printed, and no output stands for two lists. -/
theorem machineOutput_recovered :
    (∀ detectRenames, Recovers (parseNameStatus · detectRenames) writeNameStatus
      (fun records => ∀ record ∈ records, StatusPrinted detectRenames record)) ∧
    Recovers parseNumstat writeNumstat
      (fun records => ∀ record ∈ records, NumstatPrinted record) ∧
    (∀ objectFormat stream,
      Recovers (readTree objectFormat stream) writeTree (TreePrinted objectFormat)) ∧
    ∀ output detected undetected first second, parseNameStatus output detected = .ok first →
      parseNameStatus output undetected = .ok second → first = second :=
  ⟨nameStatus_recovers, numstat_recovers, tree_recovers,
    fun _ _ _ _ _ => parseNameStatus_unique⟩

/-- A blob under a path of one letter. -/
def sampleVersion : ReviewedSourceFileVersion :=
  ⟨⟨ascii "a", by decide, by decide⟩, .regular, .repeated (byte 'a') (by decide), some 1,
    by decide⟩

/-- A path that is listed twice, a rename to the same path and a count beyond
the machine's numbers are refused. -/
theorem machineOutput_refused :
    VersionPrinted .sha1 sampleVersion ∧
      readTree .sha1 .baselineTree (writeTree [sampleVersion, sampleVersion]) ≠
        .ok [sampleVersion, sampleVersion] ∧
      parseNameStatus (writeNameStatus [⟨.renamed, some 60, ascii "a", ascii "a"⟩]) true ≠
        .ok [⟨.renamed, some 60, ascii "a", ascii "a"⟩] ∧
      parseNumstat (writeNumstat [⟨ascii "a", ascii "a", .text (2 ^ 64) 0⟩]) ≠
        .ok [⟨ascii "a", ascii "a", .text (2 ^ 64) 0⟩] := by
  refine ⟨⟨rfl, ?_⟩, ?_, ?_, ?_⟩
  · intro size hsize
    rw [← Option.some.inj hsize]
    decide
  · intro h
    have hunique := ((tree_recovers .sha1 .baselineTree).accepts _ _ h).unique_paths
    revert hunique
    decide
  · intro h
    have hprinted := (nameStatus_recovers true).accepts _ _ h _ List.mem_cons_self
    rcases hprinted.shape with ⟨-, -, hne, -⟩ | ⟨hcode, -, -⟩
    · exact hne rfl
    · exact hcode rfl
  · intro h
    have hprinted := numstat_recovers.accepts _ _ h _ List.mem_cons_self
    exact absurd hprinted.counts.1 (Nat.lt_irrefl _)

end Moguet.Review.MachineOutput
