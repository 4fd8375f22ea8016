import Moguet.Store.Commit
import Moguet.Store.LeafRoundTrip

/-!
# Publishing without interference

One client, no other writer, and a system that does what it is asked. Such a
system is a state that answers: the records by name, the descriptor of the tip
with its offset, and the record that is being written. What the kernel decides
by itself, the inode of a record and the times it gets, is a parameter.

A unit takes records until a scan has more than `maxUnitDirectoryEntries` names
to look at. The record that is one too many gets its name before it is missed.
-/

namespace Moguet.Store.Progress

open Verified ByteString Checked Dialogue Dialogue.Program Record Chain History Publish Commit
open LeafRoundTrip

variable {note : PublicationProgress} {contents : List Bytes}

variable {expectedOwner : Nat} {publication : Bytes} {status : FileStatus} {record : ObservedRecord}

/-! ## The system -/

structure Stored where
  leaf : Bytes
  status : FileStatus
  contents : Bytes

variable {records : List Stored}

variable {stored : Stored}

/-- What the kernel makes of a new record: where it lies, when it was written
and when it got its name. -/
structure Stamp where
  device : Nat
  inode : Nat
  writtenSeconds : Int
  writtenNanoseconds : Int
  linkedSeconds : Int
  linkedNanoseconds : Int

/-- `record` is the descriptor of the record being written, `tip` the one of the
opened tip, with its offset. -/
structure Quiet where
  hasStore : Bool := false
  hasUnit : Bool := false
  records : List Stored := []
  record : Option Stored := none
  tip : Option Stored := none
  offset : Nat := 0

variable {state : Quiet}

def findStored (records : List Stored) (leaf : Bytes) : Option Stored :=
  records.find? fun stored => stored.leaf = leaf

/-- A record of no bytes and no name. -/
def anonymousRecord (owner : Nat) (stamp : Stamp) : Stored where
  leaf := []
  status := {
    device := stamp.device
    inode := stamp.inode
    owner := owner
    mode := 0o100000
    linkCount := 0
    size := 0
    modificationTimeSeconds := stamp.writtenSeconds
    modificationTimeNanoseconds := stamp.writtenNanoseconds
    statusChangeTimeSeconds := stamp.writtenSeconds
    statusChangeTimeNanoseconds := stamp.writtenNanoseconds }
  contents := []

def withMode (stored : Stored) (mode : Nat) : Stored :=
  { stored with status := { stored.status with mode } }

def withBytes (stored : Stored) (bytes : Bytes) : Stored :=
  { stored with
    status := { stored.status with size := stored.status.size + bytes.length }
    contents := stored.contents ++ bytes }

def withName (stored : Stored) (leaf : Bytes) (stamp : Stamp) : Stored :=
  { stored with
    leaf
    status := { stored.status with
      linkCount := 1
      statusChangeTimeSeconds := stamp.linkedSeconds
      statusChangeTimeNanoseconds := stamp.linkedNanoseconds } }

section

variable (configuration : StoreConfiguration) (stamps : Nat → Stamp)

/-- `read_generation_contents`, which refuses a record that is too large. -/
def readStored (records : List Stored) (record : ScannedGeneration) :
    Except StoreFailure Bytes :=
  match findStored records record.leaf.leaf with
  | none => .error (concurrentReplacement (some record.leaf.leaf))
  | some stored =>
    if stored.contents.length ≤ configuration.maxRecordBytes then .ok stored.contents
    else .error ⟨.recordTooLarge, some record.leaf.leaf, none⟩

def observe (records : List Stored) : Observation where
  directory := {
    names := records.map Stored.leaf
    inspectNamedEntry := fun leaf => .ok ((findStored records leaf).map Stored.status) }
  readGenerationContents := readStored configuration records

/-- The effect of a step that succeeds. -/
def effect (state : Quiet) : Operation → Quiet
  | .prepareDirectory => { state with hasStore := true }
  | .openUnitDirectory => { state with hasUnit := true }
  | .createRecord =>
    { state with record := some (anonymousRecord configuration.expectedOwner
        (stamps state.records.length)) }
  | .setRecordMode =>
    { state with record := state.record.map fun stored => withMode stored 0o100600 }
  | .writeRecord contents =>
    { state with record := state.record.map fun stored => withBytes stored contents }
  | .seekRecord => { state with offset := 0 }
  | _ => state

/-- The failure of a descriptor that is not open. -/
def notOpen : StoreFailure := ⟨.readFailed, none, none⟩

def statStored (stored : Option Stored) : Except StoreFailure FileStatus :=
  match stored with
  | none => .error notOpen
  | some stored => .ok stored.status

def openStored (state : Quiet) (leaf : Bytes) : Except StoreFailure FileStatus × Quiet :=
  match findStored state.records leaf with
  | none => (.error ⟨.openFailed, some leaf, none⟩, state)
  | some stored => (.ok stored.status, { state with tip := some stored, offset := 0 })

def readOpened (state : Quiet) : Except StoreFailure Bytes × Quiet :=
  match state.tip with
  | none => (.error notOpen, state)
  | some stored =>
    (.ok (stored.contents.drop state.offset), { state with offset := stored.contents.length })

def linkStored (state : Quiet) (leaf : Bytes) : LinkAnswer × Quiet :=
  match state.record with
  | none => (.failed, state)
  | some stored =>
    match findStored state.records leaf with
    | some _ => (.replaced, state)
    | none =>
      let named := withName stored leaf (stamps state.records.length)
      (.linked, { state with records := state.records ++ [named], record := some named })

def respond (state : Quiet) : (request : Request) → Answer request × Quiet
  | .perform operation => (.ok (), effect configuration stamps state operation)
  | .storeExists => (.ok state.hasStore, state)
  | .unitExists => (.ok state.hasUnit, state)
  | .observeHistory => (.ok (observe configuration state.records), state)
  | .inspectNamedEntry leaf => (.ok ((findStored state.records leaf).map Stored.status), state)
  | .openEntry leaf => openStored state leaf
  | .statDescriptor .tip => (statStored state.tip, state)
  | .statDescriptor .record => (statStored state.record, state)
  | .readTip => readOpened state
  | .linkRecord leaf => linkStored stamps state leaf

/-- What a caller has observed after a publication. -/
def observedBy (expected : Option ObservedRecord) : PublishResult → Option ObservedRecord
  | .published record => some record
  | .publishedUncertain (some record) _ _ _ => some record
  | _ => expected

/-- Publications one after the other, each given the record observed from the
one before. -/
def publishAll : Quiet → Option ObservedRecord → List Bytes → List PublishResult × Quiet
  | state, _, [] => ([], state)
  | state, expected, publication :: rest =>
    let first := run (respond configuration stamps) state
      (publishGenerationStore configuration publication expected)
    let others := publishAll first.2 (observedBy expected first.1) rest
    (first.1 :: others.1, others.2)

def readAfter (state : Quiet) : ReadResult :=
  (run (respond configuration stamps) state (readGenerationStore configuration)).1

end

/-! ## A unit with a history -/

/-- The record as a scan finds it. -/
def scannedOf (stored : Stored) : ScannedGeneration where
  leaf := (parseGenerationLeaf stored.leaf).getD ⟨0, false, 0, 0, 0, 0, [], stored.leaf⟩
  status := stored.status

def proofRecordOf (stored : Stored) : ChainProofRecord where
  leaf := stored.leaf
  identity := recordIdentityFromStatus stored.status
  contentDigest := contentDigestHex stored.contents

/-- The proof of the history of some records. -/
def provenOf (records : List Stored) : ProvenChain where
  tip := records.getLast?.map scannedOf
  tipContents := (records.getLast?.map Stored.contents).getD []
  token := ⟨(records.map Stored.leaf).insertionSort (· ≤ ·), records.map proofRecordOf⟩

/-- A record by itself. -/
structure SoundRecord (configuration : StoreConfiguration) (stored : Stored) : Prop where
  valid : validateEntryStatus stored.status stored.leaf configuration.expectedOwner = none
  size : stored.status.size = stored.contents.length
  bounded : stored.contents.length ≤ configuration.maxRecordBytes
  not_future : configuration.isFutureDocument stored.contents = false
  managed : isInternalTempLeaf stored.leaf configuration.temporaryLeafPrefix = false
  writable : Writable (recordIdentityFromStatus stored.status)
  seconds : 0 ≤ stored.status.statusChangeTimeSeconds
  nanoseconds : 0 ≤ stored.status.statusChangeTimeNanoseconds

/-- The name of a record says its place and its predecessor. -/
structure Kept (configuration : StoreConfiguration) (records : List Stored) : Prop where
  sound : ∀ stored ∈ records, SoundRecord configuration stored
  named : ∀ (index : Nat) (stored : Stored), records[index]? = some stored →
    ∃ fields, parseGenerationLeaf stored.leaf = some fields ∧ fields.generation = index + 1 ∧
      fields.leaf = stored.leaf
  bound : records.IsChain fun older newer =>
    NamesPredecessor (scannedOf newer).leaf older.status older.contents

section Kept

variable {configuration : StoreConfiguration} {records : List Stored}

theorem Kept.scanned (h : Kept configuration records) (hmem : stored ∈ records) :
    parseGenerationLeaf stored.leaf = some (scannedOf stored).leaf ∧
      (scannedOf stored).leaf.leaf = stored.leaf := by
  obtain ⟨index, hindex⟩ := List.mem_iff_getElem?.mp hmem
  obtain ⟨fields, hparse, _, hleaf⟩ := h.named index stored hindex
  have hfields : (scannedOf stored).leaf = fields := by
    show (parseGenerationLeaf stored.leaf).getD _ = fields
    rw [hparse]
    rfl
  rw [hfields]
  exact ⟨hparse, hleaf⟩

theorem Kept.generation (h : Kept configuration records) {index : Nat}
    (hindex : records[index]? = some stored) : (scannedOf stored).leaf.generation = index + 1 := by
  obtain ⟨fields, hparse, hgeneration, _⟩ := h.named index stored hindex
  have hfields := (h.scanned (List.mem_of_getElem? hindex)).1
  rw [hparse, Option.some.injEq] at hfields
  rw [← hfields]
  exact hgeneration

/-- A name belongs to one record. -/
theorem Kept.findStored (h : Kept configuration records) (hmem : stored ∈ records) :
    findStored records stored.leaf = some stored := by
  obtain ⟨index, hindex⟩ := List.mem_iff_getElem?.mp hmem
  obtain ⟨found, hfound⟩ : ∃ found, Progress.findStored records stored.leaf = some found := by
    rw [← Option.isSome_iff_exists]
    exact List.find?_isSome.mpr ⟨stored, hmem, by simp⟩
  have hleaf : found.leaf = stored.leaf := by simpa using List.find?_some hfound
  obtain ⟨other, hother⟩ := List.mem_iff_getElem?.mp (List.mem_of_find?_eq_some hfound)
  have hscanned : (scannedOf found).leaf = (scannedOf stored).leaf := by
    have hfirst := (h.scanned hmem).1
    have hsecond := (h.scanned (List.mem_of_find?_eq_some hfound)).1
    rw [hleaf, hfirst, Option.some.injEq] at hsecond
    exact hsecond.symm
  have hgeneration := h.generation hother
  rw [hscanned, h.generation hindex] at hgeneration
  have hsame : index = other := by omega
  rw [hsame, hother] at hindex
  rw [hfound, hindex]

/-- What the scan makes of some of the names. -/
theorem Kept.scanLeaves (h : Kept configuration records) :
    ∀ {found : List Stored}, (∀ stored ∈ found, stored ∈ records) →
      scanLeaves configuration.expectedOwner (observe configuration records).directory
        configuration.temporaryLeafPrefix (found.map Stored.leaf) =
          .ok ⟨found.map Stored.leaf, [], found.map scannedOf⟩ := by
  intro found
  induction found with
  | nil => intro _; rfl
  | cons stored found ih =>
    intro hfound
    have hmem := hfound stored List.mem_cons_self
    have hsound := h.sound stored hmem
    obtain ⟨hparse, hleaf⟩ := h.scanned hmem
    have hrest := ih fun other hother => hfound other (List.mem_cons_of_mem _ hother)
    have hinspect : inspectRecord configuration.expectedOwner
        (observe configuration records).directory (scannedOf stored).leaf =
          .ok (scannedOf stored) := by
      unfold inspectRecord
      show (Except.ok ((Progress.findStored records (scannedOf stored).leaf.leaf).map
        Stored.status) >>= _) = _
      rw [hleaf, h.findStored hmem, bind_of_ok rfl]
      dsimp only [Option.map_some]
      rw [hsound.valid]
      rfl
    rw [List.map_cons, List.map_cons]
    unfold Chain.scanLeaves
    rw [hsound.managed, if_neg Bool.false_ne_true, hparse]
    dsimp only
    rw [bind_of_ok hinspect, bind_of_ok hrest]

/-- The records in the order of their names. -/
def byName (records : List Stored) : List Stored :=
  records.insertionSort fun left right => left.leaf ≤ right.leaf

theorem mem_byName : stored ∈ byName records ↔ stored ∈ records :=
  List.mem_insertionSort _

theorem map_leaf_byName :
    (byName records).map Stored.leaf = (records.map Stored.leaf).insertionSort (· ≤ ·) :=
  List.map_insertionSort _ _ _ _ fun _ _ _ _ => Iff.rfl

theorem Kept.scanUnitDirectory (h : Kept configuration records)
    (hcount : records.length ≤ maxUnitDirectoryEntries) :
    ∃ inventory, scanUnitDirectory configuration.expectedOwner
        (observe configuration records).directory configuration.temporaryLeafPrefix =
          .ok inventory ∧
      inventory.toScannedLeaves = ⟨(records.map Stored.leaf).insertionSort (· ≤ ·), [],
        (byName records).map scannedOf⟩ := by
  have hscan := h.scanLeaves fun stored hmem => mem_byName.mp hmem
  rw [map_leaf_byName] at hscan
  have hfits : ¬ maxUnitDirectoryEntries <
      (observe configuration records).directory.names.length := by
    show ¬ maxUnitDirectoryEntries < (records.map Stored.leaf).length
    rw [List.length_map]
    omega
  unfold Chain.scanUnitDirectory
  rw [dif_neg hfits]
  dsimp only
  split
  · rename_i failure hfailed
    replace hfailed : Chain.scanLeaves _ _ _ ((records.map Stored.leaf).insertionSort (· ≤ ·)) =
      .error failure := hfailed
    rw [hscan] at hfailed
    cases hfailed
  · rename_i leaves hleaves
    replace hleaves : Chain.scanLeaves _ _ _ ((records.map Stored.leaf).insertionSort (· ≤ ·)) =
      .ok leaves := hleaves
    rw [hscan] at hleaves
    injection hleaves with hleaves
    exact ⟨_, rfl, hleaves.symm⟩

theorem scanUnitDirectory_full (hcount : maxUnitDirectoryEntries < records.length) :
    scanUnitDirectory configuration.expectedOwner (observe configuration records).directory
      configuration.temporaryLeafPrefix = .error ⟨.recordTooLarge, none, none⟩ := by
  have hfull : maxUnitDirectoryEntries <
      (observe configuration records).directory.names.length := by
    show maxUnitDirectoryEntries < (records.map Stored.leaf).length
    rw [List.length_map]
    exact hcount
  unfold scanUnitDirectory
  rw [dif_pos hfull]

/-- The bytes a name has. -/
def contentsOf (records : List Stored) (record : ScannedGeneration) : Bytes :=
  ((findStored records record.leaf.leaf).map Stored.contents).getD []

theorem Kept.contentsOf (h : Kept configuration records) (hmem : stored ∈ records) :
    contentsOf records (scannedOf stored) = stored.contents := by
  unfold Progress.contentsOf
  rw [(h.scanned hmem).2, h.findStored hmem]
  rfl

theorem Kept.generations (h : Kept configuration records) :
    (records.map scannedOf).map (fun record => record.leaf.generation) =
      List.range' 1 (records.map scannedOf).length := by
  apply List.ext_getElem
  · simp
  · intro index hleft hright
    have hindex : index < records.length := by simpa using hleft
    have hgeneration := h.generation (List.getElem?_eq_getElem hindex)
    simp only [List.getElem_map, List.getElem_range', hgeneration]
    omega

theorem Kept.history (h : Kept configuration records) (hne : records ≠ [])
    {inventory : DirectoryInventory configuration.expectedOwner}
    (hinventory : inventory.toScannedLeaves =
      ⟨(records.map Stored.leaf).insertionSort (· ≤ ·), [], (byName records).map scannedOf⟩) :
    AuthoritativeHistory inventory (Progress.contentsOf records)
      configuration.isFutureDocument (records.map scannedOf) where
  recognized := by
    intro name hmem
    rw [hinventory] at hmem
    replace hmem := List.mem_map.mp ((List.mem_insertionSort _).mp hmem)
    obtain ⟨stored, hstored, rfl⟩ := hmem
    rw [(h.scanned hstored).1]
    rfl
  nonempty := by
    intro hnil
    exact hne (List.map_eq_nil_iff.mp hnil)
  all_records := by
    rw [hinventory]
    exact ((List.perm_insertionSort _ records).symm).map scannedOf
  generations := h.generations
  bound := by
    rw [List.isChain_map]
    refine h.bound.imp_of_mem_imp ?_
    intro older newer holder _ hnames
    rw [h.contentsOf holder]
    exact hnames
  not_future := by
    intro record hmem
    rw [← List.map_dropLast] at hmem
    obtain ⟨stored, hstored, rfl⟩ := List.mem_map.mp hmem
    have hmem := List.mem_of_mem_dropLast hstored
    rw [h.contentsOf hmem]
    exact (h.sound stored hmem).not_future

/-- The history of the records is proven. -/
theorem Kept.proveHistory (h : Kept configuration records)
    (hcount : records.length ≤ maxUnitDirectoryEntries) :
    proveHistory configuration (observe configuration records) = .ok (provenOf records) := by
  obtain ⟨inventory, hscan, hinventory⟩ := h.scanUnitDirectory hcount
  have hmanaged : inventory.managedLeaves =
      (records.map Stored.leaf).insertionSort (· ≤ ·) := by rw [hinventory]
  have hparsed : inventory.parsed = (byName records).map scannedOf := by rw [hinventory]
  have hread : ∀ record ∈ inventory.parsed,
      readStored configuration records record = .ok (Progress.contentsOf records record) := by
    intro record hmem
    rw [hparsed] at hmem
    obtain ⟨stored, hstored, rfl⟩ := List.mem_map.mp hmem
    replace hstored := mem_byName.mp hstored
    unfold readStored
    rw [(h.scanned hstored).2, h.findStored hstored, h.contentsOf hstored]
    exact if_pos (h.sound stored hstored).bounded
  unfold Publish.proveHistory
  rw [hscan]
  show proveAuthoritativeChain configuration.expectedOwner (readStored configuration records)
    configuration.isFutureDocument inventory = _
  rw [proveAuthoritativeChain_no_wrap]
  by_cases hne : records = []
  · have hnone : inventory.parsed = [] := by
      rw [hparsed, hne]
      rfl
    have hrecognized : ¬ inventory.unrecognizedLeaves ≠ [] := by
      rw [hinventory]
      exact not_not.mpr rfl
    unfold proveChain
    dsimp only
    rw [if_neg hrecognized, if_pos hnone, hmanaged, hne]
    rfl
  · rw [proveChain_of_history hread (h.history hne hinventory)]
    unfold historyProof provenOf
    have hrecords : ((records.map scannedOf).map fun record =>
        (entryOf (Progress.contentsOf records) record).proofRecord) =
          records.map proofRecordOf := by
      rw [List.map_map]
      apply List.map_congr_left
      intro stored hmem
      show ChainProofRecord.mk (scannedOf stored).leaf.leaf _
        (contentDigestHex (Progress.contentsOf records (scannedOf stored))) = _
      rw [h.contentsOf hmem, (h.scanned hmem).2]
      rfl
    have hcontents : ((records.map scannedOf).getLast?.map (Progress.contentsOf records)).getD [] =
          (records.getLast?.map Stored.contents).getD [] := by
      rw [List.getLast?_map]
      cases hlast : records.getLast? with
      | none => rfl
      | some last =>
        have hmem := List.mem_of_getLast? hlast
        show Progress.contentsOf records (scannedOf last) = last.contents
        exact h.contentsOf hmem
    rw [hmanaged, hrecords, hcontents, List.getLast?_map]

theorem proveHistory_full (hcount : maxUnitDirectoryEntries < records.length) :
    Publish.proveHistory configuration (observe configuration records) =
      .error (.failure ⟨.recordTooLarge, none, none⟩) := by
  unfold Publish.proveHistory
  rw [scanUnitDirectory_full hcount]

/-- Two lists of the same names are sorted the same. -/
theorem insertionSort_eq_of_perm {left right : List Bytes} (h : left.Perm right) :
    left.insertionSort (· ≤ ·) = right.insertionSort (· ≤ ·) := by
  have hperm : (left.insertionSort (· ≤ ·)).Perm (right.insertionSort (· ≤ ·)) :=
    (List.perm_insertionSort _ left).trans (h.trans (List.perm_insertionSort _ right).symm)
  exact hperm.eq_of_pairwise' (List.pairwise_insertionSort _ _) (List.pairwise_insertionSort _ _)

/-- The token of one record more. -/
theorem extendProofToken_provenOf (records : List Stored) (stored : Stored) :
    extendProofToken (provenOf records).token stored.leaf
      (recordIdentityFromStatus stored.status) stored.contents =
        (provenOf (records ++ [stored])).token := by
  have hnames : ((records.map Stored.leaf).insertionSort (· ≤ ·) ++ [stored.leaf]).Perm
      ((records ++ [stored]).map Stored.leaf) := by
    rw [List.map_append]
    exact (List.perm_insertionSort _ _).append_right _
  have hrecords : (records ++ [stored]).map proofRecordOf =
      records.map proofRecordOf ++ [proofRecordOf stored] := by
    rw [List.map_append]
    rfl
  unfold extendProofToken provenOf
  dsimp only
  rw [insertionSort_eq_of_perm hnames, hrecords]
  rfl

end Kept

/-! ## One record more -/

/-- The times of a kernel whose clock is not before the epoch, and numbers of
the sizes `stat` has. -/
structure Stamp.Ordinary (stamp : Stamp) : Prop where
  device : stamp.device < 2 ^ 64
  inode : stamp.inode < 2 ^ 64
  seconds : 0 ≤ stamp.linkedSeconds
  seconds_lt : stamp.linkedSeconds < 2 ^ 63
  nanoseconds : 0 ≤ stamp.linkedNanoseconds
  nanoseconds_lt : stamp.linkedNanoseconds < 2 ^ 63

/-- What a caller observes of the tip. -/
def expectedAfter (records : List Stored) : Option ObservedRecord :=
  records.getLast?.map fun stored =>
    ⟨records.length, stored.leaf, recordIdentityFromStatus stored.status, stored.contents⟩

/-- The record with its bytes, before it has a name. -/
def writtenRecord (owner : Nat) (stamp : Stamp) (contents : Bytes) : Stored :=
  withBytes (withMode (anonymousRecord owner stamp) 0o100600) contents

section Grow

variable (configuration : StoreConfiguration) (stamps : Nat → Stamp) (records : List Stored)
  (contents : Bytes)

def nextStored : Stored :=
  withName
    (writtenRecord configuration.expectedOwner (stamps records.length) contents)
    (expectedLeaf (expectedAfter records)) (stamps records.length)

theorem contents_nextStored :
    (nextStored configuration stamps records contents).contents = contents :=
  List.nil_append contents

theorem size_nextStored :
    (nextStored configuration stamps records contents).status.size = contents.length :=
  Int.zero_add _

end Grow

section Grow

variable {configuration : StoreConfiguration} {stamps : Nat → Stamp} {records : List Stored}
  {contents : Bytes}

theorem expectedLeaf_concat {front : List Stored} {last : Stored}
    (hcount : (front ++ [last]).length ≤ maxUnitDirectoryEntries) :
    expectedLeaf (expectedAfter (front ++ [last])) =
      successorLeaf ((front ++ [last]).length + 1) (recordIdentityFromStatus last.status)
        last.contents := by
  unfold maxUnitDirectoryEntries at hcount
  unfold expectedAfter
  rw [List.getLast?_concat]
  show successorLeaf (nextGeneration (front ++ [last]).length) _ _ = _
  unfold nextGeneration
  rw [Nat.mod_eq_of_lt (by omega)]

/-- The name of the next record says its place. -/
theorem Kept.parse_next (h : Kept configuration records)
    (hcount : records.length ≤ maxUnitDirectoryEntries) :
    ∃ fields, parseGenerationLeaf (expectedLeaf (expectedAfter records)) = some fields ∧
      fields.generation = records.length + 1 ∧
      fields.leaf = expectedLeaf (expectedAfter records) ∧
      ∀ last ∈ records.getLast?, NamesPredecessor fields last.status last.contents := by
  rcases List.eq_nil_or_concat records with rfl | ⟨front, last, rfl⟩
  · refine ⟨_, parseGenerationLeaf_originLeaf, rfl, rfl, ?_⟩
    intro last hlast
    cases hlast
  · rw [List.concat_eq_append] at h hcount ⊢
    have hsound := h.sound last (by simp)
    have hlength : last.contents.length < 2 ^ 64 :=
      hsound.bounded.trans_lt configuration.maxRecordBytes_lt
    have hatLeast : 2 ≤ (front ++ [last]).length + 1 := by simp
    have hsmall : (front ++ [last]).length + 1 < 2 ^ 64 := by
      unfold maxUnitDirectoryEntries at hcount
      omega
    rw [expectedLeaf_concat hcount,
      parseGenerationLeaf_successorLeaf hatLeast hsmall hsound.writable hlength]
    refine ⟨_, rfl, rfl, rfl, ?_⟩
    intro other hother
    rw [List.getLast?_concat, Option.mem_some_iff] at hother
    subst hother
    exact ⟨rfl, writtenTime_eq hsound.seconds hsound.writable.seconds,
      writtenTime_eq hsound.nanoseconds hsound.writable.nanoseconds, rfl⟩

theorem managed_next : isInternalTempLeaf (expectedLeaf (expectedAfter records))
      configuration.temporaryLeafPrefix = false := by
  rcases List.eq_nil_or_concat records with rfl | ⟨front, last, rfl⟩
  · exact isInternalTempLeaf_of_digit configuration rfl (by decide)
  · rw [List.concat_eq_append]
    unfold expectedAfter
    rw [List.getLast?_concat]
    show isInternalTempLeaf (successorLeaf (nextGeneration (front ++ [last]).length) _ _) _ = _
    exact isInternalTempLeaf_successorLeaf configuration _ _ _

theorem validateEntryStatus_of_record {entry : Bytes}
    (htype : fileTypeFromMode status.mode = .regular) (howner : status.owner = expectedOwner)
    (hmode : status.mode &&& 0o7777 = recordMode) (hlinks : status.linkCount = 1) :
    validateEntryStatus status entry expectedOwner = none := by
  unfold validateEntryStatus
  dsimp only
  rw [if_neg (not_not.mpr htype), if_neg (not_not.mpr howner), if_neg (not_not.mpr hmode),
    if_neg (not_not.mpr hlinks)]

theorem validateAnonymousRecordStatus_of_record (htype : fileTypeFromMode status.mode = .regular)
    (howner : status.owner = expectedOwner) (hmode : status.mode &&& 0o7777 = recordMode)
    (hlinks : status.linkCount = 0) :
    validateAnonymousRecordStatus status expectedOwner = none := by
  unfold validateAnonymousRecordStatus
  dsimp only
  rw [if_neg (not_not.mpr htype), if_neg (not_not.mpr howner), if_neg (not_not.mpr hmode),
    if_neg (not_not.mpr hlinks)]

theorem soundRecord_next (hstamp : (stamps records.length).Ordinary)
    (hcontents : contents.length ≤ configuration.maxRecordBytes)
    (hfuture : configuration.isFutureDocument contents = false) :
    SoundRecord configuration (nextStored configuration stamps records contents) where
  valid := by
    have htype : fileTypeFromMode 0o100600 = .regular := by decide
    have hmode : 0o100600 &&& 0o7777 = recordMode := by decide
    exact validateEntryStatus_of_record htype rfl hmode rfl
  size := by rw [size_nextStored, contents_nextStored]
  bounded := by
    rw [contents_nextStored]
    exact hcontents
  not_future := by
    rw [contents_nextStored]
    exact hfuture
  managed := managed_next
  writable := by
    have hseconds := hstamp.seconds_lt
    have hnanoseconds := hstamp.nanoseconds_lt
    refine ⟨hstamp.device, hstamp.inode, ?_, ?_⟩
    · show (stamps records.length).linkedSeconds < 2 ^ 64
      omega
    · show (stamps records.length).linkedNanoseconds < 2 ^ 64
      omega
  seconds := hstamp.seconds
  nanoseconds := hstamp.nanoseconds

theorem Kept.grow (h : Kept configuration records)
    (hcount : records.length ≤ maxUnitDirectoryEntries)
    (hstamp : (stamps records.length).Ordinary)
    (hcontents : contents.length ≤ configuration.maxRecordBytes)
    (hfuture : configuration.isFutureDocument contents = false) :
    Kept configuration (records ++ [nextStored configuration stamps records contents]) := by
  obtain ⟨fields, hparse, hgeneration, hleaf, hpredecessor⟩ := h.parse_next hcount
  refine ⟨?_, ?_, ?_⟩
  · intro stored hmem
    rcases List.mem_append.mp hmem with hmem | hmem
    · exact h.sound stored hmem
    · rw [List.mem_singleton.mp hmem]
      exact soundRecord_next hstamp hcontents hfuture
  · intro index stored hindex
    by_cases hlt : index < records.length
    · rw [List.getElem?_append_left hlt] at hindex
      exact h.named index stored hindex
    · have hbound := (List.getElem?_eq_some_iff.mp hindex).1
      simp only [List.length_append, List.length_singleton] at hbound
      have hlast : index = records.length := by omega
      subst hlast
      rw [List.getElem?_append_right le_rfl, Nat.sub_self, List.getElem?_cons_zero,
        Option.some.injEq] at hindex
      rw [← hindex]
      exact ⟨fields, hparse, hgeneration, hleaf⟩
  · rw [List.isChain_append]
    refine ⟨h.bound, List.isChain_singleton _, ?_⟩
    intro older holder newer hnewer
    rw [List.head?_cons, Option.mem_some_iff] at hnewer
    subst hnewer
    have hscanned :
        (scannedOf (nextStored configuration stamps records contents)).leaf = fields := by
      show (parseGenerationLeaf (expectedLeaf (expectedAfter records))).getD _ = fields
      rw [hparse]
      rfl
    rw [hscanned]
    exact hpredecessor older holder

end Grow

/-! ## Steps of the system -/

theorem sameRecordState_self (status : FileStatus) : sameRecordState status status = true := by
  simp [sameRecordState, sameRelocatedRecordState, sameFilesystemIdentity]

theorem matchesPredecessorIdentity_self (status : FileStatus) :
    matchesPredecessorIdentity status (recordIdentityFromStatus status) = true := by
  simp [matchesPredecessorIdentity, recordIdentityFromStatus]

section Runs

variable {configuration : StoreConfiguration} {stamps : Nat → Stamp} {Note ε : Type} {note : Note}
  {fail : StoreFailure → ε}

theorem run_perform (state : Quiet) (operation : Operation) :
    run (respond configuration stamps) state (perform note fail operation) =
      (.ok (), effect configuration stamps state operation) := rfl

theorem run_inspectNamedEntry (state : Quiet) (leaf : Bytes) :
    run (respond configuration stamps) state (inspectNamedEntry note fail leaf) =
      (.ok ((findStored state.records leaf).map Stored.status), state) := rfl

theorem run_statDescriptor_tip (h : state.tip = some stored) :
    run (respond configuration stamps) state (statDescriptor note fail .tip) =
      (.ok stored.status, state) := by
  show run (respond configuration stamps) state (orLeave fail (statStored state.tip)) = _
  rw [h]
  rfl

theorem run_statDescriptor_record (stored : Stored) (h : state.record = some stored) :
    run (respond configuration stamps) state (statDescriptor note fail .record) =
      (.ok stored.status, state) := by
  show run (respond configuration stamps) state (orLeave fail (statStored state.record)) = _
  rw [h]
  rfl

theorem run_leaveOn {check : Option StoreFailure} (h : check = none) :
    run (respond configuration stamps) state
      (leaveOn fail check : StoreStage Note ε Unit) = (.ok (), state) := by
  rw [h]
  rfl

theorem run_openExistingEntry (hsound : SoundRecord configuration stored)
    (hfound : findStored state.records stored.leaf = some stored) :
    run (respond configuration stamps) state
      (openExistingEntry note fail configuration stored.leaf stored.status) =
        (.ok (), { state with tip := some stored, offset := 0 }) := by
  have hopen : respond configuration stamps state (.openEntry stored.leaf) =
      (.ok stored.status, { state with tip := some stored, offset := 0 }) := by
    show openStored state stored.leaf = _
    unfold openStored
    rw [hfound]
    rfl
  have hquery : run (respond configuration stamps) state
      (Stage.query note (Request.openEntry stored.leaf) : StoreStage Note ε _) =
        (.ok (.ok stored.status), { state with tip := some stored, offset := 0 }) := by
    show (Except.ok (respond configuration stamps state (.openEntry stored.leaf)).1,
      (respond configuration stamps state (.openEntry stored.leaf)).2) = _
    rw [hopen]
  refine (Stage.run_bind_ok hquery).trans ?_
  refine (Stage.run_bind_ok rfl).trans ?_
  refine (Stage.run_bind_ok (run_leaveOn hsound.valid)).trans ?_
  refine (Stage.run_bind_ok (Stage.run_require (sameRecordState_self _))).trans ?_
  rfl

/-- The opened tip is read to its end. -/
theorem run_readAllBytes (hsound : SoundRecord configuration stored)
    (htip : state.tip = some stored) (hoffset : state.offset = 0)
    (hfound : findStored state.records stored.leaf = some stored) :
    run (respond configuration stamps) state
      (readAllBytes note fail configuration stored.leaf stored.status) =
        (.ok stored.contents, { state with offset := stored.contents.length }) := by
  have hread : respond configuration stamps state .readTip =
      (.ok stored.contents, { state with offset := stored.contents.length }) := by
    show readOpened state = _
    unfold readOpened
    rw [htip, hoffset]
    rfl
  have hquery : run (respond configuration stamps) state
      (Stage.query note Request.readTip : StoreStage Note ε _) =
        (.ok (.ok stored.contents), { state with offset := stored.contents.length }) := by
    show (Except.ok (respond configuration stamps state .readTip).1,
      (respond configuration stamps state .readTip).2) = _
    rw [hread]
  have hsize : (decide (0 ≤ stored.status.size) &&
      decide (stored.status.size ≤ (configuration.maxRecordBytes : Int))) = true := by
    have hbounded := hsound.bounded
    rw [hsound.size, Bool.and_eq_true, decide_eq_true_eq, decide_eq_true_eq]
    omega
  have hstat : run (respond configuration stamps)
      { state with offset := stored.contents.length } (statDescriptor note fail .tip) =
        (.ok stored.status, { state with offset := stored.contents.length }) :=
    run_statDescriptor_tip htip
  have hnamed : run (respond configuration stamps)
      { state with offset := stored.contents.length }
      (inspectNamedEntry note fail stored.leaf) =
        (.ok (some stored.status), { state with offset := stored.contents.length }) := by
    rw [run_inspectNamedEntry]
    show (Except.ok ((findStored state.records stored.leaf).map Stored.status), _) = _
    rw [hfound]
    rfl
  refine (Stage.run_bind_ok (Stage.run_require hsize)).trans ?_
  refine (Stage.run_bind_ok hquery).trans ?_
  refine (Stage.run_bind_ok rfl).trans ?_
  refine (Stage.run_bind_ok (Stage.run_require (decide_eq_true hsound.bounded))).trans ?_
  refine (Stage.run_bind_ok hstat).trans ?_
  refine (Stage.run_bind_ok (run_leaveOn hsound.valid)).trans ?_
  refine (Stage.run_bind_ok (Stage.run_require (sameRecordState_self _))).trans ?_
  refine (Stage.run_bind_ok hnamed).trans ?_
  refine (Stage.run_bind_ok rfl).trans ?_
  refine (Stage.run_bind_ok (run_leaveOn hsound.valid)).trans ?_
  refine (Stage.run_bind_ok (Stage.run_require (sameRecordState_self _))).trans ?_
  refine (Stage.run_bind_ok (Stage.run_require (decide_eq_true hsound.size.symm))).trans ?_
  rfl

theorem run_rereadDescriptorContents (hsound : SoundRecord configuration stored)
    (htip : state.tip = some stored) (hfound : findStored state.records stored.leaf = some stored) :
    run (respond configuration stamps) state
      (rereadDescriptorContents note fail configuration stored.leaf) =
        (.ok stored.contents, { state with offset := stored.contents.length }) := by
  have hseek : (effect configuration stamps state .seekRecord).tip = some stored := htip
  refine (Stage.run_bind_ok (run_perform state .seekRecord)).trans ?_
  refine (Stage.run_bind_ok (run_statDescriptor_tip hseek)).trans ?_
  exact run_readAllBytes hsound hseek rfl hfound

variable {refuse : StoreUnsafeHistory → StoreStage Note ε ProvenChain}

theorem run_proveAuthority (state : Quiet) (h : Kept configuration state.records)
    (hcount : state.records.length ≤ maxUnitDirectoryEntries) :
    run (respond configuration stamps) state (proveAuthority note fail configuration refuse) =
      (.ok (provenOf state.records), state) := by
  show run (respond configuration stamps) state (requireProof fail refuse
    (proveHistory configuration (observe configuration state.records))) = _
  rw [h.proveHistory hcount]
  rfl

theorem run_proveAuthority_full (state : Quiet)
    (hcount : maxUnitDirectoryEntries < state.records.length) :
    run (respond configuration stamps) state (proveAuthority note fail configuration refuse) =
      (.error (fail ⟨.recordTooLarge, none, none⟩), state) := by
  show run (respond configuration stamps) state (requireProof fail refuse
    (proveHistory configuration (observe configuration state.records))) = _
  rw [proveHistory_full hcount]
  rfl

theorem run_reproveAuthority (state : Quiet) {token : ChainProofToken}
    (h : Kept configuration state.records)
    (hcount : state.records.length ≤ maxUnitDirectoryEntries)
    (htoken : (provenOf state.records).token = token) :
    run (respond configuration stamps) state
      (reproveAuthority note fail configuration refuse token) =
        (.ok (provenOf state.records), state) := by
  refine (Stage.run_bind_ok (run_proveAuthority _ h hcount)).trans ?_
  refine (Stage.run_bind_ok (Stage.run_require (decide_eq_true htoken))).trans ?_
  rfl

end Runs

/-! ## A publication -/

section Publication

variable {configuration : StoreConfiguration} {stamps : Nat → Stamp} {state : Quiet}

/-- The state after the first proof. -/
def afterOpen (state : Quiet) : Quiet := { state with hasStore := true, hasUnit := true }

theorem run_openHistory (h : Kept configuration state.records)
    (hcount : state.records.length ≤ maxUnitDirectoryEntries)
    (hpublication : publication.length ≤ configuration.maxRecordBytes) :
    run (respond configuration stamps) state (openHistory configuration publication) =
      (.ok (provenOf state.records), afterOpen state) := by
  refine (Stage.run_bind_ok (Stage.run_require (decide_eq_true hpublication))).trans ?_
  refine (Stage.run_bind_ok (run_perform _ _)).trans ?_
  refine (Stage.run_bind_ok (run_perform _ _)).trans ?_
  refine (Stage.run_bind_ok (run_perform _ _)).trans ?_
  refine (Stage.run_bind_ok (run_perform _ _)).trans ?_
  refine (Stage.run_bind_ok (run_perform _ _)).trans ?_
  have hkept : Kept configuration (afterOpen state).records := h
  exact run_proveAuthority _ hkept hcount

/-- The state with the tip opened and read. -/
def afterTip (state : Quiet) : Quiet :=
  match state.records.getLast? with
  | none => state
  | some stored => { state with tip := some stored, offset := stored.contents.length }

theorem run_requireExpected (h : Kept configuration state.records) :
    run (respond configuration stamps) state
      (requireExpected note configuration (provenOf state.records).tip
        (expectedAfter state.records)) = (.ok (), afterTip state) := by
  unfold provenOf expectedAfter afterTip
  cases hlast : state.records.getLast? with
  | none => rfl
  | some stored =>
    have hmem := List.mem_of_getLast? hlast
    have hsound := h.sound stored hmem
    have hleaf := (h.scanned hmem).2
    have hgeneration : (scannedOf stored).leaf.generation = state.records.length := by
      have hindex := hlast
      rw [List.getLast?_eq_getElem?] at hindex
      have hpos := List.length_pos_of_mem hmem
      have hplace := h.generation hindex
      omega
    have hsame : (decide ((scannedOf stored).leaf.generation = state.records.length) &&
        decide ((scannedOf stored).leaf.leaf = stored.leaf) &&
        decide (recordIdentityFromStatus (scannedOf stored).status =
          recordIdentityFromStatus stored.status)) = true := by
      rw [hgeneration, hleaf]
      simp [scannedOf]
    refine (Stage.run_bind_ok (Stage.run_require hsame)).trans ?_
    show run (respond configuration stamps) state (do
      openExistingEntry note .failure configuration (scannedOf stored).leaf.leaf stored.status
      let existingRaw ← readAllBytes note .failure configuration (scannedOf stored).leaf.leaf
        stored.status
      let _ ← Stage.require (existingRaw = stored.contents)
        (.failure (concurrentReplacement (some (scannedOf stored).leaf.leaf)))
      let _ ← Stage.require (!configuration.isFutureDocument existingRaw)
        (.failure ⟨.futureSchemaOverwriteRefused, some (scannedOf stored).leaf.leaf, none⟩)
      Stage.pure () : PublishStage Unit) = _
    rw [hleaf]
    have hfound := h.findStored hmem
    have hread : run (respond configuration stamps)
        { state with tip := some stored, offset := 0 }
        (readAllBytes note .failure configuration stored.leaf stored.status : PublishStage Bytes) =
          (.ok stored.contents,
            { state with tip := some stored, offset := stored.contents.length }) :=
      run_readAllBytes hsound rfl rfl hfound
    refine (Stage.run_bind_ok (run_openExistingEntry hsound hfound)).trans ?_
    refine (Stage.run_bind_ok hread).trans ?_
    refine (Stage.run_bind_ok (Stage.run_require (decide_eq_true rfl))).trans ?_
    have hnot : (!configuration.isFutureDocument stored.contents) = true := by
      rw [hsound.not_future]
      rfl
    refine (Stage.run_bind_ok (Stage.run_require hnot)).trans ?_
    rfl

theorem generationAfter_provenOf (h : Kept configuration state.records)
    (hcount : state.records.length ≤ maxUnitDirectoryEntries) :
    generationAfter (provenOf state.records).tip = state.records.length + 1 := by
  unfold maxUnitDirectoryEntries at hcount
  unfold provenOf generationAfter
  cases hlast : state.records.getLast? with
  | none =>
    rw [List.getLast?_eq_none_iff.mp hlast]
    rfl
  | some stored =>
    have hmem := List.mem_of_getLast? hlast
    have hindex := hlast
    rw [List.getLast?_eq_getElem?] at hindex
    have hpos := List.length_pos_of_mem hmem
    have hplace := h.generation hindex
    show nextGeneration (scannedOf stored).leaf.generation = _
    unfold nextGeneration
    rw [Nat.mod_eq_of_lt (by omega)]
    omega

theorem publicationLeaf_expectedAfter (hcount : state.records.length ≤ maxUnitDirectoryEntries) :
    publicationLeaf (state.records.length + 1) (expectedAfter state.records) =
      expectedLeaf (expectedAfter state.records) := by
  unfold maxUnitDirectoryEntries at hcount
  unfold expectedLeaf expectedAfter
  cases hlast : state.records.getLast? with
  | none => rfl
  | some stored =>
    show successorLeaf _ _ _ = successorLeaf (nextGeneration state.records.length) _ _
    unfold nextGeneration
    rw [Nat.mod_eq_of_lt (by omega)]

/-- The state with the record written. -/
def afterWrite (configuration : StoreConfiguration) (stamps : Nat → Stamp) (state : Quiet)
    (publication : Bytes) : Quiet :=
  { state with
    record := some (writtenRecord configuration.expectedOwner (stamps state.records.length)
      publication) }

theorem run_writeAnonymousRecord (publication : Bytes) : run (respond configuration stamps) state
      (writeAnonymousRecord note configuration publication) =
        (.ok (writtenRecord configuration.expectedOwner (stamps state.records.length)
          publication).status, afterWrite configuration stamps state publication) := by
  have htype : fileTypeFromMode 0o100600 = .regular := by decide
  have hmode : 0o100600 &&& 0o7777 = recordMode := by decide
  have hvalid : validateAnonymousRecordStatus
      (writtenRecord configuration.expectedOwner (stamps state.records.length)
        publication).status configuration.expectedOwner = none :=
    validateAnonymousRecordStatus_of_record htype rfl hmode rfl
  have hstat : run (respond configuration stamps)
      (afterWrite configuration stamps state publication)
      (statDescriptor note .failure .record : PublishStage FileStatus) =
        (.ok (writtenRecord configuration.expectedOwner (stamps state.records.length)
          publication).status, afterWrite configuration stamps state publication) :=
    run_statDescriptor_record _ rfl
  refine (Stage.run_bind_ok (run_perform _ _)).trans ?_
  refine (Stage.run_bind_ok (run_perform _ _)).trans ?_
  refine (Stage.run_bind_ok (run_perform _ _)).trans ?_
  refine (Stage.run_bind_ok (run_perform _ _)).trans ?_
  refine (Stage.run_bind_ok hstat).trans ?_
  refine (Stage.run_bind_ok (run_leaveOn hvalid)).trans ?_
  rfl

/-- The tip is still open, and read to its end. -/
def TipOpened (state : Quiet) : Prop :=
  ∀ stored ∈ state.records.getLast?,
    state.tip = some stored ∧ state.offset = stored.contents.length

theorem run_recheckPredecessor (h : Kept configuration state.records) (hopened : TipOpened state) :
    run (respond configuration stamps) state
      (recheckPredecessor note configuration (expectedLeaf (expectedAfter state.records))
        (provenOf state.records).tip (expectedAfter state.records)) = (.ok (), state) := by
  cases hlast : state.records.getLast? with
  | none =>
    have hnil := List.getLast?_eq_none_iff.mp hlast
    rw [hnil]
    show run (respond configuration stamps) state (do
      let named ← inspectNamedEntry note .failure (expectedLeaf (expectedAfter []))
      let _ ← Stage.require named.isNone
        (.failure (concurrentReplacement (some (expectedLeaf (expectedAfter [])))))
      Stage.pure () : PublishStage Unit) = _
    refine (Stage.run_bind_ok (run_inspectNamedEntry _ _)).trans ?_
    rw [hnil]
    rfl
  | some stored =>
    have hmem := List.mem_of_getLast? hlast
    have hsound := h.sound stored hmem
    have hleaf := (h.scanned hmem).2
    have hfound := h.findStored hmem
    obtain ⟨htip, hoffset⟩ := hopened stored hlast
    unfold provenOf expectedAfter
    rw [hlast]
    show run (respond configuration stamps) state (do
      let named ← inspectNamedEntry note .failure (scannedOf stored).leaf.leaf
      let _ ← Stage.require (named.any fun status =>
          matchesPredecessorIdentity status (recordIdentityFromStatus stored.status))
        (.failure (concurrentReplacement (some (scannedOf stored).leaf.leaf)))
      let contents ← rereadDescriptorContents note .failure configuration
        (scannedOf stored).leaf.leaf
      let _ ← Stage.require (contents = stored.contents)
        (.failure (concurrentReplacement (some (scannedOf stored).leaf.leaf)))
      Stage.pure () : PublishStage Unit) = _
    rw [hleaf]
    refine (Stage.run_bind_ok (run_inspectNamedEntry _ _)).trans ?_
    rw [hfound]
    refine (Stage.run_bind_ok
      (Stage.run_require (matchesPredecessorIdentity_self stored.status))).trans ?_
    refine (Stage.run_bind_ok (run_rereadDescriptorContents hsound htip hfound)).trans ?_
    refine (Stage.run_bind_ok (Stage.run_require (decide_eq_true rfl))).trans ?_
    rw [← hoffset]
    rfl

theorem records_afterTip : (afterTip state).records = state.records := by
  unfold afterTip
  split
  · rfl
  · rfl

theorem tipOpened_afterTip : TipOpened (afterTip state) := by
  intro stored hstored
  rw [records_afterTip, Option.mem_def] at hstored
  unfold afterTip
  rw [hstored]
  exact ⟨rfl, rfl⟩

/-- The state when everything is ready for the link. -/
def afterPrepare (configuration : StoreConfiguration) (stamps : Nat → Stamp) (state : Quiet)
    (publication : Bytes) : Quiet :=
  afterWrite configuration stamps (afterTip (afterOpen state)) publication

theorem records_afterPrepare (publication : Bytes) :
    (afterPrepare configuration stamps state publication).records = state.records :=
  records_afterTip

theorem tipOpened_afterPrepare (publication : Bytes) :
    TipOpened (afterPrepare configuration stamps state publication) :=
  tipOpened_afterTip

theorem record_afterPrepare (publication : Bytes) :
    (afterPrepare configuration stamps state publication).record =
      some (writtenRecord configuration.expectedOwner (stamps state.records.length)
        publication) := by
  show some (writtenRecord _ (stamps (afterTip (afterOpen state)).records.length) _) = _
  rw [records_afterTip]
  rfl

/-- What the steps before the link have found. -/
def preparedOf (configuration : StoreConfiguration) (stamps : Nat → Stamp)
    (records : List Stored) (publication : Bytes) : Prepared where
  proven := provenOf records
  generation := records.length + 1
  leaf := expectedLeaf (expectedAfter records)
  temporaryStatus :=
    (writtenRecord configuration.expectedOwner (stamps records.length) publication).status

theorem run_prepareCommit (h : Kept configuration state.records)
    (hcount : state.records.length ≤ maxUnitDirectoryEntries)
    (hpublication : publication.length ≤ configuration.maxRecordBytes) :
    run (respond configuration stamps) state
      (prepareCommit configuration publication (expectedAfter state.records)) =
        (.ok (preparedOf configuration stamps state.records publication),
          afterPrepare configuration stamps state publication) := by
  have hopen : Kept configuration (afterOpen state).records := h
  have htip : (afterTip (afterOpen state)).records = state.records := records_afterTip
  have hready : (afterPrepare configuration stamps state publication).records =
      state.records := records_afterPrepare publication
  have hkept : Kept configuration
      (afterPrepare configuration stamps state publication).records := by
    rw [hready]
    exact h
  have hgeneration := generationAfter_provenOf h hcount
  have hleaf := publicationLeaf_expectedAfter hcount
  let note : PublicationProgress := preparedProgress (state.records.length + 1)
    (expectedLeaf (expectedAfter state.records)) publication
  have hwrite : run (respond configuration stamps) (afterTip (afterOpen state))
      (writeAnonymousRecord note configuration publication) =
        (.ok (preparedOf configuration stamps state.records publication).temporaryStatus,
          afterPrepare configuration stamps state publication) := by
    have hrun : run (respond configuration stamps) (afterTip (afterOpen state))
        (writeAnonymousRecord note configuration publication) = _ :=
      run_writeAnonymousRecord publication
    rw [htip] at hrun
    exact hrun
  have hrecheck : run (respond configuration stamps)
      (afterPrepare configuration stamps state publication)
      (recheckPredecessor note configuration (expectedLeaf (expectedAfter state.records))
        (provenOf state.records).tip (expectedAfter state.records)) =
          (.ok (), afterPrepare configuration stamps state publication) := by
    rw [← hready]
    exact run_recheckPredecessor hkept (tipOpened_afterPrepare publication)
  have hreprove : run (respond configuration stamps)
      (afterPrepare configuration stamps state publication)
      (reproveAuthority note .failure configuration refusePublication
        (provenOf state.records).token) = (.ok (provenOf state.records),
            afterPrepare configuration stamps state publication) := by
    rw [← hready]
    exact run_reproveAuthority _ hkept (by rw [hready]; exact hcount) rfl
  refine (Stage.run_bind_ok (run_openHistory h hcount hpublication)).trans ?_
  refine (Stage.run_bind_ok (run_requireExpected hopen)).trans ?_
  dsimp only
  rw [hgeneration, hleaf]
  refine (Stage.run_bind_ok (Stage.run_require (decide_eq_true (Nat.succ_ne_zero _)))).trans ?_
  refine (Stage.run_bind_ok hwrite).trans ?_
  refine (Stage.run_bind_ok hrecheck).trans ?_
  refine (Stage.run_bind_ok (run_perform _ _)).trans ?_
  refine (Stage.run_bind_ok hreprove).trans ?_
  rfl

theorem Kept.next_free (h : Kept configuration records)
    (hcount : records.length ≤ maxUnitDirectoryEntries) :
    Progress.findStored records (expectedLeaf (expectedAfter records)) = none := by
  obtain ⟨fields, hparse, hgeneration, _⟩ := h.parse_next hcount
  apply List.find?_eq_none.mpr
  intro stored hmem hsame
  rw [decide_eq_true_eq] at hsame
  obtain ⟨index, hindex⟩ := List.mem_iff_getElem?.mp hmem
  have hlt := (List.getElem?_eq_some_iff.mp hindex).1
  have hplace := h.generation hindex
  have hscanned := (h.scanned hmem).1
  rw [hsame, hparse, Option.some.injEq] at hscanned
  rw [← hscanned, hgeneration] at hplace
  omega

/-- The state with the record named. -/
def afterLink (configuration : StoreConfiguration) (stamps : Nat → Stamp) (state : Quiet)
    (publication : Bytes) : Quiet :=
  let named := nextStored configuration stamps state.records publication
  { afterPrepare configuration stamps state publication with
    records := state.records ++ [named]
    record := some named }

theorem run_linkRecord (h : Kept configuration state.records)
    (hcount : state.records.length ≤ maxUnitDirectoryEntries) :
    run (respond configuration stamps) (afterPrepare configuration stamps state publication)
      (linkRecord note (expectedLeaf (expectedAfter state.records))) =
        (.ok (), afterLink configuration stamps state publication) := by
  have hlink : linkStored stamps (afterPrepare configuration stamps state publication)
      (expectedLeaf (expectedAfter state.records)) =
        (.linked, afterLink configuration stamps state publication) := by
    unfold linkStored
    rw [record_afterPrepare, records_afterPrepare, h.next_free hcount]
    rfl
  have hquery : run (respond configuration stamps)
      (afterPrepare configuration stamps state publication)
      (Stage.query note (Request.linkRecord (expectedLeaf (expectedAfter state.records))) :
        PublishStage _) =
          (.ok LinkAnswer.linked, afterLink configuration stamps state publication) := by
    show (Except.ok (linkStored stamps _ _).1, (linkStored stamps _ _).2) = _
    rw [hlink]
    rfl
  exact (Stage.run_bind_ok hquery).trans rfl

theorem run_verifyPredecessor (state : Quiet) {older : List Stored}
    (hkept : Kept configuration older) (hrecords : Kept configuration state.records)
    (hsub : ∀ stored ∈ older, stored ∈ state.records) (hopened : ∀ stored ∈ older.getLast?,
      state.tip = some stored ∧ state.offset = stored.contents.length) :
    run (respond configuration stamps) state
      (verifyPredecessor note configuration record (provenOf older).tip
        (expectedAfter older)) = (.ok (), state) := by
  unfold provenOf expectedAfter
  cases hlast : older.getLast? with
  | none => rfl
  | some stored =>
    have hmem := List.mem_of_getLast? hlast
    have hsound := hkept.sound stored hmem
    have hleaf := (hkept.scanned hmem).2
    have hfound := hrecords.findStored (hsub stored hmem)
    obtain ⟨htip, hoffset⟩ := hopened stored hlast
    show run (respond configuration stamps) state (do
      let named ← inspectNamedEntry note
        (uncertain record .predecessorObservationUncertain (some record.leafName))
        (scannedOf stored).leaf.leaf
      let _ ← Stage.require (named.any fun status =>
          matchesPredecessorIdentity status (recordIdentityFromStatus stored.status))
        (historyUncertain record (concurrentReplacement none))
      let contents ← rereadDescriptorContents note (predecessorReadUncertain record)
        configuration (scannedOf stored).leaf.leaf
      let _ ← Stage.require (contents = stored.contents)
        (historyUncertain record (concurrentReplacement none))
      Stage.pure () : PublishStage Unit) = _
    rw [hleaf]
    refine (Stage.run_bind_ok (run_inspectNamedEntry _ _)).trans ?_
    rw [hfound]
    refine (Stage.run_bind_ok
      (Stage.run_require (matchesPredecessorIdentity_self stored.status))).trans ?_
    refine (Stage.run_bind_ok (run_rereadDescriptorContents hsound htip hfound)).trans ?_
    refine (Stage.run_bind_ok (Stage.run_require (decide_eq_true rfl))).trans ?_
    rw [← hoffset]
    rfl

theorem run_verifyPublished (state : Quiet) {temporaryStatus : FileStatus}
    (hsound : SoundRecord configuration stored) (hleaf : record.leafName = stored.leaf)
    (hfound : findStored state.records stored.leaf = some stored)
    (hsame : sameRelocatedRecordState temporaryStatus stored.status = true) :
    run (respond configuration stamps) state
      (verifyPublished note configuration record temporaryStatus stored.status) =
        (.ok (), state) := by
  have hquery : run (respond configuration stamps) state
      (Stage.query note (Request.inspectNamedEntry record.leafName) : PublishStage _) =
        (.ok (.ok (some stored.status)), state) := by
    show (Except.ok (Except.ok ((findStored state.records record.leafName).map _)), state) = _
    rw [hleaf, hfound]
    rfl
  have hcheck : (sameRelocatedRecordState temporaryStatus stored.status &&
      sameRecordState stored.status stored.status) = true := by
    rw [hsame, sameRecordState_self]
    rfl
  have hvalid : validateEntryStatus stored.status record.leafName
      configuration.expectedOwner = none := by
    rw [hleaf]
    exact hsound.valid
  refine (Stage.run_bind_ok hquery).trans ?_
  refine (Stage.run_bind_ok (Stage.run_require hcheck)).trans ?_
  exact run_leaveOn hvalid

theorem run_closePublication :
    run (respond configuration stamps) state (closePublication note record) = (.ok (), state) := by
  refine (Stage.run_bind_ok (run_perform _ _)).trans ?_
  refine (Stage.run_bind_ok (run_perform _ _)).trans ?_
  refine (Stage.run_bind_ok (run_perform _ _)).trans ?_
  refine (Stage.run_bind_ok (run_perform _ _)).trans ?_
  refine (Stage.run_bind_ok (run_perform _ _)).trans ?_
  exact run_perform _ _

/-- The record a publication reports. -/
def publishedRecord (configuration : StoreConfiguration) (stamps : Nat → Stamp)
    (records : List Stored) (publication : Bytes) : ObservedRecord :=
  ⟨records.length + 1, expectedLeaf (expectedAfter records),
    recordIdentityFromStatus (nextStored configuration stamps records publication).status,
    publication⟩

theorem expectedAfter_concat (publication : Bytes) :
    expectedAfter (records ++ [nextStored configuration stamps records publication]) =
      some (publishedRecord configuration stamps records publication) := by
  unfold expectedAfter publishedRecord
  rw [List.getLast?_concat, List.length_append, Option.map_some, contents_nextStored]
  rfl

theorem sameRelocatedRecordState_nextStored (records : List Stored) (publication : Bytes) :
    sameRelocatedRecordState
      (writtenRecord configuration.expectedOwner (stamps records.length) publication).status
      (nextStored configuration stamps records publication).status = true := by
  simp [sameRelocatedRecordState, sameFilesystemIdentity, nextStored, withName]

/-- A record after the link, and the checks of it. The last proof decides: it
finds the new history, or one name too many. -/
theorem run_verifyCommit (h : Kept configuration state.records) (hnext : Kept configuration
      (state.records ++ [nextStored configuration stamps state.records publication])) :
    (run (respond configuration stamps) (afterLink configuration stamps state publication)
      (verifyCommit configuration publication (expectedAfter state.records)
        (preparedOf configuration stamps state.records publication))) =
      (if state.records.length < maxUnitDirectoryEntries then
        .ok (.published (publishedRecord configuration stamps state.records publication))
      else
        .error (historyUncertain (publishedRecord configuration stamps state.records publication)
          ⟨.recordTooLarge, none, none⟩),
        afterLink configuration stamps state publication) := by
  let named := nextStored configuration stamps state.records publication
  let linked := afterLink configuration stamps state publication
  have hrecords : linked.records = state.records ++ [named] := rfl
  have hmem : named ∈ state.records ++ [named] := by simp
  have hsound := hnext.sound named hmem
  have hfound : findStored linked.records named.leaf = some named := hnext.findStored hmem
  have hopened : ∀ stored ∈ state.records.getLast?,
      linked.tip = some stored ∧ linked.offset = stored.contents.length := by
    intro stored hstored
    have hready : TipOpened (afterPrepare configuration stamps state publication) :=
      tipOpened_afterPrepare publication
    exact hready stored (by rw [records_afterPrepare]; exact hstored)
  have htoken : (provenOf linked.records).token =
      extendProofToken (provenOf state.records).token (expectedLeaf (expectedAfter state.records))
        (recordIdentityFromStatus named.status) publication := by
    have hextended := extendProofToken_provenOf state.records named
    rw [contents_nextStored] at hextended
    exact hextended.symm
  refine (Stage.run_bind_ok (run_statDescriptor_record named rfl)).trans ?_
  refine (Stage.run_bind_ok (run_verifyPredecessor linked h hnext
    (fun stored hstored => List.mem_append_left _ hstored) hopened)).trans ?_
  refine (Stage.run_bind_ok (run_verifyPublished linked hsound rfl hfound
    (sameRelocatedRecordState_nextStored state.records publication))).trans ?_
  by_cases hcount : state.records.length < maxUnitDirectoryEntries
  · rw [if_pos hcount]
    have hfits : linked.records.length ≤ maxUnitDirectoryEntries := by
      rw [hrecords, List.length_append]
      exact hcount
    refine (Stage.run_bind_ok (run_reproveAuthority linked hnext hfits htoken)).trans ?_
    refine (Stage.run_bind_ok run_closePublication).trans ?_
    rfl
  · rw [if_neg hcount]
    have hfull : maxUnitDirectoryEntries < linked.records.length := by
      rw [hrecords, List.length_append, List.length_singleton]
      omega
    refine (Stage.run_bind_error (Stage.run_bind_error
      (run_proveAuthority_full linked hfull))).trans ?_
    rfl

/-- A publication after the records so far. -/
theorem run_publish (h : Kept configuration state.records)
    (hcount : state.records.length ≤ maxUnitDirectoryEntries)
    (hstamp : (stamps state.records.length).Ordinary)
    (hpublication : publication.length ≤ configuration.maxRecordBytes)
    (hfuture : configuration.isFutureDocument publication = false) :
    run (respond configuration stamps) state
      (publishGenerationStore configuration publication (expectedAfter state.records)) =
      (if state.records.length < maxUnitDirectoryEntries then
        .published (publishedRecord configuration stamps state.records publication)
      else
        historyUncertain (publishedRecord configuration stamps state.records publication)
          ⟨.recordTooLarge, none, none⟩,
        afterLink configuration stamps state publication) := by
  have hnext : Kept configuration
      (state.records ++ [nextStored configuration stamps state.records publication]) :=
    h.grow hcount hstamp hpublication hfuture
  have hstage : run (respond configuration stamps) state
      (publishStage configuration publication (expectedAfter state.records)) = _ :=
    (Stage.run_bind_ok (run_prepareCommit h hcount hpublication)).trans
      ((Stage.run_bind_ok (run_linkRecord h hcount)).trans (run_verifyCommit h hnext))
  rw [publishGenerationStore_eq]
  refine (run_bind _ state).trans ?_
  rw [hstage]
  by_cases hroom : state.records.length < maxUnitDirectoryEntries
  · rw [if_pos hroom, if_pos hroom]
    rfl
  · rw [if_neg hroom, if_neg hroom]
    rfl

end Publication

/-! ## Publications in a row -/

section Progress

variable {configuration : StoreConfiguration} {stamps : Nat → Stamp}

/-- Contents that a publication may have. -/
def Publishable (configuration : StoreConfiguration) (contents : Bytes) : Prop :=
  contents.length ≤ configuration.maxRecordBytes ∧
    configuration.isFutureDocument contents = false

def isPublished : PublishResult → Bool
  | .published _ => true
  | _ => false

/-- The state of a unit that holds some contents in their order. -/
structure Holding (configuration : StoreConfiguration) (state : Quiet) (contents : List Bytes) :
    Prop where
  kept : Kept configuration state.records
  held : state.records.map Stored.contents = contents
  opened : contents ≠ [] → state.hasStore = true ∧ state.hasUnit = true

theorem Holding.length (h : Holding configuration state contents) :
    state.records.length = contents.length := by
  rw [← h.held, List.length_map]

theorem holding_initial : Holding configuration {} [] where
  kept := ⟨by simp, by simp, List.isChain_nil⟩
  held := rfl
  opened := fun hne => absurd rfl hne

theorem Holding.grow (h : Holding configuration state contents)
    (hcount : contents.length ≤ maxUnitDirectoryEntries)
    (hstamp : (stamps state.records.length).Ordinary)
    (hpublication : Publishable configuration publication) :
    Holding configuration (afterLink configuration stamps state publication)
      (contents ++ [publication]) where
  kept := by
    rw [← h.length] at hcount
    exact h.kept.grow hcount hstamp hpublication.1 hpublication.2
  held := by
    show (state.records ++ [_]).map Stored.contents = _
    rw [List.map_append, h.held, List.map_singleton, contents_nextStored]
  opened := by
    intro _
    show (afterTip (afterOpen state)).hasStore = true ∧ (afterTip (afterOpen state)).hasUnit = true
    unfold afterTip
    split
    · exact ⟨rfl, rfl⟩
    · exact ⟨rfl, rfl⟩

/-- Publications into a unit with room for all of them. -/
theorem publishAll_holding (hstamps : ∀ index, (stamps index).Ordinary) :
    ∀ (publications : List Bytes) {state : Quiet} {contents : List Bytes},
      Holding configuration state contents →
      (∀ publication ∈ publications, Publishable configuration publication) →
      contents.length + publications.length ≤ maxUnitDirectoryEntries →
      (∀ result ∈ (publishAll configuration stamps state (expectedAfter state.records)
        publications).1, isPublished result = true) ∧
      Holding configuration (publishAll configuration stamps state
        (expectedAfter state.records) publications).2 (contents ++ publications) := by
  intro publications
  induction publications with
  | nil =>
    intro state contents h _ _
    refine ⟨?_, ?_⟩
    · intro result hmem
      cases hmem
    · rw [List.append_nil]
      exact h
  | cons publication rest ih =>
    intro state contents h hpublications hroom
    rw [List.length_cons] at hroom
    have hthis := hpublications publication List.mem_cons_self
    have hlength := h.length
    have hrun := run_publish h.kept (by omega) (hstamps state.records.length) hthis.1 hthis.2
    rw [if_pos (by omega)] at hrun
    have hgrown := h.grow (by omega) (hstamps _) hthis
    have hexpected : expectedAfter (afterLink configuration stamps state publication).records =
        some (publishedRecord configuration stamps state.records publication) :=
      expectedAfter_concat publication
    obtain ⟨hresults, hholding⟩ := ih hgrown
      (fun other hother => hpublications other (List.mem_cons_of_mem _ hother))
      (by rw [List.length_append, List.length_singleton]; omega)
    rw [hexpected] at hresults hholding
    unfold publishAll
    dsimp only
    rw [hrun]
    refine ⟨?_, ?_⟩
    · intro result hmem
      rcases List.mem_cons.mp hmem with rfl | hmem
      · rfl
      · exact hresults result hmem
    · rw [List.append_cons]
      exact hholding

/-- More publications than there is room for. -/
theorem publishAll_overfull (hstamps : ∀ index, (stamps index).Ordinary) :
    ∀ (publications : List Bytes) {state : Quiet} {contents : List Bytes},
      Holding configuration state contents →
      (∀ publication ∈ publications, Publishable configuration publication) →
      contents.length ≤ maxUnitDirectoryEntries →
      maxUnitDirectoryEntries < contents.length + publications.length →
      ∃ result ∈ (publishAll configuration stamps state (expectedAfter state.records)
        publications).1, isPublished result = false := by
  intro publications
  induction publications with
  | nil =>
    intro state contents h _ hcount hmore
    rw [List.length_nil] at hmore
    omega
  | cons publication rest ih =>
    intro state contents h hpublications hcount hmore
    rw [List.length_cons] at hmore
    have hthis := hpublications publication List.mem_cons_self
    have hlength := h.length
    have hrun := run_publish h.kept (by omega) (hstamps state.records.length) hthis.1 hthis.2
    unfold publishAll
    dsimp only
    by_cases hroom : contents.length < maxUnitDirectoryEntries
    · rw [if_pos (by omega)] at hrun
      have hgrown := h.grow hcount (hstamps _) hthis
      have hexpected : expectedAfter (afterLink configuration stamps state publication).records =
            some (publishedRecord configuration stamps state.records publication) :=
        expectedAfter_concat publication
      obtain ⟨result, hmem, hresult⟩ := ih hgrown
        (fun other hother => hpublications other (List.mem_cons_of_mem _ hother))
        (by rw [List.length_append, List.length_singleton]; omega)
        (by rw [List.length_append, List.length_singleton]; omega)
      rw [hexpected] at hmem
      rw [hrun]
      exact ⟨result, List.mem_cons_of_mem _ hmem, hresult⟩
    · rw [if_neg (by omega)] at hrun
      rw [hrun]
      exact ⟨_, List.mem_cons_self, rfl⟩

theorem run_openForRead (h : Kept configuration state.records)
    (hcount : state.records.length ≤ maxUnitDirectoryEntries) (hstore : state.hasStore = true)
    (hunit : state.hasUnit = true) :
    run (respond configuration stamps) state (openForRead configuration) =
      (.ok (provenOf state.records), { state with hasUnit := true }) := by
  have hfirst : run (respond configuration stamps) state
      (Stage.query () Request.storeExists : ReadStage _) = (.ok (.ok true), state) := by
    show (Except.ok (Except.ok state.hasStore), state) = _
    rw [hstore]
    rfl
  have hsecond : run (respond configuration stamps) state
      (Stage.query () Request.unitExists : ReadStage _) = (.ok (.ok true), state) := by
    show (Except.ok (Except.ok state.hasUnit), state) = _
    rw [hunit]
    rfl
  refine (Stage.run_bind_ok hfirst).trans ?_
  refine (Stage.run_bind_ok rfl).trans ?_
  refine (Stage.run_bind_ok (Stage.run_require rfl)).trans ?_
  refine (Stage.run_bind_ok (run_perform _ _)).trans ?_
  refine (Stage.run_bind_ok hsecond).trans ?_
  refine (Stage.run_bind_ok rfl).trans ?_
  refine (Stage.run_bind_ok (run_perform _ _)).trans ?_
  exact run_proveAuthority { state with hasUnit := true } h hcount

theorem run_readTip (state : Quiet) (h : Kept configuration state.records)
    (hcount : state.records.length ≤ maxUnitDirectoryEntries)
    (hlast : state.records.getLast? = some stored) :
    run (respond configuration stamps) state
      (readTip configuration (provenOf state.records) (scannedOf stored)) =
        (.ok (.loaded ⟨(scannedOf stored).leaf.generation, stored.leaf,
          recordIdentityFromStatus stored.status, stored.contents⟩),
          { state with tip := some stored, offset := stored.contents.length }) := by
  have hmem := List.mem_of_getLast? hlast
  have hsound := h.sound stored hmem
  have hleaf := (h.scanned hmem).2
  have hfound := h.findStored hmem
  have hcontents : (provenOf state.records).tipContents = stored.contents := by
    unfold provenOf
    rw [hlast]
    rfl
  have hnamed : run (respond configuration stamps)
      { state with tip := some stored, offset := 0 }
      (inspectNamedEntry () .failure stored.leaf : ReadStage _) =
        (.ok (some stored.status), { state with tip := some stored, offset := 0 }) := by
    rw [run_inspectNamedEntry]
    show (Except.ok ((findStored state.records stored.leaf).map Stored.status), _) = _
    rw [hfound]
    rfl
  have hread : run (respond configuration stamps)
      { state with tip := some stored, offset := 0 }
      (readAllBytes () .failure configuration stored.leaf stored.status : ReadStage Bytes) =
        (.ok stored.contents,
          { state with tip := some stored, offset := stored.contents.length }) :=
    run_readAllBytes hsound rfl rfl hfound
  unfold readTip
  rw [hleaf]
  refine (Stage.run_bind_ok (run_openExistingEntry hsound hfound)).trans ?_
  refine (Stage.run_bind_ok hnamed).trans ?_
  refine (Stage.run_bind_ok (Stage.run_require (sameRecordState_self stored.status))).trans ?_
  refine (Stage.run_bind_ok hread).trans ?_
  refine (Stage.run_bind_ok (run_perform _ _)).trans ?_
  refine (Stage.run_bind_ok (run_reproveAuthority
    { state with tip := some stored, offset := stored.contents.length } h hcount rfl)).trans ?_
  refine (Stage.run_bind_ok (Stage.run_require (decide_eq_true hcontents.symm))).trans ?_
  refine (Stage.run_bind_ok (run_perform _ _)).trans ?_
  rfl

/-- A lookup finds the tip. -/
theorem readAfter_holding (h : Holding configuration state contents) (hne : contents ≠ [])
    (hcount : contents.length ≤ maxUnitDirectoryEntries) :
    ∃ record, readAfter configuration stamps state = .loaded record ∧
      record.generation = contents.length ∧ contents.getLast? = some record.rawContents := by
  have hlength := h.length
  obtain ⟨hstore, hunit⟩ := h.opened hne
  have hrecords : state.records ≠ [] := by
    intro hnil
    rw [hnil] at hlength
    exact hne (List.length_eq_zero_iff.mp hlength.symm)
  obtain ⟨stored, hlast⟩ : ∃ stored, state.records.getLast? = some stored :=
    ⟨_, List.getLast?_eq_some_getLast hrecords⟩
  have hgeneration : (scannedOf stored).leaf.generation = contents.length := by
    have hindex := hlast
    rw [List.getLast?_eq_getElem?] at hindex
    have hpos := List.length_pos_of_ne_nil hrecords
    have hplace := h.kept.generation hindex
    omega
  have htip : (provenOf state.records).tip = some (scannedOf stored) := by
    unfold provenOf
    rw [hlast]
    rfl
  rw [← hlength] at hcount
  let record : ObservedRecord := ⟨(scannedOf stored).leaf.generation, stored.leaf,
    recordIdentityFromStatus stored.status, stored.contents⟩
  have hstage : run (respond configuration stamps) state (readStage configuration) =
      (.ok (.loaded record), { state with
        hasUnit := true, tip := some stored, offset := stored.contents.length }) := by
    refine (Stage.run_bind_ok (run_openForRead h.kept hcount hstore hunit)).trans ?_
    rw [htip]
    exact run_readTip { state with hasUnit := true } h.kept hcount hlast
  refine ⟨record, ?_, hgeneration, ?_⟩
  · unfold readAfter readGenerationStore
    refine (congrArg Prod.fst (run_bind _ state)).trans ?_
    rw [hstage]
    rfl
  · rw [← h.held, List.getLast?_map, hlast]
    rfl

end Progress

/-- A kernel that counts inodes in 32 bits and has one time for everything. -/
def sampleStamps (index : Nat) : Stamp :=
  ⟨5, 11 + index % 2 ^ 32, 1700000000, 7, 1700000000, 42⟩

theorem sampleStamps_ordinary (index : Nat) : (sampleStamps index).Ordinary where
  device := by
    show 5 < 2 ^ 64
    decide
  inode := by
    show 11 + index % 2 ^ 32 < 2 ^ 64
    omega
  seconds := by
    show (0 : Int) ≤ 1700000000
    decide
  seconds_lt := by
    show (1700000000 : Int) < 2 ^ 63
    decide
  nanoseconds := by
    show (0 : Int) ≤ 42
    decide
  nanoseconds_lt := by
    show (42 : Int) < 2 ^ 63
    decide

theorem publishable_empty {count : Nat} : ∀ publication ∈ List.replicate count ([] : Bytes),
      Publishable sampleConfiguration publication := by
  intro publication hmem
  rw [List.eq_of_mem_replicate hmem]
  exact ⟨Nat.zero_le _, rfl⟩

end Moguet.Store.Progress
