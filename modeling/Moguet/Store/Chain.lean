import Mathlib.Data.List.Sort
import Moguet.Verified.Checked
import Moguet.Store.Sha256
import Moguet.Store.Record

/-!
# Proving the history of a unit

`scanUnitDirectory` takes the inventory of a unit directory, and
`proveAuthoritativeChain` decides whether it is one complete history: it walks
from the origin to the record whose name binds the bytes just read, and
compares what it found with the inventory. Leaf names are untrusted, so a
generation can be any value of `uint64_t`.
-/

namespace Moguet.Store.Chain

open Verified.ByteString Verified.Checked Sha256 Record

variable {expectedOwner : Nat}

def contentDigestHex (data : Bytes) : Bytes := rawContentsSha256 data

def maxUnitDirectoryEntries : Nat := 4096

structure ScannedGeneration where
  leaf : GenerationLeaf
  status : FileStatus

/-- What a scan has sorted the managed leaves of a directory into. -/
structure ScannedLeaves where
  managedLeaves : List Bytes := []
  unrecognizedLeaves : List Bytes := []
  parsed : List ScannedGeneration := []

/-- Every managed leaf is accounted for, and every record has a status that is
in order. -/
structure ScannedLeaves.Complete (leaves : ScannedLeaves) (expectedOwner : Nat) :
    Prop where
  unrecognized : leaves.unrecognizedLeaves =
    leaves.managedLeaves.filter fun name => (parseGenerationLeaf name).isNone
  parsed : leaves.parsed.map ScannedGeneration.leaf =
    leaves.managedLeaves.filterMap parseGenerationLeaf
  statuses : ∀ record ∈ leaves.parsed,
    validateEntryStatus record.status record.leaf.leaf expectedOwner = none

structure DirectoryInventory (expectedOwner : Nat) extends ScannedLeaves where
  observedLeaves : List Bytes
  complete : toScannedLeaves.Complete expectedOwner
  bounded : parsed.length ≤ maxUnitDirectoryEntries

def isInternalTempLeaf (name temporaryLeafPrefix : Bytes) : Bool :=
  temporaryLeafPrefix.isPrefixOf name

/-- A unit directory: the names `readdir` gives, and the status of each, which
is missing when the entry has gone meanwhile. -/
structure UnitDirectory where
  names : List Bytes
  inspectNamedEntry : Bytes → Except StoreFailure (Option FileStatus)

variable {directory : UnitDirectory}

def inspectRecord (expectedOwner : Nat) (directory : UnitDirectory) (leaf : GenerationLeaf) :
    Except StoreFailure ScannedGeneration := do
  let status ← directory.inspectNamedEntry leaf.leaf
  match status with
  | none => .error ⟨.concurrentReplacement, some leaf.leaf, none⟩
  | some status =>
    match validateEntryStatus status leaf.leaf expectedOwner with
    | some failure => .error failure
    | none => .ok ⟨leaf, status⟩

def scanLeaves (expectedOwner : Nat) (directory : UnitDirectory)
    (temporaryLeafPrefix : Bytes) : List Bytes → Except StoreFailure ScannedLeaves
  | [] => .ok {}
  | name :: names =>
    if isInternalTempLeaf name temporaryLeafPrefix then
      scanLeaves expectedOwner directory temporaryLeafPrefix names
    else
      match parseGenerationLeaf name with
      | none => do
          let rest ← scanLeaves expectedOwner directory temporaryLeafPrefix names
          .ok ⟨name :: rest.managedLeaves, name :: rest.unrecognizedLeaves, rest.parsed⟩
      | some leaf => do
          let record ← inspectRecord expectedOwner directory leaf
          let rest ← scanLeaves expectedOwner directory temporaryLeafPrefix names
          .ok ⟨name :: rest.managedLeaves, rest.unrecognizedLeaves,
            record :: rest.parsed⟩

theorem inspectRecord_ok {leaf : GenerationLeaf} {record : ScannedGeneration}
    (h : inspectRecord expectedOwner directory leaf = .ok record) :
    record.leaf = leaf ∧
      validateEntryStatus record.status record.leaf.leaf expectedOwner = none := by
  unfold inspectRecord at h
  rw [bind_eq_ok] at h
  obtain ⟨status, _, h⟩ := h
  split at h
  · cases h
  · split at h
    · cases h
    · rename_i hvalid
      injection h with h
      rw [← h]
      exact ⟨rfl, hvalid⟩

theorem scanLeaves_complete {temporaryLeafPrefix : Bytes} :
    ∀ {names : List Bytes} {leaves : ScannedLeaves},
      scanLeaves expectedOwner directory temporaryLeafPrefix names = .ok leaves →
      leaves.Complete expectedOwner ∧ leaves.parsed.length ≤ names.length := by
  intro names
  induction names with
  | nil =>
    intro leaves h
    injection h with h
    rw [← h]
    exact ⟨⟨rfl, rfl, by simp⟩, le_rfl⟩
  | cons name names ih =>
    intro leaves h
    unfold scanLeaves at h
    split at h
    · obtain ⟨hcomplete, hlength⟩ := ih h
      refine ⟨hcomplete, ?_⟩
      rw [List.length_cons]
      omega
    · split at h
      · rename_i hparse
        rw [bind_eq_ok] at h
        obtain ⟨rest, hrest, h⟩ := h
        injection h with h
        obtain ⟨hcomplete, hlength⟩ := ih hrest
        rw [← h]
        refine ⟨⟨?_, ?_, hcomplete.statuses⟩, ?_⟩
        · simp [hparse, hcomplete.unrecognized]
        · simp [hparse, hcomplete.parsed]
        · rw [List.length_cons]
          exact Nat.le_succ_of_le hlength
      · rename_i leaf hparse
        rw [bind_eq_ok] at h
        obtain ⟨record, hrecord, h⟩ := h
        rw [bind_eq_ok] at h
        obtain ⟨rest, hrest, h⟩ := h
        injection h with h
        obtain ⟨hcomplete, hlength⟩ := ih hrest
        obtain ⟨hleaf, hstatus⟩ := inspectRecord_ok hrecord
        rw [← h]
        refine ⟨⟨?_, ?_, ?_⟩, ?_⟩
        · simp [hparse, hcomplete.unrecognized]
        · simp [hparse, hleaf, hcomplete.parsed]
        · intro other hmem
          rcases List.mem_cons.mp hmem with rfl | hmem
          · exact hstatus
          · exact hcomplete.statuses other hmem
        · simp only [List.length_cons]
          omega

def scanUnitDirectory (expectedOwner : Nat) (directory : UnitDirectory)
    (temporaryLeafPrefix : Bytes) :
    Except StoreFailure (DirectoryInventory expectedOwner) :=
  if hcount : maxUnitDirectoryEntries < directory.names.length then
    .error ⟨.recordTooLarge, none, none⟩
  else
    let observedLeaves := directory.names.insertionSort (· ≤ ·)
    match hscan : scanLeaves expectedOwner directory temporaryLeafPrefix observedLeaves with
    | .error failure => .error failure
    | .ok leaves => .ok {
        toScannedLeaves := leaves
        observedLeaves
        complete := (scanLeaves_complete hscan).1
        bounded := by
          have hlength := (scanLeaves_complete hscan).2
          rw [List.length_insertionSort] at hlength
          omega }

structure ChainProofRecord where
  leaf : Bytes
  identity : RecordIdentity
  contentDigest : Bytes
  deriving DecidableEq

structure ChainProofToken where
  managedLeaves : List Bytes
  records : List ChainProofRecord
  deriving DecidableEq

structure ProvenChain where
  tip : Option ScannedGeneration
  tipContents : Bytes
  token : ChainProofToken

inductive StoreHistoryIssue
  | forkDetected
  | orphanSuccessor
  | chainGap
  | missingOriginWithArtifacts
  | unrecognizedManagedEntry
  | futureOwnedArtifact
  | higherGenerationUnreachable
  deriving DecidableEq

structure StoreUnsafeHistory where
  issue : StoreHistoryIssue
  observedLeaves : List Bytes
  matchingGeneration : Option Nat
  highestGeneration : Option Nat

/-- Why there is no proof. `unfinished` is a walk that was still going when its
turns were used up. -/
inductive ChainRefusal
  | history (observed : StoreUnsafeHistory)
  | failure (reported : StoreFailure)
  | unfinished

def higherGeneration (highest : Option Nat) (candidate : ScannedGeneration) : Option Nat :=
  match highest with
  | none => some candidate.leaf.generation
  | some generation =>
    if generation < candidate.leaf.generation then some candidate.leaf.generation
    else some generation

def highestGeneration (parsed : List ScannedGeneration) : Option Nat :=
  parsed.foldl higherGeneration none

def isOrigin (candidate : ScannedGeneration) : Bool :=
  candidate.leaf.generation = 1 && !candidate.leaf.hasPredecessor

/-- The order of the sort: by generation, then by name. -/
def Precedes (left right : ScannedGeneration) : Prop :=
  if left.leaf.generation ≠ right.leaf.generation then
    left.leaf.generation < right.leaf.generation
  else left.leaf.leaf ≤ right.leaf.leaf

instance : DecidableRel Precedes := fun left right =>
  inferInstanceAs (Decidable
    (if left.leaf.generation ≠ right.leaf.generation then
      left.leaf.generation < right.leaf.generation
    else left.leaf.leaf ≤ right.leaf.leaf))

def orderGenerations (parsed : List ScannedGeneration) : List ScannedGeneration :=
  parsed.insertionSort Precedes

/-- Two neighbours with one generation. -/
def hasFork : List ScannedGeneration → Bool
  | first :: second :: rest =>
    first.leaf.generation = second.leaf.generation || hasFork (second :: rest)
  | _ => false

/-- `std::lower_bound` on the order, and the check that it met the generation. -/
def findGeneration (ordered : List ScannedGeneration) (generation : Nat) :
    Option ScannedGeneration :=
  match ordered.find? fun candidate => ¬ candidate.leaf.generation < generation with
  | none => none
  | some candidate =>
    if candidate.leaf.generation = generation then some candidate else none

/-- A record of the walk and the bytes read from it. -/
structure ChainEntry where
  record : ScannedGeneration
  contents : Bytes

def ChainEntry.proofRecord (entry : ChainEntry) : ChainProofRecord where
  leaf := entry.record.leaf.leaf
  identity := recordIdentityFromStatus entry.record.status
  contentDigest := contentDigestHex entry.contents

section

variable (expectedOwner : Nat)
  (readGenerationContents : ScannedGeneration → Except StoreFailure Bytes)
  (isFutureDocument : Bytes → Bool) (advance : Nat → Nat)

def readEntry (current : ScannedGeneration) : Except ChainRefusal ChainEntry :=
  match validateEntryStatus current.status current.leaf.leaf expectedOwner with
  | some failure => .error (.failure failure)
  | none =>
    match readGenerationContents current with
    | .error failure => .error (.failure failure)
    | .ok contents => .ok ⟨current, contents⟩

/-- The record after an entry, if its name binds the bytes of the entry. -/
def successor (ordered : List ScannedGeneration) (highest : Option Nat)
    (entry : ChainEntry) : Option ScannedGeneration :=
  let next := advance entry.record.leaf.generation
  if next = 0 then none
  else
    match highest with
    | none => none
    | some generation =>
      if generation < next then none
      else
        match findGeneration ordered next with
        | none => none
        | some candidate =>
          if matchesPredecessorBinding candidate.leaf entry.record.status
              (contentDigestHex entry.contents) then some candidate
          else none

/-- The walk, with a bound on its turns. -/
def walkChain (ordered : List ScannedGeneration) (highest : Option Nat) :
    Nat → List ChainEntry → ScannedGeneration → Except ChainRefusal (List ChainEntry)
  | 0, _, _ => .error .unfinished
  | turns + 1, chain, current => do
      let entry ← readEntry expectedOwner readGenerationContents current
      match successor advance ordered highest entry with
      | none => .ok (chain ++ [entry])
      | some candidate => walkChain ordered highest turns (chain ++ [entry]) candidate

/-- Whether a record that is not on the chain is a future document. -/
def hasFutureExtra (chain : List ChainEntry) :
    List ScannedGeneration → Except ChainRefusal Bool
  | [] => .ok false
  | candidate :: rest =>
    if chain.any fun entry => entry.record.leaf.leaf = candidate.leaf.leaf then
      hasFutureExtra chain rest
    else
      match readGenerationContents candidate with
      | .error failure => .error (.failure failure)
      | .ok contents =>
        if isFutureDocument contents then .ok true else hasFutureExtra chain rest

def unsafeHistory (inventory : DirectoryInventory expectedOwner) (issue : StoreHistoryIssue)
    (matching highest : Option Nat) : ChainRefusal :=
  .history ⟨issue, inventory.observedLeaves, matching, highest⟩

/-- Records that are not on the chain are read only when there are any. -/
def inspectExtras (inventory : DirectoryInventory expectedOwner) (chain : List ChainEntry) :
    Except ChainRefusal Bool :=
  if chain.length ≠ inventory.parsed.length then
    hasFutureExtra readGenerationContents isFutureDocument chain inventory.parsed
  else .ok false

/-- The verdict on a walk. -/
def concludeChain (inventory : DirectoryInventory expectedOwner)
    (ordered : List ScannedGeneration) (highest : Option Nat) (chain : List ChainEntry) :
    Except ChainRefusal ProvenChain := do
  let matching := chain.getLast?.map fun entry => entry.record.leaf.generation
  let hasExtras := chain.length ≠ inventory.parsed.length
  let futureExtra ← inspectExtras expectedOwner readGenerationContents isFutureDocument
    inventory chain
  if (chain.dropLast.any fun entry => isFutureDocument entry.contents) || futureExtra then
    .error (unsafeHistory expectedOwner inventory .futureOwnedArtifact matching highest)
  else if highest ≠ some ordered.length then
    .error (unsafeHistory expectedOwner inventory .chainGap matching highest)
  else if hasExtras then
    .error (unsafeHistory expectedOwner inventory
      (if matching.getD 0 < highest.getD 0 then .higherGenerationUnreachable
        else .orphanSuccessor) matching highest)
  else
    .ok {
      tip := chain.getLast?.map ChainEntry.record
      tipContents := (chain.getLast?.map ChainEntry.contents).getD []
      token := ⟨inventory.managedLeaves, chain.map ChainEntry.proofRecord⟩ }

/-- The proof over a way to count generations. -/
def proveChain (inventory : DirectoryInventory expectedOwner) :
    Except ChainRefusal ProvenChain :=
  let highest := highestGeneration inventory.parsed
  if inventory.unrecognizedLeaves ≠ [] then
    .error (unsafeHistory expectedOwner inventory .unrecognizedManagedEntry none highest)
  else if inventory.parsed = [] then .ok ⟨none, [], ⟨inventory.managedLeaves, []⟩⟩
  else
    match inventory.parsed.find? isOrigin with
    | none =>
      .error (unsafeHistory expectedOwner inventory .missingOriginWithArtifacts none
        highest)
    | some origin =>
      let ordered := orderGenerations inventory.parsed
      if hasFork ordered then
        .error (unsafeHistory expectedOwner inventory .forkDetected
          (some origin.leaf.generation) highest)
      else do
        let chain ← walkChain expectedOwner readGenerationContents advance ordered highest
          inventory.parsed.length [] origin
        concludeChain expectedOwner readGenerationContents isFutureDocument inventory
          ordered highest chain

/-- The addition of `uint64_t`. -/
def nextGeneration (generation : Nat) : Nat := (generation + 1) % 2 ^ 64

def proveAuthoritativeChain (inventory : DirectoryInventory expectedOwner) :
    Except ChainRefusal ProvenChain :=
  proveChain expectedOwner readGenerationContents isFutureDocument nextGeneration inventory

end

end Moguet.Store.Chain
