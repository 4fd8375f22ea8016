import Mathlib.Data.List.Chain
import Moguet.Store.Chain

/-!
# What a proven chain says

`AuthoritativeHistory` is the history a unit is meant to have: the generations
run from 1 to `n`, each record after the first names the one before it and the
bytes that were read from it, and nothing but the last record may belong to a
later schema. The proof of the source accepts exactly these inventories.

The walk counts generations with the addition of `uint64_t`. A record of the
walk is the first, second, ... of the directory, so its generation is at most
the number of entries and the addition does not wrap, whatever the names say.
-/

namespace Moguet.Store.History

open Verified.ByteString Verified.Checked Record Chain

variable {parsed : List ScannedGeneration} {expectedOwner : Nat}
  {readGenerationContents : ScannedGeneration → Except StoreFailure Bytes} {highest : Option Nat}
  {isFutureDocument : Bytes → Bool}

variable {record candidate current origin : ScannedGeneration}
  {ordered records : List ScannedGeneration} {advance : Nat → Nat} {chain : List ChainEntry}
  {entry : ChainEntry} {proven : ProvenChain}

/-! ## The history of a unit -/

/-- A name binds a record and the bytes read from it. -/
structure NamesPredecessor (leaf : GenerationLeaf) (predecessor : FileStatus)
    (contents : Bytes) : Prop where
  inode : leaf.predecessorInode = predecessor.inode
  ctimeSeconds : leaf.predecessorCtimeSeconds = toUintmax predecessor.statusChangeTimeSeconds
  ctimeNanoseconds :
    leaf.predecessorCtimeNanoseconds = toUintmax predecessor.statusChangeTimeNanoseconds
  digest : leaf.predecessorDigest = contentDigestHex contents

structure AuthoritativeHistory {expectedOwner : Nat}
    (inventory : DirectoryInventory expectedOwner) (contents : ScannedGeneration → Bytes)
    (isFutureDocument : Bytes → Bool) (records : List ScannedGeneration) : Prop where
  recognized : ∀ name ∈ inventory.managedLeaves, (parseGenerationLeaf name).isSome = true
  nonempty : records ≠ []
  all_records : records.Perm inventory.parsed
  generations : records.map (fun record => record.leaf.generation) =
    List.range' 1 records.length
  bound : records.IsChain fun older newer =>
    NamesPredecessor newer.leaf older.status (contents older)
  not_future : ∀ record ∈ records.dropLast, isFutureDocument (contents record) = false

def entryOf (contents : ScannedGeneration → Bytes) (record : ScannedGeneration) :
    ChainEntry :=
  ⟨record, contents record⟩

/-- The proof a history amounts to. -/
def historyProof {expectedOwner : Nat} (inventory : DirectoryInventory expectedOwner)
    (contents : ScannedGeneration → Bytes) (records : List ScannedGeneration) :
    ProvenChain where
  tip := records.getLast?
  tipContents := (records.getLast?.map contents).getD []
  token := ⟨inventory.managedLeaves,
    records.map fun record => (entryOf contents record).proofRecord⟩

/-! ## The order of the records -/

instance : Std.Total Precedes where
  total left right := by
    unfold Precedes
    by_cases hgeneration : left.leaf.generation = right.leaf.generation
    · simp only [hgeneration, ne_eq, not_true_eq_false, if_false]
      exact List.le_total left.leaf.leaf right.leaf.leaf
    · have hother : right.leaf.generation ≠ left.leaf.generation := Ne.symm hgeneration
      simp only [ne_eq, hgeneration, hother, not_false_eq_true, if_true]
      omega

theorem generation_le_of_precedes {left right : ScannedGeneration} (h : Precedes left right) :
    left.leaf.generation ≤ right.leaf.generation := by
  unfold Precedes at h
  split at h
  · omega
  · rename_i hsame
    omega

instance : IsTrans ScannedGeneration Precedes where
  trans first second third hfirst hsecond := by
    have hle := generation_le_of_precedes hfirst
    have hle' := generation_le_of_precedes hsecond
    unfold Precedes at hfirst hsecond ⊢
    split
    · omega
    · rename_i hsame
      have h12 : first.leaf.generation = second.leaf.generation := by omega
      have h23 : second.leaf.generation = third.leaf.generation := by omega
      simp only [h12, h23, ne_eq, not_true_eq_false, if_false] at hfirst hsecond
      exact List.le_trans hfirst hsecond

theorem mem_orderGenerations : record ∈ orderGenerations parsed ↔ record ∈ parsed :=
  List.mem_insertionSort Precedes

theorem length_orderGenerations (parsed : List ScannedGeneration) :
    (orderGenerations parsed).length = parsed.length :=
  List.length_insertionSort Precedes parsed

/-- Without a generation that occurs twice the order is strict. -/
theorem orderGenerations_strict (hnodup : (parsed.map fun record => record.leaf.generation).Nodup) :
    (orderGenerations parsed).Pairwise fun left right =>
      left.leaf.generation < right.leaf.generation := by
  have hordered := List.pairwise_insertionSort Precedes parsed
  have hperm : ((orderGenerations parsed).map fun record => record.leaf.generation).Perm
      (parsed.map fun record => record.leaf.generation) :=
    (List.perm_insertionSort Precedes parsed).map _
  have hdistinct := List.pairwise_map.mp (hperm.nodup_iff.mpr hnodup)
  refine (hordered.and hdistinct).imp ?_
  intro left right hboth
  have hle := generation_le_of_precedes hboth.1
  have hne := hboth.2
  omega

theorem hasFork_eq_false : ∀ {ordered : List ScannedGeneration},
      (ordered.Pairwise fun left right => left.leaf.generation < right.leaf.generation) →
      hasFork ordered = false := by
  intro ordered
  induction ordered with
  | nil => intro _; rfl
  | cons first rest ih =>
    intro hstrict
    have htail := ih (List.pairwise_cons.mp hstrict).2
    cases rest with
    | nil => rfl
    | cons second rest =>
      have hlt := (List.pairwise_cons.mp hstrict).1 second List.mem_cons_self
      unfold hasFork
      rw [htail, Bool.or_false, decide_eq_false_iff_not]
      omega

theorem findGeneration_some {generation : Nat}
    (h : findGeneration ordered generation = some candidate) :
    candidate ∈ ordered ∧ candidate.leaf.generation = generation := by
  unfold findGeneration at h
  split at h
  · cases h
  · rename_i found hfound
    split at h
    · rename_i hgeneration
      injection h with h
      rw [← h]
      exact ⟨List.mem_of_find?_eq_some hfound, hgeneration⟩
    · cases h

/-- The search meets every record of a strict order. -/
theorem findGeneration_of_mem : ∀ {ordered : List ScannedGeneration},
      (ordered.Pairwise fun left right => left.leaf.generation < right.leaf.generation) →
      record ∈ ordered → findGeneration ordered record.leaf.generation = some record := by
  intro ordered
  induction ordered with
  | nil => intro _ hmem; cases hmem
  | cons first rest ih =>
    intro hstrict hmem
    obtain ⟨hfirst, hrest⟩ := List.pairwise_cons.mp hstrict
    rcases List.mem_cons.mp hmem with rfl | hmem
    · simp [findGeneration]
    · have hlt := hfirst record hmem
      have htail := ih hrest hmem
      unfold findGeneration at htail ⊢
      rw [List.find?_cons_of_neg (by simpa using hlt)]
      exact htail

theorem foldl_higherGeneration :
    ∀ {parsed : List ScannedGeneration} {highest : Option Nat} {top : Nat},
      parsed.foldl higherGeneration highest = some top →
      (highest = some top ∨ ∃ record ∈ parsed, record.leaf.generation = top) ∧
      (∀ generation, highest = some generation → generation ≤ top) ∧
      ∀ record ∈ parsed, record.leaf.generation ≤ top := by
  intro parsed
  induction parsed with
  | nil =>
    intro highest top h
    have hsame : highest = some top := h
    refine ⟨Or.inl hsame, ?_, by simp⟩
    intro generation hgeneration
    rw [hsame] at hgeneration
    injection hgeneration with hgeneration
    omega
  | cons first rest ih =>
    intro highest top h
    obtain ⟨hfrom, habove, hrest⟩ := ih (h : rest.foldl _ (higherGeneration highest first) = _)
    have hstep : (higherGeneration highest first = some first.leaf.generation ∨
          higherGeneration highest first = highest) ∧
        ∃ generation, higherGeneration highest first = some generation ∧
          first.leaf.generation ≤ generation ∧
          ∀ before, highest = some before → before ≤ generation := by
      unfold higherGeneration
      split
      · exact ⟨Or.inl rfl, _, rfl, le_rfl, fun before hbefore => by cases hbefore⟩
      · rename_i generation
        split
        · rename_i hlt
          refine ⟨Or.inl rfl, _, rfl, le_rfl, ?_⟩
          intro before hbefore
          injection hbefore with hbefore
          omega
        · rename_i hlt
          refine ⟨Or.inr rfl, _, rfl, by omega, ?_⟩
          intro before hbefore
          injection hbefore with hbefore
          omega
    obtain ⟨hwhich, reached, hreached, hfirst, hbefore⟩ := hstep
    have hbelow := habove reached hreached
    refine ⟨?_, ?_, ?_⟩
    · rcases hfrom with hfrom | ⟨record, hmem, hrecord⟩
      · rcases hwhich with hwhich | hwhich
        · rw [hwhich] at hfrom
          injection hfrom with hfrom
          exact Or.inr ⟨first, List.mem_cons_self, hfrom⟩
        · rw [hwhich] at hfrom
          exact Or.inl hfrom
      · exact Or.inr ⟨record, List.mem_cons_of_mem _ hmem, hrecord⟩
    · intro generation hgeneration
      exact le_trans (hbefore generation hgeneration) hbelow
    · intro record hmem
      rcases List.mem_cons.mp hmem with rfl | hmem
      · exact le_trans hfirst hbelow
      · exact hrest record hmem

theorem highestGeneration_some (hne : parsed ≠ []) :
    ∃ top, highestGeneration parsed = some top := by
  have hstays : ∀ {rest : List ScannedGeneration} {generation : Nat},
      ∃ top, rest.foldl higherGeneration (some generation) = some top := by
    intro rest
    induction rest with
    | nil => intro generation; exact ⟨generation, rfl⟩
    | cons first rest ih =>
      intro generation
      rw [List.foldl_cons]
      unfold higherGeneration
      dsimp only
      split
      · exact ih
      · exact ih
  cases parsed with
  | nil => exact absurd rfl hne
  | cons first rest => exact hstays

/-! ## The walk -/

/-- Records that are the first ones of the unit, one for each generation. -/
structure OnWalk (parsed records : List ScannedGeneration) : Prop where
  generations : records.map (fun record => record.leaf.generation) =
    List.range' 1 records.length
  members : ∀ record ∈ records, record ∈ parsed

theorem OnWalk.nodup (h : OnWalk parsed records) : records.Nodup := by
  have hnodup : (List.range' 1 records.length).Nodup := List.nodup_range'
  rw [← h.generations] at hnodup
  exact hnodup.of_map

theorem OnWalk.length_le (h : OnWalk parsed records) : records.length ≤ parsed.length :=
  (List.subperm_of_subset h.nodup h.members).length_le

theorem OnWalk.last (h : OnWalk parsed (records ++ [current])) :
    current.leaf.generation = records.length + 1 := by
  have hgenerations := h.generations
  rw [List.map_append, List.map_singleton, List.length_append, List.length_singleton,
    List.range'_1_concat] at hgenerations
  have hlast := List.singleton_inj.mp (List.append_inj' hgenerations rfl).2
  omega

theorem onWalk_first (h : OnWalk parsed [origin]) : origin.leaf.generation = 1 := by
  have hwalk : OnWalk parsed ([] ++ [origin]) := h
  exact hwalk.last

theorem OnWalk.concat (h : OnWalk parsed records) (hmem : candidate ∈ parsed)
    (hgeneration : candidate.leaf.generation = records.length + 1) :
    OnWalk parsed (records ++ [candidate]) := by
  refine ⟨?_, ?_⟩
  · rw [List.map_append, h.generations, List.length_append, List.length_singleton,
      List.range'_1_concat, List.map_singleton, hgeneration, Nat.add_comm 1]
  · intro record hrecord
    rcases List.mem_append.mp hrecord with hrecord | hrecord
    · exact h.members record hrecord
    · rw [List.mem_singleton] at hrecord
      rw [hrecord]
      exact hmem

theorem readEntry_ok (h : readEntry expectedOwner readGenerationContents current = .ok entry) :
    entry.record = current ∧ readGenerationContents current = .ok entry.contents := by
  unfold readEntry at h
  split at h
  · cases h
  · split at h
    · cases h
    · rename_i contents hread
      injection h with h
      rw [← h]
      exact ⟨rfl, hread⟩

theorem readEntry_ne_unfinished :
    readEntry expectedOwner readGenerationContents current ≠ .error .unfinished := by
  unfold readEntry
  split
  · intro h
    cases h
  · split
    · intro h
      cases h
    · intro h
      cases h

/-- What a record that continues the walk has been found to be. -/
theorem successor_some (h : successor advance ordered highest entry = some candidate) :
    candidate ∈ ordered ∧ candidate.leaf.generation = advance entry.record.leaf.generation ∧
      matchesPredecessorBinding candidate.leaf entry.record.status
        (contentDigestHex entry.contents) = true := by
  unfold successor at h
  dsimp only at h
  split at h
  · cases h
  · split at h
    · cases h
    · split at h
      · cases h
      · split at h
        · cases h
        · rename_i found hfound
          split at h
          · rename_i hbinding
            injection h with h
            rw [← h]
            obtain ⟨hmem, hgeneration⟩ := findGeneration_some hfound
            exact ⟨hmem, hgeneration, hbinding⟩
          · cases h

theorem successor_congr {advance' : Nat → Nat}
    (h : advance entry.record.leaf.generation = advance' entry.record.leaf.generation) :
    successor advance ordered highest entry = successor advance' ordered highest entry := by
  unfold successor
  rw [h]

theorem OnWalk.step (h : OnWalk parsed (chain.map ChainEntry.record ++ [entry.record]))
    (hnext : successor (· + 1) (orderGenerations parsed) highest entry = some candidate) :
    OnWalk parsed ((chain ++ [entry]).map ChainEntry.record ++ [candidate]) := by
  obtain ⟨hmem, hgeneration, _⟩ := successor_some hnext
  rw [List.map_append, List.map_singleton]
  refine h.concat (mem_orderGenerations.mp hmem) ?_
  rw [hgeneration, h.last, List.length_append, List.length_singleton]

section

variable {expectedOwner : Nat}
  {readGenerationContents : ScannedGeneration → Except StoreFailure Bytes}
  {parsed : List ScannedGeneration} {highest : Option Nat}

/-- The walk does not meet the end of `uint64_t`. -/
theorem walkChain_no_wrap (hbound : parsed.length ≤ maxUnitDirectoryEntries) :
    ∀ {turns : Nat} {chain : List ChainEntry} {current : ScannedGeneration},
      OnWalk parsed (chain.map ChainEntry.record ++ [current]) →
      walkChain expectedOwner readGenerationContents nextGeneration
        (orderGenerations parsed) highest turns chain current =
      walkChain expectedOwner readGenerationContents (· + 1)
        (orderGenerations parsed) highest turns chain current := by
  intro turns
  induction turns with
  | zero => intro chain current _; rfl
  | succ turns ih =>
    intro chain current hwalk
    have hlength := hwalk.length_le
    have hlast := hwalk.last
    rw [List.length_append, List.length_singleton] at hlength
    unfold maxUnitDirectoryEntries at hbound
    unfold walkChain
    cases hentry : readEntry expectedOwner readGenerationContents current with
    | error refusal => rfl
    | ok entry =>
      obtain ⟨hrecord, _⟩ := readEntry_ok hentry
      have hsmall : nextGeneration entry.record.leaf.generation =
          entry.record.leaf.generation + 1 := by
        rw [hrecord]
        unfold nextGeneration
        apply Nat.mod_eq_of_lt
        omega
      have hsame : successor nextGeneration (orderGenerations parsed) highest entry =
          successor (· + 1) (orderGenerations parsed) highest entry :=
        successor_congr hsmall
      rw [bind_of_ok rfl, bind_of_ok rfl, hsame]
      cases hnext : successor (· + 1) (orderGenerations parsed) highest entry with
      | none => rfl
      | some candidate =>
        rw [← hrecord] at hwalk
        exact ih (hwalk.step hnext)

/-- There are turns for every record, so the walk ends before they do. -/
theorem walkChain_ends : ∀ {turns : Nat} {chain : List ChainEntry} {current : ScannedGeneration},
      OnWalk parsed (chain.map ChainEntry.record ++ [current]) →
      parsed.length ≤ chain.length + turns →
      walkChain expectedOwner readGenerationContents (· + 1)
        (orderGenerations parsed) highest turns chain current ≠ .error .unfinished := by
  intro turns
  induction turns with
  | zero =>
    intro chain current hwalk hturns
    have hlength := hwalk.length_le
    rw [List.length_append, List.length_singleton, List.length_map] at hlength
    omega
  | succ turns ih =>
    intro chain current hwalk hturns
    unfold walkChain
    cases hentry : readEntry expectedOwner readGenerationContents current with
    | error refusal =>
      intro h
      have hsame : (Except.error refusal : Except ChainRefusal ChainEntry) =
          .error .unfinished := by
        injection h with h
        rw [h]
      rw [← hentry] at hsame
      exact readEntry_ne_unfinished hsame
    | ok entry =>
      obtain ⟨hrecord, _⟩ := readEntry_ok hentry
      rw [bind_of_ok rfl]
      cases hnext : successor (· + 1) (orderGenerations parsed) highest entry with
      | none =>
        intro h
        cases h
      | some candidate =>
        rw [← hrecord] at hwalk
        refine ih (hwalk.step hnext) ?_
        rw [List.length_append, List.length_singleton]
        omega

end

/-! ## From the proof to the history -/

theorem matchesPredecessorBinding_iff {leaf : GenerationLeaf} {predecessor : FileStatus}
    {contents : Bytes} :
    matchesPredecessorBinding leaf predecessor (contentDigestHex contents) = true ↔
      leaf.hasPredecessor = true ∧ NamesPredecessor leaf predecessor contents := by
  simp only [matchesPredecessorBinding, Bool.and_eq_true, decide_eq_true_eq]
  constructor
  · rintro ⟨⟨⟨⟨hhas, hinode⟩, hseconds⟩, hnanoseconds⟩, hdigest⟩
    exact ⟨hhas, hinode, hseconds, hnanoseconds, hdigest⟩
  · rintro ⟨hhas, hinode, hseconds, hnanoseconds, hdigest⟩
    exact ⟨⟨⟨⟨hhas, hinode⟩, hseconds⟩, hnanoseconds⟩, hdigest⟩

section

variable {expectedOwner : Nat}
  {readGenerationContents : ScannedGeneration → Except StoreFailure Bytes}
  {contents : ScannedGeneration → Bytes} {isFutureDocument : Bytes → Bool}
  {parsed : List ScannedGeneration} {highest : Option Nat}

/-- The link between two records next to each other. -/
abbrev Linked (contents : ScannedGeneration → Bytes) (older newer : ScannedGeneration) :
    Prop :=
  NamesPredecessor newer.leaf older.status (contents older)

theorem isChain_concat (h : (records ++ [current]).IsChain (Linked contents))
    (hlink : Linked contents current candidate) :
    (records ++ [current] ++ [candidate]).IsChain (Linked contents) := by
  rw [List.isChain_append]
  refine ⟨h, List.isChain_singleton _, ?_⟩
  intro older holder newer hnewer
  rw [List.getLast?_concat, Option.mem_some] at holder
  rw [List.head?_cons, Option.mem_some] at hnewer
  rw [← holder, ← hnewer]
  exact hlink

theorem walkChain_records
    (hread : ∀ record ∈ parsed, readGenerationContents record = .ok (contents record)) :
    ∀ {turns : Nat} {done : List ScannedGeneration} {current : ScannedGeneration}
      {chain : List ChainEntry},
      OnWalk parsed (done ++ [current]) → (done ++ [current]).IsChain (Linked contents) →
      walkChain expectedOwner readGenerationContents (· + 1) (orderGenerations parsed)
        highest turns (done.map (entryOf contents)) current = .ok chain →
      ∃ records, chain = records.map (entryOf contents) ∧ records ≠ [] ∧
        OnWalk parsed records ∧ records.IsChain (Linked contents) := by
  intro turns
  induction turns with
  | zero =>
    intro done current chain _ _ h
    cases h
  | succ turns ih =>
    intro done current chain hwalk hchain h
    unfold walkChain at h
    rw [bind_eq_ok] at h
    obtain ⟨entry, hentry, h⟩ := h
    obtain ⟨hrecord, hcontents⟩ := readEntry_ok hentry
    have hmem : current ∈ parsed := hwalk.members current (by simp)
    rw [hread current hmem] at hcontents
    injection hcontents with hcontents
    have hsame : entry = entryOf contents current := by
      unfold entryOf
      rw [hcontents, ← hrecord]
    have hextended : done.map (entryOf contents) ++ [entry] =
        (done ++ [current]).map (entryOf contents) := by
      rw [hsame, List.map_append, List.map_singleton]
    split at h
    · injection h with h
      refine ⟨done ++ [current], ?_, by simp, hwalk, hchain⟩
      rw [← h, hextended]
    · rename_i candidate hnext
      rw [hextended] at h
      obtain ⟨hcandidate, hgeneration, hbinding⟩ := successor_some hnext
      rw [hsame] at hgeneration hbinding
      have hlink := (matchesPredecessorBinding_iff.mp hbinding).2
      refine ih ?_ (isChain_concat hchain hlink) h
      refine hwalk.concat (mem_orderGenerations.mp hcandidate) ?_
      rw [hgeneration, List.length_append, List.length_singleton]
      show current.leaf.generation + 1 = _
      rw [hwalk.last]

theorem concludeChain_ok {inventory : DirectoryInventory expectedOwner}
    (h : concludeChain expectedOwner readGenerationContents isFutureDocument inventory ordered
      highest chain = .ok proven) :
    chain.length = inventory.parsed.length ∧
      (∀ entry ∈ chain.dropLast, isFutureDocument entry.contents = false) := by
  unfold concludeChain at h
  rw [bind_eq_ok] at h
  obtain ⟨futureExtra, _, h⟩ := h
  split at h
  · cases h
  · rename_i hfuture
    split at h
    · cases h
    · split at h
      · cases h
      · rename_i hextras
        rw [Bool.or_eq_true, not_or] at hfuture
        refine ⟨not_not.mp hextras, ?_⟩
        intro entry hmem
        have hnone := hfuture.1
        rw [List.any_eq_true] at hnone
        simpa using fun hyes => hnone ⟨entry, hmem, hyes⟩

theorem concludeChain_of_complete {inventory : DirectoryInventory expectedOwner}
    (hne : records ≠ []) (hlength : records.length = inventory.parsed.length)
    (hordered : ordered.length = inventory.parsed.length) (htop : highest = some records.length)
    (hfuture : ∀ record ∈ records.dropLast, isFutureDocument (contents record) = false) :
    concludeChain expectedOwner readGenerationContents isFutureDocument inventory ordered
      highest (records.map (entryOf contents)) =
    .ok (historyProof inventory contents records) := by
  have hextras : ¬ (records.map (entryOf contents)).length ≠ inventory.parsed.length := by
    rw [List.length_map, hlength]
    exact not_not.mpr rfl
  have hnone : ((records.map (entryOf contents)).dropLast.any fun entry =>
      isFutureDocument entry.contents) = false := by
    rw [List.any_eq_false]
    intro entry hmem
    rw [← List.map_dropLast] at hmem
    obtain ⟨record, hrecord, rfl⟩ := List.mem_map.mp hmem
    show ¬ isFutureDocument (contents record) = true
    rw [hfuture record hrecord]
    exact Bool.false_ne_true
  have hall : ¬ highest ≠ some ordered.length := by
    rw [htop, hordered, hlength]
    exact not_not.mpr rfl
  have hextra : inspectExtras expectedOwner readGenerationContents isFutureDocument inventory
      (records.map (entryOf contents)) = .ok false := if_neg hextras
  unfold concludeChain
  rw [bind_of_ok hextra, hnone, Bool.or_false, if_neg Bool.false_ne_true, if_neg hall,
    if_neg hextras]
  obtain ⟨front, last, rfl⟩ := (List.eq_nil_or_concat records).resolve_left hne
  simp [historyProof, entryOf]

/-- The origin of the walk is the first record. -/
theorem onWalk_origin (h : parsed.find? isOrigin = some origin) : OnWalk parsed [origin] := by
  have horigin := List.find?_some h
  simp only [isOrigin, Bool.and_eq_true, decide_eq_true_eq] at horigin
  refine ⟨?_, ?_⟩
  · simp [horigin.1]
  · intro record hmem
    rw [List.mem_singleton] at hmem
    rw [hmem]
    exact List.mem_of_find?_eq_some h

theorem unrecognized_eq_nil_iff (inventory : DirectoryInventory expectedOwner) :
    inventory.unrecognizedLeaves = [] ↔
      ∀ name ∈ inventory.managedLeaves, (parseGenerationLeaf name).isSome = true := by
  rw [inventory.complete.unrecognized, List.filter_eq_nil_iff]
  constructor
  · intro h name hmem
    have hname := h name hmem
    simpa [Option.isSome_iff_ne_none] using hname
  · intro h name hmem
    have hname := h name hmem
    simpa [Option.isSome_iff_ne_none] using hname

/-- A proof that names a tip is the proof of a history. -/
theorem history_of_proveChain {inventory : DirectoryInventory expectedOwner}
    (hread : ∀ record ∈ inventory.parsed,
      readGenerationContents record = .ok (contents record)) {tip : ScannedGeneration}
    (h : proveChain expectedOwner readGenerationContents isFutureDocument (· + 1) inventory =
      .ok proven) (htip : proven.tip = some tip) :
    ∃ records, AuthoritativeHistory inventory contents isFutureDocument records := by
  unfold proveChain at h
  dsimp only at h
  split at h
  · cases h
  · rename_i hrecognized
    split at h
    · injection h with h
      rw [← h] at htip
      cases htip
    · split at h
      · cases h
      · rename_i origin horigin
        split at h
        · cases h
        · rw [bind_eq_ok] at h
          obtain ⟨chain, hwalk, h⟩ := h
          obtain ⟨hlength, hfuture⟩ := concludeChain_ok h
          have hstart : OnWalk inventory.parsed ([] ++ [origin]) := onWalk_origin horigin
          obtain ⟨records, rfl, hne, hon, hlinked⟩ :=
            walkChain_records hread hstart (List.isChain_singleton _) hwalk
          rw [List.length_map] at hlength
          have hperm : records.Perm inventory.parsed :=
            (List.subperm_of_subset hon.nodup hon.members).perm_of_length_le hlength.ge
          refine ⟨records, (unrecognized_eq_nil_iff inventory).mp (not_not.mp hrecognized),
            hne, hperm, hon.generations, hlinked, ?_⟩
          intro record hmem
          apply hfuture (entryOf contents record)
          rw [← List.map_dropLast]
          exact List.mem_map_of_mem hmem

/-! ## From the history to the proof -/

theorem OnWalk.left {front back : List ScannedGeneration}
    (h : OnWalk parsed (front ++ back)) : OnWalk parsed front := by
  have hgenerations := h.generations
  rw [List.map_append, List.length_append, ← List.range'_append_1] at hgenerations
  refine ⟨(List.append_inj hgenerations (by simp)).1, ?_⟩
  intro record hmem
  exact h.members record (List.mem_append_left _ hmem)

/-- The name of a record tells whether it has a predecessor. -/
theorem hasPredecessor_of_parsed {inventory : DirectoryInventory expectedOwner}
    (hmem : record ∈ inventory.parsed) :
    (record.leaf.generation = 1 ∧ record.leaf.hasPredecessor = false) ∨
      (2 ≤ record.leaf.generation ∧ record.leaf.hasPredecessor = true) := by
  have hleaf : record.leaf ∈ inventory.parsed.map ScannedGeneration.leaf :=
    List.mem_map_of_mem hmem
  rw [inventory.complete.parsed] at hleaf
  obtain ⟨name, _, hname⟩ := List.mem_filterMap.mp hleaf
  exact parseGenerationLeaf_some hname

theorem readEntry_of_readable
    (hstatus : validateEntryStatus current.status current.leaf.leaf expectedOwner = none)
    (hread : readGenerationContents current = .ok (contents current)) :
    readEntry expectedOwner readGenerationContents current = .ok (entryOf contents current) := by
  unfold readEntry
  rw [hstatus, hread]
  rfl

/-- The walk over a history reads all of it. -/
theorem walkChain_complete {inventory : DirectoryInventory expectedOwner}
    (hread : ∀ record ∈ inventory.parsed, readGenerationContents record = .ok (contents record))
    (hstrict : (orderGenerations inventory.parsed).Pairwise fun left right =>
      left.leaf.generation < right.leaf.generation) (hon : OnWalk inventory.parsed records)
    (hlinked : records.IsChain (Linked contents)) (htop : highest = some records.length) :
    ∀ {rest done : List ScannedGeneration} {current : ScannedGeneration} {turns : Nat},
      records = done ++ current :: rest → rest.length < turns →
      walkChain expectedOwner readGenerationContents (· + 1)
        (orderGenerations inventory.parsed) highest turns (done.map (entryOf contents))
        current = .ok (records.map (entryOf contents)) := by
  intro rest
  induction rest with
  | nil =>
    intro done current turns hrecords hturns
    obtain ⟨turns, rfl⟩ := Nat.exists_eq_succ_of_ne_zero (by omega : turns ≠ 0)
    have hmem : current ∈ inventory.parsed := hon.members current (by rw [hrecords]; simp)
    have hlast : current.leaf.generation = done.length + 1 := by
      rw [hrecords] at hon
      exact hon.last
    have hentry := readEntry_of_readable
      (inventory.complete.statuses current hmem) (hread current hmem)
    have hnone : successor (· + 1) (orderGenerations inventory.parsed) highest
        (entryOf contents current) = none := by
      have hbeyond : records.length < current.leaf.generation + 1 := by
        rw [hlast, hrecords]
        simp
      unfold successor
      rw [htop]
      dsimp only [entryOf]
      rw [if_neg (by omega), if_pos hbeyond]
    unfold walkChain
    rw [bind_of_ok hentry, hnone, hrecords, List.map_append]
    rfl
  | cons next rest ih =>
    intro done current turns hrecords hturns
    obtain ⟨turns, rfl⟩ := Nat.exists_eq_succ_of_ne_zero (by omega : turns ≠ 0)
    have hmem : current ∈ inventory.parsed := hon.members current (by rw [hrecords]; simp)
    have hnextMem : next ∈ inventory.parsed := hon.members next (by rw [hrecords]; simp)
    have hshape : records = (done ++ [current]) ++ next :: rest := by
      rw [hrecords]
      simp
    have honNext : OnWalk inventory.parsed ((done ++ [current]) ++ [next]) := by
      have hagain := hon
      rw [hshape, List.append_cons] at hagain
      exact hagain.left
    have hgeneration : next.leaf.generation = current.leaf.generation + 1 := by
      rw [honNext.last, honNext.left.last, List.length_append, List.length_singleton]
    have hentry := readEntry_of_readable
      (inventory.complete.statuses current hmem) (hread current hmem)
    have hlink : Linked contents current next := by
      rw [hrecords, List.isChain_append] at hlinked
      exact (List.isChain_cons_cons.mp hlinked.2.1).1
    have hhas : next.leaf.hasPredecessor = true := by
      rcases hasPredecessor_of_parsed hnextMem with ⟨hone, _⟩ | ⟨_, hhas⟩
      · have hfirst := honNext.left.last
        omega
      · exact hhas
    have hsome : successor (· + 1) (orderGenerations inventory.parsed) highest
        (entryOf contents current) = some next := by
      have hwithin : ¬ records.length < current.leaf.generation + 1 := by
        rw [honNext.left.last, hshape]
        simp
      have hfound := findGeneration_of_mem hstrict (mem_orderGenerations.mpr hnextMem)
      rw [hgeneration] at hfound
      have hbinding := matchesPredecessorBinding_iff.mpr ⟨hhas, hlink⟩
      unfold successor
      rw [htop]
      dsimp only [entryOf]
      rw [if_neg (by omega), if_neg hwithin, hfound]
      exact if_pos hbinding
    unfold walkChain
    rw [bind_of_ok hentry, hsome]
    dsimp only
    have hextended : done.map (entryOf contents) ++ [entryOf contents current] =
        (done ++ [current]).map (entryOf contents) := by
      rw [List.map_append, List.map_singleton]
    rw [hextended]
    refine ih hshape ?_
    rw [List.length_cons] at hturns
    omega

/-- A history is proven, and the proof is its own. -/
theorem proveChain_of_history {inventory : DirectoryInventory expectedOwner}
    (hread : ∀ record ∈ inventory.parsed, readGenerationContents record = .ok (contents record))
    (h : AuthoritativeHistory inventory contents isFutureDocument records) :
    proveChain expectedOwner readGenerationContents isFutureDocument (· + 1) inventory =
      .ok (historyProof inventory contents records) := by
  have hon : OnWalk inventory.parsed records :=
    ⟨h.generations, fun record hmem => h.all_records.subset hmem⟩
  have hlength := h.all_records.length_eq
  have hgenerations : (inventory.parsed.map fun record => record.leaf.generation).Nodup := by
    have hperm := h.all_records.map fun record => record.leaf.generation
    rw [← hperm.nodup_iff, h.generations]
    exact List.nodup_range'
  have hstrict := orderGenerations_strict hgenerations
  obtain ⟨first, rest, hrecords⟩ := List.exists_cons_of_ne_nil h.nonempty
  have hfirstMem : first ∈ inventory.parsed := hon.members first (by rw [hrecords]; simp)
  have hfirst : first.leaf.generation = 1 := by
    rw [hrecords] at hon
    have hfront : OnWalk inventory.parsed ([first] ++ rest) := hon
    exact onWalk_first hfront.left
  have hparsed : inventory.parsed ≠ [] := List.ne_nil_of_mem hfirstMem
  have htop : highestGeneration inventory.parsed = some records.length := by
    obtain ⟨top, htop⟩ := highestGeneration_some hparsed
    obtain ⟨hfrom, _, habove⟩ := foldl_higherGeneration htop
    obtain ⟨record, hmem, hrecord⟩ : ∃ record ∈ inventory.parsed, record.leaf.generation = top := by
      rcases hfrom with hnone | hfound
      · cases hnone
      · exact hfound
    have hinside : top ∈ List.range' 1 records.length := by
      rw [← h.generations, ← hrecord]
      exact List.mem_map_of_mem (h.all_records.mem_iff.mpr hmem)
    have hlastIn : records.length ∈ records.map (fun record => record.leaf.generation) := by
      rw [h.generations, List.mem_range'_1]
      have hpos : 0 < records.length := List.length_pos_iff.mpr h.nonempty
      omega
    obtain ⟨last, hlast, hlastGeneration⟩ := List.mem_map.mp hlastIn
    have hbelow := habove last (h.all_records.subset hlast)
    rw [List.mem_range'_1] at hinside
    rw [htop]
    congr 1
    omega
  have horigin : inventory.parsed.find? isOrigin = some first := by
    have hisOrigin : isOrigin first = true := by
      rcases hasPredecessor_of_parsed hfirstMem with ⟨_, hno⟩ | ⟨htwo, _⟩
      · simp [isOrigin, hfirst, hno]
      · omega
    obtain ⟨origin, hfound⟩ := Option.isSome_iff_exists.mp
      (List.find?_isSome.mpr ⟨first, hfirstMem, hisOrigin⟩)
    have hone := onWalk_first (onWalk_origin hfound)
    have hmem := List.mem_of_find?_eq_some hfound
    have hsame : origin = first := by
      apply List.inj_on_of_nodup_map hgenerations hmem hfirstMem
      rw [hone, hfirst]
    rw [hfound, hsame]
  unfold proveChain
  dsimp only
  rw [if_neg (not_not.mpr ((unrecognized_eq_nil_iff inventory).mpr h.recognized)),
    if_neg hparsed, horigin]
  dsimp only
  rw [hasFork_eq_false hstrict, if_neg Bool.false_ne_true]
  have hturns : rest.length < inventory.parsed.length := by
    rw [← hlength, hrecords, List.length_cons]
    omega
  have hstart : records = [] ++ first :: rest := hrecords
  have hwalk := walkChain_complete hread hstrict hon h.bound htop hstart hturns
  rw [List.map_nil] at hwalk
  rw [bind_of_ok hwalk]
  exact concludeChain_of_complete h.nonempty hlength (length_orderGenerations _) htop h.not_future

end

/-! ## The proof of the source -/

theorem proveAuthoritativeChain_no_wrap (inventory : DirectoryInventory expectedOwner)
    (readGenerationContents : ScannedGeneration → Except StoreFailure Bytes)
    (isFutureDocument : Bytes → Bool) :
    proveAuthoritativeChain expectedOwner readGenerationContents isFutureDocument inventory =
      proveChain expectedOwner readGenerationContents isFutureDocument (· + 1) inventory := by
  unfold proveAuthoritativeChain proveChain
  cases horigin : inventory.parsed.find? isOrigin with
  | none => rfl
  | some origin =>
    dsimp only
    have hstart : OnWalk inventory.parsed
        (([] : List ChainEntry).map ChainEntry.record ++ [origin]) := onWalk_origin horigin
    rw [walkChain_no_wrap inventory.bounded hstart]

theorem hasFutureExtra_ne_unfinished : ∀ {records : List ScannedGeneration},
      hasFutureExtra readGenerationContents isFutureDocument chain records ≠
        .error .unfinished := by
  intro records
  induction records with
  | nil =>
    intro h
    cases h
  | cons candidate rest ih =>
    unfold hasFutureExtra
    split
    · exact ih
    · split
      · intro h
        cases h
      · split
        · intro h
          cases h
        · exact ih

theorem concludeChain_ne_unfinished {inventory : DirectoryInventory expectedOwner} :
    concludeChain expectedOwner readGenerationContents isFutureDocument inventory ordered
      highest chain ≠ .error .unfinished := by
  unfold concludeChain
  cases hextras : inspectExtras expectedOwner readGenerationContents isFutureDocument inventory
      chain with
  | error refusal =>
    intro h
    have hrefusal : refusal = .unfinished := by
      injection h
    rw [hrefusal] at hextras
    unfold inspectExtras at hextras
    split at hextras
    · exact hasFutureExtra_ne_unfinished hextras
    · cases hextras
  | ok futureExtra =>
    rw [bind_of_ok rfl]
    unfold unsafeHistory
    split
    · intro h
      cases h
    · split
      · intro h
        cases h
      · split
        · intro h
          cases h
        · intro h
          cases h

theorem proveChain_ends {inventory : DirectoryInventory expectedOwner} :
    proveChain expectedOwner readGenerationContents isFutureDocument (· + 1) inventory ≠
      .error .unfinished := by
  unfold proveChain
  dsimp only
  split
  · intro h
    cases h
  · split
    · intro h
      cases h
    · split
      · intro h
        cases h
      · rename_i origin horigin
        split
        · intro h
          cases h
        · have hstart : OnWalk inventory.parsed
              (([] : List ChainEntry).map ChainEntry.record ++ [origin]) :=
            onWalk_origin horigin
          have hends : walkChain expectedOwner readGenerationContents (· + 1)
              (orderGenerations inventory.parsed) (highestGeneration inventory.parsed)
              inventory.parsed.length [] origin ≠ .error .unfinished :=
            walkChain_ends hstart (by simp)
          cases hwalk : walkChain expectedOwner readGenerationContents (· + 1)
              (orderGenerations inventory.parsed) (highestGeneration inventory.parsed)
              inventory.parsed.length [] origin with
          | error refusal =>
            intro h
            have hrefusal : refusal = .unfinished := by
              injection h
            rw [hwalk, hrefusal] at hends
            exact hends rfl
          | ok chain =>
            rw [bind_of_ok rfl]
            exact concludeChain_ne_unfinished

theorem AuthoritativeHistory.tip {expectedOwner : Nat}
    {inventory : DirectoryInventory expectedOwner} {contents : ScannedGeneration → Bytes}
    {isFutureDocument : Bytes → Bool} {records : List ScannedGeneration}
    (h : AuthoritativeHistory inventory contents isFutureDocument records) :
    ∃ tip, records.getLast? = some tip ∧ tip.leaf.generation = records.length := by
  obtain ⟨front, tip, rfl⟩ := (List.eq_nil_or_concat records).resolve_left h.nonempty
  have hon : OnWalk inventory.parsed (front.concat tip) :=
    ⟨h.generations, fun record hmem => h.all_records.subset hmem⟩
  rw [List.concat_eq_append] at hon ⊢
  exact ⟨tip, List.getLast?_concat, by rw [hon.last, List.length_append]; rfl⟩

/-- The proof of the source, over every inventory: with readable records a tip
is proven exactly when the unit holds a history, tip and token are those of the
history, the walk ends whatever is read, and no generation wraps. -/
theorem proveAuthoritativeChain_iff {expectedOwner : Nat}
    (inventory : DirectoryInventory expectedOwner)
    (readGenerationContents : ScannedGeneration → Except StoreFailure Bytes)
    (isFutureDocument : Bytes → Bool) :
    (∀ contents : ScannedGeneration → Bytes,
      (∀ record ∈ inventory.parsed,
        readGenerationContents record = .ok (contents record)) →
      ((∃ proven tip, proveAuthoritativeChain expectedOwner readGenerationContents
          isFutureDocument inventory = .ok proven ∧ proven.tip = some tip) ↔
        ∃ records, AuthoritativeHistory inventory contents isFutureDocument records) ∧
      ∀ records, AuthoritativeHistory inventory contents isFutureDocument records →
        proveAuthoritativeChain expectedOwner readGenerationContents isFutureDocument
          inventory = .ok (historyProof inventory contents records) ∧
        ∃ tip, (historyProof inventory contents records).tip = some tip ∧
          tip.leaf.generation = records.length) ∧
    proveAuthoritativeChain expectedOwner readGenerationContents isFutureDocument inventory ≠
      .error .unfinished ∧
    proveAuthoritativeChain expectedOwner readGenerationContents isFutureDocument inventory =
      proveChain expectedOwner readGenerationContents isFutureDocument (· + 1) inventory := by
  rw [proveAuthoritativeChain_no_wrap]
  refine ⟨?_, proveChain_ends, rfl⟩
  intro contents hread
  refine ⟨⟨?_, ?_⟩, ?_⟩
  · rintro ⟨proven, tip, hproven, htip⟩
    exact history_of_proveChain hread hproven htip
  · rintro ⟨records, hhistory⟩
    obtain ⟨tip, htip, _⟩ := hhistory.tip
    exact ⟨_, tip, proveChain_of_history hread hhistory, htip⟩
  · intro records hhistory
    exact ⟨proveChain_of_history hread hhistory, hhistory.tip⟩

/-! ## A unit of two generations -/

def sampleStatus (inode : Nat) : FileStatus where
  device := 5
  inode := inode
  owner := 1000
  mode := 0o100600
  linkCount := 1
  size := 2
  modificationTimeSeconds := 1700000000
  modificationTimeNanoseconds := 7
  statusChangeTimeSeconds := 1700000000
  statusChangeTimeNanoseconds := 42

def sampleSuccessorLeaf : Bytes :=
  ascii "2.5-11-1700000000-42." ++ contentDigestHex (ascii "v1") ++ ascii ".toml"

def sampleUnit : UnitDirectory where
  names := [sampleSuccessorLeaf, ascii "1.toml"]
  inspectNamedEntry := fun name =>
    .ok (some (sampleStatus (if name = ascii "1.toml" then 11 else 12)))

def sampleContents (record : ScannedGeneration) : Bytes :=
  if record.leaf.generation = 1 then ascii "v1" else ascii "v2"

theorem proveAuthoritativeChain_iff_sample :
    ∃ inventory, scanUnitDirectory 1000 sampleUnit (ascii "-.moguet-") = .ok inventory ∧
      ∃ proven tip, proveAuthoritativeChain 1000 (fun record => .ok (sampleContents record))
          (fun _ => false) inventory = .ok proven ∧ proven.tip = some tip ∧
        tip.leaf.generation = 2 ∧
        ∃ records, AuthoritativeHistory inventory sampleContents (fun _ => false) records := by
  have hrun : (scanUnitDirectory 1000 sampleUnit (ascii "-.moguet-")).toOption.map
      (fun inventory =>
        ((proveAuthoritativeChain 1000 (fun record => .ok (sampleContents record))
          (fun _ => false) inventory).toOption.bind fun proven => proven.tip).map
            fun tip => tip.leaf.generation) = some (some 2) := by
    decide +kernel
  obtain ⟨inventory, hscan, hproof⟩ := exists_ok_of_view hrun
  obtain ⟨tip, htip, hgeneration⟩ := Option.map_eq_some_iff.mp hproof
  obtain ⟨proven, hproven, htip⟩ := Option.bind_eq_some_iff.mp htip
  have hok := eq_ok_of_toOption hproven
  have hiff := ((proveAuthoritativeChain_iff inventory
    (fun record => .ok (sampleContents record)) (fun _ => false)).1 sampleContents
    (fun record _ => rfl)).1
  exact ⟨inventory, hscan, proven, tip, hok, htip, hgeneration,
    hiff.mp ⟨proven, tip, hok, htip⟩⟩

end Moguet.Store.History
