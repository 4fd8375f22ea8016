import Moguet.Store.LeafRoundTrip

/-!
# Leaf writer and leaf reader

`successorLeaf` names the predecessor in the leaf of its successor, and
`matchesPredecessorBinding` compares that name with the predecessor found later.
The two convert the status-change time differently: the writer writes a time
before the epoch as zero, the comparison casts it to an unsigned value. They
agree exactly on the times from the epoch on.

The reader itself loses nothing: the fields of an accepted name print it again.
-/

namespace Moguet.Store.LeafAgreement

open Verified.ByteString Verified.Decimal Verified.Fields Record Chain Publish LeafRoundTrip

variable {text name contents : Bytes} {leaf : GenerationLeaf} {predecessor : FileStatus}
  {generation : Nat}

/-- The text of the parsed fields, without the name itself. -/
def printGenerationLeaf (leaf : GenerationLeaf) : Bytes :=
  if leaf.hasPredecessor then
    writeUnsigned leaf.generation ++ byte '.' ::
      (writeUnsigned leaf.predecessorDevice ++ byte '-' ::
        (writeUnsigned leaf.predecessorInode ++ byte '-' ::
          (writeUnsigned leaf.predecessorCtimeSeconds ++ byte '-' ::
            writeUnsigned leaf.predecessorCtimeNanoseconds))) ++
      byte '.' :: leaf.predecessorDigest ++ entrySuffix
  else writeUnsigned leaf.generation ++ entrySuffix

theorem takeNonempty_eq_some {separator : UInt8} {front rest : Bytes}
    (h : takeNonempty separator text = some (front, rest)) : text = front ++ separator :: rest := by
  simp only [takeNonempty, Option.bind_eq_bind, Option.bind_eq_some_iff] at h
  obtain ⟨⟨front', rest'⟩, htake, _, -, h⟩ := h
  injection h with h
  injection h with hfront hrest
  rw [← hfront, ← hrest]
  exact (takeField_eq_some_iff.mp htake).2

/-- A number is accepted in the one spelling it is written in. -/
theorem parseUnsignedDecimal_eq_some {allowZero : Bool} {value : Nat}
    (h : parseUnsignedDecimal text allowZero = some value) : text = writeUnsigned value := by
  unfold parseUnsignedDecimal at h
  split at h
  · cases h
  · exact (parseCanonicalUnsigned_eq_some_iff.mp h).1

theorem parsePredecessorIdentity_text {identity : Bytes} {predecessor : PredecessorIdentity}
    (h : parsePredecessorIdentity identity = some predecessor) :
    identity = writeUnsigned predecessor.device ++ byte '-' ::
      (writeUnsigned predecessor.inode ++ byte '-' ::
        (writeUnsigned predecessor.ctimeSeconds ++ byte '-' ::
          writeUnsigned predecessor.ctimeNanoseconds)) := by
  simp only [parsePredecessorIdentity, Option.bind_eq_bind, Option.bind_eq_some_iff] at h
  obtain ⟨⟨deviceText, first⟩, hfirst, ⟨inodeText, second⟩, hsecond,
    ⟨secondsText, nanosecondsText⟩, hthird, _, -, device, hdevice, inode, hinode,
    seconds, hseconds, nanoseconds, hnanoseconds, h⟩ := h
  injection h with h
  dsimp only at hsecond hthird hdevice hinode hseconds hnanoseconds
  rw [takeNonempty_eq_some hfirst, takeNonempty_eq_some hsecond, takeNonempty_eq_some hthird,
    parseUnsignedDecimal_eq_some hdevice, parseUnsignedDecimal_eq_some hinode,
    parseUnsignedDecimal_eq_some hseconds, parseUnsignedDecimal_eq_some hnanoseconds, ← h]

theorem parseSuccessorStem_text {stem : Bytes} (h : parseSuccessorStem stem name = some leaf) :
    printGenerationLeaf leaf = stem ++ entrySuffix := by
  simp only [parseSuccessorStem, Option.bind_eq_bind, Option.bind_eq_some_iff] at h
  obtain ⟨⟨generationText, rest⟩, hgenerationText, ⟨identity, digest⟩, hdigest, _, -,
    generation, hgeneration, _, -, _, -, predecessor, hpredecessor, h⟩ := h
  injection h with h
  dsimp only at hdigest hgeneration hpredecessor
  rw [takeNonempty_eq_some hgenerationText, parseUnsignedDecimal_eq_some hgeneration,
    (takeField_eq_some_iff.mp hdigest).2, parsePredecessorIdentity_text hpredecessor, ← h]
  unfold printGenerationLeaf
  simp

/-- A name is printed from its parsed fields. -/
theorem printGenerationLeaf_parse (h : parseGenerationLeaf name = some leaf) :
    printGenerationLeaf leaf = name := by
  unfold parseGenerationLeaf at h
  split at h
  · cases h
  · rename_i hsuffix
    simp only [not_or, Nat.not_le, Decidable.not_not] at hsuffix
    have hname : name.take (name.length - entrySuffix.length) ++ entrySuffix = name := by
      have hsplit := List.take_append_drop (name.length - entrySuffix.length) name
      rw [hsuffix.2] at hsplit
      exact hsplit
    dsimp only at h
    split at h
    · rename_i hstem
      injection h with h
      rw [hstem] at hname
      rw [← h, ← hname]
      rfl
    · rw [parseSuccessorStem_text h, hname]

/-- The parsed fields are those of one name only. -/
theorem parseGenerationLeaf_injective {other : Bytes} {otherLeaf : GenerationLeaf}
    (h : parseGenerationLeaf name = some leaf) (hother : parseGenerationLeaf other = some otherLeaf)
    (hfields : { leaf with leaf := [] } = { otherLeaf with leaf := [] }) : name = other := by
  have hprinted : printGenerationLeaf leaf = printGenerationLeaf otherLeaf := by
    show printGenerationLeaf { leaf with leaf := [] } =
      printGenerationLeaf { otherLeaf with leaf := [] }
    rw [hfields]
  rw [← printGenerationLeaf_parse h, hprinted, printGenerationLeaf_parse hother]

/-- The ranges of the types: `dev_t` and `ino_t` are unsigned, `time_t` and
the nanoseconds signed, all of 64 bits. -/
structure InRange (predecessor : FileStatus) (contents : Bytes) : Prop where
  device : predecessor.device < 2 ^ 64
  inode : predecessor.inode < 2 ^ 64
  seconds : -2 ^ 63 ≤ predecessor.statusChangeTimeSeconds ∧
    predecessor.statusChangeTimeSeconds < 2 ^ 63
  nanoseconds : -2 ^ 63 ≤ predecessor.statusChangeTimeNanoseconds ∧
    predecessor.statusChangeTimeNanoseconds < 2 ^ 63
  contents : contents.length < 2 ^ 64

theorem InRange.writable (h : InRange predecessor contents) :
    Writable (recordIdentityFromStatus predecessor) where
  device := h.device
  inode := h.inode
  seconds := by
    have hseconds := h.seconds.2
    show predecessor.statusChangeTimeSeconds < 2 ^ 64
    omega
  nanoseconds := by
    have hnanoseconds := h.nanoseconds.2
    show predecessor.statusChangeTimeNanoseconds < 2 ^ 64
    omega

/-- A time before the epoch is zero to the writer and huge to the comparison. -/
theorem writtenTime_eq_toUintmax_iff {value : Int} (hlow : -2 ^ 63 ≤ value)
    (hhigh : value < 2 ^ 63) : writtenTime value = toUintmax value ↔ 0 ≤ value := by
  by_cases hpos : 0 ≤ value
  · exact ⟨fun _ => hpos, fun _ => writtenTime_eq hpos (by omega)⟩
  · have hwritten : writtenTime value = 0 := if_pos (by omega)
    have hcast : toUintmax value = (value + 2 ^ 64).toNat := by
      unfold toUintmax
      rw [← Int.add_emod_right, Int.emod_eq_of_lt (by omega) (by omega)]
    constructor
    · intro h
      omega
    · intro h
      exact absurd h hpos

/-- Writer, reader and binding check on the leaf of a successor, and the
reader's fields on every name. -/
structure LeavesAgree (generation : Nat) (predecessor : FileStatus) (contents : Bytes) :
    Prop where
  accepted : ∃ leaf,
    parseGenerationLeaf (successorLeaf generation (recordIdentityFromStatus predecessor)
      contents) = some leaf ∧
    leaf.generation = generation ∧
    matchesPredecessorBinding leaf predecessor (contentDigestHex contents) = true
  printed : ∀ name leaf, parseGenerationLeaf name = some leaf → printGenerationLeaf leaf = name
  injective : ∀ name other leaf otherLeaf, parseGenerationLeaf name = some leaf →
    parseGenerationLeaf other = some otherLeaf →
      ({ leaf with leaf := [] } : GenerationLeaf) = { otherLeaf with leaf := [] } → name = other

/-- The fields a successor's leaf has are bound to a predecessor whose times
were not clamped. -/
theorem matchesPredecessorBinding_successorFields (generation : Nat)
    (h : InRange predecessor contents) :
    matchesPredecessorBinding
        (successorFields generation (recordIdentityFromStatus predecessor) contents)
        predecessor (contentDigestHex contents) = true ↔
      0 ≤ predecessor.statusChangeTimeSeconds ∧ 0 ≤ predecessor.statusChangeTimeNanoseconds := by
  rw [← writtenTime_eq_toUintmax_iff h.seconds.1 h.seconds.2,
    ← writtenTime_eq_toUintmax_iff h.nanoseconds.1 h.nanoseconds.2]
  unfold matchesPredecessorBinding successorFields recordIdentityFromStatus
  simp

theorem leavesAgree_of_times (hgeneration : 2 ≤ generation ∧ generation < 2 ^ 64)
    (h : InRange predecessor contents) (htimes : 0 ≤ predecessor.statusChangeTimeSeconds ∧
      0 ≤ predecessor.statusChangeTimeNanoseconds) :
    LeavesAgree generation predecessor contents where
  accepted :=
    ⟨_, parseGenerationLeaf_successorLeaf hgeneration.1 hgeneration.2 h.writable h.contents,
      rfl, (matchesPredecessorBinding_successorFields generation h).mpr htimes⟩
  printed := fun _ _ => printGenerationLeaf_parse
  injective := fun _ _ _ _ => parseGenerationLeaf_injective

theorem LeavesAgree.times (hgeneration : 2 ≤ generation ∧ generation < 2 ^ 64)
    (h : InRange predecessor contents) (hagrees : LeavesAgree generation predecessor contents) :
    0 ≤ predecessor.statusChangeTimeSeconds ∧ 0 ≤ predecessor.statusChangeTimeNanoseconds := by
  obtain ⟨leaf, hparse, -, hbinding⟩ := hagrees.accepted
  rw [parseGenerationLeaf_successorLeaf hgeneration.1 hgeneration.2 h.writable h.contents] at hparse
  injection hparse with hparse
  rw [← hparse] at hbinding
  exact (matchesPredecessorBinding_successorFields generation h).mp hbinding

/-- **Leaf writer and leaf reader** agree on a predecessor exactly when its
status-change time does not lie before the epoch. -/
theorem successorLeaf_agrees_iff (generation : Nat) (predecessor : FileStatus) (contents : Bytes)
    (hgeneration : 2 ≤ generation ∧ generation < 2 ^ 64) (h : InRange predecessor contents) :
    LeavesAgree generation predecessor contents ↔
      0 ≤ predecessor.statusChangeTimeSeconds ∧
        0 ≤ predecessor.statusChangeTimeNanoseconds :=
  ⟨LeavesAgree.times hgeneration h, leavesAgree_of_times hgeneration h⟩

/-- A record whose status changed at that second. -/
def changedAt (seconds : Int) : FileStatus where
  device := 1
  inode := 2
  owner := 0
  mode := 0o100600
  linkCount := 1
  size := 0
  modificationTimeSeconds := 0
  modificationTimeNanoseconds := 0
  statusChangeTimeSeconds := seconds
  statusChangeTimeNanoseconds := 0

theorem changedAt_inRange {seconds : Int} (h : -2 ^ 63 ≤ seconds ∧ seconds < 2 ^ 63) :
    InRange (changedAt seconds) [] where
  device := by show 1 < 2 ^ 64; decide
  inode := by show 2 < 2 ^ 64; decide
  seconds := h
  nanoseconds := by show -2 ^ 63 ≤ (0 : Int) ∧ (0 : Int) < 2 ^ 63; decide
  contents := by show 0 < 2 ^ 64; decide

theorem successorLeaf_agrees_epoch :
    LeavesAgree 2 (changedAt 0) [] ↔
      0 ≤ (changedAt 0).statusChangeTimeSeconds ∧
        0 ≤ (changedAt 0).statusChangeTimeNanoseconds :=
  successorLeaf_agrees_iff 2 (changedAt 0) [] (by decide) (changedAt_inRange (by decide))

/-- A second before the epoch, the leaf just written is not bound to the record
it was written for. -/
theorem successorLeaf_unbound_before_epoch : ¬ LeavesAgree 2 (changedAt (-1)) [] := by
  intro hagrees
  have htimes := hagrees.times (by decide) (changedAt_inRange (by decide))
  exact absurd htimes.1 (by decide)

end Moguet.Store.LeafAgreement
