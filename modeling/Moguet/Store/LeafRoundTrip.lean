import Moguet.Store.Publish

/-!
# Names of successors

A name that `successorLeaf` writes is read back by `parseGenerationLeaf`, field
by field, and it is never taken for an internal one.
-/

namespace Moguet.Store.LeafRoundTrip

open Verified.ByteString Verified.Decimal Verified.Fields Sha256 Record Chain Publish

variable {b separator : UInt8} {contents : Bytes} {value nextGeneration : Nat}
  {predecessor : RecordIdentity}

theorem isLowerHex_hexDigit (value : UInt32) : isLowerHex (hexDigit value) = true := by
  have hlt : (value &&& 0x0f).toNat < 16 := by
    rw [UInt32.toNat_and]
    exact Nat.lt_of_le_of_lt Nat.and_le_right (by decide)
  unfold hexDigit
  have hall : ∀ index < 16,
      isLowerHex ((ascii "0123456789abcdef").getD index 0) = true := by decide
  exact hall _ hlt

theorem isLowerHex_wordHex {word : UInt32} (h : b ∈ wordHex word) : isLowerHex b = true := by
  simp only [wordHex, List.mem_cons, List.not_mem_nil, or_false] at h
  rcases h with rfl | rfl | rfl | rfl | rfl | rfl | rfl | rfl <;>
    exact isLowerHex_hexDigit _

theorem length_hashHex (hash : Words) : (hashHex hash).length = 64 := rfl

theorem isLowerHex_hashHex {hash : Words} (h : b ∈ hashHex hash) : isLowerHex b = true := by
  simp only [hashHex, List.mem_append] at h
  rcases h with ((((((h | h) | h) | h) | h) | h) | h) | h <;> exact isLowerHex_wordHex h

/-- A digest is the digest of some hash. -/
theorem contentDigestHex_eq (h : contents.length < 2 ^ 64) :
    ∃ hash, contentDigestHex contents = hashHex hash := by
  unfold contentDigestHex rawContentsSha256 update
  have hfits : ¬ 2 ^ 64 - 1 - ({} : ContentSha256).totalSize < contents.length := by
    show ¬ 2 ^ 64 - 1 - 0 < contents.length
    omega
  rw [if_neg hfits]
  exact ⟨_, rfl⟩

theorem separator_notMem_digits (h : isAsciiDigit separator = false) (value : Nat) :
    separator ∉ writeUnsigned value := by
  intro hmem
  rw [writeUnsigned_digit separator hmem] at h
  cases h

theorem takeNonempty_append {front rest : Bytes} (h : separator ∉ front) (hfront : front ≠ [])
    (hrest : rest ≠ []) :
    takeNonempty separator (front ++ separator :: rest) = some (front, rest) := by
  unfold takeNonempty
  rw [takeField_append h]
  simp [hfront, hrest]

theorem parseUnsignedDecimal_writeUnsigned (h : value < 2 ^ 64) :
    parseUnsignedDecimal (writeUnsigned value) true = some value := by
  unfold parseUnsignedDecimal
  rw [if_neg (by simp)]
  exact parseCanonicalUnsigned_eq_some_iff.mpr ⟨rfl, h⟩

/-- A positive number does not start with zero, so it is read where zero is not
allowed. -/
theorem parseUnsignedDecimal_positive (hpos : 0 < value) (h : value < 2 ^ 64) :
    parseUnsignedDecimal (writeUnsigned value) false = some value := by
  have hhead : (writeUnsigned value).head? ≠ some (byte '0') := by
    by_cases hlength : 1 < (writeUnsigned value).length
    · exact writeUnsigned_head value hlength
    · intro hzero
      have hsingle : writeUnsigned value = [byte '0'] := by
        cases hdigits : writeUnsigned value with
        | nil => exact absurd hdigits (writeUnsigned_ne_nil value)
        | cons b rest =>
          rw [hdigits, List.length_cons] at hlength
          rw [hdigits, List.head?_cons, Option.some.injEq] at hzero
          have hrest : rest = [] := List.length_eq_zero_iff.mp (by omega)
          rw [hzero, hrest]
      have hvalue := decimalValue_writeUnsigned value
      rw [hsingle] at hvalue
      have hnone : decimalValue [byte '0'] = 0 := by decide
      omega
  unfold parseUnsignedDecimal
  rw [if_neg (fun hboth => hhead hboth.2)]
  exact parseCanonicalUnsigned_eq_some_iff.mpr ⟨rfl, h⟩

/-- The middle field of a successor's name. -/
def identityText (predecessor : RecordIdentity) : Bytes :=
  writeUnsigned predecessor.device ++ byte '-' ::
    (writeUnsigned predecessor.inode ++ byte '-' ::
      (writeUnsigned (writtenTime predecessor.statusChangeTimeSeconds) ++ byte '-' ::
        writeUnsigned (writtenTime predecessor.statusChangeTimeNanoseconds)))

/-- The name without its suffix. -/
def successorStem (nextGeneration : Nat) (predecessor : RecordIdentity) (contents : Bytes) :
    Bytes :=
  writeUnsigned nextGeneration ++ byte '.' ::
    (identityText predecessor ++ byte '.' :: contentDigestHex contents)

theorem successorLeaf_eq (nextGeneration : Nat) (predecessor : RecordIdentity) (contents : Bytes) :
    successorLeaf nextGeneration predecessor contents =
      successorStem nextGeneration predecessor contents ++ entrySuffix := by
  have hdot : ascii "." = [byte '.'] := rfl
  have hdash : ascii "-" = [byte '-'] := rfl
  unfold successorLeaf successorStem identityText
  rw [hdot, hdash]
  simp only [List.append_assoc, List.cons_append, List.nil_append]

/-- The fields of an identity fit `uintmax_t`. -/
structure Writable (identity : RecordIdentity) : Prop where
  device : identity.device < 2 ^ 64
  inode : identity.inode < 2 ^ 64
  seconds : identity.statusChangeTimeSeconds < 2 ^ 64
  nanoseconds : identity.statusChangeTimeNanoseconds < 2 ^ 64

theorem writtenTime_lt {value : Int} (h : value < 2 ^ 64) : writtenTime value < 2 ^ 64 := by
  unfold writtenTime
  split
  · decide
  · omega

theorem parsePredecessorIdentity_identityText {identity : RecordIdentity} (h : Writable identity) :
    parsePredecessorIdentity (identityText identity) = some {
      device := identity.device
      inode := identity.inode
      ctimeSeconds := writtenTime identity.statusChangeTimeSeconds
      ctimeNanoseconds := writtenTime identity.statusChangeTimeNanoseconds } := by
  have hdash : ∀ value, byte '-' ∉ writeUnsigned value :=
    separator_notMem_digits (by decide)
  unfold parsePredecessorIdentity identityText
  rw [takeNonempty_append (hdash _) (writeUnsigned_ne_nil _) (by simp)]
  simp only [Option.bind_eq_bind, Option.bind_some]
  rw [takeNonempty_append (hdash _) (writeUnsigned_ne_nil _) (by simp)]
  simp only [Option.bind_some]
  rw [takeNonempty_append (hdash _) (writeUnsigned_ne_nil _) (writeUnsigned_ne_nil _)]
  simp only [Option.bind_some]
  rw [parseUnsignedDecimal_writeUnsigned h.device, parseUnsignedDecimal_writeUnsigned h.inode,
    parseUnsignedDecimal_writeUnsigned (writtenTime_lt h.seconds),
    parseUnsignedDecimal_writeUnsigned (writtenTime_lt h.nanoseconds)]
  simp [hdash]

/-- What a successor's name says. -/
def successorFields (nextGeneration : Nat) (predecessor : RecordIdentity) (contents : Bytes) :
    GenerationLeaf where
  generation := nextGeneration
  hasPredecessor := true
  predecessorDevice := predecessor.device
  predecessorInode := predecessor.inode
  predecessorCtimeSeconds := writtenTime predecessor.statusChangeTimeSeconds
  predecessorCtimeNanoseconds := writtenTime predecessor.statusChangeTimeNanoseconds
  predecessorDigest := contentDigestHex contents
  leaf := successorLeaf nextGeneration predecessor contents

theorem parseSuccessorStem_successorStem (hatLeast : 2 ≤ nextGeneration)
    (hgeneration : nextGeneration < 2 ^ 64) (hpredecessor : Writable predecessor)
    (hcontents : contents.length < 2 ^ 64) :
    parseSuccessorStem (successorStem nextGeneration predecessor contents)
      (successorLeaf nextGeneration predecessor contents) =
        some (successorFields nextGeneration predecessor contents) := by
  have hdot : ∀ value, byte '.' ∉ writeUnsigned value :=
    separator_notMem_digits (by decide)
  have hidentity : byte '.' ∉ identityText predecessor := by
    have hdash : byte '.' ≠ byte '-' := by decide
    simp [identityText, hdot, hdash]
  obtain ⟨hash, hdigest⟩ := contentDigestHex_eq hcontents
  have hlength : (contentDigestHex contents).length = contentDigestHexSize := by
    rw [hdigest]
    exact length_hashHex hash
  have hhex : ∀ b ∈ contentDigestHex contents, isLowerHex b = true := by
    rw [hdigest]
    intro b hmem
    exact isLowerHex_hashHex hmem
  have hclean : byte '.' ∉ contentDigestHex contents := by
    intro hmem
    have hwrong := hhex _ hmem
    revert hwrong
    decide
  have hne : contentDigestHex contents ≠ [] := by
    intro hnil
    rw [hnil] at hlength
    cases hlength
  unfold parseSuccessorStem successorStem
  rw [takeNonempty_append (hdot _) (writeUnsigned_ne_nil _) (by simp)]
  simp only [Option.bind_eq_bind, Option.bind_some]
  rw [takeField_append hidentity]
  simp only [Option.bind_some]
  rw [parseUnsignedDecimal_positive (by omega) hgeneration,
    parsePredecessorIdentity_identityText hpredecessor]
  have hall : (contentDigestHex contents).all isLowerHex = true := List.all_eq_true.mpr hhex
  simp [hne, hclean, hatLeast, hlength, hall, successorFields]

theorem parseGenerationLeaf_successorLeaf (hatLeast : 2 ≤ nextGeneration)
    (hgeneration : nextGeneration < 2 ^ 64) (hpredecessor : Writable predecessor)
    (hcontents : contents.length < 2 ^ 64) :
    parseGenerationLeaf (successorLeaf nextGeneration predecessor contents) =
      some (successorFields nextGeneration predecessor contents) := by
  have hstem : 1 < (successorStem nextGeneration predecessor contents).length := by
    have hfirst := List.length_pos_of_ne_nil (writeUnsigned_ne_nil nextGeneration)
    simp only [successorStem, List.length_append, List.length_cons]
    omega
  have hparse := parseSuccessorStem_successorStem hatLeast hgeneration hpredecessor hcontents
  unfold parseGenerationLeaf
  rw [successorLeaf_eq, List.length_append, Nat.add_sub_cancel, List.drop_left, List.take_left,
    ← successorLeaf_eq]
  rw [if_neg]
  · dsimp only
    rw [if_neg]
    · exact hparse
    · intro hone
      rw [hone] at hstem
      revert hstem
      decide
  · rintro (hshort | hother)
    · omega
    · exact hother rfl

theorem parseGenerationLeaf_originLeaf :
    parseGenerationLeaf originLeaf = some { generation := 1, leaf := originLeaf } := by
  decide

/-- A name that starts with a digit is not an internal one. -/
theorem isInternalTempLeaf_of_digit (configuration : StoreConfiguration) {name : Bytes}
    (hhead : name.head? = some b) (hdigit : isAsciiDigit b = true) :
    isInternalTempLeaf name configuration.temporaryLeafPrefix = false := by
  rw [Bool.eq_false_iff]
  intro htemporary
  have hmarked := List.isPrefixOf_iff_prefix.mp configuration.temporary_marked
  obtain ⟨rest, rfl⟩ := hmarked.trans (List.isPrefixOf_iff_prefix.mp htemporary)
  have hdash : b = byte '-' := by
    injection hhead with hhead
    exact hhead.symm
  rw [hdash] at hdigit
  revert hdigit
  decide

theorem isInternalTempLeaf_successorLeaf (configuration : StoreConfiguration)
    (nextGeneration : Nat) (predecessor : RecordIdentity) (contents : Bytes) :
    isInternalTempLeaf (successorLeaf nextGeneration predecessor contents)
      configuration.temporaryLeafPrefix = false := by
  rw [successorLeaf_eq]
  unfold successorStem
  cases hdigits : writeUnsigned nextGeneration with
  | nil => exact absurd hdigits (writeUnsigned_ne_nil _)
  | cons b rest =>
    apply isInternalTempLeaf_of_digit configuration rfl
    have hmem : b ∈ writeUnsigned nextGeneration := by
      rw [hdigits]
      exact List.mem_cons_self
    exact writeUnsigned_digit b hmem

/-- A time from the epoch on is written as the binding reads it. -/
theorem writtenTime_eq {value : Int} (hpos : 0 ≤ value) (hlt : value < 2 ^ 64) :
    writtenTime value = toUintmax value := by
  unfold writtenTime toUintmax
  rw [if_neg (by omega), Int.emod_eq_of_lt hpos hlt]

end Moguet.Store.LeafRoundTrip
