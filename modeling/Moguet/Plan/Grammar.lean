import Moguet.Plan.Constraint
import Moguet.Verified.Decimal

/-!
# What the grammars of dependencies admit

Identities, versions and operators are told apart by their bytes: an identity
and a version hold no blank and no operator, an identity no colon either. That
is what lets a specification be taken apart at the first operator, and put
together again.
-/

namespace Moguet.Plan.Grammar

open Verified.ByteString Verified.Decimal Constraint

variable {identity value : Bytes}

variable {b : UInt8} {raw version rest : Bytes}

theorem isIdentifierByte_not_operator (h : isIdentifierByte b = true) :
    isOperatorByte b = false := by
  cases hb : isOperatorByte b with
  | false => rfl
  | true =>
    simp only [isOperatorByte, Bool.or_eq_true, decide_eq_true_eq] at hb
    rcases hb with (rfl | rfl) | rfl
    · exact absurd h (by decide)
    · exact absurd h (by decide)
    · exact absurd h (by decide)

/-- An identity is not empty and made of identifier bytes. -/
theorem isValidPackageIdentity_bytes (h : isValidPackageIdentity identity = true) :
    identity ≠ [] ∧ ∀ b ∈ identity, isIdentifierByte b = true := by
  unfold isValidPackageIdentity at h
  split at h
  · cases h
  · rename_i hforbidden
    simp only [Bool.or_eq_true, decide_eq_true_eq, not_or] at hforbidden
    exact ⟨hforbidden.1.1, List.all_eq_true.mp h⟩

theorem identity_visible (h : isValidPackageIdentity identity = true) :
    ∀ b ∈ identity, isBlank b = false :=
  fun b hb => isIdentifierByte_not_blank ((isValidPackageIdentity_bytes h).2 b hb)

theorem identity_operator (h : isValidPackageIdentity identity = true) :
    ∀ b ∈ identity, isOperatorByte b = false :=
  fun b hb => isIdentifierByte_not_operator ((isValidPackageIdentity_bytes h).2 b hb)

theorem identity_no_colon (h : isValidPackageIdentity identity = true) :
    ∀ b ∈ identity, decide (b = byte ':') = false := by
  intro b hb
  have hbyte := (isValidPackageIdentity_bytes h).2 b hb
  rw [decide_eq_false_iff_not]
  rintro rfl
  exact absurd hbyte (by decide)

theorem trim_identity (h : isValidPackageIdentity identity = true) : trim identity = identity :=
  trim_eq_self (identity_visible h)

/-- The bytes versions are written in: neither blanks nor operators. -/
def isVersionByte (b : UInt8) : Bool := !isBlank b && !isOperatorByte b

theorem isVersionByte_digit (h : isAsciiDigit b = true) : isVersionByte b = true := by
  have hrange := (isAsciiDigit_iff b).mp h
  unfold isVersionByte
  cases hbyte : isBlank b || isOperatorByte b with
  | false =>
    rw [Bool.or_eq_false_iff] at hbyte
    rw [hbyte.1, hbyte.2]
    rfl
  | true =>
    simp only [isBlank, isOperatorByte, Bool.or_eq_true, decide_eq_true_eq] at hbyte
    rcases hbyte with (((rfl | rfl) | rfl) | rfl) | ((rfl | rfl) | rfl)
    all_goals exact absurd hrange (by decide)

/-- Blanks are below the printable bytes. -/
theorem not_blank_of_graph (hlow : 0x21 ≤ b) : isBlank b = false := by
  cases hcase : isBlank b with
  | false => rfl
  | true =>
    simp only [isBlank, Bool.or_eq_true, decide_eq_true_eq] at hcase
    rcases hcase with ((rfl | rfl) | rfl) | rfl
    all_goals exact absurd hlow (by decide)

theorem isValidPkgver_bytes (h : isValidPkgver value = true) :
    ∀ b ∈ value, isVersionByte b = true := by
  unfold isValidPkgver at h
  split at h
  · cases h
  · intro b hb
    have hbyte := List.all_eq_true.mp h b hb
    simp only [Bool.and_eq_true, decide_eq_true_eq, bne_iff_ne] at hbyte
    obtain ⟨⟨⟨⟨⟨⟨⟨hlow, -⟩, -⟩, -⟩, -⟩, hless⟩, hgreater⟩, hequal⟩ := hbyte
    unfold isVersionByte
    rw [not_blank_of_graph hlow]
    simp [isOperatorByte, hless, hgreater, hequal]

theorem containsOnlyAsciiDigits_bytes (h : containsOnlyAsciiDigits value = true) :
    ∀ b ∈ value, isAsciiDigit b = true := by
  unfold containsOnlyAsciiDigits at h
  rw [Bool.and_eq_true] at h
  exact List.all_eq_true.mp h.2

/-- A release is digits around at most one dot. -/
theorem isValidPkgrel_bytes (h : isValidPkgrel value = true) :
    ∀ b ∈ value, isAsciiDigit b = true ∨ b = byte '.' := by
  unfold isValidPkgrel at h
  split at h
  · intro b hb
    exact Or.inl (containsOnlyAsciiDigits_bytes h b hb)
  · rename_i major rest hsplit
    obtain ⟨dot, tail, rfl, hdot, -, rfl⟩ := splitAtFirst_some hsplit
    rw [Bool.and_eq_true, Bool.and_eq_true] at h
    intro b hb
    rcases List.mem_append.mp hb with hb | hb
    · exact Or.inl (containsOnlyAsciiDigits_bytes h.1.1 b hb)
    · rcases List.mem_cons.mp hb with rfl | hb
      · exact Or.inr (of_decide_eq_true hdot)
      · exact Or.inl (containsOnlyAsciiDigits_bytes h.1.2 b hb)

theorem isVersionByte_separator : isVersionByte (byte '.') = true ∧
    isVersionByte (byte '-') = true ∧ isVersionByte (byte ':') = true := by decide

/-- A version holds no blank and no operator. -/
theorem isValidPackageVersion_bytes (h : isValidPackageVersion version = true) :
    version ≠ [] ∧ ∀ b ∈ version, isVersionByte b = true := by
  unfold isValidPackageVersion at h
  split at h
  · cases h
  · rename_i hne
    refine ⟨hne, ?_⟩
    split at h
    · cases h
    · rename_i rest hepoch
      have hrelease : ∀ b ∈ rest, isVersionByte b = true := by
        split at h
        · exact isValidPkgver_bytes h
        · rename_i pkgver tail hsplit
          obtain ⟨dash, release, rfl, hdash, -, rfl⟩ := splitAtFirst_some hsplit
          rw [Bool.and_eq_true] at h
          intro b hb
          rcases List.mem_append.mp hb with hb | hb
          · exact isValidPkgver_bytes h.1 b hb
          · rcases List.mem_cons.mp hb with rfl | hb
            · rw [of_decide_eq_true hdash]
              exact isVersionByte_separator.2.1
            · rcases isValidPkgrel_bytes h.2 b hb with hdigit | rfl
              · exact isVersionByte_digit hdigit
              · exact isVersionByte_separator.1
      unfold versionAfterEpoch at hepoch
      split at hepoch
      · injection hepoch with hepoch
        rw [hepoch]
        exact hrelease
      · rename_i epoch tail hsplit
        obtain ⟨colon, remaining, rfl, hcolon, -, rfl⟩ := splitAtFirst_some hsplit
        split at hepoch
        · cases hepoch
        · rename_i hdigits
          split at hepoch
          · cases hepoch
          · injection hepoch with hepoch
            intro b hb
            rcases List.mem_append.mp hb with hb | hb
            · exact isVersionByte_digit
                (containsOnlyAsciiDigits_bytes (by simpa using hdigits) b hb)
            · rcases List.mem_cons.mp hb with rfl | hb
              · rw [of_decide_eq_true hcolon]
                exact isVersionByte_separator.2.2
              · apply hrelease
                rw [← hepoch]
                exact hb

theorem version_visible (h : isValidPackageVersion version = true) :
    ∀ b ∈ version, isBlank b = false := by
  intro b hb
  have hbyte := (isValidPackageVersion_bytes h).2 b hb
  unfold isVersionByte at hbyte
  rw [Bool.and_eq_true, Bool.not_eq_true'] at hbyte
  exact hbyte.1

theorem version_operator (h : isValidPackageVersion version = true) :
    ∀ b ∈ version, isOperatorByte b = false := by
  intro b hb
  have hbyte := (isValidPackageVersion_bytes h).2 b hb
  unfold isVersionByte at hbyte
  rw [Bool.and_eq_true, Bool.not_eq_true', Bool.not_eq_true'] at hbyte
  exact hbyte.2

/-- The payload of a component holds no blank. -/
theorem payload_visible {payload : Bytes} (h : isValidSonamePayload payload = true) :
    ∀ b ∈ payload, isBlank b = false := by
  unfold isValidSonamePayload at h
  split at h
  · cases h
  · intro b hb
    have hbyte := List.all_eq_true.mp h b hb
    simp only [Bool.and_eq_true, decide_eq_true_eq] at hbyte
    exact not_blank_of_graph hbyte.1.1.1.1.1.1

/-- A well-formed version passes the check after an operator. -/
theorem requireVersion_of_valid (h : isValidPackageVersion version = true) :
    requireVersion raw version = .ok version := by
  have hany : version.any isOperatorByte = false := by
    rw [List.any_eq_false]
    intro b hb
    rw [version_operator h b hb]
    exact Bool.false_ne_true
  unfold requireVersion
  rw [if_neg (isValidPackageVersion_bytes h).1, hany, h]
  rfl

theorem requireVersion_ok {kept : Bytes} (h : requireVersion raw version = .ok kept) :
    kept = version ∧ isValidPackageVersion version = true := by
  unfold requireVersion at h
  split at h
  · cases h
  · split at h
    · cases h
    · rename_i hvalid
      injection h with h
      simp only [Bool.or_eq_true, Bool.not_eq_true', not_or, Bool.not_eq_false] at hvalid
      exact ⟨h.symm, hvalid.2⟩

/-- The text of a relation. -/
def operatorText : DependencyVersionRelation → Bytes
  | .lessThan => ascii "<"
  | .lessThanOrEqual => ascii "<="
  | .equal => ascii "="
  | .greaterThanOrEqual => ascii ">="
  | .greaterThan => ascii ">"

/-- An operator is read off the text it starts. -/
theorem parseConsumerRelation_append (relation : DependencyVersionRelation)
    (h : rest.head? ≠ some (byte '=')) :
    parseConsumerRelation (operatorText relation ++ rest) = some (relation, rest) := by
  cases relation with
  | lessThan =>
    show (if rest.head? = some (byte '=') then _ else some (_, rest)) = _
    rw [if_neg h]
  | lessThanOrEqual => rfl
  | equal => rfl
  | greaterThanOrEqual => rfl
  | greaterThan =>
    show (if rest.head? = some (byte '=') then _ else some (_, rest)) = _
    rw [if_neg h]

/-- What is read as an operator is the text of the relation. -/
theorem parseConsumerRelation_some {operator : Bytes} {relation : DependencyVersionRelation}
    (h : parseConsumerRelation operator = some (relation, rest)) :
    operator = operatorText relation ++ rest := by
  unfold parseConsumerRelation at h
  split at h
  · cases h
  · rename_i b tail
    have htail : tail.head? = some (byte '=') → tail = byte '=' :: tail.tail := by
      intro hhead
      cases tail with
      | nil => cases hhead
      | cons c rest =>
        injection hhead with hhead
        rw [hhead]
        rfl
    split at h
    · rename_i hb
      split at h
      · rename_i hhead
        injection h with h
        injection h with hrelation hrest
        rw [← hrelation, hb, htail hhead, ← hrest]
        rfl
      · injection h with h
        injection h with hrelation hrest
        rw [← hrelation, hb, hrest]
        rfl
    · split at h
      · rename_i hb
        injection h with h
        injection h with hrelation hrest
        rw [← hrelation, hb, hrest]
        rfl
      · split at h
        · rename_i hb
          split at h
          · rename_i hhead
            injection h with h
            injection h with hrelation hrest
            rw [← hrelation, hb, htail hhead, ← hrest]
            rfl
          · injection h with h
            injection h with hrelation hrest
            rw [← hrelation, hb, hrest]
            rfl
        · cases h

/-- An operator starts with an operator byte. -/
theorem operatorText_cons (relation : DependencyVersionRelation) :
    ∃ b rest, operatorText relation = b :: rest ∧ isOperatorByte b = true := by
  cases relation with
  | lessThan => exact ⟨byte '<', [], rfl, by decide⟩
  | lessThanOrEqual => exact ⟨byte '<', [byte '='], rfl, by decide⟩
  | equal => exact ⟨byte '=', [], rfl, by decide⟩
  | greaterThanOrEqual => exact ⟨byte '>', [byte '='], rfl, by decide⟩
  | greaterThan => exact ⟨byte '>', [], rfl, by decide⟩

end Moguet.Plan.Grammar
