import Moguet.Plan.Grammar

/-!
# Capabilities from typed metadata

A provided capability is read from the text of an AUR package, or built from
the name and the version a sync database keeps apart
(`dependency_constraint.cpp`). The two routes agree but on the legacy soname
form `libfoo.so=libfoo.so-64`: the typed route admits it as it is, the text
route only where the repeated name is a version, which it is as long as it
holds no dash.
-/

namespace Moguet.Plan.Capability

open Verified.ByteString Constraint Grammar

variable {version name packageName : Bytes}

def providerCapabilitySpecification (packageName : Bytes) (version : Option Bytes) : Bytes :=
  match version with
  | some text => packageName ++ ascii "=" ++ text
  | none => packageName

def makeProviderCapabilityFromMetadata (packageName : Bytes) (version : Option Bytes) :
    Except DependencyConstraintParseFailure ProviderCapability :=
  let raw := providerCapabilitySpecification packageName version
  if !isValidPackageIdentity packageName then .error ⟨.invalidPackageIdentity, raw⟩
  else if version = some [] then .error ⟨.missingVersion, raw⟩
  else if version.any fun text => text.any isOperatorByte ||
      !isValidProviderCapabilityVersion packageName text then
    .error ⟨.invalidVersion, raw⟩
  else .ok ⟨raw, packageName, version⟩

/-- Bytes without a blank are kept by trimming. -/
def BlankFree (text : Bytes) : Prop := ∀ b ∈ text, isBlank b = false

instance (text : Bytes) : Decidable (BlankFree text) :=
  inferInstanceAs (Decidable (∀ b ∈ text, isBlank b = false))

theorem isBlank_equal : isBlank (byte '=') = false := by decide

/-- A name without an operator, given as a text of its own. -/
theorem parseProviderCapability_name (hblank : BlankFree name)
    (hoperator : ∀ b ∈ name, isOperatorByte b = false) :
    parseProviderCapability name =
      if name = [] then .error ⟨.emptySpecification, name⟩
      else if !isValidPackageIdentity name then .error ⟨.invalidPackageIdentity, name⟩
      else .ok ⟨name, name, none⟩ := by
  unfold parseProviderCapability
  rw [trim_eq_self hblank]
  by_cases hne : name = []
  · rw [if_pos hne, if_pos hne]
  · rw [if_neg hne, if_neg hne, splitAtFirst_none.mpr hoperator]

/-- A name and a version around the equality sign. -/
theorem parseProviderCapability_version (hname : BlankFree name) (hversion : BlankFree version)
    (hoperator : ∀ b ∈ name, isOperatorByte b = false) :
    parseProviderCapability (name ++ ascii "=" ++ version) =
      if !isValidPackageIdentity name then
        .error ⟨.invalidPackageIdentity, name ++ ascii "=" ++ version⟩
      else requireVersion (name ++ ascii "=" ++ version) version >>= fun kept =>
        .ok ⟨name ++ ascii "=" ++ version, name, some kept⟩ := by
  have hraw : name ++ ascii "=" ++ version = name ++ byte '=' :: version := by
    rw [List.append_assoc]
    rfl
  have htrim : trim (name ++ ascii "=" ++ version) = name ++ ascii "=" ++ version := by
    apply trim_eq_self
    rw [hraw]
    intro b hb
    rcases List.mem_append.mp hb with hb | hb
    · exact hname b hb
    · rcases List.mem_cons.mp hb with rfl | hb
      · exact isBlank_equal
      · exact hversion b hb
  have hne : name ++ ascii "=" ++ version ≠ [] := by
    rw [hraw]
    exact List.append_ne_nil_of_right_ne_nil _ (List.cons_ne_nil _ _)
  have hsplit : splitAtFirst isOperatorByte (name ++ ascii "=" ++ version) =
      some (name, byte '=' :: version) := by
    rw [hraw]
    exact splitAtFirst_of_append version (by decide) hoperator
  unfold parseProviderCapability
  rw [htrim]
  simp only [if_neg hne, hsplit]
  rw [if_neg (by simp), trim_eq_self hname, List.tail_cons, trim_eq_self hversion]

/-- The form is the name again, with the width of the library after a dash. -/
theorem legacy_shape (h : isValidLegacySonameV1UnversionedProvide name version = true) :
    version = name ++ ascii "-32" ∨ version = name ++ ascii "-64" := by
  unfold isValidLegacySonameV1UnversionedProvide at h
  split at h
  · cases h
  · rename_i hshape
    simp only [Bool.or_eq_true, Bool.not_eq_true', bne_iff_ne, not_or, not_not,
      Bool.not_eq_false] at hshape
    obtain ⟨⟨⟨-, -⟩, hprefix⟩, hdash⟩ := hshape
    obtain ⟨width, rfl⟩ := List.isPrefixOf_iff_prefix.mp hprefix
    rw [List.getElem?_append_right (Nat.le_refl _), Nat.sub_self] at hdash
    have hwidth : width = byte '-' :: width.tail := by
      cases width with
      | nil => cases hdash
      | cons b rest =>
        injection hdash with hdash
        rw [hdash]
        rfl
    have hdrop : (name ++ width).drop (name.length + 1) = width.tail := by
      rw [List.drop_append, List.drop_of_length_le (Nat.le_succ _), Nat.add_sub_cancel_left,
        List.drop_one, List.nil_append]
    rw [hdrop] at h
    rw [Bool.or_eq_true, decide_eq_true_eq, decide_eq_true_eq] at h
    rcases h with h | h
    · exact Or.inl (by rw [hwidth, h]; rfl)
    · exact Or.inr (by rw [hwidth, h]; rfl)

/-- The bytes of an identity are those of a version, but for the dash. -/
theorem isIdentifierByte_version {b : UInt8} (h : isIdentifierByte b = true)
    (hdash : b ≠ byte '-') :
    (0x21 ≤ b && b ≤ 0x7e && b != byte ':' && b != byte '/' && b != byte '-' &&
      b != byte '<' && b != byte '>' && b != byte '=') = true := by
  have hall : ∀ i : Fin 256, isIdentifierByte (UInt8.ofNat i) = true → UInt8.ofNat i ≠ byte '-' →
      (0x21 ≤ UInt8.ofNat i && UInt8.ofNat i ≤ 0x7e && UInt8.ofNat i != byte ':' &&
        UInt8.ofNat i != byte '/' && UInt8.ofNat i != byte '-' &&
        UInt8.ofNat i != byte '<' && UInt8.ofNat i != byte '>' &&
        UInt8.ofNat i != byte '=') = true := by decide +kernel
  have hbyte := hall ⟨b.toNat, b.toNat_lt⟩
  simp only [UInt8.ofNat_toNat] at hbyte
  exact hbyte h hdash

theorem isValidPkgver_identity (h : isValidPackageIdentity name = true) (hdash : byte '-' ∉ name) :
    isValidPkgver name = true := by
  obtain ⟨hne, hbytes⟩ := isValidPackageIdentity_bytes h
  unfold isValidPkgver
  rw [if_neg hne, List.all_eq_true]
  intro b hb
  apply isIdentifierByte_version (hbytes b hb)
  rintro rfl
  exact hdash hb

/-- The repeated name is a version exactly where it holds no dash: the first
dash of a version starts its release, and a release is digits. -/
theorem legacy_version_iff (hname : isValidPackageIdentity name = true)
    (h : isValidLegacySonameV1UnversionedProvide name version = true) :
    isValidPackageVersion version = true ↔ byte '-' ∉ name := by
  have hrelease : ∀ width : Bytes, (∀ b ∈ width, decide (b = byte ':') = false) →
      isValidPkgrel width = true →
      (isValidPackageVersion (name ++ byte '-' :: width) = true ↔ byte '-' ∉ name) := by
    intro width hcolon hwidth
    have hne : name ++ byte '-' :: width ≠ [] :=
      List.append_ne_nil_of_right_ne_nil _ (List.cons_ne_nil _ _)
    have hepoch : versionAfterEpoch (name ++ byte '-' :: width) =
        some (name ++ byte '-' :: width) := by
      have hnone : splitAtFirst (fun b => decide (b = byte ':')) (name ++ byte '-' :: width) =
          none := by
        rw [splitAtFirst_none]
        intro b hb
        rcases List.mem_append.mp hb with hb | hb
        · exact identity_no_colon hname b hb
        · rcases List.mem_cons.mp hb with rfl | hb
          · decide
          · exact hcolon b hb
      unfold versionAfterEpoch
      rw [hnone]
    unfold isValidPackageVersion
    simp only [if_neg hne, hepoch]
    by_cases hdash : byte '-' ∈ name
    · -- the release would hold the second dash
      cases hsplit : splitAtFirst (fun b => decide (b = byte '-')) name with
      | none =>
        have hnot := splitAtFirst_none.mp hsplit _ hdash
        simp at hnot
      | some parts =>
        obtain ⟨front, rest⟩ := parts
        obtain ⟨b, tail, rfl, hb, hfront, rfl⟩ := splitAtFirst_some hsplit
        rw [List.append_assoc, List.cons_append,
          splitAtFirst_of_append (tail ++ byte '-' :: width) hb hfront]
        constructor
        · intro hvalid
          exfalso
          rw [Bool.and_eq_true] at hvalid
          have hsecond := isValidPkgrel_bytes hvalid.2 (byte '-')
            (List.mem_append_right _ List.mem_cons_self)
          rcases hsecond with hdigit | hdot
          · exact absurd hdigit (by decide)
          · exact absurd hdot (by decide)
        · intro hnot
          exact absurd hdash hnot
    · have hfront : ∀ b ∈ name, decide (b = byte '-') = false := by
        intro b hb
        rw [decide_eq_false_iff_not]
        rintro rfl
        exact hdash hb
      rw [splitAtFirst_of_append width (by decide) hfront]
      show (isValidPkgver name && isValidPkgrel width) = true ↔ _
      rw [isValidPkgver_identity hname hdash, hwidth]
      exact ⟨fun _ => hdash, fun _ => rfl⟩
  rcases legacy_shape h with rfl | rfl
  · exact hrelease (ascii "32") (by decide) (by decide)
  · exact hrelease (ascii "64") (by decide) (by decide)

theorem legacy_operator (hname : isValidPackageIdentity name = true)
    (h : isValidLegacySonameV1UnversionedProvide name version = true) :
    version.any isOperatorByte = false ∧ version ≠ [] := by
  have hwhole : ∀ width : Bytes, (∀ b ∈ width, isOperatorByte b = false) → width ≠ [] →
      (name ++ width).any isOperatorByte = false ∧ name ++ width ≠ [] := by
    intro width hwidth hne
    refine ⟨?_, List.append_ne_nil_of_right_ne_nil _ hne⟩
    rw [List.any_eq_false]
    intro b hb
    rcases List.mem_append.mp hb with hb | hb
    · rw [identity_operator hname b hb]
      exact Bool.false_ne_true
    · rw [hwidth b hb]
      exact Bool.false_ne_true
  rcases legacy_shape h with rfl | rfl
  · exact hwhole (ascii "-32") (by decide) (by decide)
  · exact hwhole (ascii "-64") (by decide) (by decide)

/-- The form on which the routes differ: a legacy soname whose name holds a
dash. -/
def IsDashedSoname (packageName : Bytes) (version : Option Bytes) : Prop :=
  byte '-' ∈ packageName ∧
    ∃ text, version = some text ∧
      isValidLegacySonameV1UnversionedProvide packageName text = true

/-- For a name the routes give one answer, failures included, apart from that
form. -/
theorem make_eq_parse {version : Option Bytes} (hname : isValidPackageIdentity packageName = true)
    (hversion : ∀ text ∈ version, BlankFree text) (hform : ¬ IsDashedSoname packageName version) :
    makeProviderCapabilityFromMetadata packageName version =
      parseProviderCapability (providerCapabilitySpecification packageName version) := by
  have hne := (isValidPackageIdentity_bytes hname).1
  unfold makeProviderCapabilityFromMetadata
  rw [hname]
  cases version with
  | none =>
    show Except.ok _ = parseProviderCapability packageName
    rw [parseProviderCapability_name (identity_visible hname) (identity_operator hname),
      if_neg hne, hname]
    rfl
  | some text =>
    have hblank : BlankFree text := hversion text rfl
    show _ = parseProviderCapability (packageName ++ ascii "=" ++ text)
    rw [parseProviderCapability_version (identity_visible hname) hblank
      (identity_operator hname), hname]
    simp only [Bool.not_true, Bool.false_eq_true, if_false, Option.any_some]
    have hkind : isValidProviderCapabilityVersion packageName text =
        isValidPackageVersion text := by
      unfold isValidProviderCapabilityVersion
      split
      · rename_i hlegacy
        have hdash : byte '-' ∉ packageName :=
          fun hdash => hform ⟨hdash, text, rfl, hlegacy⟩
        exact ((legacy_version_iff hname hlegacy).mpr hdash).symm
      · rfl
    simp only [hkind]
    unfold requireVersion
    by_cases hempty : text = []
    · rw [if_pos hempty, if_pos (congrArg some hempty)]
      rfl
    · rw [if_neg hempty, if_neg (fun h => hempty (Option.some.inj h))]
      by_cases hbad : (text.any isOperatorByte || !isValidPackageVersion text) = true
      · rw [if_pos hbad, if_pos hbad]
        rfl
      · rw [if_neg hbad, if_neg hbad]
        rfl

/-- On that form the typed route accepts and the text route does not. -/
theorem dashed_soname {text : Bytes} (hname : isValidPackageIdentity packageName = true)
    (hdash : byte '-' ∈ packageName)
    (hlegacy : isValidLegacySonameV1UnversionedProvide packageName text = true)
    (hblank : BlankFree text) :
    makeProviderCapabilityFromMetadata packageName (some text) =
        .ok ⟨packageName ++ ascii "=" ++ text, packageName, some text⟩ ∧
      parseProviderCapability (packageName ++ ascii "=" ++ text) =
        .error ⟨.invalidVersion, packageName ++ ascii "=" ++ text⟩ := by
  obtain ⟨hoperator, hne⟩ := legacy_operator hname hlegacy
  have hversion : isValidPackageVersion text = false := by
    rw [← Bool.not_eq_true]
    intro hvalid
    exact (legacy_version_iff hname hlegacy).mp hvalid hdash
  constructor
  · unfold makeProviderCapabilityFromMetadata
    have hprovided : isValidProviderCapabilityVersion packageName text = true := by
      unfold isValidProviderCapabilityVersion
      rw [if_pos hlegacy]
    show (if (!isValidPackageIdentity packageName) = true then _ else
      if some text = some [] then _ else
      if (text.any isOperatorByte || !isValidProviderCapabilityVersion packageName text) = true
        then _ else Except.ok _) = _
    rw [hname, hoperator, hprovided, if_neg (fun h => hne (Option.some.inj h))]
    rfl
  · rw [parseProviderCapability_version (identity_visible hname) hblank
      (identity_operator hname), hname]
    unfold requireVersion
    rw [if_neg hne, hoperator, hversion]
    rfl

/-- A name that is no identity is refused on either route. -/
theorem refused_of_not_identity {version : Option Bytes}
    (hidentity : isValidPackageIdentity packageName = false) (hname : BlankFree packageName)
    (hversion : ∀ text ∈ version, BlankFree text)
    (hoperator : ∀ b ∈ packageName, isOperatorByte b = false) :
    ¬ ∃ capability, parseProviderCapability
      (providerCapabilitySpecification packageName version) = .ok capability := by
  rintro ⟨capability, h⟩
  cases version with
  | none =>
    change parseProviderCapability packageName = _ at h
    rw [parseProviderCapability_name hname hoperator, hidentity] at h
    split at h
    · cases h
    · cases h
  | some text =>
    change parseProviderCapability (packageName ++ ascii "=" ++ text) = _ at h
    rw [parseProviderCapability_version hname (hversion text rfl) hoperator, hidentity] at h
    cases h

theorem identity_of_make {version : Option Bytes} {capability : ProviderCapability}
    (h : makeProviderCapabilityFromMetadata packageName version = .ok capability) :
    isValidPackageIdentity packageName = true := by
  unfold makeProviderCapabilityFromMetadata at h
  dsimp only at h
  split at h
  · cases h
  · rename_i hname
    simpa using hname

/-- The two routes accept the same names and versions, with the same result,
but for a legacy soname with a dash in its name, which only the typed route
accepts. -/
theorem capability_routes (packageName : Bytes) (version : Option Bytes)
    (hname : BlankFree packageName) (hversion : ∀ text ∈ version, BlankFree text) :
    ((∃ capability, makeProviderCapabilityFromMetadata packageName version = .ok capability) ↔
      ((∀ b ∈ packageName, isOperatorByte b = false) ∧
        ∃ capability, parseProviderCapability
          (providerCapabilitySpecification packageName version) = .ok capability) ∨
      (isValidPackageIdentity packageName = true ∧ IsDashedSoname packageName version)) ∧
    (isValidPackageIdentity packageName = true → IsDashedSoname packageName version →
      parseProviderCapability (providerCapabilitySpecification packageName version) =
        .error ⟨.invalidVersion, providerCapabilitySpecification packageName version⟩) ∧
    ∀ made parsed, makeProviderCapabilityFromMetadata packageName version = .ok made →
      parseProviderCapability (providerCapabilitySpecification packageName version) =
        .ok parsed → made = parsed := by
  refine ⟨?_, ?_, ?_⟩
  · constructor
    · rintro ⟨capability, hmake⟩
      have hidentity := identity_of_make hmake
      by_cases hform : IsDashedSoname packageName version
      · exact Or.inr ⟨hidentity, hform⟩
      · rw [make_eq_parse hidentity hversion hform] at hmake
        exact Or.inl ⟨identity_operator hidentity, capability, hmake⟩
    · rintro (⟨hoperator, capability, hparse⟩ | ⟨hidentity, hdash, text, rfl, hlegacy⟩)
      · cases hidentity : isValidPackageIdentity packageName with
        | false =>
          exact absurd ⟨capability, hparse⟩
            (refused_of_not_identity hidentity hname hversion hoperator)
        | true =>
          by_cases hform : IsDashedSoname packageName version
          · obtain ⟨hdash, text, rfl, hlegacy⟩ := hform
            exact ⟨_, (dashed_soname hidentity hdash hlegacy (hversion text rfl)).1⟩
          · exact ⟨capability, (make_eq_parse hidentity hversion hform).trans hparse⟩
      · exact ⟨_, (dashed_soname hidentity hdash hlegacy (hversion text rfl)).1⟩
  · rintro hidentity ⟨hdash, text, rfl, hlegacy⟩
    exact (dashed_soname hidentity hdash hlegacy (hversion text rfl)).2
  · intro made parsed hmake hparse
    have hidentity := identity_of_make hmake
    by_cases hform : IsDashedSoname packageName version
    · obtain ⟨hdash, text, rfl, hlegacy⟩ := hform
      have hrefused := (dashed_soname hidentity hdash hlegacy (hversion text rfl)).2
      change parseProviderCapability (packageName ++ ascii "=" ++ text) = _ at hparse
      rw [hrefused] at hparse
      cases hparse
    · rw [make_eq_parse hidentity hversion hform, hparse] at hmake
      injection hmake with hmake
      exact hmake.symm

/-- An ordinary soname capability, on both routes. -/
theorem capability_routes_sample :
    ∃ capability, makeProviderCapabilityFromMetadata (ascii "libexample.so")
      (some (ascii "libexample.so-64")) = .ok capability :=
  (capability_routes (ascii "libexample.so") (some (ascii "libexample.so-64"))
    (by decide) (by
      intro text htext
      rw [← Option.some.inj htext]
      decide)).1.mpr (Or.inl ⟨by decide, ⟨ascii "libexample.so=libexample.so-64",
        ascii "libexample.so", some (ascii "libexample.so-64")⟩, by decide⟩)

/-- The routes differ on the soname of a library with a dash in its name. -/
theorem capability_routes_differ :
    ¬ ((∃ capability, makeProviderCapabilityFromMetadata (ascii "libgegl-npd-0.4.so")
        (some (ascii "libgegl-npd-0.4.so-64")) = .ok capability) ↔
      ∃ capability, parseProviderCapability
        (ascii "libgegl-npd-0.4.so=libgegl-npd-0.4.so-64") = .ok capability) := by
  have hmake : makeProviderCapabilityFromMetadata (ascii "libgegl-npd-0.4.so")
      (some (ascii "libgegl-npd-0.4.so-64")) =
        .ok ⟨ascii "libgegl-npd-0.4.so=libgegl-npd-0.4.so-64", ascii "libgegl-npd-0.4.so",
          some (ascii "libgegl-npd-0.4.so-64")⟩ := by decide
  have hparse : parseProviderCapability (ascii "libgegl-npd-0.4.so=libgegl-npd-0.4.so-64") =
      .error ⟨.invalidVersion, ascii "libgegl-npd-0.4.so=libgegl-npd-0.4.so-64"⟩ := by decide
  intro hagree
  obtain ⟨capability, h⟩ := hagree.mp ⟨_, hmake⟩
  rw [hparse] at h
  cases h

end Moguet.Plan.Capability
