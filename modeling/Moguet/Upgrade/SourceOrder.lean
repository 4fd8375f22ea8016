import Moguet.Upgrade.Ownership

/-!
# The order of the explicit sources

The index of the explicit sources is filled source by source, the first one of
an owner leaves its package base as the signature, and sources without a key
are owners of their own. None of this is seen in a verdict: an owner is told by
the sources that share its key, and a match by the owners that have the text.
So the sources may come in any order.
-/

namespace Moguet.Upgrade.Plan

open Verified ByteString Checked Grouping Upsert

variable {sources sources' : List ExplicitSourceIdentity}
  {identities : List NormalizedExplicitIdentity} {index : ExplicitIdentityIndex}

variable {source added : ExplicitSourceIdentity} {members : List ExplicitSourceIdentity}
  {identity identity' : NormalizedExplicitIdentity} {identities' : List NormalizedExplicitIdentity}
  {hits hits' : NormalizedExplicitIdentity → Bool} {texts : NormalizedExplicitIdentity → List Bytes}
  {index' : ExplicitIdentityIndex} {key : Option Bytes}

/-! ## Owners and their sources -/

def keyOf (source : ExplicitSourceIdentity) : Option Bytes :=
  (inspectIdentity source.sourceIdentity).value

def baseView (source : ExplicitSourceIdentity) : IdentityView :=
  inspectIdentity source.packageBase

/-- The sources that have one owner with this one: those with its key, and
without a key it alone. -/
def membersOf (sources : List ExplicitSourceIdentity) (source : ExplicitSourceIdentity) :
    List ExplicitSourceIdentity :=
  match keyOf source with
  | some key => sources.filter fun other => keyOf other = some key
  | none => [source]

theorem mem_membersOf_congr (h : ∀ source, source ∈ sources ↔ source ∈ sources')
    (source : ExplicitSourceIdentity) (other : ExplicitSourceIdentity) :
    other ∈ membersOf sources source ↔ other ∈ membersOf sources' source := by
  unfold membersOf
  split
  · rw [List.mem_filter, List.mem_filter, h]
  · exact Iff.rfl

/-- A source joins the members of its own key only. -/
theorem membersOf_append (h : keyOf source ≠ keyOf added) :
    membersOf (sources ++ [added]) source = membersOf sources source := by
  unfold membersOf
  split
  · rename_i key hkey
    have hnot : keyOf added ≠ some key := by
      rw [← hkey]
      exact fun hsame => h hsame.symm
    rw [List.filter_append, List.filter_cons_of_neg (by simpa using hnot), List.filter_nil,
      List.append_nil]
  · rfl

theorem membersOf_none (h : keyOf source = none) : membersOf sources source = [source] := by
  unfold membersOf
  rw [h]

theorem membersOf_append_self {key : Bytes} (h : keyOf added = some key) :
    membersOf (sources ++ [added]) added =
      sources.filter (fun other => keyOf other = some key) ++ [added] := by
  unfold membersOf
  rw [h]
  dsimp only
  rw [List.filter_append, List.filter_cons_of_pos (by simpa using h), List.filter_nil]

/-- What an owner with this key and these members is. -/
structure OwnerOf (key : Option Bytes) (members : List ExplicitSourceIdentity)
    (identity : NormalizedExplicitIdentity) : Prop where
  hasKey : identity.key = key
  incomplete : identity.identityIncomplete = key.isNone
  names : ∀ text, text ∈ identity.packageNames ↔
    ∃ source ∈ members, text ∈ explicitPackageNames source
  bases : ∀ text, text ∈ identity.claimedPackageBases ↔
    ∃ source ∈ members, (baseView source).value = some text
  namesNodup : identity.packageNames.Nodup
  basesNodup : identity.claimedPackageBases.Nodup
  signature : ∃ source ∈ members, baseView source = identity.packageBaseSignature
  agreed : identity.definitionConflict = false ↔
    ∀ source ∈ members, baseView source = identity.packageBaseSignature

/-- The first source of an owner. -/
theorem ownerOf_first (key : Option Bytes) (source : ExplicitSourceIdentity) (sourceIndex : Nat) :
    OwnerOf key [source] (claimSource sourceIndex source
      { key := key
        packageBaseSignature := baseView source
        identityIncomplete := key.isNone }) := by
  constructor
  case hasKey => rfl
  case incomplete => rfl
  case names =>
    intro text
    rw [claimSource]
    dsimp only
    rw [mem_foldl_insertNew]
    simp
  case bases =>
    intro text
    rw [claimSource]
    dsimp only
    rw [mem_foldl_insertNew]
    simp [baseView]
  case namesNodup => exact nodup_foldl_insertNew _ List.nodup_nil
  case basesNodup => exact nodup_foldl_insertNew _ List.nodup_nil
  case signature => exact ⟨source, List.mem_singleton.mpr rfl, rfl⟩
  case agreed => simp [claimSource, baseView]

/-- A later source of an owner. -/
theorem OwnerOf.join (h : OwnerOf key members identity) (source : ExplicitSourceIdentity)
    (sourceIndex : Nat) :
    OwnerOf key (members ++ [source]) (claimSource sourceIndex source identity) := by
  constructor
  case hasKey => exact h.hasKey
  case incomplete => exact h.incomplete
  case names =>
    intro text
    rw [claimSource]
    dsimp only
    rw [mem_foldl_insertNew, h.names]
    simp [or_and_right, exists_or]
  case bases =>
    intro text
    rw [claimSource]
    dsimp only
    rw [mem_foldl_insertNew, h.bases]
    simp [or_and_right, exists_or, baseView]
  case namesNodup => exact nodup_foldl_insertNew _ h.namesNodup
  case basesNodup => exact nodup_foldl_insertNew _ h.basesNodup
  case signature =>
    obtain ⟨first, hfirst, hview⟩ := h.signature
    exact ⟨first, List.mem_append_left _ hfirst, hview⟩
  case agreed =>
    have hagreed := h.agreed
    simp only [claimSource, Bool.or_eq_false_iff, hagreed, List.forall_mem_append,
      List.forall_mem_singleton, decide_eq_false_iff_not, not_not]
    unfold baseView
    rw [eq_comm (a := identity.packageBaseSignature)]

/-- Conflict is told by the members alone, whichever came first. -/
theorem OwnerOf.agreed_iff (h : OwnerOf key members identity) :
    identity.definitionConflict = false ↔
      ∀ source ∈ members, ∀ other ∈ members, baseView source = baseView other := by
  rw [h.agreed]
  constructor
  · intro hsame source hsource other hother
    rw [hsame source hsource, hsame other hother]
  · intro hsame source hsource
    obtain ⟨first, hfirst, hview⟩ := h.signature
    rw [← hview]
    exact hsame source hsource first hfirst

/-- Two owners that a verdict does not tell apart. -/
structure SameOwner (identity identity' : NormalizedExplicitIdentity) : Prop where
  key : identity.key = identity'.key
  incomplete : identity.identityIncomplete = identity'.identityIncomplete
  conflict : identity.definitionConflict = identity'.definitionConflict
  names : ∀ text, text ∈ identity.packageNames ↔ text ∈ identity'.packageNames
  bases : ∀ text, text ∈ identity.claimedPackageBases ↔ text ∈ identity'.claimedPackageBases

theorem OwnerOf.same {members' : List ExplicitSourceIdentity} (h : OwnerOf key members identity)
    (h' : OwnerOf key members' identity')
    (hmembers : ∀ source, source ∈ members ↔ source ∈ members') : SameOwner identity identity' := by
  constructor
  case key => rw [h.hasKey, h'.hasKey]
  case incomplete => rw [h.incomplete, h'.incomplete]
  case conflict =>
    have hagreed : identity.definitionConflict = false ↔ identity'.definitionConflict = false := by
      rw [h.agreed_iff, h'.agreed_iff]
      simp only [hmembers]
    cases hconflict : identity'.definitionConflict with
    | false => exact hagreed.mpr hconflict
    | true =>
      apply Bool.of_not_eq_false
      intro hclear
      rw [hagreed.mp hclear] at hconflict
      cases hconflict
  case names =>
    intro text
    rw [h.names, h'.names]
    simp only [hmembers]
  case bases =>
    intro text
    rw [h.bases, h'.bases]
    simp only [hmembers]

/-! ## The owners of an index -/

/-- No two owners have one key. -/
def DistinctKeys (identities : List NormalizedExplicitIdentity) : Prop :=
  identities.Pairwise fun identity other => identity.key = other.key → identity.key = none

/-- The owners are the groups of the sources. -/
structure Indexed (sources : List ExplicitSourceIdentity)
    (identities : List NormalizedExplicitIdentity) : Prop where
  described : ∀ identity ∈ identities, ∃ source ∈ sources,
    OwnerOf (keyOf source) (membersOf sources source) identity
  owned : ∀ source ∈ sources, ∃ identity ∈ identities,
    OwnerOf (keyOf source) (membersOf sources source) identity
  distinctKeys : DistinctKeys identities

theorem indexed_nil : Indexed [] [] where
  described := List.forall_mem_nil _
  owned := List.forall_mem_nil _
  distinctKeys := List.Pairwise.nil

/-- An owner that a source does not join is described as before. -/
theorem described_append (h : OwnerOf (keyOf source) (membersOf sources source) identity)
    (hkey : keyOf added = none ∨ keyOf added ≠ identity.key) :
    OwnerOf (keyOf source) (membersOf (sources ++ [added]) source) identity := by
  by_cases hnone : keyOf source = none
  · rw [membersOf_none hnone] at h ⊢
    exact h
  · rw [membersOf_append]
    · exact h
    · intro hsame
      rcases hkey with hadded | hadded
      · exact hnone (hsame.trans hadded)
      · exact hadded (hsame.symm.trans h.hasKey.symm)

theorem mem_sources_append (h : source ∈ sources) : source ∈ sources ++ [added] :=
  List.mem_append_left _ h

/-- A new owner at the end, for a source that joins none. -/
theorem Indexed.append (h : Indexed sources identities) {fresh : NormalizedExplicitIdentity}
    (hfresh : OwnerOf (keyOf added) (membersOf (sources ++ [added]) added) fresh)
    (hkeys : ∀ identity ∈ identities, keyOf added = none ∨ keyOf added ≠ identity.key) :
    Indexed (sources ++ [added]) (identities ++ [fresh]) where
  described := by
    intro identity hidentity
    rcases List.mem_append.mp hidentity with hold | hnew
    · obtain ⟨source, hsource, howner⟩ := h.described identity hold
      exact ⟨source, mem_sources_append hsource, described_append howner (hkeys identity hold)⟩
    · rw [List.mem_singleton.mp hnew]
      exact ⟨added, List.mem_append_right _ List.mem_cons_self, hfresh⟩
  owned := by
    intro source hsource
    rcases List.mem_append.mp hsource with hold | hnew
    · obtain ⟨identity, hidentity, howner⟩ := h.owned source hold
      exact ⟨identity, List.mem_append_left _ hidentity,
        described_append howner (hkeys identity hidentity)⟩
    · rw [List.mem_singleton.mp hnew]
      exact ⟨fresh, List.mem_append_right _ List.mem_cons_self, hfresh⟩
  distinctKeys := by
    apply List.pairwise_append.mpr
    refine ⟨h.distinctKeys, List.pairwise_singleton _ _, ?_⟩
    intro identity hidentity other hother hsame
    rw [List.mem_singleton.mp hother, hfresh.hasKey] at hsame
    rcases hkeys identity hidentity with hnone | hne
    · rw [hsame, hnone]
    · exact absurd hsame.symm hne

/-- A source that joins an owner where it stands. -/
theorem Indexed.join {before after : List NormalizedExplicitIdentity}
    {found : NormalizedExplicitIdentity} (h : Indexed sources (before ++ found :: after))
    {key : Bytes} (hkey : keyOf added = some key) (hfound : found.key = some key)
    (sourceIndex : Nat) :
    Indexed (sources ++ [added]) (before ++ claimSource sourceIndex added found :: after) := by
  -- the owner that is joined now has every source of its key
  have hjoined : OwnerOf (keyOf added) (membersOf (sources ++ [added]) added)
      (claimSource sourceIndex added found) := by
    obtain ⟨source, -, howner⟩ := h.described found (List.mem_append_right _ List.mem_cons_self)
    have hsource : keyOf source = some key := howner.hasKey.symm.trans hfound
    have hmembers : membersOf sources source =
        sources.filter fun other => keyOf other = some key := by
      unfold membersOf
      rw [hsource]
    rw [hsource, hmembers] at howner
    rw [membersOf_append_self hkey, hkey]
    exact howner.join added sourceIndex
  -- the other owners have other keys
  have hkeys := List.pairwise_append.mp h.distinctKeys
  have hothers : ∀ identity, identity ∈ before ∨ identity ∈ after → keyOf added ≠ identity.key := by
    intro identity hidentity hsame
    rw [hkey] at hsame
    rcases hidentity with hmem | hmem
    · have hnone := hkeys.2.2 identity hmem found List.mem_cons_self (hsame.symm.trans hfound.symm)
      rw [hnone] at hsame
      cases hsame
    · have hnone := (List.pairwise_cons.mp hkeys.2.1).1 identity hmem (hfound.trans hsame)
      rw [hnone] at hfound
      cases hfound
  constructor
  case described =>
    intro identity hidentity
    have hcases : identity = claimSource sourceIndex added found ∨
        identity ∈ before ∨ identity ∈ after := by
      simp only [List.mem_append, List.mem_cons] at hidentity
      tauto
    rcases hcases with rfl | hold
    · exact ⟨added, List.mem_append_right _ List.mem_cons_self, hjoined⟩
    · have hmem : identity ∈ before ++ found :: after := by
        simp only [List.mem_append, List.mem_cons]
        tauto
      obtain ⟨source, hsource, howner⟩ := h.described identity hmem
      exact ⟨source, mem_sources_append hsource,
        described_append howner (Or.inr (hothers identity hold))⟩
  case owned =>
    intro source hsource
    by_cases hsame : keyOf source = keyOf added
    · refine ⟨claimSource sourceIndex added found, by simp, ?_⟩
      have hmembers : membersOf (sources ++ [added]) source =
          membersOf (sources ++ [added]) added := by
        unfold membersOf
        rw [hsame, hkey]
      rw [hsame, hmembers]
      exact hjoined
    · have hold : source ∈ sources := by
        rcases List.mem_append.mp hsource with hold | hnew
        · exact hold
        · rw [List.mem_singleton.mp hnew] at hsame
          exact absurd rfl hsame
      obtain ⟨identity, hidentity, howner⟩ := h.owned source hold
      have hne : keyOf added ≠ identity.key := by
        rw [howner.hasKey]
        exact fun hsymm => hsame hsymm.symm
      refine ⟨identity, ?_, described_append howner (Or.inr hne)⟩
      simp only [List.mem_append, List.mem_cons] at hidentity ⊢
      rcases hidentity with hmem | rfl | hmem
      · exact Or.inl hmem
      · exact absurd (hkey.trans hfound.symm) hne
      · exact Or.inr (Or.inr hmem)
  case distinctKeys =>
    apply List.pairwise_append.mpr
    refine ⟨hkeys.1, ?_, ?_⟩
    · apply List.pairwise_cons.mpr
      exact List.pairwise_cons.mp hkeys.2.1
    · intro identity hidentity other hother
      rcases List.mem_cons.mp hother with rfl | hmem
      · exact hkeys.2.2 identity hidentity found List.mem_cons_self
      · exact hkeys.2.2 identity hidentity other (List.mem_cons_of_mem _ hmem)

/-- One source more. -/
theorem Indexed.addExplicitSource (h : Indexed sources identities)
    (entry : ExplicitSourceIdentity × Nat) :
    Indexed (sources ++ [entry.1]) (Plan.addExplicitSource identities entry) := by
  obtain ⟨added, sourceIndex⟩ := entry
  unfold Plan.addExplicitSource
  dsimp only
  split
  · rename_i key hview
    have hkey : keyOf added = some key := by
      rw [keyOf, hview]
      rfl
    rcases upsert_cases (fun identity : NormalizedExplicitIdentity =>
        decide (identity.key = some key)) (claimSource sourceIndex added)
        (claimSource sourceIndex added
          { key := some key, packageBaseSignature := inspectIdentity added.packageBase })
        identities with
      ⟨hnone, hfresh⟩ | ⟨before, found, after, hitems, hfound, hchanged⟩
    · rw [hfresh]
      have hkeys : ∀ identity ∈ identities, keyOf added = none ∨ keyOf added ≠ identity.key := by
        intro identity hidentity
        rw [hkey]
        exact Or.inr fun hsame => of_decide_eq_false (hnone identity hidentity) hsame.symm
      apply h.append _ hkeys
      have hempty : sources.filter (fun other => keyOf other = some key) = [] := by
        apply List.filter_eq_nil_iff.mpr
        intro source hsource hsame
        obtain ⟨identity, hidentity, howner⟩ := h.owned source hsource
        apply of_decide_eq_false (hnone identity hidentity)
        exact howner.hasKey.trans (of_decide_eq_true hsame)
      rw [membersOf_append_self hkey, hempty, hkey]
      exact ownerOf_first (some key) added sourceIndex
    · rw [hchanged]
      rw [hitems] at h
      exact h.join hkey (of_decide_eq_true hfound) sourceIndex
  · rename_i hview
    have hkey : keyOf added = none := by
      unfold keyOf
      cases hidentity : inspectIdentity added.sourceIdentity with
      | resolved key => exact absurd hidentity (hview key)
      | absent => rfl
      | resolutionFailed => rfl
      | emptyResolvedValue => rfl
    apply h.append _ fun _ _ => Or.inl hkey
    rw [membersOf_none hkey, hkey]
    exact ownerOf_first none added sourceIndex

/-- The owners are the groups of the sources, in whatever order they came. -/
theorem normalizedIdentities_indexed (sources : List ExplicitSourceIdentity) :
    Indexed sources (normalizedIdentities sources) := by
  have hrun : ∀ (entries : List (ExplicitSourceIdentity × Nat))
      {seen : List ExplicitSourceIdentity} {identities : List NormalizedExplicitIdentity},
      Indexed seen identities →
        Indexed (seen ++ entries.map Prod.fst) (entries.foldl Plan.addExplicitSource identities) := by
    intro entries
    induction entries with
    | nil =>
      intro seen identities h
      rw [List.map_nil, List.append_nil]
      exact h
    | cons entry entries ih =>
      intro seen identities h
      rw [List.map_cons, List.append_cons, List.foldl_cons]
      exact ih (h.addExplicitSource entry)
  have hall := hrun sources.zipIdx indexed_nil
  rw [List.nil_append, List.zipIdx_map_fst] at hall
  exact hall

/-- Owners are the same, up to their order and number. -/
structure SameOwners (identities identities' : List NormalizedExplicitIdentity) : Prop where
  left : ∀ identity ∈ identities, ∃ identity' ∈ identities', SameOwner identity identity'
  right : ∀ identity' ∈ identities', ∃ identity ∈ identities, SameOwner identity identity'

theorem Indexed.sameOwners (h : Indexed sources identities) (h' : Indexed sources' identities')
    (hsources : ∀ source, source ∈ sources ↔ source ∈ sources') :
    SameOwners identities identities' where
  left := by
    intro identity hidentity
    obtain ⟨source, hsource, howner⟩ := h.described identity hidentity
    obtain ⟨identity', hidentity', howner'⟩ := h'.owned source ((hsources source).mp hsource)
    exact ⟨identity', hidentity', howner.same howner' (mem_membersOf_congr hsources source)⟩
  right := by
    intro identity' hidentity'
    obtain ⟨source, hsource, howner'⟩ := h'.described identity' hidentity'
    obtain ⟨identity, hidentity, howner⟩ := h.owned source ((hsources source).mpr hsource)
    exact ⟨identity, hidentity, howner.same howner' (mem_membersOf_congr hsources source)⟩

theorem indexed_namesNodup (h : Indexed sources identities) (hidentity : identity ∈ identities) :
    identity.packageNames.Nodup ∧ identity.claimedPackageBases.Nodup := by
  obtain ⟨source, -, howner⟩ := h.described identity hidentity
  exact ⟨howner.namesNodup, howner.basesNodup⟩

/-- An owner without a key is incomplete, and no other. -/
theorem Indexed.key_ne_none (h : Indexed sources identities) (hidentity : identity ∈ identities)
    (hcomplete : identity.identityIncomplete = false) : identity.key ≠ none := by
  obtain ⟨source, -, howner⟩ := h.described identity hidentity
  intro hnone
  rw [howner.incomplete, ← howner.hasKey, hnone] at hcomplete
  cases hcomplete

/-! ## Matches by owners -/

section

variable {identities : List NormalizedExplicitIdentity}

/-- The positions of the owners that match. -/
def positionsOf (identities : List NormalizedExplicitIdentity)
    (hits : NormalizedExplicitIdentity → Bool) : List (Fin identities.length) :=
  (List.finRange identities.length).filter fun position => hits (identities.get position)

theorem mem_positionsOf {hits : NormalizedExplicitIdentity → Bool}
    {position : Fin identities.length} :
    position ∈ positionsOf identities hits ↔ hits (identities.get position) = true := by
  unfold positionsOf
  rw [List.mem_filter]
  exact and_iff_right (List.mem_finRange position)

theorem positionsOf_eq_nil_iff :
    positionsOf identities hits = [] ↔ ∀ identity ∈ identities, hits identity = false := by
  unfold positionsOf
  rw [List.filter_eq_nil_iff]
  constructor
  · intro h identity hidentity
    obtain ⟨position, rfl⟩ := List.mem_iff_get.mp hidentity
    exact Bool.eq_false_iff.mpr (h position (List.mem_finRange position))
  · intro h position _
    exact Bool.eq_false_iff.mp (h _ (List.get_mem _ _))

/-- Equal positions are equal owners. -/
theorem positionsOf_eq_iff : positionsOf identities hits = positionsOf identities hits' ↔
      ∀ identity ∈ identities, hits identity = hits' identity := by
  constructor
  · intro h identity hidentity
    obtain ⟨position, rfl⟩ := List.mem_iff_get.mp hidentity
    apply Bool.eq_iff_iff.mpr
    rw [← mem_positionsOf, ← mem_positionsOf, h]
  · intro h
    apply List.filter_congr
    intro position _
    exact h _ (List.get_mem _ _)

theorem pairwise_positionsOf (hits : NormalizedExplicitIdentity → Bool) :
    (positionsOf identities hits).Pairwise (· < ·) :=
  (List.pairwise_lt_finRange _).sublist List.filter_sublist

/-- A sorted list of the positions that match, however they were collected. -/
theorem mergeSort_eq_positionsOf {positions : List (Fin identities.length)}
    (hnodup : positions.Nodup)
    (hmem : ∀ position, position ∈ positions ↔ hits (identities.get position) = true) :
    positions.mergeSort (fun lhs rhs => lhs ≤ rhs) = positionsOf identities hits := by
  have hsorted : (positions.mergeSort fun lhs rhs => lhs ≤ rhs).Pairwise (· ≤ ·) := by
    have hpairs := @List.pairwise_mergeSort _ (fun lhs rhs : Fin identities.length =>
      decide (lhs ≤ rhs)) (fun a b c hab hbc => by simp at *; omega)
      (fun a b => by simp; omega) positions
    exact hpairs.imp fun h => of_decide_eq_true h
  have hperm : (positions.mergeSort fun lhs rhs => lhs ≤ rhs).Perm
      (positionsOf identities hits) := by
    apply (List.mergeSort_perm _ _).trans
    apply (List.perm_ext_iff_of_nodup hnodup
      ((pairwise_positionsOf hits).imp fun h => Fin.ne_of_lt h)).mpr
    intro position
    rw [hmem, mem_positionsOf]
  exact hperm.eq_of_pairwise (fun a b _ _ => Fin.le_antisymm) hsorted
    ((pairwise_positionsOf hits).imp fun h => Fin.le_of_lt h)

theorem valuesOf_map_pair {texts : List Bytes} (hnodup : texts.Nodup) (text : Bytes)
    (position : Fin identities.length) :
    valuesOf (texts.map fun own => (own, position)) text =
      if text ∈ texts then [position] else [] := by
  have hfiltered : valuesOf (texts.map fun own => (own, position)) text =
      (texts.filter fun own => own = text).map fun _ => position := by
    simp [valuesOf, List.filter_map, Function.comp_def]
  rw [hfiltered]
  by_cases hmem : text ∈ texts
  · have hone : texts.filter (fun own => own = text) = [text] := by
      rw [List.filter_eq, List.count_eq_one_of_mem hnodup hmem]
      rfl
    rw [hone, if_pos hmem]
    rfl
  · have hnone : texts.filter (fun own => own = text) = [] := by
      rw [List.filter_eq, List.count_eq_zero_of_not_mem hmem]
      rfl
    rw [hnone, if_neg hmem]
    rfl

/-- The positions under a text are those of the owners that list it. -/
theorem valuesOf_eq_positionsOf (hnodup : ∀ identity ∈ identities, (texts identity).Nodup)
    (text : Bytes) :
    valuesOf ((List.finRange identities.length).flatMap fun position =>
        (texts (identities.get position)).map fun own => (own, position)) text =
      positionsOf identities fun identity => text ∈ texts identity := by
  unfold positionsOf
  generalize List.finRange identities.length = positions
  induction positions with
  | nil => rfl
  | cons position positions ih =>
    have hsplit : ∀ first rest : List (Bytes × Fin identities.length),
        valuesOf (first ++ rest) text = valuesOf first text ++ valuesOf rest text := by
      intro first rest
      simp [valuesOf]
    rw [List.flatMap_cons, hsplit, ih, valuesOf_map_pair (hnodup _ (List.get_mem _ _)),
      List.filter_cons]
    by_cases hmem : text ∈ texts (identities.get position)
    · rw [if_pos hmem, if_pos (decide_eq_true hmem)]
      rfl
    · rw [if_neg hmem, if_neg (by simpa using hmem)]
      rfl

/-- A lookup finds the positions of the owners that list the text. -/
theorem findGroup_indexBy (hnodup : ∀ identity ∈ identities, (texts identity).Nodup) (text : Bytes)
    :
    findGroup (indexBy identities texts) text =
      if (positionsOf identities fun identity => text ∈ texts identity) = [] then none
      else some (positionsOf identities fun identity => text ∈ texts identity) := by
  cases hgroup : findGroup (indexBy identities texts) text with
  | none =>
    rw [if_pos]
    apply positionsOf_eq_nil_iff.mpr
    intro identity hidentity
    apply decide_eq_false
    intro htext
    exact not_listed_of_findGroup hgroup ⟨identity, hidentity, htext⟩
  | some positions =>
    have hvalues := (mem_group.mp (findGroup_eq_some hgroup)).2
    rw [valuesOf_eq_positionsOf hnodup] at hvalues
    rw [← hvalues, if_neg (findGroup_ne_nil hgroup)]

end

section

variable (index : ExplicitIdentityIndex)

/-- The status of a match, by the owners that match. -/
def ownerStatus (hits : NormalizedExplicitIdentity → Bool) : ExplicitMatchStatus :=
  if positionsOf index.identities hits = [] then .none
  else matchStatus index (positionsOf index.identities hits)

/-- An owner that is the only one to match, and may decide. -/
def DecidesAlone (identities : List NormalizedExplicitIdentity)
    (hits : NormalizedExplicitIdentity → Bool) (identity : NormalizedExplicitIdentity) : Prop :=
  hits identity = true ∧ identity.definitionConflict = false ∧
    identity.identityIncomplete = false ∧
    ∀ other ∈ identities, hits other = true → other.key = identity.key

theorem ownerStatus_eq_none_iff (hits : NormalizedExplicitIdentity → Bool) :
    ownerStatus index hits = .none ↔ ∀ identity ∈ index.identities, hits identity = false := by
  rw [← positionsOf_eq_nil_iff, ownerStatus]
  by_cases hempty : positionsOf index.identities hits = []
  · rw [if_pos hempty]
    exact iff_of_true rfl hempty
  · rw [if_neg hempty]
    exact iff_of_false (matchStatus_ne_none _) hempty

theorem eq_of_key_eq (h : DistinctKeys identities) {position position' : Fin identities.length}
    (hkey : (identities.get position').key = (identities.get position).key)
    (hsome : (identities.get position).key ≠ none) : position' = position := by
  by_contra hne
  rcases Nat.lt_or_gt_of_ne (Fin.val_ne_of_ne hne) with hlt | hgt
  · have hnone := List.pairwise_iff_get.mp h position' position hlt hkey
    exact absurd (hkey.symm.trans hnone) hsome
  · exact absurd (List.pairwise_iff_get.mp h position position' hgt hkey.symm) hsome

theorem isConflictingMatch_eq_false_iff (hindexed : Indexed sources index.identities)
    (hits : NormalizedExplicitIdentity → Bool) :
    isConflictingMatch index (positionsOf index.identities hits) = false ↔
      ∃ identity ∈ index.identities, DecidesAlone index.identities hits identity := by
  constructor
  · intro h
    cases hpositions : positionsOf index.identities hits with
    | nil =>
      rw [hpositions] at h
      cases h
    | cons position rest =>
      cases rest with
      | cons second rest =>
        rw [hpositions] at h
        cases h
      | nil =>
        rw [hpositions, isConflictingMatch, Bool.or_eq_false_iff] at h
        have hhits : hits (index.identities.get position) = true := by
          apply mem_positionsOf.mp
          rw [hpositions]
          exact List.mem_cons_self
        refine ⟨_, List.get_mem _ position, hhits, h.1, h.2, ?_⟩
        intro other hother hmatches
        obtain ⟨position', rfl⟩ := List.mem_iff_get.mp hother
        have hmem := mem_positionsOf.mpr hmatches
        rw [hpositions] at hmem
        rw [List.mem_singleton.mp hmem]
  · rintro ⟨identity, hidentity, hhits, hagreed, hcomplete, hothers⟩
    obtain ⟨position, rfl⟩ := List.mem_iff_get.mp hidentity
    have hsome := hindexed.key_ne_none hidentity hcomplete
    have hone : positionsOf index.identities hits = [position] := by
      apply List.perm_singleton.mp
      apply (List.perm_ext_iff_of_nodup
        ((pairwise_positionsOf hits).imp fun h => Fin.ne_of_lt h) (List.nodup_singleton _)).mpr
      intro position'
      rw [mem_positionsOf, List.mem_singleton]
      constructor
      · intro hmatches
        exact eq_of_key_eq hindexed.distinctKeys (hothers _ (List.get_mem _ _) hmatches) hsome
      · intro heq
        rw [heq]
        exact hhits
    rw [hone, isConflictingMatch, hagreed, hcomplete]
    rfl

theorem ownerStatus_eq_unique_iff (hindexed : Indexed sources index.identities)
    (hits : NormalizedExplicitIdentity → Bool) :
    ownerStatus index hits = .unique ↔
      ∃ identity ∈ index.identities, DecidesAlone index.identities hits identity := by
  rw [← isConflictingMatch_eq_false_iff index hindexed]
  unfold ownerStatus matchStatus
  by_cases hempty : positionsOf index.identities hits = []
  · rw [if_pos hempty, hempty]
    exact iff_of_false ExplicitMatchStatus.noConfusion Bool.noConfusion
  · rw [if_neg hempty]
    by_cases hconflict : isConflictingMatch index (positionsOf index.identities hits) = true
    · rw [if_pos hconflict, hconflict]
      exact iff_of_false ExplicitMatchStatus.noConfusion Bool.noConfusion
    · rw [if_neg hconflict]
      exact iff_of_true rfl (Bool.eq_false_iff.mpr hconflict)

end

/-! ## The same matches in any order -/

/-- A match that does not tell the same owners apart. -/
def RespectsOwner (hits : NormalizedExplicitIdentity → Bool) : Prop :=
  ∀ identity identity', SameOwner identity identity' → hits identity = hits identity'

theorem SameOwner.symm (h : SameOwner identity identity') : SameOwner identity' identity :=
  ⟨h.key.symm, h.incomplete.symm, h.conflict.symm, fun text => (h.names text).symm,
    fun text => (h.bases text).symm⟩

theorem SameOwners.symm (h : SameOwners identities identities') :
    SameOwners identities' identities where
  left := by
    intro identity hidentity
    obtain ⟨other, hother, hsame⟩ := h.right identity hidentity
    exact ⟨other, hother, hsame.symm⟩
  right := by
    intro identity hidentity
    obtain ⟨other, hother, hsame⟩ := h.left identity hidentity
    exact ⟨other, hother, hsame.symm⟩

/-- What holds of every owner on one side holds of every owner on the other. -/
theorem SameOwners.forall_iff (h : SameOwners identities identities')
    (P : NormalizedExplicitIdentity → Prop)
    (hrespects : ∀ identity identity', SameOwner identity identity' → (P identity ↔ P identity')) :
    (∀ identity ∈ identities, P identity) ↔ ∀ identity ∈ identities', P identity := by
  constructor
  · intro hall identity' hidentity'
    obtain ⟨identity, hidentity, hsame⟩ := h.right identity' hidentity'
    exact (hrespects _ _ hsame).mp (hall identity hidentity)
  · intro hall identity hidentity
    obtain ⟨identity', hidentity', hsame⟩ := h.left identity hidentity
    exact (hrespects _ _ hsame).mpr (hall identity' hidentity')

theorem SameOwners.decidesAlone (h : SameOwners identities identities')
    (hrespects : RespectsOwner hits)
    (hdecides : ∃ identity ∈ identities, DecidesAlone identities hits identity) :
    ∃ identity ∈ identities', DecidesAlone identities' hits identity := by
  obtain ⟨identity, hidentity, hhits, hagreed, hcomplete, hothers⟩ := hdecides
  obtain ⟨identity', hidentity', hsame⟩ := h.left identity hidentity
  refine ⟨identity', hidentity', ?_, ?_, ?_, ?_⟩
  · rw [← hrespects _ _ hsame, hhits]
  · rw [← hsame.conflict, hagreed]
  · rw [← hsame.incomplete, hcomplete]
  · rw [← hsame.key]
    apply (h.forall_iff (fun other => hits other = true → other.key = identity.key) ?_).mp hothers
    intro other other' hown
    rw [hrespects _ _ hown, hown.key]

/-- The two indexes of a plan and of its reordering. -/
structure SameIndex (index index' : ExplicitIdentityIndex) : Prop where
  owners : SameOwners index.identities index'.identities
  indexed : ∃ sources, Indexed sources index.identities
  indexed' : ∃ sources, Indexed sources index'.identities

theorem SameIndex.ownerStatus (h : SameIndex index index') (hrespects : RespectsOwner hits) :
    Plan.ownerStatus index' hits = Plan.ownerStatus index hits := by
  obtain ⟨sources, hindexed⟩ := h.indexed
  obtain ⟨sources', hindexed'⟩ := h.indexed'
  have hnone : Plan.ownerStatus index hits = .none ↔ Plan.ownerStatus index' hits = .none := by
    rw [ownerStatus_eq_none_iff, ownerStatus_eq_none_iff]
    apply h.owners.forall_iff fun identity => hits identity = false
    intro identity identity' hsame
    rw [hrespects _ _ hsame]
  have hunique : Plan.ownerStatus index hits = .unique ↔
      Plan.ownerStatus index' hits = .unique := by
    rw [ownerStatus_eq_unique_iff index hindexed, ownerStatus_eq_unique_iff index' hindexed']
    exact ⟨h.owners.decidesAlone hrespects, h.owners.symm.decidesAlone hrespects⟩
  cases hstatus : Plan.ownerStatus index hits with
  | none => exact hnone.mp hstatus
  | unique => exact hunique.mp hstatus
  | conflicting =>
    cases hstatus' : Plan.ownerStatus index' hits with
    | none =>
      rw [hnone.mpr hstatus'] at hstatus
      cases hstatus
    | unique =>
      rw [hunique.mpr hstatus'] at hstatus
      cases hstatus
    | conflicting => rfl

theorem SameIndex.positions (h : SameIndex index index') (hrespects : RespectsOwner hits)
    (hrespects' : RespectsOwner hits') :
    positionsOf index.identities hits = positionsOf index.identities hits' ↔
      positionsOf index'.identities hits = positionsOf index'.identities hits' := by
  rw [positionsOf_eq_iff, positionsOf_eq_iff]
  apply h.owners.forall_iff fun identity => hits identity = hits' identity
  intro identity identity' hsame
  rw [hrespects _ _ hsame, hrespects' _ _ hsame]

theorem sameIndex_of_mem_iff (h : ∀ source, source ∈ sources ↔ source ∈ sources') :
    SameIndex (buildExplicitIdentityIndex sources) (buildExplicitIdentityIndex sources') where
  owners := (normalizedIdentities_indexed sources).sameOwners
    (normalizedIdentities_indexed sources') h
  indexed := ⟨sources, normalizedIdentities_indexed sources⟩
  indexed' := ⟨sources', normalizedIdentities_indexed sources'⟩

/-! ## The lookups by owners -/

def nameHits (packageName : Bytes) (identity : NormalizedExplicitIdentity) : Bool :=
  packageName ≠ [] && packageName ∈ identity.packageNames

def namesHits (packageNames : List Bytes) (identity : NormalizedExplicitIdentity) : Bool :=
  packageNames.any fun packageName => nameHits packageName identity

def baseHits (packageBase : Option Bytes) (identity : NormalizedExplicitIdentity) : Bool :=
  packageBase.any fun value => value ∈ identity.claimedPackageBases

theorem respectsOwner_nameHits (packageName : Bytes) : RespectsOwner (nameHits packageName) := by
  intro identity identity' hsame
  unfold nameHits
  rw [decide_eq_decide.mpr (hsame.names packageName)]

theorem respectsOwner_namesHits (packageNames : List Bytes) :
    RespectsOwner (namesHits packageNames) := by
  intro identity identity' hsame
  unfold namesHits
  congr 1
  funext packageName
  exact respectsOwner_nameHits packageName _ _ hsame

theorem respectsOwner_baseHits (packageBase : Option Bytes) :
    RespectsOwner (baseHits packageBase) := by
  intro identity identity' hsame
  unfold baseHits
  congr 1
  funext value
  exact decide_eq_decide.mpr (hsame.bases value)

/-- The match of the owners that are hit. -/
def matchOf (index : ExplicitIdentityIndex) (hits : NormalizedExplicitIdentity → Bool) :
    ExplicitMatch index :=
  ⟨ownerStatus index hits, positionsOf index.identities hits⟩

theorem matchOf_of_no_hits (index : ExplicitIdentityIndex) (h : ∀ identity, hits identity = false) :
    matchOf index hits = {} := by
  have hempty : positionsOf index.identities hits = [] :=
    positionsOf_eq_nil_iff.mpr fun identity _ => h identity
  rw [matchOf, ownerStatus, hempty, if_pos rfl]

theorem findExplicitMatch_indexBy (index : ExplicitIdentityIndex)
    (hnodup : ∀ identity ∈ index.identities, (texts identity).Nodup) (value : Bytes) :
    findExplicitMatch index (indexBy index.identities texts) value =
      matchOf index fun identity => value ∈ texts identity := by
  unfold findExplicitMatch matchOf ownerStatus
  rw [findGroup_indexBy hnodup]
  by_cases hempty : (positionsOf index.identities fun identity => value ∈ texts identity) = []
  · rw [if_pos hempty, if_pos hempty, hempty]
  · rw [if_neg hempty, if_neg hempty]

section

variable (sources : List ExplicitSourceIdentity)

theorem packageNames_nodup : ∀ identity ∈ (buildExplicitIdentityIndex sources).identities,
    identity.packageNames.Nodup := by
  intro identity hidentity
  exact (indexed_namesNodup (normalizedIdentities_indexed sources) hidentity).1

theorem claimedPackageBases_nodup : ∀ identity ∈ (buildExplicitIdentityIndex sources).identities,
      identity.claimedPackageBases.Nodup := by
  intro identity hidentity
  exact (indexed_namesNodup (normalizedIdentities_indexed sources) hidentity).2

theorem packageNameMatch_eq (packageName : Bytes) :
    packageNameMatch (buildExplicitIdentityIndex sources) packageName =
      matchOf (buildExplicitIdentityIndex sources) (nameHits packageName) := by
  unfold packageNameMatch
  by_cases hempty : packageName = []
  · rw [if_pos hempty, matchOf_of_no_hits]
    intro identity
    simp [nameHits, hempty]
  · rw [if_neg hempty]
    have hhits : nameHits packageName = fun identity =>
        decide (packageName ∈ identity.packageNames) := by
      funext identity
      simp [nameHits, hempty]
    rw [hhits]
    exact findExplicitMatch_indexBy _ (packageNames_nodup sources) packageName

theorem packageBaseMatch_eq (packageBase : Option Bytes) :
    packageBaseMatch (buildExplicitIdentityIndex sources) packageBase =
      matchOf (buildExplicitIdentityIndex sources) (baseHits packageBase) := by
  cases packageBase with
  | none =>
    rw [matchOf_of_no_hits]
    · rfl
    · intro identity
      rfl
  | some value =>
    exact findExplicitMatch_indexBy _ (claimedPackageBases_nodup sources) value

/-- The positions found under the names are those of the owners that have one. -/
theorem mem_foldl_addPackageNameMatch_iff (packageNames : List Bytes)
    (found : List (buildExplicitIdentityIndex sources).Position × List Bytes)
    (position : (buildExplicitIdentityIndex sources).Position) :
    position ∈ (packageNames.foldl
        (addPackageNameMatch (buildExplicitIdentityIndex sources)) found).1 ↔
      position ∈ found.1 ∨ namesHits packageNames
        ((buildExplicitIdentityIndex sources).identities.get position) = true := by
  induction packageNames generalizing found with
  | nil => simp [namesHits]
  | cons first packageNames ih =>
    have hstep : position ∈ (addPackageNameMatch (buildExplicitIdentityIndex sources)
          found first).1 ↔
        position ∈ found.1 ∨ nameHits first
          ((buildExplicitIdentityIndex sources).identities.get position) = true := by
      unfold addPackageNameMatch
      by_cases hempty : first = []
      · rw [if_pos hempty]
        simp [nameHits, hempty]
      · rw [if_neg hempty]
        have hgroup := findGroup_indexBy (packageNames_nodup sources) first
        have hpositions := @mem_positionsOf (buildExplicitIdentityIndex sources).identities
          (fun identity => first ∈ identity.packageNames) position
        change findGroup (buildExplicitIdentityIndex sources).byPackageName first = _ at hgroup
        rw [hgroup]
        by_cases hnone : (positionsOf (buildExplicitIdentityIndex sources).identities
            fun identity => first ∈ identity.packageNames) = []
        · rw [if_pos hnone]
          rw [hnone] at hpositions
          have hmiss : first ∉ ((buildExplicitIdentityIndex sources).identities.get
              position).packageNames := by
            intro hmem
            exact List.not_mem_nil (hpositions.mpr (decide_eq_true hmem))
          simp only [nameHits, hmiss, decide_false, Bool.and_false, Bool.false_eq_true, or_false]
        · rw [if_neg hnone]
          dsimp only
          rw [mem_foldl_insertNew, hpositions]
          simp only [nameHits, hempty, ne_eq, not_false_eq_true, decide_true, Bool.true_and]
    rw [List.foldl_cons, ih, hstep, or_assoc]
    simp [namesHits]

theorem nodup_foldl_addPackageNameMatch (packageNames : List Bytes)
    {found : List (buildExplicitIdentityIndex sources).Position × List Bytes}
    (h : found.1.Nodup) :
    (packageNames.foldl (addPackageNameMatch (buildExplicitIdentityIndex sources))
      found).1.Nodup := by
  induction packageNames generalizing found with
  | nil => exact h
  | cons first packageNames ih =>
    rw [List.foldl_cons]
    apply ih
    unfold addPackageNameMatch
    split
    · exact h
    · split
      · exact h
      · exact nodup_foldl_insertNew _ h

theorem findExplicitPackageNameMatches_eq (packageNames : List Bytes) :
    (findExplicitPackageNameMatches (buildExplicitIdentityIndex sources) packageNames).status =
        ownerStatus (buildExplicitIdentityIndex sources) (namesHits packageNames) ∧
      (findExplicitPackageNameMatches (buildExplicitIdentityIndex sources)
          packageNames).identityIndexes =
        positionsOf (buildExplicitIdentityIndex sources).identities (namesHits packageNames) := by
  have hmem : ∀ position, position ∈ (packageNames.foldl
      (addPackageNameMatch (buildExplicitIdentityIndex sources)) ([], [])).1 ↔
        namesHits packageNames
          ((buildExplicitIdentityIndex sources).identities.get position) = true := by
    intro position
    rw [mem_foldl_addPackageNameMatch_iff]
    exact or_iff_right List.not_mem_nil
  have hnodup : (packageNames.foldl
      (addPackageNameMatch (buildExplicitIdentityIndex sources)) ([], [])).1.Nodup :=
    nodup_foldl_addPackageNameMatch sources packageNames List.nodup_nil
  have hsorted := mergeSort_eq_positionsOf hnodup hmem
  unfold findExplicitPackageNameMatches ownerStatus
  dsimp only
  rw [← hsorted]
  generalize (packageNames.foldl
    (addPackageNameMatch (buildExplicitIdentityIndex sources)) ([], [])) = found
  by_cases hempty : found.1 = []
  · rw [if_pos hempty, hempty, List.mergeSort_nil, if_pos rfl]
    exact ⟨rfl, rfl⟩
  · have hne : (found.1.mergeSort fun lhs rhs => lhs ≤ rhs) ≠ [] := by
      intro hnil
      apply hempty
      apply List.length_eq_zero_iff.mp
      rw [← @List.length_mergeSort _ (fun lhs rhs => decide (lhs ≤ rhs)) found.1, hnil]
      rfl
    rw [if_neg hempty, if_neg hne]
    exact ⟨rfl, rfl⟩

end

/-! ## Decisions -/

/-- Judgements with one verdict, both with an issue or both without. -/
structure SameJudgement {Disposition : Type} (judged judged' : Judgement Disposition) :
    Prop where
  disposition : judged.disposition = judged'.disposition
  issues : judged.issues = [] ↔ judged'.issues = []

section

variable {sources sources' : List ExplicitSourceIdentity}
  (hsources : ∀ source, source ∈ sources ↔ source ∈ sources')
include hsources

theorem nameExclusionIssues_congr (targetIndex : Nat) (target : AurTarget)
    (packageBase : Option Bytes) :
    nameExclusionIssues (buildExplicitIdentityIndex sources) targetIndex target
        (packageNameMatch _ target.packageName) (packageBaseMatch _ packageBase)
        packageBase = [] ↔
      nameExclusionIssues (buildExplicitIdentityIndex sources') targetIndex target
        (packageNameMatch _ target.packageName) (packageBaseMatch _ packageBase)
        packageBase = [] := by
  have hindex := sameIndex_of_mem_iff hsources
  have hname := respectsOwner_nameHits target.packageName
  have hbase := respectsOwner_baseHits packageBase
  have hpositions := hindex.positions hbase hname
  rw [packageNameMatch_eq, packageBaseMatch_eq, packageNameMatch_eq, packageBaseMatch_eq]
  unfold nameExclusionIssues matchOf
  dsimp only
  rw [hindex.ownerStatus hbase, ite_eq_right_iff, ite_eq_right_iff, ne_eq, ne_eq, hpositions]
  simp only [List.cons_ne_nil]

theorem judgeTarget_congr (targetIndex : Nat) (target : AurTarget) :
    SameJudgement (judgeTarget (buildExplicitIdentityIndex sources) targetIndex target)
      (judgeTarget (buildExplicitIdentityIndex sources') targetIndex target) := by
  have hindex := sameIndex_of_mem_iff hsources
  have hname := hindex.ownerStatus (respectsOwner_nameHits target.packageName)
  have hbase := hindex.ownerStatus
    (respectsOwner_baseHits (inspectIdentity target.packageBase).value)
  have hissues := nameExclusionIssues_congr hsources targetIndex target
    (inspectIdentity target.packageBase).value
  rw [packageNameMatch_eq, packageBaseMatch_eq, packageNameMatch_eq, packageBaseMatch_eq] at hissues
  unfold judgeTarget
  dsimp only
  rw [packageNameMatch_eq, packageBaseMatch_eq, packageNameMatch_eq, packageBaseMatch_eq]
  dsimp only [matchOf] at hissues ⊢
  rw [hname, hbase] at hissues ⊢
  generalize ownerStatus (buildExplicitIdentityIndex sources)
    (nameHits target.packageName) = nameStatus at *
  cases nameStatus with
  | conflicting => exact ⟨rfl, Iff.rfl⟩
  | unique => exact ⟨rfl, hissues⟩
  | none =>
    generalize ownerStatus (buildExplicitIdentityIndex sources)
      (baseHits (inspectIdentity target.packageBase).value) = baseStatus at *
    cases baseStatus with
    | conflicting => exact ⟨rfl, Iff.rfl⟩
    | unique => exact ⟨rfl, Iff.rfl⟩
    | none => exact ⟨rfl, Iff.rfl⟩

theorem namesMatchSameIdentity_congr (packageNames : List Bytes) (packageBase : Option Bytes) :
    namesMatchSameIdentity (buildExplicitIdentityIndex sources)
        (findExplicitPackageNameMatches _ packageNames) (packageBaseMatch _ packageBase) =
      namesMatchSameIdentity (buildExplicitIdentityIndex sources')
        (findExplicitPackageNameMatches _ packageNames) (packageBaseMatch _ packageBase) := by
  have hindex := sameIndex_of_mem_iff hsources
  have hnames := respectsOwner_namesHits packageNames
  have hpositions := hindex.positions hnames (respectsOwner_baseHits packageBase)
  unfold namesMatchSameIdentity
  rw [packageBaseMatch_eq, packageBaseMatch_eq,
    (findExplicitPackageNameMatches_eq sources packageNames).1,
    (findExplicitPackageNameMatches_eq sources packageNames).2,
    (findExplicitPackageNameMatches_eq sources' packageNames).1,
    (findExplicitPackageNameMatches_eq sources' packageNames).2, hindex.ownerStatus hnames]
  congr 2
  exact decide_eq_decide.mpr hpositions

omit hsources in
/-- Names that conflict are an issue, whatever they conflict with. -/
theorem nameConflict_same {packageNames packageNames' : List Bytes}
    (h : (findExplicitPackageNameMatches (buildExplicitIdentityIndex sources)
      packageNames).status ≠ .none)
    (h' : (findExplicitPackageNameMatches (buildExplicitIdentityIndex sources')
      packageNames').status ≠ .none)
    {conflicting : List (buildExplicitIdentityIndex sources).Position}
    {conflicting' : List (buildExplicitIdentityIndex sources').Position}
    {affected : List Nat} {buildUnitIndex : Nat} {packageBase : Option Bytes} :
    SameJudgement
      (nameConflict _ (findExplicitPackageNameMatches _ packageNames) conflicting affected
        buildUnitIndex packageBase)
      (nameConflict _ (findExplicitPackageNameMatches _ packageNames') conflicting' affected
        buildUnitIndex packageBase) where
  disposition := rfl
  issues := iff_of_false
    (nameConflict_issues (findExplicitPackageNameMatches_names h))
    (nameConflict_issues (findExplicitPackageNameMatches_names h'))

omit hsources in
theorem names_ne_none_of_not_same {nameMatches : ExplicitPackageNameMatches index}
    {baseMatch : ExplicitMatch index}
    (h : namesMatchSameIdentity index nameMatches baseMatch = false) :
    nameMatches.status ≠ .none := by
  intro hnone
  unfold namesMatchSameIdentity at h
  rw [hnone] at h
  cases h

theorem judgeBuildUnit_congr (correlation : RootCorrelation) (buildUnitIndex : Nat)
    (buildUnit : AurBuildUnit) :
    SameJudgement
      (judgeBuildUnit (buildExplicitIdentityIndex sources) correlation buildUnitIndex buildUnit)
      (judgeBuildUnit (buildExplicitIdentityIndex sources') correlation buildUnitIndex
        buildUnit) := by
  have hindex := sameIndex_of_mem_iff hsources
  have hbase : (packageBaseMatch (buildExplicitIdentityIndex sources')
      (inspectIdentity buildUnit.packageBase).value).status =
        (packageBaseMatch (buildExplicitIdentityIndex sources)
          (inspectIdentity buildUnit.packageBase).value).status := by
    rw [packageBaseMatch_eq, packageBaseMatch_eq]
    exact hindex.ownerStatus (respectsOwner_baseHits _)
  have hnames : (findExplicitPackageNameMatches (buildExplicitIdentityIndex sources')
      buildUnit.packageNames).status =
        (findExplicitPackageNameMatches (buildExplicitIdentityIndex sources)
          buildUnit.packageNames).status := by
    rw [(findExplicitPackageNameMatches_eq _ _).1, (findExplicitPackageNameMatches_eq _ _).1]
    exact hindex.ownerStatus (respectsOwner_namesHits _)
  have hsameIdentity := namesMatchSameIdentity_congr hsources buildUnit.packageNames
    (inspectIdentity buildUnit.packageBase).value
  unfold judgeBuildUnit
  dsimp only
  rw [hbase, hnames, ← hsameIdentity]
  generalize hstatus : (packageBaseMatch (buildExplicitIdentityIndex sources)
    (inspectIdentity buildUnit.packageBase).value).status = status
  cases status with
  | conflicting => exact ⟨rfl, Iff.rfl⟩
  | unique =>
    dsimp only
    by_cases hsame : namesMatchSameIdentity (buildExplicitIdentityIndex sources)
        (findExplicitPackageNameMatches _ buildUnit.packageNames)
        (packageBaseMatch _ (inspectIdentity buildUnit.packageBase).value) = false
    · rw [if_pos hsame, if_pos hsame]
      have hmatched := names_ne_none_of_not_same hsame
      apply nameConflict_same hmatched
      rw [hnames]
      exact hmatched
    · rw [if_neg hsame, if_neg hsame]
      exact ⟨rfl, Iff.rfl⟩
  | none =>
    dsimp only
    split
    · exact ⟨rfl, Iff.rfl⟩
    · split
      · rename_i hmatched
        apply nameConflict_same hmatched.2
        rw [hnames]
        exact hmatched.2
      · exact ⟨rfl, Iff.rfl⟩

/-! ## Issues of the index -/

omit hsources in
theorem identityIssues_eq_nil_iff {absent failed empty : PlanningIssueKind}
    {report : PlanningIssueKind → PlanningIssue} {view : IdentityView} :
    identityIssues absent failed empty report view = [] ↔ view.value ≠ none := by
  constructor
  · exact value_of_identityIssues
  · intro h
    cases view with
    | resolved value => rfl
    | absent => exact absurd rfl h
    | resolutionFailed => exact absurd rfl h
    | emptyResolvedValue => exact absurd rfl h

omit hsources in
/-- Whether a source has an issue does not depend on where it stands. -/
theorem explicitSourceIssues_eq_nil_iff (source : ExplicitSourceIdentity) (sourceIndex : Nat) :
    explicitSourceIssues (source, sourceIndex) = [] ↔ explicitSourceIssues (source, 0) = [] := by
  unfold explicitSourceIssues explicitPackageBaseIssues explicitSourceIdentityIssues
  simp only [List.append_eq_nil_iff, identityIssues_eq_nil_iff, List.map_eq_nil_iff,
    ite_eq_right_iff, List.cons_ne_nil]

omit hsources in
theorem explicitSourceIssues_nil_iff : sources.zipIdx.flatMap explicitSourceIssues = [] ↔
      ∀ source ∈ sources, explicitSourceIssues (source, 0) = [] := by
  rw [List.flatMap_eq_nil_iff]
  constructor
  · intro h source hsource
    obtain ⟨position, hposition⟩ := List.mem_iff_getElem?.mp hsource
    have hentry := h (source, position) (List.mem_zipIdx_iff_getElem?.mpr hposition)
    exact (explicitSourceIssues_eq_nil_iff source position).mp hentry
  · intro h entry hentry
    exact (explicitSourceIssues_eq_nil_iff entry.1 entry.2).mpr
      (h entry.1 (List.fst_mem_of_mem_zipIdx hentry))

omit hsources in
/-- No group conflicts when no text does. -/
theorem groups_agree_iff (index : ExplicitIdentityIndex)
    (hnodup : ∀ identity ∈ index.identities, (texts identity).Nodup) :
    (∀ entry ∈ indexBy index.identities texts, isConflictingMatch index entry.2 = false) ↔
      ∀ text, ownerStatus index (fun identity => text ∈ texts identity) ≠ .conflicting := by
  constructor
  · intro h text hconflict
    have hgroup := findGroup_indexBy hnodup text
    unfold ownerStatus at hconflict
    by_cases hempty : (positionsOf index.identities fun identity => text ∈ texts identity) = []
    · rw [if_pos hempty] at hconflict
      cases hconflict
    · rw [if_neg hempty] at hconflict hgroup
      unfold matchStatus at hconflict
      rw [h _ (findGroup_eq_some hgroup)] at hconflict
      cases hconflict
  · intro h entry hentry
    obtain ⟨text, positions⟩ := entry
    obtain ⟨hkey, hvalues⟩ := mem_group.mp hentry
    obtain ⟨pair, hpair, hown⟩ := List.mem_map.mp hkey
    have hmem : pair.2 ∈ positions := by
      rw [hvalues, ← hown]
      exact mem_valuesOf.mpr hpair
    rw [valuesOf_eq_positionsOf hnodup] at hvalues
    rw [hvalues] at hmem ⊢
    have hstatus := h text
    unfold ownerStatus at hstatus
    rw [if_neg (List.ne_nil_of_mem hmem), matchStatus] at hstatus
    apply Bool.of_not_eq_true
    intro hconflict
    exact hstatus (if_pos hconflict)

theorem explicitIdentityIssues_congr :
    explicitIdentityIssues sources (buildExplicitIdentityIndex sources) = [] ↔
      explicitIdentityIssues sources' (buildExplicitIdentityIndex sources') = [] := by
  have hindex := sameIndex_of_mem_iff hsources
  have hdefinitions := hindex.owners.forall_iff (fun identity => ¬ identity.definitionConflict = true)
    (fun identity identity' hsame => by rw [hsame.conflict])
  have hnames : (∀ entry ∈ (buildExplicitIdentityIndex sources).byPackageName,
        isConflictingMatch _ entry.2 = false) ↔
      ∀ entry ∈ (buildExplicitIdentityIndex sources').byPackageName,
        isConflictingMatch _ entry.2 = false := by
    have hgroups := groups_agree_iff _ (packageNames_nodup sources)
    have hgroups' := groups_agree_iff _ (packageNames_nodup sources')
    refine hgroups.trans (Iff.trans ?_ hgroups'.symm)
    apply forall_congr'
    intro text
    rw [hindex.ownerStatus]
    intro identity identity' hsame
    exact decide_eq_decide.mpr (hsame.names text)
  have hbases : (∀ entry ∈ (buildExplicitIdentityIndex sources).byPackageBase,
        isConflictingMatch _ entry.2 = false) ↔
      ∀ entry ∈ (buildExplicitIdentityIndex sources').byPackageBase,
        isConflictingMatch _ entry.2 = false := by
    have hgroups := groups_agree_iff _ (claimedPackageBases_nodup sources)
    have hgroups' := groups_agree_iff _ (claimedPackageBases_nodup sources')
    refine hgroups.trans (Iff.trans ?_ hgroups'.symm)
    apply forall_congr'
    intro text
    rw [hindex.ownerStatus]
    intro identity identity' hsame
    exact decide_eq_decide.mpr (hsame.bases text)
  unfold explicitIdentityIssues
  simp only [List.append_eq_nil_iff, List.map_eq_nil_iff, List.filter_eq_nil_iff,
    explicitSourceIssues_nil_iff, hsources, hdefinitions]
  simp only [Bool.not_eq_true, hnames, hbases]

end

/-! ## The plan in any order -/

def targetVerdict (entry : TargetPlanEntry) : Nat × AurTarget × TargetDisposition :=
  (entry.originalTargetIndex, entry.target, entry.disposition)

def buildUnitVerdict (entry : BuildUnitPlanEntry) :
    Nat × AurBuildUnit × BuildUnitDisposition :=
  (entry.originalBuildPlanIndex, entry.buildUnit, entry.disposition)

/-- Plans with one disposition for each target and each build unit, both with
an issue or both without. -/
structure SameVerdicts (plan plan' : UpgradeAllPlan) : Prop where
  targets : plan.targetDispositions.map targetVerdict =
    plan'.targetDispositions.map targetVerdict
  buildUnits : plan.buildUnitDispositions.map buildUnitVerdict =
    plan'.buildUnitDispositions.map buildUnitVerdict
  issues : plan.issues = [] ↔ plan'.issues = []

theorem flatMap_eq_nil_congr {α β γ : Type} {f : α → List β} {g : α → List γ}
    (h : ∀ item, f item = [] ↔ g item = []) (items : List α) :
    items.flatMap f = [] ↔ items.flatMap g = [] := by
  rw [List.flatMap_eq_nil_iff, List.flatMap_eq_nil_iff]
  exact forall₂_congr fun item _ => h item

theorem selectedPairs_of_verdicts {entries entries' : List BuildUnitPlanEntry}
    (h : entries.map buildUnitVerdict = entries'.map buildUnitVerdict) :
    selectedPairs entries = selectedPairs entries' := by
  have hverdicts : ∀ items : List BuildUnitPlanEntry, selectedPairs items =
      ((items.map buildUnitVerdict).zipIdx.filter fun entry =>
        entry.1.2.2 = .selectedForAurExecution).map fun entry =>
          (baseOf entry.1.2.1.packageBase, entry.2) := by
    intro items
    rw [List.zipIdx_map, List.filter_map, List.map_map]
    rfl
  rw [hverdicts, hverdicts, h]

/-- Revoking entries of one verdict leaves them of one verdict. -/
theorem verdict_revoked (rejected : Prop) [Decidable rejected]
    {entry entry' : Option BuildUnitPlanEntry}
    (h : entry.map buildUnitVerdict = entry'.map buildUnitVerdict) :
    (entry.map fun entry => if rejected then revokeEntry entry else entry).map
        buildUnitVerdict =
      (entry'.map fun entry => if rejected then revokeEntry entry else entry).map
        buildUnitVerdict := by
  by_cases hrejected : rejected
  · have hrevoked : ∀ entry : Option BuildUnitPlanEntry,
        (entry.map revokeEntry).map buildUnitVerdict =
          (entry.map buildUnitVerdict).map fun verdict =>
            (verdict.1, verdict.2.1, .conflictingSelectedPackageBase) := by
      intro entry
      rw [Option.map_map, Option.map_map]
      rfl
    simp only [if_pos hrejected]
    rw [hrevoked, hrevoked, h]
  · simp only [if_neg hrejected, Option.map_id']
    exact h

section

variable {sources sources' : List ExplicitSourceIdentity} {targets : List AurTarget}
  (units : List AurBuildUnit) {targetPlan targetPlan' plan plan' : UpgradeAllPlan}
  (hsources : ∀ source, source ∈ sources ↔ source ∈ sources')
  (htargets : TargetsPlanned sources targets targetPlan)
  (htargets' : TargetsPlanned sources' targets targetPlan')
include hsources htargets htargets'

omit htargets htargets' in
theorem targetEntries_verdicts : (targetEntries sources targets).map targetVerdict =
      (targetEntries sources' targets).map targetVerdict := by
  unfold targetEntries
  rw [List.map_map, List.map_map]
  apply List.map_congr_left
  intro entry _
  have hsame := (judgeTarget_congr hsources entry.2 entry.1).disposition
  simp only [Function.comp_apply, targetVerdict, targetEntry, hsame]

theorem targets_verdicts : targetPlan.targetDispositions.map targetVerdict =
      targetPlan'.targetDispositions.map targetVerdict := by
  have hmark : ∀ entry number, targetVerdict (numberTarget entry number) = targetVerdict entry :=
    fun _ _ => rfl
  rw [htargets.targetDispositions, htargets'.targetDispositions, map_marked hmark, map_marked hmark]
  exact targetEntries_verdicts hsources

/-- The numbers of the selected targets are the same too. -/
theorem originalToSelectedIndex_eq :
    targetPlan.originalToSelectedIndex = targetPlan'.originalToSelectedIndex := by
  rw [htargets.originalToSelectedIndex, htargets'.originalToSelectedIndex]
  apply numbers_congr
  have hpicked : ∀ entries : List TargetPlanEntry, entries.map targetEntryIsSelected =
      (entries.map targetVerdict).map fun verdict => decide (verdict.2.2 = .selected) := by
    intro entries
    rw [List.map_map]
    rfl
  rw [hpicked, hpicked, targetEntries_verdicts hsources]

theorem targetPlan_issues : targetPlan.issues = [] ↔ targetPlan'.issues = [] := by
  rw [htargets.issues, htargets'.issues, List.append_eq_nil_iff, List.append_eq_nil_iff]
  apply and_congr
  · exact explicitIdentityIssues_congr hsources
  · apply flatMap_eq_nil_congr
    intro entry
    rw [List.append_eq_nil_iff, List.append_eq_nil_iff]
    exact and_congr_right fun _ => (judgeTarget_congr hsources entry.2 entry.1).issues

theorem correlateRoots_eq (buildUnitIndex : Nat) (attributions : List BuildUnitRootAttribution) :
    correlateRoots targetPlan buildUnitIndex attributions =
      correlateRoots targetPlan' buildUnitIndex attributions := by
  have hlength : targetPlan.targetDispositions.length = targetPlan'.targetDispositions.length := by
    have hverdicts := congrArg List.length (targets_verdicts hsources htargets htargets')
    rw [List.length_map, List.length_map] at hverdicts
    exact hverdicts
  unfold correlateRoots
  rw [hlength, originalToSelectedIndex_eq hsources htargets htargets']

theorem unitEntries_verdicts : (unitEntries targetPlan units).map buildUnitVerdict =
      (unitEntries targetPlan' units).map buildUnitVerdict := by
  unfold unitEntries
  rw [List.map_map, List.map_map, htargets.explicitSources, htargets'.explicitSources]
  apply List.map_congr_left
  intro entry _
  have hsame := (judgeBuildUnit_congr hsources
    (correlateRoots targetPlan' entry.2 entry.1.rootAttributions) entry.2 entry.1).disposition
  simp only [Function.comp_apply, buildUnitVerdict, plannedUnit, buildUnitEntry,
    correlateRoots_eq hsources htargets htargets', hsame]

theorem selectedGroups_eq : selectedGroups targetPlan units = selectedGroups targetPlan' units := by
  unfold selectedGroups
  rw [selectedPairs_of_verdicts (unitEntries_verdicts units hsources htargets htargets')]

theorem unitIssues_congr : units.zipIdx.flatMap (buildUnitIssues
        (buildExplicitIdentityIndex targetPlan.explicitSources) targetPlan) = [] ↔
      units.zipIdx.flatMap (buildUnitIssues
        (buildExplicitIdentityIndex targetPlan'.explicitSources) targetPlan') = [] := by
  apply flatMap_eq_nil_congr
  intro entry
  unfold buildUnitIssues
  dsimp only
  rw [htargets.explicitSources, htargets'.explicitSources,
    correlateRoots_eq hsources htargets htargets']
  refine List.append_eq_nil_iff.trans (Iff.trans ?_ List.append_eq_nil_iff.symm)
  exact and_congr_right fun _ => (judgeBuildUnit_congr hsources _ entry.2 entry.1).issues

theorem units_sameVerdicts {rejected rejected' : List BuildUnitPlanEntry}
    (hunits : UnitsPlanned targetPlan units plan rejected)
    (hjudged : UnitsJudged targetPlan units plan rejected)
    (hunits' : UnitsPlanned targetPlan' units plan' rejected')
    (hjudged' : UnitsJudged targetPlan' units plan' rejected') : SameVerdicts plan plan' := by
  have hgroups := selectedGroups_eq units hsources htargets htargets'
  have hentries := unitEntries_verdicts units hsources htargets htargets'
  constructor
  case targets =>
    rw [hunits.sameTargets.targetDispositions, hunits'.sameTargets.targetDispositions]
    exact targets_verdicts hsources htargets htargets'
  case buildUnits =>
    have hmark : ∀ entry number,
        buildUnitVerdict (numberUnit entry number) = buildUnitVerdict entry := fun _ _ => rfl
    rw [hunits.entries, hunits'.entries, map_marked hmark, map_marked hmark]
    apply List.ext_getElem?
    intro i
    have hentry := congrArg (fun verdicts => verdicts[i]?) hentries
    rw [List.getElem?_map, List.getElem?_map] at hentry ⊢
    rw [hjudged.revoked, hjudged'.revoked, hgroups]
    exact verdict_revoked _ hentry
  case issues =>
    rw [hjudged.issues, hjudged'.issues, hgroups, targetPlan_issues hsources htargets htargets',
      unitIssues_congr units hsources htargets htargets']

end

/-- The explicit sources may be given in any order. -/
theorem makeUpgradeAllPlan_perm {sources sources' : List ExplicitSourceIdentity}
    (h : sources.Perm sources') (targets : List AurTarget) (units : List AurBuildUnit) :
    ∃ plan plan', makeUpgradeAllPlan ⟨sources, targets, units⟩ = .ok plan ∧
      makeUpgradeAllPlan ⟨sources', targets, units⟩ = .ok plan' ∧ SameVerdicts plan plan' := by
  obtain ⟨targetPlan, htargetPlan, htargets⟩ := makeUpgradeAllTargetPlan_ok sources targets
  obtain ⟨targetPlan', htargetPlan', htargets'⟩ := makeUpgradeAllTargetPlan_ok sources' targets
  obtain ⟨plan, rejected, hplan, hunits, hjudged⟩ :=
    completeUpgradeAllBuildUnitPlan_run htargets units
  obtain ⟨plan', rejected', hplan', hunits', hjudged'⟩ :=
    completeUpgradeAllBuildUnitPlan_run htargets' units
  refine ⟨plan, plan', ?_, ?_, ?_⟩
  · unfold makeUpgradeAllPlan
    rw [htargetPlan, bind_of_ok rfl]
    exact hplan
  · unfold makeUpgradeAllPlan
    rw [htargetPlan', bind_of_ok rfl]
    exact hplan'
  · exact units_sameVerdicts units (fun _ => h.mem_iff) htargets htargets' hunits hjudged hunits'
      hjudged'

/-- Two sources with one key and two package bases, either of which may leave the
signature. -/
theorem makeUpgradeAllPlan_perm_swap :
    ∃ plan plan',
      makeUpgradeAllPlan
        { explicitSources :=
            [⟨[97], .resolved [97], [], .resolved [107]⟩,
              ⟨[98], .resolved [98], [], .resolved [107]⟩]
          aurTargets := [{ packageName := [97], packageBase := .resolved [97] }]
          buildUnits := [] } = .ok plan ∧
      makeUpgradeAllPlan
        { explicitSources :=
            [⟨[98], .resolved [98], [], .resolved [107]⟩,
              ⟨[97], .resolved [97], [], .resolved [107]⟩]
          aurTargets := [{ packageName := [97], packageBase := .resolved [97] }]
          buildUnits := [] } = .ok plan' ∧
      SameVerdicts plan plan' :=
  makeUpgradeAllPlan_perm (List.Perm.swap _ _ _) _ _

end Moguet.Upgrade.Plan
