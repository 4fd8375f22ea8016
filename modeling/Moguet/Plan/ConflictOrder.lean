import Mathlib.Data.List.Dedup
import Moguet.Plan.ConflictSoundness

/-!
# Conflicts that depend on the order

The projection keeps whatever its scan meets in a good moment, so the order of
the requirements may decide. It does not exactly when all equalities agree on
their verdict, or cannot be put into an order without a difference between two
neighbours, and when all bounds that some order keeps agree.
-/

namespace Moguet.Plan.ConflictOrder

open Verified.ByteString Verified.BaseRelease Constraint ConflictProjection ConflictSoundness

/-! ## Orders of what is selected -/

/-- An order of the selected values comes from an order of the items. -/
theorem exists_perm_filterMap {α β : Type*} {select : α → Option β} :
    ∀ {row : List β} {items : List α}, row.Perm (items.filterMap select) →
      ∃ items' : List α, items'.Perm items ∧ items'.filterMap select = row := by
  intro row
  induction row with
  | nil =>
    intro items h
    exact ⟨items, List.Perm.refl _, h.symm.eq_nil⟩
  | cons value rest ih =>
    intro items h
    obtain ⟨item, hitem, hvalue⟩ := List.mem_filterMap.mp (h.subset List.mem_cons_self)
    obtain ⟨front, back, hsplit⟩ := List.append_of_mem hitem
    have hmiddle : (value :: rest).Perm (value :: (front ++ back).filterMap select) := by
      refine h.trans ?_
      rw [hsplit, List.filterMap_append, List.filterMap_cons_some hvalue, List.filterMap_append]
      exact List.perm_middle
    obtain ⟨items', hperm, hselected⟩ := ih hmiddle.cons_inv
    refine ⟨item :: items', ?_, ?_⟩
    · rw [hsplit]
      exact (hperm.cons item).trans List.perm_middle.symm
    · rw [List.filterMap_cons_some hvalue, hselected]

section Places

variable {κ ρ : Type} [LinearOrder κ] [LinearOrder ρ]

omit [LinearOrder κ] [LinearOrder ρ] in
theorem upperOf_of_lowerOf {other : Required κ ρ} (h : (lowerOf other).isSome = true) :
    upperOf other = none := by
  unfold lowerOf at h
  unfold upperOf
  split at h <;> rename_i hrelation
  · rw [hrelation]
  · rw [hrelation]
  · cases h

omit [LinearOrder κ] [LinearOrder ρ] in
/-- Lower and upper bounds are put into an order of their own. -/
theorem exists_perm_bounds {required : List (Required κ ρ)} {lowerRow : List (Bound κ ρ)}
    {upperRow : List (Bound κᵒᵈ ρᵒᵈ)} (hlower : lowerRow.Perm (lowers required))
    (hupper : upperRow.Perm (uppers required)) :
    ∃ row, row.Perm required ∧ lowers row = lowerRow ∧ uppers row = upperRow := by
  let first := required.filter fun other => (lowerOf other).isSome
  let second := required.filter fun other => !(lowerOf other).isSome
  have hparts : (first ++ second).Perm required :=
    List.filter_append_perm (fun other => (lowerOf other).isSome) required
  have hsecondLowers : ∀ {row : List (Required κ ρ)}, row.Perm second → lowers row = [] := by
    intro row hrow
    apply List.filterMap_eq_nil_iff.mpr
    intro other hmem
    have hother := (List.mem_filter.mp (hrow.subset hmem)).2
    simpa using hother
  have hfirstUppers : ∀ {row : List (Required κ ρ)}, row.Perm first → uppers row = [] := by
    intro row hrow
    apply List.filterMap_eq_nil_iff.mpr
    intro other hmem
    exact upperOf_of_lowerOf (List.mem_filter.mp (hrow.subset hmem)).2
  have hlowers : (lowers required).Perm (lowers first) := by
    have hperm := (hparts.filterMap lowerOf).symm
    rw [List.filterMap_append] at hperm
    have hnil := hsecondLowers (List.Perm.refl second)
    unfold lowers at hnil
    rw [hnil, List.append_nil] at hperm
    exact hperm
  have huppers : (uppers required).Perm (uppers second) := by
    have hperm := (hparts.filterMap upperOf).symm
    rw [List.filterMap_append] at hperm
    have hnil := hfirstUppers (List.Perm.refl first)
    unfold uppers at hnil
    rw [hnil, List.nil_append] at hperm
    exact hperm
  obtain ⟨firstRow, hfirst, hfirstLowers⟩ := exists_perm_filterMap (hlower.trans hlowers)
  obtain ⟨secondRow, hsecond, hsecondUppers⟩ := exists_perm_filterMap (hupper.trans huppers)
  refine ⟨firstRow ++ secondRow, (hfirst.append hsecond).trans hparts, ?_, ?_⟩
  · have hnil := hsecondLowers hsecond
    unfold lowers at hnil ⊢
    rw [List.filterMap_append, hnil, List.append_nil]
    exact hfirstLowers
  · have hnil := hfirstUppers hfirst
    unfold uppers at hnil ⊢
    rw [List.filterMap_append, hnil, List.nil_append]
    exact hsecondUppers

/-! ## Bounds -/

theorem survives_perm {κ' ρ' : Type} [LinearOrder κ'] [LinearOrder ρ']
    {bounds row : List (Bound κ' ρ')} {last : Bound κ' ρ'} (hperm : row.Perm bounds)
    (h : Survives row last) : Survives bounds last := by
  have hmem : ∀ {bound : Bound κ' ρ'}, bound ∈ bounds → bound ∈ row := fun hbound =>
    hperm.symm.subset hbound
  refine ⟨hperm.subset h.mem, ?_, ?_, ?_, ?_⟩
  · intro bound hbound
    exact h.base bound (hmem hbound)
  · intro bound hbound hbase hstrict hrelease
    exact (h.bareStrict bound (hmem hbound) hbase hstrict hrelease).mono hperm.subset
  · intro bound hbound
    exact h.strictRelease bound (hmem hbound)
  · intro bound hbound hbase release hrelease
    rcases h.anyRelease bound (hmem hbound) hbase release hrelease with
      hkept | hkept | ⟨hveil, bare, hbare, hrest⟩
    · exact Or.inl hkept
    · exact Or.inr (Or.inl hkept)
    · refine Or.inr (Or.inr ⟨?_, bare, hperm.subset hbare, hrest⟩)
      exact hveil.imp id (Unveiled.mono hperm.subset)

/-- All lower and upper bounds that some order keeps agree on whether they
exclude each other. -/
def BoundsAgree (required : List (Required κ ρ)) : Prop :=
  ∀ lower lower' upper upper', Survives (lowers required) lower →
    Survives (lowers required) lower' → Survives (uppers required) upper →
    Survives (uppers required) upper' → excludes lower upper = excludes lower' upper'

def KeptExclude (required : List (Required κ ρ)) : Prop :=
  ∃ lower upper, kept (lowers required) = some lower ∧ kept (uppers required) = some upper ∧
    excludes lower upper = true

/-- The kept bounds of one order exclude each other when those of another do. -/
theorem keptExclude_of_agree {required row row' : List (Required κ ρ)}
    (h : BoundsAgree required) (hperm : row.Perm required) (hperm' : row'.Perm required)
    (hexclude : KeptExclude row) : KeptExclude row' := by
  obtain ⟨lower, upper, hlower, hupper, hexcludes⟩ := hexclude
  have hlowerMem := (kept_survives hlower).mem
  have hupperMem := (kept_survives hupper).mem
  have hback : row.Perm row' := hperm.trans hperm'.symm
  cases hlower' : kept (lowers row') with
  | none =>
    have hmem := (hback.filterMap lowerOf).subset hlowerMem
    have hnil := kept_eq_none_iff.mp hlower'
    unfold lowers at hnil
    rw [hnil] at hmem
    cases hmem
  | some lower' =>
    cases hupper' : kept (uppers row') with
    | none =>
      have hmem := (hback.filterMap upperOf).subset hupperMem
      have hnil := kept_eq_none_iff.mp hupper'
      unfold uppers at hnil
      rw [hnil] at hmem
      cases hmem
    | some upper' =>
      refine ⟨lower', upper', hlower', hupper', ?_⟩
      rw [← hexcludes]
      exact (h lower lower' upper upper'
        (survives_perm (hperm.filterMap lowerOf) (kept_survives hlower))
        (survives_perm (hperm'.filterMap lowerOf) (kept_survives hlower'))
        (survives_perm (hperm.filterMap upperOf) (kept_survives hupper))
        (survives_perm (hperm'.filterMap upperOf) (kept_survives hupper'))).symm

/-- Without agreement two orders differ. -/
theorem agree_of_keptExclude {required : List (Required κ ρ)}
    (h : ∀ row row' : List (Required κ ρ), row.Perm required → row'.Perm required →
      KeptExclude row → KeptExclude row') : BoundsAgree required := by
  have hrow : ∀ {lower upper}, Survives (lowers required) lower →
      Survives (uppers required) upper → ∃ row : List (Required κ ρ), row.Perm required ∧
        (KeptExclude row ↔ excludes lower upper = true) := by
    intro lower upper hlower hupper
    obtain ⟨lowerRow, hlowerPerm, hlowerKept⟩ := exists_kept_of_survives hlower
    obtain ⟨upperRow, hupperPerm, hupperKept⟩ := exists_kept_of_survives hupper
    obtain ⟨row, hperm, hlowers, huppers⟩ := exists_perm_bounds hlowerPerm hupperPerm
    refine ⟨row, hperm, ?_⟩
    unfold KeptExclude
    rw [hlowers, huppers, hlowerKept, hupperKept]
    simp
  have himp : ∀ {lower lower' upper upper'}, Survives (lowers required) lower →
      Survives (lowers required) lower' → Survives (uppers required) upper →
      Survives (uppers required) upper' → excludes lower upper = true →
      excludes lower' upper' = true := by
    intro lower lower' upper upper' hlower hlower' hupper hupper' hexcludes
    obtain ⟨row, hperm, hiff⟩ := hrow hlower hupper
    obtain ⟨row', hperm', hiff'⟩ := hrow hlower' hupper'
    exact hiff'.mp (h row row' hperm hperm' (hiff.mpr hexcludes))
  intro lower lower' upper upper' hlower hlower' hupper hupper'
  apply Bool.eq_iff_iff.mpr
  exact ⟨himp hlower hlower' hupper hupper', himp hlower' hlower hupper' hupper⟩

/-! ## Equalities in a row -/

def bareCount (row : List (Version κ ρ)) : Nat := row.countP fun version => version.release.isNone

/-- The number of different releases. -/
def releaseCount (row : List (Version κ ρ)) : Nat :=
  (row.filterMap Version.release).dedup.length

/-- One more release may be counted when the last version carries one. -/
def openEnd (row : List (Version κ ρ)) : Nat :=
  match row.getLast? with
  | some last => if last.release.isSome then 1 else 0
  | none => 0

omit [LinearOrder κ] in
theorem releaseCount_cons_none {version : Version κ ρ} (h : version.release = none)
    (row : List (Version κ ρ)) : releaseCount (version :: row) = releaseCount row := by
  unfold releaseCount
  rw [List.filterMap_cons_none h]

omit [LinearOrder κ] in
theorem releaseCount_cons_le (version : Version κ ρ) (row : List (Version κ ρ)) :
    releaseCount (version :: row) ≤ releaseCount row + 1 := by
  unfold releaseCount
  cases h : version.release with
  | none =>
    rw [List.filterMap_cons_none h]
    omega
  | some release =>
    rw [List.filterMap_cons_some h]
    by_cases hmem : release ∈ row.filterMap Version.release
    · rw [List.dedup_cons_of_mem hmem]
      omega
    · rw [List.dedup_cons_of_notMem hmem, List.length_cons]

omit [LinearOrder κ] in
theorem releaseCount_cons_mem {version : Version κ ρ} {release : ρ}
    (h : version.release = some release) {row : List (Version κ ρ)}
    (hmem : release ∈ row.filterMap Version.release) :
    releaseCount (version :: row) = releaseCount row := by
  unfold releaseCount
  rw [List.filterMap_cons_some h, List.dedup_cons_of_mem hmem]

omit [LinearOrder κ] [LinearOrder ρ] in
theorem openEnd_cons_cons (first second : Version κ ρ) (row : List (Version κ ρ)) :
    openEnd (first :: second :: row) = openEnd (second :: row) := by
  unfold openEnd
  rw [List.getLast?_cons_cons]

/-- A first version without a release keeps nothing apart. -/
def bareHead (row : List (Version κ ρ)) : Nat :=
  match row.head? with
  | some first => if first.release.isNone then 1 else 0
  | none => 0

omit [LinearOrder κ] in
/-- Different releases in a row are kept apart by versions without one. -/
theorem releaseCount_add_le {row : List (Version κ ρ)} :
    row.IsChain SameRelease → releaseCount row + bareHead row ≤ bareCount row + openEnd row := by
  induction row with
  | nil =>
    intro _
    exact Nat.le_refl _
  | cons first rest ih =>
    intro hchain
    cases rest with
    | nil =>
      have hzero : releaseCount ([] : List (Version κ ρ)) = 0 := rfl
      cases hfirst : first.release with
      | none =>
        have hbare : bareCount [first] = 1 := by simp [bareCount, hfirst]
        have hhead : bareHead [first] = 1 := by simp [bareHead, hfirst]
        rw [releaseCount_cons_none hfirst, hzero, hbare, hhead]
        omega
      | some release =>
        have hle := releaseCount_cons_le first ([] : List (Version κ ρ))
        have hopen : openEnd [first] = 1 := by simp [openEnd, hfirst]
        have hhead : bareHead [first] = 0 := by simp [bareHead, hfirst]
        omega
    | cons second rest =>
      obtain ⟨hsame, hrest⟩ := List.isChain_cons_cons.mp hchain
      have hcount := ih hrest
      rw [openEnd_cons_cons]
      cases hfirst : first.release with
      | none =>
        have hbare : bareCount (first :: second :: rest) = bareCount (second :: rest) + 1 := by
          simp [bareCount, hfirst]
        have hhead : bareHead (first :: second :: rest) = 1 := by simp [bareHead, hfirst]
        rw [releaseCount_cons_none hfirst, hbare, hhead]
        omega
      | some release =>
        have hbare : bareCount (first :: second :: rest) = bareCount (second :: rest) := by
          simp [bareCount, hfirst]
        have hhead : bareHead (first :: second :: rest) = 0 := by simp [bareHead, hfirst]
        cases hsecond : second.release with
        | none =>
          have hle := releaseCount_cons_le first (second :: rest)
          have hsecondHead : bareHead (second :: rest) = 1 := by simp [bareHead, hsecond]
          omega
        | some release' =>
          unfold SameRelease at hsame
          rw [hfirst, hsecond] at hsame
          have heq : release = release' := (cmp_eq_eq_iff _ _).mp hsame
          rw [releaseCount_cons_mem hfirst, hbare, hhead]
          · omega
          · rw [List.filterMap_cons_some hsecond, heq]
            exact List.mem_cons_self

omit [LinearOrder κ] in
theorem isChain_of_all {row : List (Version κ ρ)}
    (h : ∀ first ∈ row, ∀ second ∈ row, SameRelease first second) : row.IsChain SameRelease := by
  apply List.Pairwise.isChain
  apply List.pairwise_of_forall_mem_list
  exact h

omit [LinearOrder κ] in
/-- With enough versions without a release, different releases are kept
apart. -/
theorem exists_chain {releases : List ρ} : ∀ {released bares : List (Version κ ρ)},
      (∀ version ∈ released, ∃ release ∈ releases, version.release = some release) →
      (∀ version ∈ bares, version.release = none) → releases.length ≤ bares.length →
      ∃ row : List (Version κ ρ), row.Perm (released ++ bares) ∧ row.IsChain SameRelease ∧
        ∀ last, row.getLast? = some last → last.release = none := by
  induction releases with
  | nil =>
    intro released bares hreleased hbares _
    have hnil : released = [] := by
      apply List.eq_nil_iff_forall_not_mem.mpr
      intro version hmem
      obtain ⟨release, hrelease, -⟩ := hreleased version hmem
      cases hrelease
    refine ⟨bares, by rw [hnil]; exact List.Perm.refl _, ?_, ?_⟩
    · apply isChain_of_all
      intro first hfirst second _
      unfold SameRelease
      rw [hbares first hfirst]
      rfl
    · intro last hlast
      exact hbares last (List.mem_of_getLast? hlast)
  | cons release releases ih =>
    intro released bares hreleased hbares hlength
    cases bares with
    | nil => exact absurd hlength (by simp)
    | cons bare bares =>
      have hbare := hbares bare List.mem_cons_self
      let own := released.filter fun version => version.release = some release
      let others := released.filter fun version => !decide (version.release = some release)
      have hsplit : (own ++ others).Perm released :=
        List.filter_append_perm (fun version : Version κ ρ =>
          decide (version.release = some release)) released
      have hothers : ∀ version ∈ others, ∃ other ∈ releases, version.release = some other := by
        intro version hmem
        obtain ⟨hmem, hdiffers⟩ := List.mem_filter.mp hmem
        obtain ⟨other, hother, hversion⟩ := hreleased version hmem
        rcases List.mem_cons.mp hother with rfl | hother
        · simp [hversion] at hdiffers
        · exact ⟨other, hother, hversion⟩
      obtain ⟨row, hperm, hchain, hlast⟩ := ih hothers
        (fun version hmem => hbares version (List.mem_cons_of_mem _ hmem))
        (by simpa using hlength)
      have hrest : (bare :: row).IsChain SameRelease := by
        rw [List.isChain_cons]
        refine ⟨?_, hchain⟩
        intro next _
        unfold SameRelease
        rw [hbare]
        rfl
      have hown : own.IsChain SameRelease := by
        apply isChain_of_all
        intro first hfirst second hsecond
        have hfirst : first.release = some release := by
          simpa using (List.mem_filter.mp hfirst).2
        have hsecond : second.release = some release := by
          simpa using (List.mem_filter.mp hsecond).2
        unfold SameRelease
        rw [hfirst, hsecond, compareReleases_self]
      refine ⟨own ++ bare :: row, ?_, ?_, ?_⟩
      · calc List.Perm (own ++ bare :: row) (bare :: (own ++ row)) := List.perm_middle
          List.Perm _ (bare :: (own ++ (others ++ bares))) :=
              List.Perm.cons _ (hperm.append_left own)
          List.Perm _ (bare :: (released ++ bares)) := by
              rw [← List.append_assoc]
              exact List.Perm.cons _ (hsplit.append_right bares)
          List.Perm _ (released ++ bare :: bares) := List.perm_middle.symm
      · apply hown.append hrest
        intro first _ second hsecond
        rw [List.head?_cons] at hsecond
        unfold SameRelease
        rw [← Option.some.inj hsecond, hbare, compareReleases_none_right]
      · intro last hlastRow
        rw [List.getLast?_append] at hlastRow
        cases hrow : row with
        | nil =>
          rw [hrow] at hlastRow
          rw [← Option.some.inj hlastRow]
          exact hbare
        | cons next rest =>
          rw [hrow, List.getLast?_cons_cons] at hlastRow
          cases hnext : (next :: rest).getLast? with
          | none => simp at hnext
          | some other =>
            rw [hnext] at hlastRow
            rw [← Option.some.inj hlastRow]
            exact hlast other (by rw [hrow]; exact hnext)

/-! ## Verdicts of equalities -/

def MeetsAll (required : List (Required κ ρ)) (version : Version κ ρ) : Prop :=
  ∀ other ∈ required, meets version other = true

/-- The equalities agree on their verdict, or only some without a release meet
everything and those are too few to keep the different releases apart. -/
def EqualitiesSettled (required : List (Required κ ρ)) : Prop :=
  (∀ own ∈ equalities required, ¬ MeetsAll required own) ∨
    (∀ own ∈ equalities required, MeetsAll required own) ∨
    (∀ own ∈ equalities required, MeetsAll required own → own.release = none) ∧
      bareCount (equalities required) < releaseCount (equalities required)

/-- The order of the requirements does not matter. -/
def OrderFree (required : List (Required κ ρ)) : Prop :=
  (equalities required = [] ∧ BoundsAgree required) ∨
    equalities required ≠ [] ∧ EqualitiesSettled required

omit [LinearOrder κ] [LinearOrder ρ] in
theorem exists_perm_equalities {required : List (Required κ ρ)} {row : List (Version κ ρ)}
    (h : row.Perm (equalities required)) :
    ∃ required' : List (Required κ ρ), required'.Perm required ∧ equalities required' = row :=
  exists_perm_filterMap h

/-- With equalities the bounds have no say. -/
theorem conflicting_iff_of_equalities {required row : List (Required κ ρ)}
    (hne : equalities required ≠ []) (hperm : row.Perm required) :
    Conflicting row ↔ ¬ (equalities row).IsChain EqualVersions ∨
      ∃ last, (equalities row).getLast? = some last ∧ ¬ MeetsAll required last := by
  have hrow : equalities row ≠ [] := by
    intro hnil
    have hperm' : (equalities row).Perm (equalities required) := hperm.filterMap equalityOf
    rw [hnil] at hperm'
    exact hne hperm'.symm.eq_nil
  have hfails : ∀ last, (∃ other ∈ row, meets last other = false) ↔ ¬ MeetsAll required last := by
    intro last
    unfold MeetsAll
    simp only [not_forall, Bool.not_eq_true]
    constructor
    · rintro ⟨other, hmem, hfails⟩
      exact ⟨other, hperm.subset hmem, hfails⟩
    · rintro ⟨other, hmem, hfails⟩
      exact ⟨other, hperm.symm.subset hmem, hfails⟩
  unfold Conflicting
  simp only [hfails, hrow, false_and, or_false]

/-- An equality that meets everything compares as equal with every other. -/
theorem MeetsAll.compare_equal {required : List (Required κ ρ)} {version own : Version κ ρ}
    (h : MeetsAll required version) (hown : own ∈ equalities required) :
    version.compare own = .eq :=
  compare_of_meets_equal h hown

theorem meetsAll_base {required : List (Required κ ρ)} {version : Version κ ρ}
    (h : MeetsAll required version) {row : List (Required κ ρ)} (hperm : row.Perm required) :
    ∀ own ∈ equalities row, own.base = version.base := fun _ hmem =>
  (Version.base_eq_of_compare (h.compare_equal ((hperm.filterMap equalityOf).subset hmem))).symm

/-- Settled equalities have one verdict in every order. -/
theorem conflicting_of_settled {required row row' : List (Required κ ρ)}
    (hne : equalities required ≠ []) (h : EqualitiesSettled required)
    (hperm : row.Perm required) (hperm' : row'.Perm required) (hconflict : Conflicting row) :
    Conflicting row' := by
  have hequalities : (equalities row').Perm (equalities required) :=
    hperm'.filterMap equalityOf
  rw [conflicting_iff_of_equalities hne hperm'] at ⊢
  rw [conflicting_iff_of_equalities hne hperm] at hconflict
  obtain ⟨last, hlast⟩ : ∃ last, (equalities row').getLast? = some last := by
    cases hgot : (equalities row').getLast? with
    | some last => exact ⟨last, rfl⟩
    | none =>
      rw [List.getLast?_eq_none_iff.mp hgot] at hequalities
      exact absurd hequalities.symm.eq_nil hne
  have hlastMem := hequalities.subset (List.mem_of_getLast? hlast)
  rcases h with hfail | hmeet | ⟨hbare, hfew⟩
  · exact Or.inr ⟨last, hlast, hfail last hlastMem⟩
  · -- All equalities meet each other, so nothing was in conflict.
    exfalso
    have hback : ∀ own ∈ equalities row, own ∈ equalities required := fun own hmem =>
      (hperm.filterMap equalityOf).subset hmem
    rcases hconflict with hchain | ⟨first, hfirst, hfails⟩
    · apply hchain
      apply List.Pairwise.isChain
      apply List.pairwise_of_forall_mem_list
      intro own hown other hother
      exact (hmeet own (hback own hown)).compare_equal (hback other hother)
    · exact hfails (hmeet first (hback first (List.mem_of_getLast? hfirst)))
  · -- The last equality would be without a release, and the row too short.
    by_contra hnone
    simp only [not_or, not_not, not_exists, not_and] at hnone
    obtain ⟨hchain, hmeets⟩ := hnone
    have hlastMeets := hmeets last hlast
    have hlastBare := hbare last hlastMem hlastMeets
    have hreleases := (isChain_sameBase (meetsAll_base hlastMeets hperm')).mp hchain
    have hcount := releaseCount_add_le hreleases
    have hopen : openEnd (equalities row') = 0 := by
      unfold openEnd
      rw [hlast]
      simp [hlastBare]
    have hbares : bareCount (equalities row') = bareCount (equalities required) :=
      hequalities.countP_eq _
    have hdistinct : releaseCount (equalities row') = releaseCount (equalities required) :=
      (hequalities.filterMap Version.release).dedup.length_eq
    omega

theorem eq_of_bare {required : List (Required κ ρ)} {version own : Version κ ρ}
    (h : MeetsAll required version) (hversion : version.release = none)
    (hown : own ∈ equalities required) (hnone : own.release = none) : own = version := by
  have hbase := Version.base_eq_of_compare (h.compare_equal hown)
  cases own
  cases version
  simp only at hbase hversion hnone
  rw [hbase, hversion, hnone]

/-- Equalities with one verdict in every order are settled. -/
theorem settled_of_conflicting {required : List (Required κ ρ)} (hne : equalities required ≠ [])
    (h : ∀ row row' : List (Required κ ρ), row.Perm required → row'.Perm required →
      Conflicting row → Conflicting row') : EqualitiesSettled required := by
  by_cases hfail : ∀ own ∈ equalities required, ¬ MeetsAll required own
  · exact Or.inl hfail
  by_cases hmeet : ∀ own ∈ equalities required, MeetsAll required own
  · exact Or.inr (Or.inl hmeet)
  simp only [not_forall, not_not] at hfail
  simp only [not_forall] at hmeet
  obtain ⟨good, hgood, hgoodMeets⟩ := hfail
  obtain ⟨bad, hbad, hbadFails⟩ := hmeet
  have hlastRow : ∀ own ∈ equalities required, ∃ row : List (Required κ ρ),
      row.Perm required ∧ (equalities row).getLast? = some own := by
    intro own hown
    obtain ⟨front, back, hsplit⟩ := List.append_of_mem hown
    have hrow : (front ++ back ++ [own]).Perm (equalities required) := by
      rw [hsplit]
      exact (List.perm_append_singleton own (front ++ back)).trans List.perm_middle.symm
    obtain ⟨row, hperm, hequalities⟩ := exists_perm_equalities hrow
    exact ⟨row, hperm, by rw [hequalities, List.getLast?_concat]⟩
  -- With a bad equality at the end there is a conflict, so there always is one.
  have halways : ∀ row : List (Required κ ρ), row.Perm required → Conflicting row := by
    obtain ⟨worst, hworst, hworstLast⟩ := hlastRow bad hbad
    intro row hrow
    apply h worst row hworst hrow
    rw [conflicting_iff_of_equalities hne hworst]
    exact Or.inr ⟨bad, hworstLast, hbadFails⟩
  have hgoodBare : ∀ own ∈ equalities required, MeetsAll required own → own.release = none := by
    intro own hown hmeets
    by_contra hrelease
    obtain ⟨release, hrelease⟩ := Option.ne_none_iff_exists'.mp hrelease
    obtain ⟨row, hperm, hlast⟩ := hlastRow own hown
    have hconflict := halways row hperm
    rw [conflicting_iff_of_equalities hne hperm] at hconflict
    rcases hconflict with hchain | ⟨last, hlast', hfails⟩
    · apply hchain
      rw [isChain_sameBase (meetsAll_base hmeets hperm)]
      apply isChain_of_all
      have hsame : ∀ other ∈ equalities row, compareReleases (some release) other.release = .eq := by
        intro other hother
        have hequal := hmeets.compare_equal ((hperm.filterMap equalityOf).subset hother)
        rw [Version.compare_sameBase (Version.base_eq_of_compare hequal), hrelease] at hequal
        exact hequal
      intro first hfirst second hsecond
      have hfirstSame := hsame first hfirst
      have hsecondSame := hsame second hsecond
      unfold SameRelease
      cases hfirstRelease : first.release with
      | none => rfl
      | some own =>
        rw [hfirstRelease] at hfirstSame
        rw [← (cmp_eq_eq_iff _ _).mp hfirstSame]
        exact hsecondSame
    · rw [hlast] at hlast'
      rw [← Option.some.inj hlast'] at hfails
      exact hfails hmeets
  refine Or.inr (Or.inr ⟨hgoodBare, ?_⟩)
  by_contra hmany
  let bares := (equalities required).filter fun version => version.release.isNone
  let released := (equalities required).filter fun version => !version.release.isNone
  have hsplit : (released ++ bares).Perm (equalities required) := by
    refine List.perm_append_comm.trans ?_
    exact List.filter_append_perm (fun version : Version κ ρ => version.release.isNone) _
  have hreleased : ∀ version ∈ released,
      ∃ release ∈ ((equalities required).filterMap Version.release).dedup,
        version.release = some release := by
    intro version hmem
    obtain ⟨hmem, hsome⟩ := List.mem_filter.mp hmem
    cases hrelease : version.release with
    | none => simp [hrelease] at hsome
    | some release =>
      exact ⟨release, List.mem_dedup.mpr (List.mem_filterMap.mpr ⟨version, hmem, hrelease⟩), rfl⟩
  have hbares : ∀ version ∈ bares, version.release = none := by
    intro version hmem
    simpa using (List.mem_filter.mp hmem).2
  have hlength : ((equalities required).filterMap Version.release).dedup.length ≤ bares.length := by
    have hcount : bareCount (equalities required) = bares.length := List.countP_eq_length_filter
    have hdistinct : releaseCount (equalities required) =
      ((equalities required).filterMap Version.release).dedup.length := rfl
    omega
  obtain ⟨best, hbest, hchain, hbestLast⟩ := exists_chain hreleased hbares hlength
  obtain ⟨row, hperm, hequalities⟩ := exists_perm_equalities (hbest.trans hsplit)
  have hconflict := halways row hperm
  rw [conflicting_iff_of_equalities hne hperm, hequalities] at hconflict
  rcases hconflict with hdiffers | ⟨last, hlast, hfails⟩
  · apply hdiffers
    rw [isChain_sameBase]
    · exact hchain
    · rw [← hequalities]
      exact meetsAll_base hgoodMeets hperm
  · have hlastMem : last ∈ equalities required :=
      (hbest.trans hsplit).subset (List.mem_of_getLast? hlast)
    rw [eq_of_bare hgoodMeets (hgoodBare good hgood hgoodMeets) hlastMem
      (hbestLast last hlast)] at hfails
    exact hfails hgoodMeets

/-- Requirements on places have one verdict in every order exactly when the
order does not matter. -/
theorem conflicting_perm_iff (required : List (Required κ ρ)) :
    (∀ row : List (Required κ ρ), row.Perm required → (Conflicting row ↔ Conflicting required)) ↔
      OrderFree required := by
  have hpairs : (∀ row : List (Required κ ρ), row.Perm required →
      (Conflicting row ↔ Conflicting required)) ↔
      ∀ row row' : List (Required κ ρ), row.Perm required → row'.Perm required →
        Conflicting row → Conflicting row' := by
    constructor
    · intro h row row' hperm hperm' hconflict
      exact (h row' hperm').mpr ((h row hperm).mp hconflict)
    · intro h row hperm
      exact ⟨h row required hperm (List.Perm.refl _), h required row (List.Perm.refl _) hperm⟩
  rw [hpairs]
  unfold OrderFree
  by_cases hne : equalities required = []
  · have hkept : ∀ row : List (Required κ ρ), row.Perm required →
        (Conflicting row ↔ KeptExclude row) := by
      intro row hperm
      have hperm' : (equalities row).Perm (equalities required) := hperm.filterMap equalityOf
      rw [hne] at hperm'
      unfold Conflicting KeptExclude
      rw [hperm'.eq_nil]
      simp
    constructor
    · intro h
      refine Or.inl ⟨hne, agree_of_keptExclude ?_⟩
      intro row row' hperm hperm' hexclude
      exact (hkept row' hperm').mp (h row row' hperm hperm' ((hkept row hperm).mpr hexclude))
    · rintro (⟨-, hagree⟩ | ⟨hsome, -⟩)
      · intro row row' hperm hperm' hconflict
        exact (hkept row' hperm').mpr
          (keptExclude_of_agree hagree hperm hperm' ((hkept row hperm).mp hconflict))
      · exact absurd hne hsome
  · constructor
    · intro h
      exact Or.inr ⟨hne, settled_of_conflicting hne h⟩
    · rintro (⟨hnil, -⟩ | ⟨-, hsettled⟩)
      · exact absurd hnil hne
      · intro row row' hperm hperm' hconflict
        exact conflicting_of_settled hne hsettled hperm hperm' hconflict

end Places

/-! ## The projection -/

section Projection

variable {vercmp : Bytes → Bytes → Int} {κ ρ : Type} [LinearOrder κ] [LinearOrder ρ]
  (order : VersionOrder vercmp κ ρ)

theorem onePackage_perm {requirements permuted : List ConsumerDependencyRequirement}
    (h : OnePackage requirements) (hperm : permuted.Perm requirements) : OnePackage permuted where
  name := by
    obtain ⟨name, hname⟩ := h.name
    exact ⟨name, fun requirement hmem => hname requirement (hperm.subset hmem)⟩
  parsed := fun requirement hmem => h.parsed requirement (hperm.subset hmem)

theorem placed_eq_filterMap (requirements : List ConsumerDependencyRequirement) :
    order.placed requirements =
      requirements.filterMap fun requirement => requirement.constraint.map order.required := by
  unfold VersionOrder.placed
  rw [List.map_filterMap]

end Projection

end Moguet.Plan.ConflictOrder
