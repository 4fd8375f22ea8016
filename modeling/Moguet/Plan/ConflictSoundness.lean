import Mathlib.Order.Lattice
import Moguet.Plan.ConflictProjection

/-!
# Conflicts that are none

A pkgrel counts only against another pkgrel, so a bound without one compares as
equal with bounds that differ from each other. What the projection keeps of
such bounds may exclude a version that meets them all. On requirements that a
version meets, the projection is wrong exactly when they are confused on the
base of that version.
-/

namespace Moguet.Plan.ConflictSoundness

open Verified.ByteString Verified.BaseRelease Constraint ConflictProjection

section Places

variable {κ ρ : Type} [LinearOrder κ] [LinearOrder ρ]

/-- Two releases that are both there are the same. -/
def SameRelease (lhs rhs : Version κ ρ) : Prop := compareReleases lhs.release rhs.release = .eq

def isStrict (relation : DependencyVersionRelation) : Bool :=
  isStrictLowerBound relation || isStrictUpperBound relation

/-- The last equality does not do for another requirement on its base: it has
no release where a strict bound asks for one, or a release that is ruled out. -/
def LastAstray (required : List (Required κ ρ)) (base : κ) (last : Version κ ρ) : Prop :=
  (last.release = none ∧ ∃ other ∈ required, other.version.base = base ∧
    isStrict other.relation = true) ∨
  ∃ own, last.release = some own ∧ ∃ other ∈ required, other.version.base = base ∧
    ∃ release, other.version.release = some release ∧
      relationIsSatisfied other.relation (archOrdering (cmp own release)) = false

/-- The releases that count on a base: a lower one above an upper one, or only
those of one side, of which the highest is strict. -/
def BoundsCross (required : List (Required κ ρ)) (base : κ) : Prop :=
  let lowerRow := onBase base (lowers required)
  let upperRow := onBase (OrderDual.toDual base) (uppers required)
  (∃ lower ∈ counted lowerRow, ∃ upper ∈ counted upperRow,
    compareReleases lower.version.dual.release upper.version.release = .lt) ∨
  (lowerRow ≠ [] ∧ counted lowerRow = [] ∧
    ∃ upper, Highest (counted upperRow) upper ∧ upper.strict = true) ∨
  (upperRow ≠ [] ∧ counted upperRow = [] ∧
    ∃ lower, Highest (counted lowerRow) lower ∧ lower.strict = true)

/-- Requirements on one base of which some carry a release and some do not, in
an order that makes the scan compare them wrongly. -/
def Confused (required : List (Required κ ρ)) (base : κ) : Prop :=
  ¬ (equalities required).IsChain SameRelease ∨
    (∃ last, (equalities required).getLast? = some last ∧ LastAstray required base last) ∨
    equalities required = [] ∧ BoundsCross required base

theorem compare_of_meets_equal {version : Version κ ρ} {required : List (Required κ ρ)}
    (h : ∀ other ∈ required, meets version other = true) {own : Version κ ρ}
    (hmem : own ∈ equalities required) : version.compare own = .eq := by
  obtain ⟨other, hother, hown⟩ := List.mem_filterMap.mp hmem
  have hmeets := h other hother
  unfold equalityOf at hown
  split at hown
  · rename_i hrelation
    unfold meets at hmeets
    rw [hrelation, Option.some.inj hown] at hmeets
    cases hcompare : version.compare own with
    | eq => rfl
    | lt => simp [hcompare, archOrdering, relationIsSatisfied] at hmeets
    | gt => simp [hcompare, archOrdering, relationIsSatisfied] at hmeets
  · cases hown

theorem over_lowers {version : Version κ ρ} {required : List (Required κ ρ)}
    (h : ∀ other ∈ required, meets version other = true) : Over version (lowers required) := by
  intro bound hmem
  obtain ⟨other, hother, hbound⟩ := List.mem_filterMap.mp hmem
  have hmeets := h other hother
  unfold meets at hmeets
  unfold lowerOf at hbound
  split at hbound
  · rename_i hrelation
    rw [← Option.some.inj hbound]
    rw [hrelation] at hmeets
    dsimp only
    cases hcompare : version.compare other.version with
    | lt => simp [hcompare, archOrdering, relationIsSatisfied] at hmeets
    | eq => exact Or.inr ⟨rfl, rfl⟩
    | gt => exact Or.inl rfl
  · rename_i hrelation
    rw [← Option.some.inj hbound]
    rw [hrelation] at hmeets
    dsimp only
    cases hcompare : version.compare other.version with
    | lt => simp [hcompare, archOrdering, relationIsSatisfied] at hmeets
    | eq => simp [hcompare, archOrdering, relationIsSatisfied] at hmeets
    | gt => exact Or.inl rfl
  · cases hbound

theorem over_uppers {version : Version κ ρ} {required : List (Required κ ρ)}
    (h : ∀ other ∈ required, meets version other = true) :
    Over version.dual (uppers required) := by
  intro bound hmem
  obtain ⟨other, hother, hbound⟩ := List.mem_filterMap.mp hmem
  have hmeets := h other hother
  unfold meets at hmeets
  unfold upperOf at hbound
  split at hbound
  · rename_i hrelation
    rw [← Option.some.inj hbound]
    rw [hrelation] at hmeets
    dsimp only
    rw [Version.compare_dual, ← Version.compare_swap version other.version]
    cases hcompare : version.compare other.version with
    | lt => exact Or.inl rfl
    | eq => exact Or.inr ⟨rfl, rfl⟩
    | gt => simp [hcompare, archOrdering, relationIsSatisfied] at hmeets
  · rename_i hrelation
    rw [← Option.some.inj hbound]
    rw [hrelation] at hmeets
    dsimp only
    rw [Version.compare_dual, ← Version.compare_swap version other.version]
    cases hcompare : version.compare other.version with
    | lt => exact Or.inl rfl
    | eq => simp [hcompare, archOrdering, relationIsSatisfied] at hmeets
    | gt => simp [hcompare, archOrdering, relationIsSatisfied] at hmeets
  · cases hbound

/-- On one base equalities compare by their releases. -/
theorem isChain_sameBase {base : κ} {row : List (Version κ ρ)} :
    (∀ version ∈ row, version.base = base) →
      (row.IsChain EqualVersions ↔ row.IsChain SameRelease) := by
  induction row with
  | nil => simp
  | cons first rest ih =>
    intro hbase
    have hrest := ih fun version hmem => hbase version (List.mem_cons_of_mem _ hmem)
    rw [List.isChain_cons, List.isChain_cons, hrest]
    have hhead : ∀ next ∈ rest.head?, EqualVersions first next ↔ SameRelease first next := by
      intro next hnext
      have hsame : first.base = next.base :=
        (hbase first List.mem_cons_self).trans
          (hbase next (List.mem_cons_of_mem _ (List.mem_of_mem_head? hnext))).symm
      unfold EqualVersions SameRelease
      rw [Version.compare_sameBase hsame]
    constructor
    · rintro ⟨hfirst, hchain⟩
      exact ⟨fun next hnext => (hhead next hnext).mp (hfirst next hnext), hchain⟩
    · rintro ⟨hfirst, hchain⟩
      exact ⟨fun next hnext => (hhead next hnext).mpr (hfirst next hnext), hchain⟩

theorem relationIsSatisfied_equal (relation : DependencyVersionRelation) :
    relationIsSatisfied relation .equal = !isStrict relation := by
  cases relation <;> rfl

/-- An equality on the base of a version that meets everything fails another
requirement only for a release. -/
theorem exists_fails_iff {version last : Version κ ρ} {required : List (Required κ ρ)}
    (h : ∀ other ∈ required, meets version other = true) (hbase : last.base = version.base) :
    (∃ other ∈ required, meets last other = false) ↔ LastAstray required version.base last := by
  have hsame : ∀ other : Required κ ρ, other.version.base = version.base →
      meets last other = relationIsSatisfied other.relation
        (archOrdering (compareReleases last.release other.version.release)) := by
    intro other hother
    unfold meets
    rw [Version.compare_sameBase (hbase.trans hother.symm)]
  constructor
  · rintro ⟨other, hmem, hfails⟩
    have hmeets := h other hmem
    have hother : other.version.base = version.base := by
      by_contra hne
      have hcompare : last.compare other.version = version.compare other.version := by
        rcases lt_or_gt_of_ne hne with hlt | hgt
        · rw [Version.compare_gt hlt, Version.compare_gt (by rw [hbase]; exact hlt)]
        · rw [Version.compare_lt hgt, Version.compare_lt (by rw [hbase]; exact hgt)]
      unfold meets at hmeets hfails
      rw [hcompare, hmeets] at hfails
      cases hfails
    rw [hsame other hother] at hfails
    unfold meets at hmeets
    rw [Version.compare_sameBase hother.symm] at hmeets
    cases hrelease : other.version.release with
    | none =>
      rw [hrelease, compareReleases_none_right] at hfails hmeets
      rw [hfails] at hmeets
      cases hmeets
    | some release =>
      cases hown : last.release with
      | none =>
        rw [hown, compareReleases_none_left] at hfails
        refine Or.inl ⟨hown, other, hmem, hother, ?_⟩
        have hequal : relationIsSatisfied other.relation .equal = false := hfails
        rw [relationIsSatisfied_equal] at hequal
        simpa using hequal
      | some own =>
        rw [hown, hrelease] at hfails
        exact Or.inr ⟨own, hown, other, hmem, hother, release, hrelease, hfails⟩
  · rintro (⟨hnone, other, hmem, hother, hstrict⟩ |
      ⟨own, hown, other, hmem, hother, release, hrelease, hfails⟩)
    · refine ⟨other, hmem, ?_⟩
      rw [hsame other hother, hnone, compareReleases_none_left]
      have hequal : relationIsSatisfied other.relation .equal = false := by
        rw [relationIsSatisfied_equal, hstrict]
        rfl
      exact hequal
    · refine ⟨other, hmem, ?_⟩
      rw [hsame other hother, hown, hrelease]
      exact hfails

/-- Bounds that are met exclude each other only on the base of what meets
them. -/
theorem base_of_excludes {version : Version κ ρ} {required : List (Required κ ρ)}
    (h : ∀ other ∈ required, meets version other = true) {lower : Bound κ ρ}
    {upper : Bound κᵒᵈ ρᵒᵈ} (hlower : lower ∈ lowers required) (hupper : upper ∈ uppers required)
    (hexcludes : excludes lower upper = true) :
    lower.version.base = version.base ∧ upper.version.base = version.dual.base := by
  have hlowerBase : lower.version.base ≤ version.base := (over_lowers h).base_le hlower
  have hupperBase : upper.version.base ≤ version.dual.base := (over_uppers h).base_le hupper
  have hdual : version.dual.base ≤ lower.version.dual.base := hlowerBase
  have hle : ¬ upper.version.base < lower.version.dual.base := by
    intro hlt
    unfold excludes at hexcludes
    rw [Version.compare_gt hlt] at hexcludes
    cases hexcludes
  have hup : upper.version.base = version.dual.base :=
    le_antisymm hupperBase (le_trans hdual (not_lt.mp hle))
  refine ⟨le_antisymm hlowerBase ?_, hup⟩
  have hlow : lower.version.dual.base ≤ version.dual.base := by
    rw [← hup]
    exact not_lt.mp hle
  exact hlow

/-- Releases on both sides of what meets them do not exclude each other by
being strict. -/
theorem not_equal_strict {version : Version κ ρ} {required : List (Required κ ρ)}
    (h : ∀ other ∈ required, meets version other = true) {lower : Bound κ ρ}
    {upper : Bound κᵒᵈ ρᵒᵈ} (hlower : lower ∈ lowers required) (hupper : upper ∈ uppers required)
    (hlowerBase : lower.version.base = version.base)
    (hupperBase : upper.version.base = version.dual.base)
    (hlowerRelease : lower.version.release ≠ none) (hupperRelease : upper.version.release ≠ none)
    (hequal : compareReleases lower.version.dual.release upper.version.release = .eq)
    (hstrict : lower.strict = true ∨ upper.strict = true) : False := by
  obtain ⟨low, hlow⟩ := Option.ne_none_iff_exists'.mp hlowerRelease
  obtain ⟨high, hhigh⟩ := Option.ne_none_iff_exists'.mp hupperRelease
  have hsame : OrderDual.toDual low = high := by
    have hrelease : lower.version.dual.release = some (OrderDual.toDual low) := by
      unfold Version.dual
      rw [hlow]
      rfl
    rw [hrelease, hhigh] at hequal
    exact (cmp_eq_eq_iff _ _).mp hequal
  have hmetLower := over_lowers h lower hlower
  have hmetUpper := over_uppers h upper hupper
  rw [Version.compare_sameBase hlowerBase.symm, hlow] at hmetLower
  rw [Version.compare_sameBase hupperBase.symm, hhigh, ← hsame] at hmetUpper
  cases hown : version.release with
  | none =>
    have hdual : version.dual.release = none := by
      unfold Version.dual
      rw [hown]
      rfl
    rw [hown, compareReleases_none_left] at hmetLower
    rw [hdual, compareReleases_none_left] at hmetUpper
    simp only [reduceCtorEq, true_and, false_or] at hmetLower hmetUpper
    rcases hstrict with hs | hs
    · rw [hs] at hmetLower
      cases hmetLower
    · rw [hs] at hmetUpper
      cases hmetUpper
  | some own =>
    have hdual : version.dual.release = some (OrderDual.toDual own) := by
      unfold Version.dual
      rw [hown]
      rfl
    rw [hown] at hmetLower
    rw [hdual] at hmetUpper
    simp only [compareReleases_eq_gt_iff, compareReleases_eq_eq_iff,
      OrderDual.toDual_lt_toDual, OrderDual.toDual_inj] at hmetLower hmetUpper
    rcases hmetLower with hlt | ⟨heq, hplain⟩
    · rcases hmetUpper with hlt' | ⟨heq', -⟩
      · exact lt_asymm hlt hlt'
      · exact absurd hlt (not_lt.mpr (le_of_eq heq'))
    · rcases hmetUpper with hlt' | ⟨-, hplain'⟩
      · exact absurd hlt' (not_lt.mpr (le_of_eq heq.symm))
      · rcases hstrict with hs | hs
        · rw [hs] at hplain
          cases hplain
        · rw [hs] at hplain'
          cases hplain'

theorem excludes_sameBase {lower : Bound κ ρ} {upper : Bound κᵒᵈ ρᵒᵈ}
    (hbase : lower.version.dual.base = upper.version.base) :
    excludes lower upper = true ↔
      compareReleases lower.version.dual.release upper.version.release = .lt ∨
        compareReleases lower.version.dual.release upper.version.release = .eq ∧
          (lower.strict = true ∨ upper.strict = true) := by
  unfold excludes
  rw [Version.compare_sameBase hbase]
  simp

theorem release_of_highest {κ' ρ' : Type} [LinearOrder κ'] [LinearOrder ρ']
    {row : List (Bound κ' ρ')} {bound : Bound κ' ρ'} (h : Highest row bound) :
    bound.version.release ≠ none := by
  obtain ⟨release, -, hrelease, -⟩ := h.below bound h.mem
  rw [hrelease]
  exact Option.some_ne_none _

omit [LinearOrder κ] in
/-- Bounds above a lower and below an upper one that cross do too. -/
theorem less_of_below {low lower : Bound κ ρ} {high upper : Bound κᵒᵈ ρᵒᵈ}
    (hlow : Below low lower) (hhigh : Below high upper)
    (hless : compareReleases low.version.dual.release high.version.release = .lt) :
    compareReleases lower.version.dual.release upper.version.release = .lt := by
  obtain ⟨first, second, hfirst, hsecond, hlowLe⟩ := hlow
  obtain ⟨third, fourth, hthird, hfourth, hhighLe⟩ := hhigh
  have hle : first ≤ second := hlowLe.elim le_of_lt fun heq => le_of_eq heq.1
  have hle' : third ≤ fourth := hhighLe.elim le_of_lt fun heq => le_of_eq heq.1
  unfold Version.dual at hless ⊢
  rw [hfirst, hthird] at hless
  rw [hsecond, hfourth]
  have hlt : OrderDual.toDual first < third := (cmp_eq_lt_iff _ _).mp hless
  have hbelow : OrderDual.toDual second ≤ OrderDual.toDual first := hle
  exact (cmp_eq_lt_iff _ _).mpr (lt_of_le_of_lt hbelow (lt_of_lt_of_le hlt hle'))

/-- The kept bounds exclude each other exactly when the releases cross. -/
theorem excludes_iff_cross {version : Version κ ρ} {required : List (Required κ ρ)}
    (h : ∀ other ∈ required, meets version other = true) :
    (∃ lower upper, kept (lowers required) = some lower ∧ kept (uppers required) = some upper ∧
      excludes lower upper = true) ↔ BoundsCross required version.base := by
  have hlowers := over_lowers h
  have huppers := over_uppers h
  constructor
  · rintro ⟨lower, upper, hlower, hupper, hexcludes⟩
    have hlowerMem := (kept_survives hlower).mem
    have hupperMem := (kept_survives hupper).mem
    obtain ⟨hlowerBase, hupperBase⟩ := base_of_excludes h hlowerMem hupperMem hexcludes
    have hbase : lower.version.dual.base = upper.version.base := by
      rw [hupperBase]
      exact hlowerBase
    have hlowerRow : onBase version.base (lowers required) ≠ [] :=
      List.ne_nil_of_mem (mem_onBase.mpr ⟨hlowerMem, hlowerBase⟩)
    have hupperRow : onBase version.dual.base (uppers required) ≠ [] :=
      List.ne_nil_of_mem (mem_onBase.mpr ⟨hupperMem, hupperBase⟩)
    have hcases := (excludes_sameBase hbase).mp hexcludes
    rcases hlowers.kept hlower hlowerBase with ⟨hlowerNil, hlowerNone, hlowerPlain⟩ | hlowerHigh
    · have hnone : lower.version.dual.release = none := by
        unfold Version.dual
        rw [hlowerNone]
        rfl
      rw [hnone, compareReleases_none_left] at hcases
      simp only [reduceCtorEq, hlowerPlain, Bool.false_eq_true, true_and, false_or] at hcases
      rcases huppers.kept hupper hupperBase with ⟨-, -, hupperPlain⟩ | hupperHigh
      · rw [hupperPlain] at hcases
        cases hcases
      · exact Or.inr (Or.inl ⟨hlowerRow, hlowerNil, upper, hupperHigh, hcases⟩)
    · rcases huppers.kept hupper hupperBase with ⟨hupperNil, hupperNone, hupperPlain⟩ | hupperHigh
      · rw [hupperNone, compareReleases_none_right] at hcases
        simp only [reduceCtorEq, hupperPlain, Bool.false_eq_true, true_and, false_or,
          or_false] at hcases
        exact Or.inr (Or.inr ⟨hupperRow, hupperNil, lower, hlowerHigh, hcases⟩)
      · rcases hcases with hless | ⟨hequal, hstrict⟩
        · exact Or.inl ⟨lower, hlowerHigh.mem, upper, hupperHigh.mem, hless⟩
        · exact (not_equal_strict h hlowerMem hupperMem hlowerBase hupperBase
            (release_of_highest hlowerHigh) (release_of_highest hupperHigh) hequal hstrict).elim
  · intro hcross
    have hrows : onBase version.base (lowers required) ≠ [] ∧
        onBase version.dual.base (uppers required) ≠ [] := by
      rcases hcross with ⟨lower, hlower, upper, hupper, -⟩ | ⟨hlower, -, upper, hupper, -⟩ |
        ⟨hupper, -, lower, hlower, -⟩
      · exact ⟨List.ne_nil_of_mem (mem_of_mem_counted hlower),
          List.ne_nil_of_mem (mem_of_mem_counted hupper)⟩
      · exact ⟨hlower, List.ne_nil_of_mem (mem_of_mem_counted hupper.mem)⟩
      · exact ⟨List.ne_nil_of_mem (mem_of_mem_counted hlower.mem), hupper⟩
    obtain ⟨lower, hlower, hlowerBase⟩ := hlowers.exists_kept hrows.1
    obtain ⟨upper, hupper, hupperBase⟩ := huppers.exists_kept hrows.2
    have hbase : lower.version.dual.base = upper.version.base := by
      rw [hupperBase]
      exact hlowerBase
    refine ⟨lower, upper, hlower, hupper, (excludes_sameBase hbase).mpr ?_⟩
    have hlowerKept := hlowers.kept hlower hlowerBase
    have hupperKept := huppers.kept hupper hupperBase
    rcases hcross with ⟨low, hlow, high, hhigh, hless⟩ | ⟨-, hnil, high, hhigh, hstrict⟩ |
      ⟨-, hnil, low, hlow, hstrict⟩
    · have hlowerHigh := hlowerKept.resolve_left fun hnone => by
        rw [hnone.1] at hlow
        cases hlow
      have hupperHigh := hupperKept.resolve_left fun hnone => by
        have hmem : high ∈ counted (onBase version.dual.base (uppers required)) := hhigh
        rw [hnone.1] at hmem
        cases hmem
      exact Or.inl (less_of_below (hlowerHigh.below low hlow) (hupperHigh.below high hhigh) hless)
    · have hlowerNone := (hlowerKept.resolve_right fun hhighest => by
        rw [hnil] at hhighest
        cases hhighest.mem).2.1
      have hupperHigh := hupperKept.resolve_left fun hnone => by
        have hmem : high ∈ counted (onBase version.dual.base (uppers required)) := hhigh.mem
        rw [hnone.1] at hmem
        cases hmem
      have hdual : lower.version.dual.release = none := by
        unfold Version.dual
        rw [hlowerNone]
        rfl
      rw [hdual, compareReleases_none_left]
      exact Or.inr ⟨rfl, Or.inr (Highest.strict_of hhigh hupperHigh hstrict)⟩
    · have hupperNone := (hupperKept.resolve_right fun hhighest => by
        have hmem : upper ∈ counted (onBase (OrderDual.toDual version.base) (uppers required)) :=
          hhighest.mem
        rw [hnil] at hmem
        cases hmem).2.1
      have hlowerHigh := hlowerKept.resolve_left fun hnone => by
        have hmem := hlow.mem
        rw [hnone.1] at hmem
        cases hmem
      rw [hupperNone, compareReleases_none_right]
      exact Or.inr ⟨rfl, Or.inl (Highest.strict_of hlow hlowerHigh hstrict)⟩

/-- What is reported of requirements that a version meets. -/
theorem conflicting_iff_confused {version : Version κ ρ} {required : List (Required κ ρ)}
    (h : ∀ other ∈ required, meets version other = true) :
    Conflicting required ↔ Confused required version.base := by
  have hbase : ∀ own ∈ equalities required, own.base = version.base := fun own hmem =>
    (Version.base_eq_of_compare (compare_of_meets_equal h hmem)).symm
  have hlast : ∀ last, (equalities required).getLast? = some last →
      ((∃ other ∈ required, meets last other = false) ↔
        LastAstray required version.base last) := fun last hlast =>
    exists_fails_iff h (hbase last (List.mem_of_getLast? hlast))
  unfold Conflicting Confused
  rw [isChain_sameBase hbase, excludes_iff_cross h]
  apply or_congr_right
  apply or_congr_left
  constructor
  · rintro ⟨last, hsome, hfails⟩
    exact ⟨last, hsome, (hlast last hsome).mp hfails⟩
  · rintro ⟨last, hsome, hastray⟩
    exact ⟨last, hsome, (hlast last hsome).mpr hastray⟩

end Places

/-- The evaluation of every requirement against an observed version. -/
def SatisfiedBy (vercmp : Bytes → Bytes → Int)
    (requirements : List ConsumerDependencyRequirement) (observed : ObservedVersion) : Prop :=
  ∀ requirement ∈ requirements,
    let satisfaction :=
      (evaluateConsumerDependencyRequirement vercmp requirement observed).satisfaction
    satisfaction = .satisfied ∨ satisfaction = .unconstrained

instance (vercmp : Bytes → Bytes → Int) (requirements : List ConsumerDependencyRequirement)
    (observed : ObservedVersion) : Decidable (SatisfiedBy vercmp requirements observed) :=
  inferInstanceAs (Decidable (∀ requirement ∈ requirements, _))

section Projection

variable {vercmp : Bytes → Bytes → Int} {κ ρ : Type} [LinearOrder κ] [LinearOrder ρ]
  (order : VersionOrder vercmp κ ρ)

/-- A version satisfies the requirements exactly when its place meets theirs. -/
theorem satisfiedBy_iff {requirements : List ConsumerDependencyRequirement}
    (h : OnePackage requirements) {version : Bytes}
    (hversion : isValidPackageVersion version = true) (source : ObservedVersionSource) :
    SatisfiedBy vercmp requirements (.available source version) ↔
      ∀ other ∈ order.placed requirements, meets (order.place version) other = true := by
  have hvalid := placed_valid h
  have havailable : ObservedVersion.available source version = ⟨source, .version version⟩ := by
    unfold ObservedVersion.available
    rw [hversion]
    rfl
  unfold SatisfiedBy VersionOrder.placed
  rw [havailable]
  constructor
  · intro hsatisfied other hmem
    obtain ⟨constraint, hconstraint, rfl⟩ := List.mem_map.mp hmem
    obtain ⟨requirement, hrequirement, hsome⟩ := List.mem_filterMap.mp hconstraint
    have hrequirement := hsatisfied requirement hrequirement
    rw [meets_required order hversion (hvalid constraint hconstraint)]
    unfold evaluateConsumerDependencyRequirement at hrequirement
    rw [hsome] at hrequirement
    dsimp only at hrequirement
    by_contra hfails
    rw [if_neg hfails] at hrequirement
    rcases hrequirement with hno | hno <;> cases hno
  · intro hmeets requirement hrequirement
    unfold evaluateConsumerDependencyRequirement
    cases hsome : requirement.constraint with
    | none => exact Or.inr rfl
    | some constraint =>
      have hconstraint : constraint ∈ requirements.filterMap (·.constraint) :=
        List.mem_filterMap.mpr ⟨requirement, hrequirement, hsome⟩
      have hmet := hmeets _ (List.mem_map_of_mem hconstraint)
      rw [meets_required order hversion (hvalid constraint hconstraint)] at hmet
      dsimp only
      rw [if_pos hmet]
      exact Or.inl rfl

end Projection

/-- `p=1.0` and `p=2.0`. -/
def plainRequirements : List ConsumerDependencyRequirement :=
  [⟨ascii "p=1.0", ascii "p", some ⟨.equal, ascii "1.0"⟩⟩,
    ⟨ascii "p=2.0", ascii "p", some ⟨.equal, ascii "2.0"⟩⟩]

theorem plainRequirements_onePackage : OnePackage plainRequirements where
  name := ⟨ascii "p", by decide⟩
  parsed := by
    intro requirement hmem
    simp only [plainRequirements, List.mem_cons, List.not_mem_nil, or_false] at hmem
    rcases hmem with rfl | rfl
    · exact ⟨ascii "p=1.0", by decide +kernel⟩
    · exact ⟨ascii "p=2.0", by decide +kernel⟩

theorem plainRequirements_not_confused (base : List Nat) :
    ¬ Confused (placewiseOrder.placed plainRequirements) base := by
  have hequalities : equalities (placewiseOrder.placed plainRequirements) =
      [placewiseOrder.place (ascii "1.0"), placewiseOrder.place (ascii "2.0")] := rfl
  rintro (hchain | ⟨last, hlast, hastray⟩ | ⟨hnil, -⟩)
  · apply hchain
    rw [hequalities]
    exact List.isChain_pair.mpr (by unfold SameRelease; decide +kernel)
  · rw [hequalities] at hlast
    have hsecond : placewiseOrder.place (ascii "2.0") = last := Option.some.inj hlast
    rcases hastray with ⟨-, other, hmem, -, hstrict⟩ | ⟨own, hown, -⟩
    · have hplain : ∀ other ∈ placewiseOrder.placed plainRequirements,
          isStrict other.relation = false := by decide +kernel
      rw [hplain other hmem] at hstrict
      cases hstrict
    · have hnone : (placewiseOrder.place (ascii "2.0")).release = none := by decide +kernel
      rw [← hsecond, hnone] at hown
      cases hown
  · rw [hequalities] at hnil
    cases hnil

end Moguet.Plan.ConflictSoundness
