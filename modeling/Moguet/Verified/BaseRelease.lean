import Mathlib.Data.List.Chain
import Mathlib.Data.List.Perm.Basic
import Mathlib.Order.Compare
import Mathlib.Order.Lattice

/-!
# Versions with an optional release

A version is a base and, for some, a release. Releases count only between two
versions that both carry one, so versions that compare as equal need not
compare alike with a third. A scan that keeps the strictest of several bounds
therefore depends on their order; what it may keep, and what it keeps of a
given row, is described here for lower bounds. Upper bounds are lower bounds of
the dual orders.
-/

namespace Moguet.Verified.BaseRelease

/-- A base, and a release where there is one. -/
structure Version (κ ρ : Type*) where
  base : κ
  release : Option ρ
  deriving DecidableEq

variable {κ ρ : Type*} [LinearOrder κ] [LinearOrder ρ] {lhs rhs version : Version κ ρ} {base : κ}

/-! ## Comparison -/

/-- Releases are compared when both are there. -/
def compareReleases : Option ρ → Option ρ → Ordering
  | some lhs, some rhs => cmp lhs rhs
  | _, _ => .eq

def Version.compare (lhs rhs : Version κ ρ) : Ordering :=
  (cmp lhs.base rhs.base).then (compareReleases lhs.release rhs.release)

theorem compareReleases_self (release : Option ρ) : compareReleases release release = .eq := by
  cases release with
  | none => rfl
  | some r => exact cmp_self_eq_eq r

@[simp] theorem compareReleases_none_left (release : Option ρ) :
    compareReleases none release = .eq := rfl

@[simp] theorem compareReleases_none_right (release : Option ρ) :
    compareReleases release none = .eq := by
  cases release <;> rfl

theorem compareReleases_eq_gt_iff {lhs rhs : ρ} :
    compareReleases (some lhs) (some rhs) = .gt ↔ rhs < lhs := cmp_eq_gt_iff _ _

theorem compareReleases_eq_eq_iff {lhs rhs : ρ} :
    compareReleases (some lhs) (some rhs) = .eq ↔ lhs = rhs := cmp_eq_eq_iff _ _

theorem compareReleases_swap (lhs rhs : Option ρ) :
    (compareReleases lhs rhs).swap = compareReleases rhs lhs := by
  cases lhs with
  | none => simp
  | some l =>
    cases rhs with
    | none => rfl
    | some r => exact cmp_swap l r

namespace Version

theorem compare_sameBase (h : lhs.base = rhs.base) :
    lhs.compare rhs = compareReleases lhs.release rhs.release := by
  unfold compare
  rw [h, cmp_self_eq_eq]
  rfl

theorem compare_lt (h : lhs.base < rhs.base) : lhs.compare rhs = .lt := by
  unfold compare
  rw [(cmp_eq_lt_iff _ _).mpr h]
  rfl

theorem compare_gt (h : rhs.base < lhs.base) : lhs.compare rhs = .gt := by
  unfold compare
  rw [(cmp_eq_gt_iff _ _).mpr h]
  rfl

theorem compare_self (version : Version κ ρ) : version.compare version = .eq := by
  rw [compare_sameBase rfl, compareReleases_self]

theorem compare_swap (lhs rhs : Version κ ρ) : (lhs.compare rhs).swap = rhs.compare lhs := by
  unfold compare
  rw [Ordering.swap_then, cmp_swap, compareReleases_swap]

/-- Versions that compare as equal have one base. -/
theorem base_eq_of_compare (h : lhs.compare rhs = .eq) : lhs.base = rhs.base := by
  rcases lt_trichotomy lhs.base rhs.base with hlt | heq | hgt
  · rw [compare_lt hlt] at h
    cases h
  · exact heq
  · rw [compare_gt hgt] at h
    cases h

/-- A version of the dual orders. -/
def dual (version : Version κ ρ) : Version κᵒᵈ ρᵒᵈ :=
  ⟨OrderDual.toDual version.base, version.release.map OrderDual.toDual⟩

theorem compare_dual (lhs rhs : Version κ ρ) : lhs.dual.compare rhs.dual = rhs.compare lhs := by
  have hreleases : compareReleases (lhs.release.map OrderDual.toDual)
      (rhs.release.map OrderDual.toDual) = compareReleases rhs.release lhs.release := by
    cases lhs.release with
    | none => simp
    | some l =>
      cases rhs.release with
      | none => rfl
      | some r => exact cmp_toDual l r
  unfold compare dual
  rw [cmp_toDual, hreleases]

end Version

/-! ## Bounds -/

/-- A lower bound, strict or not. -/
structure Bound (κ ρ : Type*) where
  version : Version κ ρ
  strict : Bool
  deriving DecidableEq

variable {candidate current bound last first second : Bound κ ρ} {bounds row : List (Bound κ ρ)}

def Bound.stricter (candidate current : Bound κ ρ) : Bool :=
  let ordering := candidate.version.compare current.version
  ordering = .gt || (ordering = .eq && candidate.strict && !current.strict)

/-- A stricter bound takes the place of the one that is kept. -/
def keep (current : Option (Bound κ ρ)) (candidate : Bound κ ρ) : Option (Bound κ ρ) :=
  match current with
  | none => some candidate
  | some current => if candidate.stricter current then some candidate else some current

def kept (bounds : List (Bound κ ρ)) : Option (Bound κ ρ) := bounds.foldl keep none

theorem stricter_of_lt (h : current.version.base < candidate.version.base) :
    candidate.stricter current = true := by
  unfold Bound.stricter
  rw [Version.compare_gt h]
  rfl

theorem stricter_of_gt (h : candidate.version.base < current.version.base) :
    candidate.stricter current = false := by
  unfold Bound.stricter
  rw [Version.compare_lt h]
  rfl

/-- On one base a bound is stricter by its release, or by being strict. -/
theorem stricter_sameBase (h : candidate.version.base = current.version.base) :
    candidate.stricter current = true ↔
      compareReleases candidate.version.release current.version.release = .gt ∨
        compareReleases candidate.version.release current.version.release = .eq ∧
          candidate.strict = true ∧ current.strict = false := by
  unfold Bound.stricter
  rw [Version.compare_sameBase h]
  simp [and_assoc]

theorem keep_of_stricter (h : bound.stricter current = true) :
    keep (some current) bound = some bound := if_pos h

theorem keep_of_not_stricter (h : bound.stricter current = false) :
    keep (some current) bound = some current := by
  unfold keep
  dsimp only
  rw [h]
  rfl

theorem foldl_keep_some (current : Bound κ ρ) (bounds : List (Bound κ ρ)) :
    ∃ last, bounds.foldl keep (some current) = some last := by
  induction bounds generalizing current with
  | nil => exact ⟨current, rfl⟩
  | cons bound rest ih =>
    rw [List.foldl_cons]
    unfold keep
    dsimp only
    split
    · exact ih bound
    · exact ih current

theorem kept_eq_none_iff : kept bounds = none ↔ bounds = [] := by
  cases bounds with
  | nil => simp [kept]
  | cons bound rest =>
    obtain ⟨last, hlast⟩ := foldl_keep_some bound rest
    have hkept : kept (bound :: rest) = some last := hlast
    simp [hkept]

theorem kept_concat (bounds : List (Bound κ ρ)) (bound : Bound κ ρ) :
    kept (bounds ++ [bound]) = keep (kept bounds) bound := by
  unfold kept
  rw [List.foldl_append]
  rfl

/-! ## What may be kept -/

/-- A bound that no bound without a release can hide any more: it is strict, or
its release is above that of a strict bound. -/
def Unveiled (bounds : List (Bound κ ρ)) (last : Bound κ ρ) : Prop :=
  last.strict = true ∨ ∃ own, last.version.release = some own ∧
    ∃ bound ∈ bounds, bound.version.base = last.version.base ∧ bound.strict = true ∧
      ∃ release, bound.version.release = some release ∧ release < own

/-- What holds of a bound that some order of the bounds keeps. A bound without
a release hides the releases up to the next strict bound; a strict bound
without a release, when it is kept, is kept for good. -/
structure Survives (bounds : List (Bound κ ρ)) (last : Bound κ ρ) : Prop where
  mem : last ∈ bounds
  base : ∀ bound ∈ bounds, bound.version.base ≤ last.version.base
  bareStrict : ∀ bound ∈ bounds, bound.version.base = last.version.base →
    bound.strict = true → bound.version.release = none → Unveiled bounds last
  strictRelease : ∀ bound ∈ bounds, bound.version.base = last.version.base →
    bound.strict = true → ∀ release, bound.version.release = some release →
      last.version.release = none ∧ last.strict = true ∨
        ∃ own, last.version.release = some own ∧ release ≤ own ∧
          (release = own → last.strict = true)
  anyRelease : ∀ bound ∈ bounds, bound.version.base = last.version.base →
    ∀ release, bound.version.release = some release →
      last.version.release = none ∧ last.strict = true ∨
        (∃ own, last.version.release = some own ∧ release ≤ own) ∨
          (last.version.release = none ∨ Unveiled bounds last) ∧ ∃ bare ∈ bounds,
            bare.version.base = last.version.base ∧ bare.version.release = none ∧
              bare.strict = false

omit [LinearOrder κ] in
theorem Unveiled.mono {more : List (Bound κ ρ)} (hsub : bounds ⊆ more) (h : Unveiled bounds last) :
    Unveiled more last := by
  rcases h with h | ⟨own, hown, bound, hmem, hbound⟩
  · exact Or.inl h
  · exact Or.inr ⟨own, hown, bound, hsub hmem, hbound⟩

/-- A bound above all others is kept whatever came before it. -/
theorem survives_above {bounds : List (Bound κ ρ)}
    (h : ∀ other ∈ bounds, other.version.base < bound.version.base) :
    Survives (bounds ++ [bound]) bound := by
  have hself : ∀ other ∈ bounds ++ [bound],
      other.version.base = bound.version.base → other = bound := by
    intro other hmem hbase
    rcases List.mem_append.mp hmem with hmem | hmem
    · exact absurd hbase (ne_of_lt (h other hmem))
    · exact List.mem_singleton.mp hmem
  refine ⟨List.mem_append_right _ (List.mem_singleton_self _), ?_, ?_, ?_, ?_⟩
  · intro other hmem
    rcases List.mem_append.mp hmem with hmem | hmem
    · exact le_of_lt (h other hmem)
    · rw [List.mem_singleton.mp hmem]
  · intro other hmem hbase hstrict _
    rw [hself other hmem hbase] at hstrict
    exact Or.inl hstrict
  · intro other hmem hbase hstrict release hrelease
    rw [hself other hmem hbase] at hstrict hrelease
    exact Or.inr ⟨release, hrelease, le_refl _, fun _ => hstrict⟩
  · intro other hmem hbase release hrelease
    rw [hself other hmem hbase] at hrelease
    exact Or.inr (Or.inl ⟨release, hrelease, le_refl _⟩)

/-- A bound that is not stricter changes nothing. -/
theorem Survives.concat_of_not_stricter (h : Survives bounds last)
    (hnot : bound.stricter last = false) : Survives (bounds ++ [bound]) last := by
  have hsub : bounds ⊆ bounds ++ [bound] := List.subset_append_left _ _
  have hbase : bound.version.base ≤ last.version.base := by
    by_contra hlt
    rw [stricter_of_lt (not_le.mp hlt)] at hnot
    cases hnot
  -- What is not stricter on the same base is hidden, or below.
  have hsame : bound.version.base = last.version.base →
      ¬ (compareReleases bound.version.release last.version.release = .gt ∨
        compareReleases bound.version.release last.version.release = .eq ∧
          bound.strict = true ∧ last.strict = false) := by
    intro heq hstricter
    rw [(stricter_sameBase heq).mpr hstricter] at hnot
    cases hnot
  refine ⟨hsub h.mem, ?_, ?_, ?_, ?_⟩
  · intro other hmem
    rcases List.mem_append.mp hmem with hmem | hmem
    · exact h.base other hmem
    · rw [List.mem_singleton.mp hmem]
      exact hbase
  · intro other hmem heq hstrict hbare
    rcases List.mem_append.mp hmem with hmem | hmem
    · exact (h.bareStrict other hmem heq hstrict hbare).mono hsub
    · rw [List.mem_singleton.mp hmem] at heq hstrict hbare
      have hno := hsame heq
      rw [hbare] at hno
      simp only [compareReleases_none_left, hstrict, true_and, not_or] at hno
      exact Or.inl (by simpa using hno.2)
  · intro other hmem heq hstrict release hrelease
    rcases List.mem_append.mp hmem with hmem | hmem
    · exact h.strictRelease other hmem heq hstrict release hrelease
    · rw [List.mem_singleton.mp hmem] at heq hstrict hrelease
      have hno := hsame heq
      rw [hrelease] at hno
      cases hown : last.version.release with
      | none =>
        rw [hown] at hno
        simp only [compareReleases_none_right, hstrict, true_and, not_or] at hno
        exact Or.inl ⟨rfl, by simpa using hno.2⟩
      | some own =>
        rw [hown] at hno
        simp only [compareReleases_eq_gt_iff, compareReleases_eq_eq_iff, hstrict, true_and,
          not_or, not_lt, not_and] at hno
        exact Or.inr ⟨own, rfl, hno.1, fun hrel => by simpa using hno.2 hrel⟩
  · intro other hmem heq release hrelease
    rcases List.mem_append.mp hmem with hmem | hmem
    · rcases h.anyRelease other hmem heq release hrelease with hkept | hkept | ⟨hveil, bare, hbare, hrest⟩
      · exact Or.inl hkept
      · exact Or.inr (Or.inl hkept)
      · refine Or.inr (Or.inr ⟨?_, bare, hsub hbare, hrest⟩)
        exact hveil.imp id (Unveiled.mono hsub)
    · rw [List.mem_singleton.mp hmem] at heq hrelease
      have hno := hsame heq
      rw [hrelease] at hno
      cases hown : last.version.release with
      | none =>
        by_cases hstrict : last.strict = true
        · exact Or.inl ⟨rfl, hstrict⟩
        · refine Or.inr (Or.inr ⟨Or.inl rfl, last, hsub h.mem, rfl, hown, ?_⟩)
          simpa using hstrict
      | some own =>
        rw [hown] at hno
        simp only [compareReleases_eq_gt_iff, not_or, not_lt] at hno
        exact Or.inr (Or.inl ⟨own, rfl, hno.1⟩)

/-- A strict bound in the place of one that is not strict and compares as
equal. -/
theorem Survives.concat_of_strict (h : Survives bounds last)
    (hbase : bound.version.base = last.version.base)
    (hequal : compareReleases bound.version.release last.version.release = .eq)
    (hstrict : bound.strict = true) (hlast : last.strict = false) :
    Survives (bounds ++ [bound]) bound := by
  have hsub : bounds ⊆ bounds ++ [bound] := List.subset_append_left _ _
  -- The release of the new bound, when it has one, is the one before it.
  have hsame : ∀ own release, last.version.release = some own →
      bound.version.release = some release → own = release := by
    intro own release hown hrelease
    rw [hown, hrelease] at hequal
    exact ((cmp_eq_eq_iff _ _).mp hequal).symm
  refine ⟨List.mem_append_right _ (List.mem_singleton_self _), ?_, ?_, ?_, ?_⟩
  · intro other hmem
    rcases List.mem_append.mp hmem with hmem | hmem
    · rw [hbase]
      exact h.base other hmem
    · rw [List.mem_singleton.mp hmem]
  · intro other _ _ _ _
    exact Or.inl hstrict
  · intro other hmem heq hother release hrelease
    cases hown : bound.version.release with
    | none => exact Or.inl ⟨rfl, hstrict⟩
    | some own =>
      refine Or.inr ⟨own, rfl, ?_, fun _ => hstrict⟩
      rcases List.mem_append.mp hmem with hmem | hmem
      · rcases h.strictRelease other hmem (heq.trans hbase) hother release hrelease with
          ⟨-, hkept⟩ | ⟨kept, hkept, hle, -⟩
        · rw [hlast] at hkept
          cases hkept
        · exact le_of_le_of_eq hle (hsame kept own hkept hown)
      · rw [List.mem_singleton.mp hmem, hown] at hrelease
        exact le_of_eq (Option.some.inj hrelease).symm
  · intro other hmem heq release hrelease
    cases hown : bound.version.release with
    | none => exact Or.inl ⟨rfl, hstrict⟩
    | some own =>
      refine Or.inr ?_
      rcases List.mem_append.mp hmem with hmem | hmem
      · rcases h.anyRelease other hmem (heq.trans hbase) release hrelease with
          ⟨-, hkept⟩ | ⟨kept, hkept, hle⟩ | ⟨-, bare, hbare, hbareBase, hrest⟩
        · rw [hlast] at hkept
          cases hkept
        · exact Or.inl ⟨own, rfl, le_of_le_of_eq hle (hsame kept own hkept hown)⟩
        · exact Or.inr ⟨Or.inr (Or.inl hstrict), bare, hsub hbare, hbareBase.trans hbase.symm,
            hrest⟩
      · rw [List.mem_singleton.mp hmem, hown] at hrelease
        exact Or.inl ⟨own, rfl, le_of_eq (Option.some.inj hrelease).symm⟩

/-- A higher release in the place of a lower one. -/
theorem Survives.concat_of_release (h : Survives bounds last)
    (hbase : bound.version.base = last.version.base) {own release : ρ}
    (hown : last.version.release = some own) (hrelease : bound.version.release = some release)
    (hlt : own < release) : Survives (bounds ++ [bound]) bound := by
  have hsub : bounds ⊆ bounds ++ [bound] := List.subset_append_left _ _
  have hunveiled : Unveiled bounds last → Unveiled (bounds ++ [bound]) bound := by
    rintro (hstrict | ⟨kept, hkept, met, hmet, hmetBase, hmetStrict, lower, hlower, hbelow⟩)
    · exact Or.inr ⟨release, hrelease, last, hsub h.mem, hbase.symm, hstrict, own, hown, hlt⟩
    · rw [hown] at hkept
      refine Or.inr ⟨release, hrelease, met, hsub hmet, hmetBase.trans hbase.symm, hmetStrict,
        lower, hlower, lt_trans ?_ hlt⟩
      rw [Option.some.inj hkept]
      exact hbelow
  refine ⟨List.mem_append_right _ (List.mem_singleton_self _), ?_, ?_, ?_, ?_⟩
  · intro other hmem
    rcases List.mem_append.mp hmem with hmem | hmem
    · rw [hbase]
      exact h.base other hmem
    · rw [List.mem_singleton.mp hmem]
  · intro other hmem heq hother hbare
    rcases List.mem_append.mp hmem with hmem | hmem
    · exact hunveiled (h.bareStrict other hmem (heq.trans hbase) hother hbare)
    · rw [List.mem_singleton.mp hmem, hrelease] at hbare
      cases hbare
  · intro other hmem heq hother lower hlower
    refine Or.inr ⟨release, hrelease, ?_⟩
    rcases List.mem_append.mp hmem with hmem | hmem
    · rcases h.strictRelease other hmem (heq.trans hbase) hother lower hlower with
        ⟨hnone, -⟩ | ⟨kept, hkept, hle, -⟩
      · rw [hown] at hnone
        cases hnone
      · rw [hown] at hkept
        have hbelow : lower < release :=
          lt_of_le_of_lt (le_of_le_of_eq hle (Option.some.inj hkept).symm) hlt
        exact ⟨le_of_lt hbelow, fun heq => absurd heq (ne_of_lt hbelow)⟩
    · rw [List.mem_singleton.mp hmem] at hother hlower
      rw [hrelease] at hlower
      exact ⟨le_of_eq (Option.some.inj hlower).symm, fun _ => hother⟩
  · intro other hmem heq lower hlower
    refine Or.inr ?_
    rcases List.mem_append.mp hmem with hmem | hmem
    · rcases h.anyRelease other hmem (heq.trans hbase) lower hlower with
        ⟨hnone, -⟩ | ⟨kept, hkept, hle⟩ | ⟨hveil, bare, hbare, hbareBase, hrest⟩
      · rw [hown] at hnone
        cases hnone
      · rw [hown] at hkept
        refine Or.inl ⟨release, hrelease, le_of_lt ?_⟩
        exact lt_of_le_of_lt (le_of_le_of_eq hle (Option.some.inj hkept).symm) hlt
      · refine Or.inr ⟨Or.inr ?_, bare, hsub hbare, hbareBase.trans hbase.symm, hrest⟩
        rcases hveil with hnone | hveil
        · rw [hown] at hnone
          cases hnone
        · exact hunveiled hveil
    · rw [List.mem_singleton.mp hmem, hrelease] at hlower
      exact Or.inl ⟨release, hrelease, le_of_eq (Option.some.inj hlower).symm⟩

/-- One more bound: it is kept, or what was kept still is. -/
theorem Survives.concat (h : Survives bounds last) (bound : Bound κ ρ) :
    Survives (bounds ++ [bound]) (if bound.stricter last then bound else last) := by
  by_cases hstricter : bound.stricter last = true
  · rw [if_pos hstricter]
    rcases lt_trichotomy last.version.base bound.version.base with hlt | heq | hgt
    · exact survives_above fun other hmem => lt_of_le_of_lt (h.base other hmem) hlt
    · rcases (stricter_sameBase heq.symm).mp hstricter with hgreater | ⟨hequal, hstrict, hlast⟩
      · cases hown : last.version.release with
        | none =>
          rw [hown, compareReleases_none_right] at hgreater
          cases hgreater
        | some own =>
          cases hrelease : bound.version.release with
          | none =>
            rw [hrelease, compareReleases_none_left] at hgreater
            cases hgreater
          | some release =>
            rw [hown, hrelease] at hgreater
            exact h.concat_of_release heq.symm hown hrelease ((cmp_eq_gt_iff _ _).mp hgreater)
      · exact h.concat_of_strict heq.symm hequal hstrict hlast
    · rw [stricter_of_gt hgt] at hstricter
      cases hstricter
  · rw [if_neg hstricter]
    exact h.concat_of_not_stricter (by simpa using hstricter)

/-- What a scan keeps survives in its row of bounds. -/
theorem kept_survives : ∀ {last : Bound κ ρ}, kept bounds = some last → Survives bounds last := by
  induction bounds using List.reverseRecOn with
  | nil =>
    intro last h
    cases h
  | append_singleton bounds bound ih =>
    intro last h
    rw [kept_concat] at h
    cases hkept : kept bounds with
    | none =>
      rw [hkept] at h
      have hbounds := kept_eq_none_iff.mp hkept
      have hlast : bound = last := Option.some.inj h
      rw [hbounds, ← hlast]
      exact survives_above (by simp)
    | some current =>
      rw [hkept] at h
      have hlast : (if bound.stricter current then bound else current) = last := by
        apply Option.some.inj
        rw [← h]
        unfold keep
        dsimp only
        split <;> rfl
      rw [← hlast]
      exact (ih hkept).concat bound

/-! ## An order that keeps a bound -/

theorem foldl_keep_of_not_stricter {row : List (Bound κ ρ)}
    (h : ∀ bound ∈ row, bound.stricter current = false) :
    row.foldl keep (some current) = some current := by
  induction row with
  | nil => rfl
  | cons bound rest ih =>
    have hbound := h bound List.mem_cons_self
    rw [List.foldl_cons, keep_of_not_stricter hbound]
    exact ih fun other hmem => h other (List.mem_cons_of_mem _ hmem)

/-- What a bound hides is passed over up to the next stricter one. -/
theorem foldl_keep_hidden {next : Bound κ ρ} {hidden rest : List (Bound κ ρ)}
    (hhidden : ∀ bound ∈ hidden, bound.stricter current = false)
    (hnext : next.stricter current = true) :
    (hidden ++ next :: rest).foldl keep (some current) = rest.foldl keep (some next) := by
  rw [List.foldl_append, foldl_keep_of_not_stricter hhidden, List.foldl_cons,
    keep_of_stricter hnext]

/-- What is stricter than a bound that survives: a strict bound without a
release, or a higher release that is not strict. Another bound hides it. -/
theorem Survives.stricter_cases (h : Survives bounds last) (hmem : bound ∈ bounds)
    (hstricter : bound.stricter last = true) :
    bound.version.base = last.version.base ∧ last.version.release ≠ none ∧ Unveiled bounds last ∧
      (bound.version.release = none ∧ bound.strict = true ∧ last.strict = false ∨
        bound.strict = false ∧ bound.version.release ≠ none ∧
          ∃ bare ∈ bounds, bare.version.base = last.version.base ∧
            bare.version.release = none ∧ bare.strict = false) := by
  have hbase : bound.version.base = last.version.base := by
    by_contra hne
    rw [stricter_of_gt (lt_of_le_of_ne (h.base bound hmem) hne)] at hstricter
    cases hstricter
  refine ⟨hbase, ?_⟩
  have hunveiledRelease : Unveiled bounds last → last.strict = false →
      last.version.release ≠ none := by
    rintro (hstrict | ⟨own, hown, -⟩) hlast
    · rw [hlast] at hstrict
      cases hstrict
    · rw [hown]
      exact Option.some_ne_none _
  rcases (stricter_sameBase hbase).mp hstricter with hgreater | ⟨hequal, hstrict, hlast⟩
  · cases hown : last.version.release with
    | none =>
      rw [hown, compareReleases_none_right] at hgreater
      cases hgreater
    | some own =>
      cases hrelease : bound.version.release with
      | none =>
        rw [hrelease, compareReleases_none_left] at hgreater
        cases hgreater
      | some release =>
        rw [hown, hrelease] at hgreater
        have hlt : own < release := (cmp_eq_gt_iff _ _).mp hgreater
        have hplain : bound.strict = false := by
          by_contra hstrict
          rcases h.strictRelease bound hmem hbase (by simpa using hstrict) release hrelease
            with ⟨hnone, -⟩ | ⟨kept, hkept, hle, -⟩
          · rw [hown] at hnone
            cases hnone
          · rw [hown] at hkept
            exact absurd hlt (not_lt.mpr (le_of_le_of_eq hle (Option.some.inj hkept).symm))
        rcases h.anyRelease bound hmem hbase release hrelease with
          ⟨hnone, -⟩ | ⟨kept, hkept, hle⟩ | ⟨hveil, hbare⟩
        · rw [hown] at hnone
          cases hnone
        · rw [hown] at hkept
          exact absurd hlt (not_lt.mpr (le_of_le_of_eq hle (Option.some.inj hkept).symm))
        · refine ⟨Option.some_ne_none _, ?_, Or.inr ⟨hplain, Option.some_ne_none _, hbare⟩⟩
          exact hveil.resolve_left (by rw [hown]; exact Option.some_ne_none _)
  · cases hrelease : bound.version.release with
    | none =>
      have hunveiled := h.bareStrict bound hmem hbase hstrict hrelease
      exact ⟨hunveiledRelease hunveiled hlast, hunveiled, Or.inl ⟨rfl, hstrict, hlast⟩⟩
    | some release =>
      rcases h.strictRelease bound hmem hbase hstrict release hrelease with
        ⟨-, hkept⟩ | ⟨own, hown, -, hsame⟩
      · rw [hlast] at hkept
        cases hkept
      · rw [hown, hrelease] at hequal
        have hkept := hsame ((cmp_eq_eq_iff _ _).mp hequal)
        rw [hlast] at hkept
        cases hkept

/-- An opening bound that hides all that is stricter than another, and gives
way to it. -/
theorem exists_kept_of_opening {opening : Bound κ ρ} (hopening : opening ∈ bounds)
    (hlast : last ∈ bounds)
    (hhide : ∀ bound ∈ bounds, bound.stricter last = true → bound.stricter opening = false)
    (hgives : last.stricter opening = true) : ∃ row, row.Perm bounds ∧ kept row = some last := by
  have hne : last ≠ opening := by
    rintro rfl
    have hself := hhide last hlast hgives
    rw [hgives] at hself
    cases hself
  have hrest : last ∈ bounds.erase opening := (List.mem_erase_of_ne hne).mpr hlast
  let rest := (bounds.erase opening).erase last
  have hmem : ∀ bound ∈ rest, bound ∈ bounds := fun bound h =>
    List.mem_of_mem_erase (List.mem_of_mem_erase h)
  refine ⟨opening :: (rest.filter (·.stricter last) ++
    last :: rest.filter fun bound => !bound.stricter last), ?_, ?_⟩
  · have hsplit := List.filter_append_perm (fun bound : Bound κ ρ => bound.stricter last) rest
    calc List.Perm (opening :: (rest.filter (·.stricter last) ++
            last :: rest.filter fun bound => !bound.stricter last))
          (opening :: last :: (rest.filter (·.stricter last) ++
            rest.filter fun bound => !bound.stricter last)) :=
          List.Perm.cons _ List.perm_middle
      List.Perm _ (opening :: last :: rest) := List.Perm.cons _ (List.Perm.cons _ hsplit)
      List.Perm _ (opening :: bounds.erase opening) :=
          List.Perm.cons _ (List.perm_cons_erase hrest).symm
      List.Perm _ bounds := (List.perm_cons_erase hopening).symm
  · show (rest.filter (·.stricter last) ++ _).foldl keep (some opening) = some last
    rw [foldl_keep_hidden _ hgives]
    · apply foldl_keep_of_not_stricter
      intro bound hbound
      simpa using (List.mem_filter.mp hbound).2
    · intro bound hbound
      obtain ⟨hbound, hstricter⟩ := List.mem_filter.mp hbound
      exact hhide bound (hmem bound hbound) hstricter

/-- Two bounds that open one after the other: the first hides what is not
strict, the second what is. -/
theorem exists_kept_of_two (hfirst : first ∈ bounds) (hsecond : second ∈ bounds)
    (hlast : last ∈ bounds)
    (hfirstHides : ∀ bound ∈ bounds, bound.stricter last = true → bound.strict = false →
      bound.stricter first = false) (hsecondGives : second.stricter first = true)
    (hsecondHides : ∀ bound ∈ bounds, bound.stricter last = true → bound.strict = true →
      bound.stricter second = false) (hlastGives : last.stricter second = true) (hne : last ≠ first)
    (hdistinct : second ≠ first) (hother : last ≠ second) :
    ∃ row, row.Perm bounds ∧ kept row = some last := by
  have hsecondRest : second ∈ bounds.erase first := (List.mem_erase_of_ne hdistinct).mpr hsecond
  have hlastRest : last ∈ (bounds.erase first).erase second :=
    (List.mem_erase_of_ne hother).mpr ((List.mem_erase_of_ne hne).mpr hlast)
  let rest := ((bounds.erase first).erase second).erase last
  have hmem : ∀ bound ∈ rest, bound ∈ bounds := fun bound h =>
    List.mem_of_mem_erase (List.mem_of_mem_erase (List.mem_of_mem_erase h))
  let stricter := rest.filter (·.stricter last)
  let plain := stricter.filter fun bound => !bound.strict
  let strict := stricter.filter fun bound => !!bound.strict
  let others := rest.filter fun bound => !bound.stricter last
  refine ⟨first :: (plain ++ second :: (strict ++ last :: others)), ?_, ?_⟩
  · have hstricter : (plain ++ strict).Perm stricter :=
      List.filter_append_perm (fun bound : Bound κ ρ => !bound.strict) stricter
    have hsplit : (stricter ++ others).Perm rest :=
      List.filter_append_perm (fun bound : Bound κ ρ => bound.stricter last) rest
    have hinner : (plain ++ (strict ++ last :: others)).Perm (last :: rest) := by
      calc List.Perm (plain ++ (strict ++ last :: others)) (plain ++ strict ++ last :: others) := by
            rw [List.append_assoc]
        List.Perm _ (last :: (plain ++ strict ++ others)) := List.perm_middle
        List.Perm _ (last :: (stricter ++ others)) :=
            List.Perm.cons _ (hstricter.append_right others)
        List.Perm _ (last :: rest) := List.Perm.cons _ hsplit
    calc List.Perm (first :: (plain ++ second :: (strict ++ last :: others)))
          (first :: second :: (plain ++ (strict ++ last :: others))) :=
          List.Perm.cons _ List.perm_middle
      List.Perm _ (first :: second :: last :: rest) :=
          List.Perm.cons _ (List.Perm.cons _ hinner)
      List.Perm _ (first :: second :: (bounds.erase first).erase second) :=
          List.Perm.cons _ (List.Perm.cons _ (List.perm_cons_erase hlastRest).symm)
      List.Perm _ (first :: bounds.erase first) :=
          List.Perm.cons _ (List.perm_cons_erase hsecondRest).symm
      List.Perm _ bounds := (List.perm_cons_erase hfirst).symm
  · show (plain ++ second :: (strict ++ last :: others)).foldl keep (some first) = some last
    rw [foldl_keep_hidden _ hsecondGives, foldl_keep_hidden _ hlastGives]
    · apply foldl_keep_of_not_stricter
      intro bound hbound
      simpa using (List.mem_filter.mp hbound).2
    · intro bound hbound
      obtain ⟨hbound, hstrict⟩ := List.mem_filter.mp hbound
      obtain ⟨hbound, hstricter⟩ := List.mem_filter.mp hbound
      exact hsecondHides bound (hmem bound hbound) hstricter (by simpa using hstrict)
    · intro bound hbound
      obtain ⟨hbound, hplain⟩ := List.mem_filter.mp hbound
      obtain ⟨hbound, hstricter⟩ := List.mem_filter.mp hbound
      exact hfirstHides bound (hmem bound hbound) hstricter (by simpa using hplain)

/-- On one base a bound without a release only gives way to a strict one. -/
theorem stricter_bare_iff {bare : Bound κ ρ} (hbase : bound.version.base = bare.version.base)
    (hbare : bare.version.release = none) (hplain : bare.strict = false) :
    bound.stricter bare = bound.strict := by
  have hiff := stricter_sameBase hbase
  rw [hbare, compareReleases_none_right, hplain] at hiff
  cases hstrict : bound.strict with
  | true => exact hiff.mpr (Or.inr ⟨rfl, hstrict, rfl⟩)
  | false =>
    by_contra hne
    rcases hiff.mp (by simpa using hne) with h | ⟨-, h, -⟩
    · cases h
    · rw [hstrict] at h
      cases h

/-- Every bound that survives is kept in some order. -/
theorem exists_kept_of_survives (h : Survives bounds last) :
    ∃ row, row.Perm bounds ∧ kept row = some last := by
  by_cases hnone : ∀ bound ∈ bounds, bound.stricter last = false
  · refine ⟨last :: bounds.erase last, (List.perm_cons_erase h.mem).symm, ?_⟩
    show (bounds.erase last).foldl keep (some last) = some last
    exact foldl_keep_of_not_stricter fun bound hmem => hnone bound (List.mem_of_mem_erase hmem)
  · simp only [not_forall, Bool.not_eq_false] at hnone
    obtain ⟨witness, hwitness, hstricter⟩ := hnone
    obtain ⟨-, hrelease, hunveiled, -⟩ := h.stricter_cases hwitness hstricter
    rcases hunveiled with hstrict | ⟨own, hown, second, hsecond, hsecondBase, hsecondStrict,
      release, hsecondRelease, hlt⟩
    · -- A strict bound: only releases that are not strict come before it.
      have hplain : ∀ bound ∈ bounds, bound.stricter last = true → bound.strict = false := by
        intro bound hmem hbound
        rcases (h.stricter_cases hmem hbound).2.2.2 with ⟨-, -, hlast⟩ | ⟨hplain, -, -⟩
        · rw [hstrict] at hlast
          cases hlast
        · exact hplain
      rcases (h.stricter_cases hwitness hstricter).2.2.2 with
        ⟨-, -, hlast⟩ | ⟨-, -, bare, hbare, hbareBase, hbareRelease, hbarePlain⟩
      · rw [hstrict] at hlast
        cases hlast
      · apply exists_kept_of_opening hbare h.mem
        · intro bound hmem hbound
          rw [stricter_bare_iff ((h.stricter_cases hmem hbound).1.trans hbareBase.symm)
            hbareRelease hbarePlain]
          exact hplain bound hmem hbound
        · rw [stricter_bare_iff hbareBase.symm hbareRelease hbarePlain]
          exact hstrict
    · have hgives : last.stricter second = true := by
        apply (stricter_sameBase hsecondBase.symm).mpr
        rw [hown, hsecondRelease]
        exact Or.inl ((cmp_eq_gt_iff _ _).mpr hlt)
      -- A strict release hides the strict bounds without one.
      have hhidesBare : ∀ bound ∈ bounds, bound.stricter last = true → bound.strict = true →
          bound.stricter second = false := by
        intro bound hmem hbound hboundStrict
        obtain ⟨hbase, -, -, ⟨hnone, -, -⟩ | ⟨hplain, -, -⟩⟩ := h.stricter_cases hmem hbound
        · by_contra hne
          rcases (stricter_sameBase (hbase.trans hsecondBase.symm)).mp (by simpa using hne) with
            hgreater | ⟨-, -, hweak⟩
          · rw [hnone, compareReleases_none_left] at hgreater
            cases hgreater
          · rw [hsecondStrict] at hweak
            cases hweak
        · rw [hboundStrict] at hplain
          cases hplain
      by_cases hsome : ∃ bound ∈ bounds, bound.stricter last = true ∧ bound.strict = false
      · obtain ⟨bound, hmem, hbound, hboundPlain⟩ := hsome
        obtain ⟨-, -, -, ⟨-, hboundStrict, -⟩ |
          ⟨-, -, bare, hbare, hbareBase, hbareRelease, hbarePlain⟩⟩ := h.stricter_cases hmem hbound
        · rw [hboundPlain] at hboundStrict
          cases hboundStrict
        · apply exists_kept_of_two hbare hsecond h.mem
          · intro other hother hotherStricter hotherPlain
            rw [stricter_bare_iff ((h.stricter_cases hother hotherStricter).1.trans hbareBase.symm)
              hbareRelease hbarePlain]
            exact hotherPlain
          · rw [stricter_bare_iff (hsecondBase.trans hbareBase.symm) hbareRelease hbarePlain]
            exact hsecondStrict
          · exact hhidesBare
          · exact hgives
          · rintro rfl
            exact hrelease hbareRelease
          · rintro rfl
            rw [hbareRelease] at hsecondRelease
            cases hsecondRelease
          · rintro rfl
            rw [hown] at hsecondRelease
            exact absurd hlt (not_lt.mpr (le_of_eq (Option.some.inj hsecondRelease)))
      · apply exists_kept_of_opening hsecond h.mem _ hgives
        intro bound hmem hbound
        apply hhidesBare bound hmem hbound
        by_contra hplain
        exact hsome ⟨bound, hmem, hbound, by simpa using hplain⟩

/-! ## What the given order keeps -/

/-- The bounds on a base. -/
def onBase (base : κ) (bounds : List (Bound κ ρ)) : List (Bound κ ρ) :=
  bounds.filter fun bound => bound.version.base = base

omit [LinearOrder ρ] in
theorem mem_onBase : bound ∈ onBase base bounds ↔ bound ∈ bounds ∧ bound.version.base = base := by
  simp [onBase]

/-- Bounds below the highest base do not count. -/
theorem kept_onBase (h : ∀ bound ∈ bounds, bound.version.base ≤ base)
    (hne : onBase base bounds ≠ []) : kept bounds = kept (onBase base bounds) := by
  induction bounds using List.reverseRecOn with
  | nil => rfl
  | append_singleton bounds bound ih =>
    have hfront : ∀ other ∈ bounds, other.version.base ≤ base := fun other hmem =>
      h other (List.mem_append_left _ hmem)
    by_cases hbase : bound.version.base = base
    · have hsplit : onBase base (bounds ++ [bound]) = onBase base bounds ++ [bound] := by
        simp [onBase, hbase]
      rw [hsplit, kept_concat, kept_concat]
      by_cases hnil : onBase base bounds = []
      · rw [hnil]
        cases hkept : kept bounds with
        | none => rfl
        | some current =>
          have hmem := (kept_survives hkept).mem
          have hlt : current.version.base < bound.version.base := by
            rw [hbase]
            apply lt_of_le_of_ne (hfront current hmem)
            intro heq
            have hon : current ∈ onBase base bounds := mem_onBase.mpr ⟨hmem, heq⟩
            rw [hnil] at hon
            cases hon
          exact keep_of_stricter (stricter_of_lt hlt)
      · rw [ih hfront hnil]
    · have hsplit : onBase base (bounds ++ [bound]) = onBase base bounds := by
        simp [onBase, hbase]
      rw [hsplit] at hne ⊢
      rw [kept_concat, ih hfront hne]
      cases hkept : kept (onBase base bounds) with
      | none => exact absurd (kept_eq_none_iff.mp hkept) hne
      | some current =>
        have hcurrent := (mem_onBase.mp (kept_survives hkept).mem).2
        have hlt : bound.version.base < current.version.base := by
          rw [hcurrent]
          exact lt_of_le_of_ne (h bound (by simp)) hbase
        exact keep_of_not_stricter (stricter_of_gt hlt)

/-- The bounds whose releases count: all of them when the first one carries a
release, else those from the first strict one on. -/
def counted (row : List (Bound κ ρ)) : List (Bound κ ρ) :=
  let counting := if (row.head?.bind (·.version.release)).isSome then row
    else row.dropWhile fun bound => !bound.strict
  counting.filter (·.version.release.isSome)

omit [LinearOrder κ] [LinearOrder ρ] in
theorem mem_of_mem_counted (h : bound ∈ counted row) : bound ∈ row := by
  unfold counted at h
  have hmem := (List.mem_filter.mp h).1
  split at hmem
  · exact hmem
  · exact (List.dropWhile_sublist _).mem hmem

/-- A release below another one, or the same and no stricter. -/
def Below (lower upper : Bound κ ρ) : Prop :=
  ∃ release own, lower.version.release = some release ∧ upper.version.release = some own ∧
    (release < own ∨ release = own ∧ (lower.strict = true → upper.strict = true))

omit [LinearOrder κ] in
theorem Below.refl (h : bound.version.release ≠ none) : Below bound bound := by
  obtain ⟨release, hrelease⟩ := Option.ne_none_iff_exists'.mp h
  exact ⟨release, release, hrelease, hrelease, Or.inr ⟨rfl, id⟩⟩

omit [LinearOrder κ] in
theorem Below.trans {third : Bound κ ρ} (h : Below first second) (h' : Below second third) :
    Below first third := by
  obtain ⟨release, middle, hrelease, hmiddle, hcompare⟩ := h
  obtain ⟨middle', own, hmiddle', hown, hcompare'⟩ := h'
  rw [hmiddle] at hmiddle'
  obtain rfl := Option.some.inj hmiddle'
  refine ⟨release, own, hrelease, hown, ?_⟩
  rcases hcompare with hlt | ⟨rfl, himp⟩
  · rcases hcompare' with hlt' | ⟨rfl, -⟩
    · exact Or.inl (lt_trans hlt hlt')
    · exact Or.inl hlt
  · rcases hcompare' with hlt' | ⟨rfl, himp'⟩
    · exact Or.inl hlt'
    · exact Or.inr ⟨rfl, himp' ∘ himp⟩

/-- Between two releases on one base the stricter bound is the one above. -/
theorem below_or_stricter (hbase : bound.version.base = current.version.base)
    (hcurrent : current.version.release ≠ none) (hbound : bound.version.release ≠ none) :
    (bound.stricter current = true ∧ Below current bound) ∨
      (bound.stricter current = false ∧ Below bound current) := by
  obtain ⟨own, hown⟩ := Option.ne_none_iff_exists'.mp hcurrent
  obtain ⟨release, hrelease⟩ := Option.ne_none_iff_exists'.mp hbound
  have hiff := stricter_sameBase hbase
  rw [hown, hrelease] at hiff
  simp only [compareReleases_eq_gt_iff, compareReleases_eq_eq_iff] at hiff
  by_cases hstricter : bound.stricter current = true
  · refine Or.inl ⟨hstricter, own, release, hown, hrelease, ?_⟩
    rcases hiff.mp hstricter with hlt | ⟨heq, hstrict, -⟩
    · exact Or.inl hlt
    · exact Or.inr ⟨heq.symm, fun _ => hstrict⟩
  · refine Or.inr ⟨by simpa using hstricter, release, own, hrelease, hown, ?_⟩
    have hno := mt hiff.mpr hstricter
    simp only [not_or, not_lt, not_and, Bool.not_eq_false] at hno
    rcases lt_or_eq_of_le hno.1 with hlt | heq
    · exact Or.inl hlt
    · exact Or.inr ⟨heq, hno.2 heq⟩

/-- The highest of a row: every other one is below it. -/
structure Highest (row : List (Bound κ ρ)) (bound : Bound κ ρ) : Prop where
  mem : bound ∈ row
  below : ∀ other ∈ row, Below other bound

/-- Once a release is kept only releases count. -/
theorem foldl_keep_release {rest : List (Bound κ ρ)} :
    ∀ {current last : Bound κ ρ}, current.version.base = base →
      current.version.release ≠ none → (∀ bound ∈ rest, bound.version.base = base) →
      (∀ bound ∈ rest, bound.strict = true → bound.version.release ≠ none) →
      rest.foldl keep (some current) = some last →
      Highest (current :: rest.filter (·.version.release.isSome)) last := by
  induction rest with
  | nil =>
    intro current last _ hrelease _ _ h
    obtain rfl := Option.some.inj h
    refine ⟨List.mem_singleton_self _, ?_⟩
    intro other hmem
    rw [List.mem_singleton.mp hmem]
    exact Below.refl hrelease
  | cons bound rest ih =>
    intro current last hcurrent hrelease hbase hbare h
    have hrest : ∀ other ∈ rest, other.version.base = base := fun other hmem =>
      hbase other (List.mem_cons_of_mem _ hmem)
    have hrestBare : ∀ other ∈ rest, other.strict = true → other.version.release ≠ none :=
      fun other hmem => hbare other (List.mem_cons_of_mem _ hmem)
    have hsame : bound.version.base = current.version.base :=
      (hbase bound List.mem_cons_self).trans hcurrent.symm
    rw [List.foldl_cons] at h
    by_cases hnone : bound.version.release = none
    · have hplain : bound.strict = false := by
        by_contra hstrict
        exact hbare bound List.mem_cons_self (by simpa using hstrict) hnone
      have hnot : bound.stricter current = false := by
        by_contra hstricter
        rcases (stricter_sameBase hsame).mp (by simpa using hstricter) with hgreater | ⟨-, hs, -⟩
        · rw [hnone, compareReleases_none_left] at hgreater
          cases hgreater
        · rw [hplain] at hs
          cases hs
      rw [keep_of_not_stricter hnot] at h
      have hskip : (bound :: rest).filter (·.version.release.isSome) =
          rest.filter (·.version.release.isSome) := by
        simp [hnone]
      rw [hskip]
      exact ih hcurrent hrelease hrest hrestBare h
    · have htake : (bound :: rest).filter (·.version.release.isSome) =
          bound :: rest.filter (·.version.release.isSome) := by
        rw [List.filter_cons_of_pos]
        exact Option.isSome_iff_ne_none.mpr hnone
      rw [htake]
      rcases below_or_stricter hsame hrelease hnone with ⟨hstricter, hbelow⟩ | ⟨hnot, hbelow⟩
      · rw [keep_of_stricter hstricter] at h
        have hlast := ih (hbase bound List.mem_cons_self) hnone hrest hrestBare h
        refine ⟨List.mem_cons_of_mem _ hlast.mem, ?_⟩
        intro other hmem
        rcases List.mem_cons.mp hmem with rfl | hmem
        · exact hbelow.trans (hlast.below bound List.mem_cons_self)
        · exact hlast.below other hmem
      · rw [keep_of_not_stricter hnot] at h
        have hlast := ih hcurrent hrelease hrest hrestBare h
        refine ⟨?_, ?_⟩
        · rcases List.mem_cons.mp hlast.mem with heq | hmem
          · rw [heq]
            exact List.mem_cons_self
          · exact List.mem_cons_of_mem _ (List.mem_cons_of_mem _ hmem)
        · intro other hmem
          rcases List.mem_cons.mp hmem with rfl | hmem
          · exact hlast.below other List.mem_cons_self
          · rcases List.mem_cons.mp hmem with rfl | hmem
            · exact hbelow.trans (hlast.below current List.mem_cons_self)
            · exact hlast.below other (List.mem_cons_of_mem _ hmem)

/-- A bound without a release is kept up to the first strict one. -/
theorem foldl_keep_bare {rest : List (Bound κ ρ)} (hcurrent : current.version.base = base)
    (hnone : current.version.release = none) (hplain : current.strict = false) :
    (∀ bound ∈ rest, bound.version.base = base) →
      (∀ bound ∈ rest, bound.strict = true → bound.version.release ≠ none) →
      rest.foldl keep (some current) = some last →
      ((rest.dropWhile fun bound => !bound.strict).filter (·.version.release.isSome) = [] ∧
          last = current) ∨
        Highest ((rest.dropWhile fun bound => !bound.strict).filter (·.version.release.isSome))
          last := by
  induction rest with
  | nil =>
    intro _ _ h
    exact Or.inl ⟨rfl, (Option.some.inj h).symm⟩
  | cons bound rest ih =>
    intro hbase hbare h
    have hrest : ∀ other ∈ rest, other.version.base = base := fun other hmem =>
      hbase other (List.mem_cons_of_mem _ hmem)
    have hrestBare : ∀ other ∈ rest, other.strict = true → other.version.release ≠ none :=
      fun other hmem => hbare other (List.mem_cons_of_mem _ hmem)
    have hbound := hbase bound List.mem_cons_self
    have hstricter := stricter_bare_iff (hbound.trans hcurrent.symm) hnone hplain
    rw [List.foldl_cons] at h
    cases hstrict : bound.strict with
    | false =>
      rw [hstrict] at hstricter
      rw [keep_of_not_stricter hstricter] at h
      have hskip : (bound :: rest).dropWhile (fun other => !other.strict) =
          rest.dropWhile fun other => !other.strict := by
        simp [hstrict]
      rw [hskip]
      exact ih hrest hrestBare h
    | true =>
      rw [hstrict] at hstricter
      rw [keep_of_stricter hstricter] at h
      have hrelease := hbare bound List.mem_cons_self hstrict
      have htake : ((bound :: rest).dropWhile fun other => !other.strict).filter
          (·.version.release.isSome) = bound :: rest.filter (·.version.release.isSome) := by
        simp [hstrict, Option.isSome_iff_ne_none, hrelease]
      rw [htake]
      exact Or.inr (foldl_keep_release hbound hrelease hrest hrestBare h)

/-- On one base, where no strict bound is without a release, the highest of the
counted bounds is kept, or a bound without a release when none counts. -/
theorem kept_of_sameBase (hbase : ∀ bound ∈ row, bound.version.base = base)
    (hbare : ∀ bound ∈ row, bound.strict = true → bound.version.release ≠ none)
    (h : kept row = some last) :
    (counted row = [] ∧ last.version.release = none ∧ last.strict = false) ∨
      Highest (counted row) last := by
  cases row with
  | nil => cases h
  | cons first rest =>
    have hfold : rest.foldl keep (some first) = some last := h
    have hrest : ∀ other ∈ rest, other.version.base = base := fun other hmem =>
      hbase other (List.mem_cons_of_mem _ hmem)
    have hrestBare : ∀ other ∈ rest, other.strict = true → other.version.release ≠ none :=
      fun other hmem => hbare other (List.mem_cons_of_mem _ hmem)
    have hfirst := hbase first List.mem_cons_self
    by_cases hnone : first.version.release = none
    · have hplain : first.strict = false := by
        by_contra hstrict
        exact hbare first List.mem_cons_self (by simpa using hstrict) hnone
      have hcounted : counted (first :: rest) =
          (rest.dropWhile fun bound => !bound.strict).filter (·.version.release.isSome) := by
        simp [counted, hnone, hplain]
      rw [hcounted]
      rcases foldl_keep_bare hfirst hnone hplain hrest hrestBare hfold with ⟨hnil, rfl⟩ | hlast
      · exact Or.inl ⟨hnil, hnone, hplain⟩
      · exact Or.inr hlast
    · have hcounted : counted (first :: rest) =
          first :: rest.filter (·.version.release.isSome) := by
        simp [counted, Option.isSome_iff_ne_none, hnone]
      rw [hcounted]
      exact Or.inr (foldl_keep_release hfirst hnone hrest hrestBare hfold)

/-! ## Bounds that are met -/

/-- A version that meets every bound. -/
def Over (version : Version κ ρ) (bounds : List (Bound κ ρ)) : Prop :=
  ∀ bound ∈ bounds, version.compare bound.version = .gt ∨
    version.compare bound.version = .eq ∧ bound.strict = false

theorem Over.base_le (h : Over version bounds) (hmem : bound ∈ bounds) :
    bound.version.base ≤ version.base := by
  by_contra hlt
  have hless := Version.compare_lt (not_le.mp hlt)
  rcases h bound hmem with hmet | ⟨hmet, -⟩
  · rw [hless] at hmet
    cases hmet
  · rw [hless] at hmet
    cases hmet

/-- A strict bound that is met on its base carries a release. -/
theorem Over.strict_release (h : Over version bounds) (hmem : bound ∈ bounds)
    (hbase : bound.version.base = version.base) (hstrict : bound.strict = true) :
    bound.version.release ≠ none := by
  intro hnone
  rcases h bound hmem with hmet | ⟨-, hplain⟩
  · rw [Version.compare_sameBase hbase.symm, hnone, compareReleases_none_right] at hmet
    cases hmet
  · rw [hstrict] at hplain
    cases hplain

/-- The kept one of bounds that are met, when it is on the base of what meets
them. -/
theorem Over.kept (h : Over version bounds) (hkept : BaseRelease.kept bounds = some last)
    (hbase : last.version.base = version.base) : let row := onBase version.base bounds
    (counted row = [] ∧ last.version.release = none ∧ last.strict = false) ∨
      Highest (counted row) last := by
  have hmem : last ∈ onBase version.base bounds :=
    mem_onBase.mpr ⟨(kept_survives hkept).mem, hbase⟩
  rw [kept_onBase (fun bound hbound => h.base_le hbound) (List.ne_nil_of_mem hmem)] at hkept
  refine kept_of_sameBase (fun bound hbound => (mem_onBase.mp hbound).2) ?_ hkept
  intro bound hbound hstrict
  obtain ⟨hbound, hboundBase⟩ := mem_onBase.mp hbound
  exact h.strict_release hbound hboundBase hstrict

/-- Bounds that are met on their base keep one that is on it. -/
theorem Over.exists_kept (h : Over version bounds) (hne : onBase version.base bounds ≠ []) :
    ∃ last, BaseRelease.kept bounds = some last ∧ last.version.base = version.base := by
  cases hkept : BaseRelease.kept (onBase version.base bounds) with
  | none => exact absurd (kept_eq_none_iff.mp hkept) hne
  | some last =>
    refine ⟨last, ?_, (mem_onBase.mp (kept_survives hkept).mem).2⟩
    rw [kept_onBase (fun bound hbound => h.base_le hbound) hne, hkept]

omit [LinearOrder κ] in
theorem Highest.strict_of (hfirst : Highest row first) (hsecond : Highest row second)
    (hstrict : first.strict = true) : second.strict = true := by
  obtain ⟨release, own, hrelease, hown, hcompare⟩ := hsecond.below first hfirst.mem
  obtain ⟨own', release', hown', hrelease', hcompare'⟩ := hfirst.below second hsecond.mem
  rw [hown] at hown'
  rw [hrelease] at hrelease'
  obtain rfl := Option.some.inj hown'
  obtain rfl := Option.some.inj hrelease'
  rcases hcompare with hlt | ⟨rfl, himp⟩
  · rcases hcompare' with hlt' | ⟨rfl, -⟩
    · exact absurd hlt (lt_asymm hlt')
    · exact absurd hlt (lt_irrefl _)
  · exact himp hstrict

end Moguet.Verified.BaseRelease
