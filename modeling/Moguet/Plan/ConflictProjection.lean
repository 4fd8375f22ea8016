import Mathlib.Data.List.Lex
import Moguet.Plan.Constraint
import Moguet.Verified.BaseRelease
import Moguet.Verified.Checked

/-!
# What the projection of conflicts computes

The scan of `project_conflicting_constraint_invocation` in terms of the places
of its versions: the equalities in a row, and the bounds that are kept.
libalpm's order of versions is a parameter; a version is placed by its epoch
and pkgver, and by its pkgrel where it has one.
-/

namespace Moguet.Plan.ConflictProjection

open Verified.ByteString Verified.BaseRelease Constraint

variable {κ' ρ' : Type} {requirements : List ConsumerDependencyRequirement}

variable {constraint candidate current next : DependencyVersionConstraint}
  {bounds : ConstraintBounds} {constraints : List DependencyVersionConstraint}

/-! ## Places of versions -/

def archOrdering : Ordering → ArchVersionOrdering
  | .lt => .less
  | .eq => .equal
  | .gt => .greater

/-- The epoch and pkgver of a version. -/
def baseText (version : Bytes) : Bytes :=
  match splitAtFirst (· = byte '-') version with
  | none => version
  | some (base, _) => base

/-- The pkgrel of a version. -/
def releaseText (version : Bytes) : Option Bytes :=
  (splitAtFirst (· = byte '-') version).map fun parts => parts.2.tail

/-- What is documented of `alpm_pkg_vercmp`: epochs and pkgvers are ordered,
pkgrels are ordered, and a pkgrel counts when both versions carry one. -/
structure VersionOrder (vercmp : Bytes → Bytes → Int) (κ ρ : Type) [LinearOrder κ]
    [LinearOrder ρ] where
  base : Bytes → κ
  release : Bytes → ρ
  compare_eq : ∀ observed required, isValidPackageVersion observed = true →
    isValidPackageVersion required = true →
      compareArchPackageVersions vercmp observed required =
        archOrdering (Version.compare
          ⟨base (baseText observed), (releaseText observed).map release⟩
          ⟨base (baseText required), (releaseText required).map release⟩)

section Place

variable {vercmp : Bytes → Bytes → Int} {κ ρ : Type} [LinearOrder κ] [LinearOrder ρ]
  (order : VersionOrder vercmp κ ρ)

def VersionOrder.place (version : Bytes) : Version κ ρ :=
  ⟨order.base (baseText version), (releaseText version).map order.release⟩

theorem VersionOrder.compare_place {observed required : Bytes}
    (hobserved : isValidPackageVersion observed = true)
    (hrequired : isValidPackageVersion required = true) :
    compareArchPackageVersions vercmp observed required =
      archOrdering ((order.place observed).compare (order.place required)) :=
  order.compare_eq observed required hobserved hrequired

end Place

def byteValues (text : Bytes) : List Nat := text.map (·.toNat)

/-- Versions whose bases and releases are compared bytewise. It orders versions
of single digits as libalpm does. -/
def placewiseVercmp (lhs rhs : Bytes) : Int :=
  match Version.compare ⟨byteValues (baseText lhs), (releaseText lhs).map byteValues⟩
      ⟨byteValues (baseText rhs), (releaseText rhs).map byteValues⟩ with
  | .lt => -1
  | .eq => 0
  | .gt => 1

def placewiseOrder : VersionOrder placewiseVercmp (List Nat) (List Nat) where
  base := byteValues
  release := byteValues
  compare_eq := by
    intro observed required _ _
    unfold compareArchPackageVersions placewiseVercmp
    cases Version.compare
      (Version.mk (byteValues (baseText observed)) ((releaseText observed).map byteValues))
      ⟨byteValues (baseText required), (releaseText required).map byteValues⟩ <;> rfl

/-! ## Requirements on places -/

/-- A versioned requirement, by the place of its version. -/
structure Required (κ ρ : Type) where
  relation : DependencyVersionRelation
  version : Version κ ρ

section Required

variable {κ ρ : Type} [LinearOrder κ] [LinearOrder ρ]

def meets (version : Version κ ρ) (required : Required κ ρ) : Bool :=
  relationIsSatisfied required.relation (archOrdering (version.compare required.version))

def equalityOf (required : Required κ ρ) : Option (Version κ ρ) :=
  match required.relation with
  | .equal => some required.version
  | _ => none

def lowerOf (required : Required κ ρ) : Option (Bound κ ρ) :=
  match required.relation with
  | .greaterThanOrEqual => some ⟨required.version, false⟩
  | .greaterThan => some ⟨required.version, true⟩
  | _ => none

/-- An upper bound is a lower bound of the dual orders. -/
def upperOf (required : Required κ ρ) : Option (Bound κᵒᵈ ρᵒᵈ) :=
  match required.relation with
  | .lessThanOrEqual => some ⟨required.version.dual, false⟩
  | .lessThan => some ⟨required.version.dual, true⟩
  | _ => none

def equalities (required : List (Required κ ρ)) : List (Version κ ρ) :=
  required.filterMap equalityOf

def lowers (required : List (Required κ ρ)) : List (Bound κ ρ) := required.filterMap lowerOf

def uppers (required : List (Required κ ρ)) : List (Bound κᵒᵈ ρᵒᵈ) := required.filterMap upperOf

/-- No version lies between the bounds: the upper one is below the lower one,
or they compare as equal and one of them is strict. -/
def excludes (lower : Bound κ ρ) (upper : Bound κᵒᵈ ρᵒᵈ) : Bool :=
  let ordering := lower.version.dual.compare upper.version
  ordering = .lt || (ordering = .eq && (lower.strict || upper.strict))

def EqualVersions (lhs rhs : Version κ ρ) : Prop := lhs.compare rhs = .eq

/-- A conflict between requirements on places: two equalities in a row differ,
the last equality does not meet a requirement, or, without equalities, the
bounds that are kept exclude each other. -/
def Conflicting (required : List (Required κ ρ)) : Prop :=
  ¬ (equalities required).IsChain EqualVersions ∨
    (∃ last, (equalities required).getLast? = some last ∧
      ∃ other ∈ required, meets last other = false) ∨
    equalities required = [] ∧ ∃ lower upper, kept (lowers required) = some lower ∧
      kept (uppers required) = some upper ∧ excludes lower upper = true

end Required

/-! ## The scan -/

section Scan

variable {vercmp : Bytes → Bytes → Int} {κ ρ : Type} [LinearOrder κ] [LinearOrder ρ]
  (order : VersionOrder vercmp κ ρ)

def VersionOrder.required (constraint : DependencyVersionConstraint) : Required κ ρ :=
  ⟨constraint.relation, order.place constraint.version⟩

/-- The versioned requirements of an invocation. -/
def VersionOrder.placed (requirements : List ConsumerDependencyRequirement) :
    List (Required κ ρ) :=
  (requirements.filterMap (·.constraint)).map order.required

def ValidConstraint (constraint : DependencyVersionConstraint) : Prop :=
  isValidPackageVersion constraint.version = true

theorem meets_required {version : Bytes} (hversion : isValidPackageVersion version = true)
    (hvalid : ValidConstraint constraint) :
    meets (order.place version) (order.required constraint) =
      relationIsSatisfied constraint.relation
        (compareArchPackageVersions vercmp version constraint.version) := by
  rw [order.compare_place hversion hvalid]
  rfl

theorem lowerOf_version {bound : Bound κ ρ} (h : lowerOf (order.required constraint) = some bound) :
    bound = ⟨order.place constraint.version, isStrictLowerBound constraint.relation⟩ := by
  unfold lowerOf VersionOrder.required at h
  dsimp only at h
  unfold isStrictLowerBound
  split at h
  · rename_i hrelation
    rw [← Option.some.inj h, hrelation]
    rfl
  · rename_i hrelation
    rw [← Option.some.inj h, hrelation]
    rfl
  · cases h

theorem upperOf_version {bound : Bound κᵒᵈ ρᵒᵈ}
    (h : upperOf (order.required constraint) = some bound) :
    bound = ⟨(order.place constraint.version).dual, isStrictUpperBound constraint.relation⟩ := by
  unfold upperOf VersionOrder.required at h
  dsimp only at h
  unfold isStrictUpperBound
  split at h
  · rename_i hrelation
    rw [← Option.some.inj h, hrelation]
    rfl
  · rename_i hrelation
    rw [← Option.some.inj h, hrelation]
    rfl
  · cases h

theorem isStricterLowerBound_eq (hcandidate : ValidConstraint candidate)
    (hcurrent : ValidConstraint current) {candidateBound currentBound : Bound κ ρ}
    (hcandidateBound : lowerOf (order.required candidate) = some candidateBound)
    (hcurrentBound : lowerOf (order.required current) = some currentBound) :
    isStricterLowerBound vercmp candidate current = candidateBound.stricter currentBound := by
  rw [lowerOf_version order hcandidateBound, lowerOf_version order hcurrentBound]
  unfold isStricterLowerBound Bound.stricter
  rw [order.compare_place hcandidate hcurrent]
  cases (order.place candidate.version).compare (order.place current.version) <;> rfl

theorem isStricterUpperBound_eq (hcandidate : ValidConstraint candidate)
    (hcurrent : ValidConstraint current) {candidateBound currentBound : Bound κᵒᵈ ρᵒᵈ}
    (hcandidateBound : upperOf (order.required candidate) = some candidateBound)
    (hcurrentBound : upperOf (order.required current) = some currentBound) :
    isStricterUpperBound vercmp candidate current = candidateBound.stricter currentBound := by
  rw [upperOf_version order hcandidateBound, upperOf_version order hcurrentBound]
  unfold isStricterUpperBound Bound.stricter
  rw [order.compare_place hcandidate hcurrent, Version.compare_dual,
    ← Version.compare_swap (order.place current.version) (order.place candidate.version)]
  cases (order.place current.version).compare (order.place candidate.version) <;> rfl

/-- What the scan has in hand after some constraints. -/
structure Scanned (constraints : List DependencyVersionConstraint) (bounds : ConstraintBounds) :
    Prop where
  chain : (equalities (constraints.map order.required)).IsChain EqualVersions
  equality : (equalities (constraints.map order.required)).getLast? =
    bounds.equality.map fun constraint => order.place constraint.version
  equality_valid : ∀ constraint, bounds.equality = some constraint → ValidConstraint constraint
  lower : kept (lowers (constraints.map order.required)) =
    bounds.lowerBound.bind fun constraint => lowerOf (order.required constraint)
  lower_some : ∀ constraint, bounds.lowerBound = some constraint →
    ValidConstraint constraint ∧ (lowerOf (order.required constraint)).isSome
  upper : kept (uppers (constraints.map order.required)) =
    bounds.upperBound.bind fun constraint => upperOf (order.required constraint)
  upper_some : ∀ constraint, bounds.upperBound = some constraint →
    ValidConstraint constraint ∧ (upperOf (order.required constraint)).isSome

theorem scanned_nil : Scanned order [] {} where
  chain := List.isChain_nil
  equality := rfl
  equality_valid := nofun
  lower := rfl
  lower_some := nofun
  upper := rfl
  upper_some := nofun

omit [LinearOrder κ] [LinearOrder ρ] in
theorem equalities_concat (required : List (Required κ ρ)) (next : Required κ ρ) :
    equalities (required ++ [next]) = equalities required ++ (equalityOf next).toList := by
  unfold equalities
  rw [List.filterMap_append]
  cases h : equalityOf next <;> simp [h]

theorem kept_filterMap_concat {α : Type} [LinearOrder κ'] [LinearOrder ρ']
    (boundOf : α → Option (Bound κ' ρ')) (items : List α) (next : α) :
    kept ((items ++ [next]).filterMap boundOf) =
      match boundOf next with
      | none => kept (items.filterMap boundOf)
      | some bound => keep (kept (items.filterMap boundOf)) bound := by
  rw [List.filterMap_append]
  cases h : boundOf next with
  | none => simp [h]
  | some bound => simp [h, kept_concat]

/-- The bound that the scan keeps, for either side. -/
def keptConstraint (stricter : DependencyVersionConstraint → DependencyVersionConstraint → Bool)
    (current : Option DependencyVersionConstraint) (next : DependencyVersionConstraint) :
    DependencyVersionConstraint :=
  match current with
  | none => next
  | some current => if stricter next current then next else current

/-- Keeping a constraint is keeping its bound. -/
theorem keep_constraint [LinearOrder κ'] [LinearOrder ρ']
    (stricter : DependencyVersionConstraint → DependencyVersionConstraint → Bool)
    (boundOf : DependencyVersionConstraint → Option (Bound κ' ρ'))
    (hstricter : ∀ {candidate current : DependencyVersionConstraint},
      ValidConstraint candidate → ValidConstraint current →
      ∀ {candidateBound currentBound : Bound κ' ρ'}, boundOf candidate = some candidateBound →
        boundOf current = some currentBound →
        stricter candidate current = candidateBound.stricter currentBound)
    {current : Option DependencyVersionConstraint} {bound : Bound κ' ρ'}
    (hnext : ValidConstraint next) (hbound : boundOf next = some bound)
    (hcurrent : ∀ constraint, current = some constraint →
      ValidConstraint constraint ∧ (boundOf constraint).isSome) :
    keep (current.bind boundOf) bound = boundOf (keptConstraint stricter current next) ∧
      ValidConstraint (keptConstraint stricter current next) ∧
        (boundOf (keptConstraint stricter current next)).isSome := by
  cases current with
  | none => exact ⟨hbound.symm, hnext, by simp [keptConstraint, hbound]⟩
  | some current =>
    obtain ⟨hvalid, hsome⟩ := hcurrent current rfl
    obtain ⟨currentBound, hcurrentBound⟩ := Option.isSome_iff_exists.mp hsome
    have hsame := hstricter hnext hvalid hbound hcurrentBound
    unfold keptConstraint
    dsimp only
    rw [Option.bind_some, hcurrentBound, hsame]
    cases hdecide : bound.stricter currentBound with
    | true =>
      rw [keep_of_stricter hdecide, if_pos rfl]
      exact ⟨hbound.symm, hnext, by simp [hbound]⟩
    | false =>
      rw [keep_of_not_stricter hdecide, if_neg (by simp)]
      exact ⟨hcurrentBound.symm, hvalid, hsome⟩

theorem scan_lower (h : next.relation = .greaterThanOrEqual ∨ next.relation = .greaterThan) :
    bounds.scan vercmp next = some { bounds with
      lowerBound := some (keptConstraint (isStricterLowerBound vercmp) bounds.lowerBound next) } := by
  unfold ConstraintBounds.scan keptConstraint
  rcases h with h | h <;> rw [h] <;> dsimp only <;> cases hlower : bounds.lowerBound with
  | none => rfl
  | some lower =>
    dsimp only
    split
    · rfl
    · rw [← hlower]

theorem scan_upper (h : next.relation = .lessThan ∨ next.relation = .lessThanOrEqual) :
    bounds.scan vercmp next = some { bounds with
      upperBound := some (keptConstraint (isStricterUpperBound vercmp) bounds.upperBound next) } := by
  unfold ConstraintBounds.scan keptConstraint
  rcases h with h | h <;> rw [h] <;> dsimp only <;> cases hupper : bounds.upperBound with
  | none => rfl
  | some upper =>
    dsimp only
    split
    · rfl
    · rw [← hupper]

theorem Scanned.step_lower (h : Scanned order constraints bounds) (hvalid : ValidConstraint next)
    (hrelation : next.relation = .greaterThanOrEqual ∨ next.relation = .greaterThan) :
    Scanned order (constraints ++ [next]) { bounds with
      lowerBound := some (keptConstraint (isStricterLowerBound vercmp) bounds.lowerBound next) } := by
  have hequality : equalityOf (order.required next) = none := by
    rcases hrelation with h | h <;> simp [equalityOf, VersionOrder.required, h]
  have hupper : upperOf (order.required next) = none := by
    rcases hrelation with h | h <;> simp [upperOf, VersionOrder.required, h]
  have hlower : ∃ bound, lowerOf (order.required next) = some bound := by
    rcases hrelation with h | h <;> simp [lowerOf, VersionOrder.required, h]
  obtain ⟨bound, hbound⟩ := hlower
  have hkeep := keep_constraint (isStricterLowerBound vercmp)
    (fun constraint => lowerOf (order.required constraint)) (isStricterLowerBound_eq order)
    hvalid hbound h.lower_some
  have hequalities : equalities ((constraints ++ [next]).map order.required) =
      equalities (constraints.map order.required) := by
    rw [List.map_append, List.map_singleton, equalities_concat, hequality]
    exact List.append_nil _
  refine ⟨?_, ?_, h.equality_valid, ?_, ?_, ?_, h.upper_some⟩
  · rw [hequalities]
    exact h.chain
  · rw [hequalities]
    exact h.equality
  · unfold lowers
    rw [List.map_append, List.map_singleton, kept_filterMap_concat, hbound]
    dsimp only
    have hkept := h.lower
    unfold lowers at hkept
    rw [hkept, hkeep.1]
    rfl
  · intro constraint hconstraint
    rw [← Option.some.inj hconstraint]
    exact hkeep.2
  · unfold uppers
    rw [List.map_append, List.map_singleton, kept_filterMap_concat, hupper]
    exact h.upper

theorem Scanned.step_upper (h : Scanned order constraints bounds) (hvalid : ValidConstraint next)
    (hrelation : next.relation = .lessThan ∨ next.relation = .lessThanOrEqual) :
    Scanned order (constraints ++ [next]) { bounds with
      upperBound := some (keptConstraint (isStricterUpperBound vercmp) bounds.upperBound next) } := by
  have hequality : equalityOf (order.required next) = none := by
    rcases hrelation with h | h <;> simp [equalityOf, VersionOrder.required, h]
  have hlower : lowerOf (order.required next) = none := by
    rcases hrelation with h | h <;> simp [lowerOf, VersionOrder.required, h]
  have hupper : ∃ bound, upperOf (order.required next) = some bound := by
    rcases hrelation with h | h <;> simp [upperOf, VersionOrder.required, h]
  obtain ⟨bound, hbound⟩ := hupper
  have hkeep := keep_constraint (isStricterUpperBound vercmp)
    (fun constraint => upperOf (order.required constraint)) (isStricterUpperBound_eq order)
    hvalid hbound h.upper_some
  have hequalities : equalities ((constraints ++ [next]).map order.required) =
      equalities (constraints.map order.required) := by
    rw [List.map_append, List.map_singleton, equalities_concat, hequality]
    exact List.append_nil _
  refine ⟨?_, ?_, h.equality_valid, ?_, h.lower_some, ?_, ?_⟩
  · rw [hequalities]
    exact h.chain
  · rw [hequalities]
    exact h.equality
  · unfold lowers
    rw [List.map_append, List.map_singleton, kept_filterMap_concat, hlower]
    exact h.lower
  · unfold uppers
    rw [List.map_append, List.map_singleton, kept_filterMap_concat, hbound]
    dsimp only
    have hkept := h.upper
    unfold uppers at hkept
    rw [hkept, hkeep.1]
    rfl
  · intro constraint hconstraint
    rw [← Option.some.inj hconstraint]
    exact hkeep.2

/-- An equality is compared with the one before it. -/
theorem Scanned.step_equality (h : Scanned order constraints bounds) (hvalid : ValidConstraint next)
    (hrelation : next.relation = .equal) :
    (bounds.scan vercmp next = none ∧
        ¬ (equalities ((constraints ++ [next]).map order.required)).IsChain EqualVersions) ∨
      ∃ after, bounds.scan vercmp next = some after ∧
        Scanned order (constraints ++ [next]) after := by
  have hequality : equalityOf (order.required next) = some (order.place next.version) := by
    simp [equalityOf, VersionOrder.required, hrelation]
  have hlower : lowerOf (order.required next) = none := by
    simp [lowerOf, VersionOrder.required, hrelation]
  have hupper : upperOf (order.required next) = none := by
    simp [upperOf, VersionOrder.required, hrelation]
  have hequalities : equalities ((constraints ++ [next]).map order.required) =
      equalities (constraints.map order.required) ++ [order.place next.version] := by
    rw [List.map_append, List.map_singleton, equalities_concat, hequality]
    rfl
  have hafter : (equalities ((constraints ++ [next]).map order.required)).IsChain
      EqualVersions → Scanned order (constraints ++ [next]) { bounds with
        equality := some next } := by
    intro hchain
    refine ⟨hchain, ?_, ?_, ?_, h.lower_some, ?_, h.upper_some⟩
    · rw [hequalities, List.getLast?_concat]
      rfl
    · intro constraint hconstraint
      rw [← Option.some.inj hconstraint]
      exact hvalid
    · unfold lowers
      rw [List.map_append, List.map_singleton, kept_filterMap_concat, hlower]
      exact h.lower
    · unfold uppers
      rw [List.map_append, List.map_singleton, kept_filterMap_concat, hupper]
      exact h.upper
  have hchain : (equalities ((constraints ++ [next]).map order.required)).IsChain EqualVersions ↔
      ∀ last, (equalities (constraints.map order.required)).getLast? = some last →
        EqualVersions last (order.place next.version) := by
    rw [hequalities, List.isChain_append]
    simp [h.chain]
  unfold ConstraintBounds.scan
  rw [hrelation]
  dsimp only
  cases hbefore : bounds.equality with
  | none =>
    refine Or.inr ⟨_, rfl, hafter (hchain.mpr ?_)⟩
    intro last hlast
    rw [h.equality, hbefore] at hlast
    cases hlast
  | some equality =>
    have hcompare := order.compare_place (h.equality_valid equality hbefore) hvalid
    have hlast : (equalities (constraints.map order.required)).getLast? =
        some (order.place equality.version) := by
      rw [h.equality, hbefore]
      rfl
    dsimp only
    split
    · rename_i hdiffers
      refine Or.inl ⟨rfl, ?_⟩
      rw [hchain]
      intro hall
      have hequal : (order.place equality.version).compare (order.place next.version) = .eq :=
        hall _ hlast
      rw [hcompare, hequal] at hdiffers
      exact hdiffers rfl
    · rename_i hsame
      refine Or.inr ⟨_, rfl, hafter (hchain.mpr ?_)⟩
      intro last hlast'
      rw [hlast] at hlast'
      rw [← Option.some.inj hlast']
      rw [hcompare] at hsame
      unfold EqualVersions
      cases hordering : (order.place equality.version).compare (order.place next.version) with
      | eq => rfl
      | lt => simp [hordering, archOrdering] at hsame
      | gt => simp [hordering, archOrdering] at hsame

/-- One constraint of the scan. -/
theorem Scanned.step (h : Scanned order constraints bounds) (hvalid : ValidConstraint next) :
    (bounds.scan vercmp next = none ∧
        ¬ (equalities ((constraints ++ [next]).map order.required)).IsChain EqualVersions) ∨
      ∃ after, bounds.scan vercmp next = some after ∧
        Scanned order (constraints ++ [next]) after := by
  cases hrelation : next.relation with
  | lessThan =>
    exact Or.inr ⟨_, scan_upper (Or.inl hrelation), h.step_upper order hvalid (Or.inl hrelation)⟩
  | lessThanOrEqual =>
    exact Or.inr ⟨_, scan_upper (Or.inr hrelation), h.step_upper order hvalid (Or.inr hrelation)⟩
  | equal => exact h.step_equality order hvalid hrelation
  | greaterThanOrEqual =>
    exact Or.inr ⟨_, scan_lower (Or.inl hrelation), h.step_lower order hvalid (Or.inl hrelation)⟩
  | greaterThan =>
    exact Or.inr ⟨_, scan_lower (Or.inr hrelation), h.step_lower order hvalid (Or.inr hrelation)⟩

/-- The whole scan: it ends early exactly when two equalities in a row differ. -/
theorem scan_constraints {constraints : List DependencyVersionConstraint}
    (hvalid : ∀ constraint ∈ constraints, ValidConstraint constraint) :
    (constraints.foldlM (·.scan vercmp) ({} : ConstraintBounds) = none ∧
        ¬ (equalities (constraints.map order.required)).IsChain EqualVersions) ∨
      ∃ bounds, constraints.foldlM (·.scan vercmp) ({} : ConstraintBounds) = some bounds ∧
        Scanned order constraints bounds := by
  induction constraints using List.reverseRecOn with
  | nil => exact Or.inr ⟨{}, rfl, scanned_nil order⟩
  | append_singleton constraints next ih =>
    have hfront : ∀ constraint ∈ constraints, ValidConstraint constraint :=
      fun constraint hmem => hvalid constraint (List.mem_append_left _ hmem)
    rw [List.foldlM_append]
    rcases ih hfront with ⟨hnone, hchain⟩ | ⟨bounds, hsome, hscanned⟩
    · refine Or.inl ⟨by rw [hnone]; rfl, ?_⟩
      intro hwhole
      apply hchain
      rw [List.map_append, List.map_singleton, equalities_concat] at hwhole
      exact hwhole.left_of_append
    · have hnext := hvalid next (List.mem_append_right _ (List.mem_singleton_self _))
      rw [hsome]
      rcases hscanned.step order hnext with ⟨hstep, hchain⟩ | ⟨after, hstep, hafter⟩
      · refine Or.inl ⟨?_, hchain⟩
        show List.foldlM _ bounds [next] = none
        simp [hstep]
      · refine Or.inr ⟨after, ?_, hafter⟩
        show List.foldlM _ bounds [next] = some after
        simp [hstep]

/-- The verdict on what the whole scan has in hand. -/
theorem Scanned.isConflicting_iff (h : Scanned order constraints bounds)
    (hvalid : ∀ constraint ∈ constraints, ValidConstraint constraint) :
    bounds.isConflicting vercmp constraints = true ↔
      Conflicting (constraints.map order.required) := by
  unfold ConstraintBounds.isConflicting Conflicting
  rw [h.equality]
  cases hequality : bounds.equality with
  | some equality =>
    have hplace := h.equality_valid equality hequality
    have hne : equalities (constraints.map order.required) ≠ [] := by
      intro hnil
      have hlast := h.equality
      rw [hnil, hequality] at hlast
      cases hlast
    simp only [h.chain, not_true_eq_false, false_or, Option.map_some, Option.some.injEq,
      exists_eq_left', hne, false_and, or_false, List.any_eq_true, List.mem_map,
      exists_exists_and_eq_and, Bool.not_eq_true']
    constructor
    · rintro ⟨constraint, hmem, hfails⟩
      exact ⟨constraint, hmem, by rw [meets_required order hplace (hvalid _ hmem), hfails]⟩
    · rintro ⟨constraint, hmem, hfails⟩
      refine ⟨constraint, hmem, ?_⟩
      rw [← meets_required order hplace (hvalid _ hmem), hfails]
  | none =>
    have hnil : equalities (constraints.map order.required) = [] := by
      have hlast := h.equality
      rw [hequality] at hlast
      exact List.getLast?_eq_none_iff.mp hlast
    simp only [Option.map_none, hnil, true_and]
    rw [h.lower, h.upper]
    cases hlower : bounds.lowerBound with
    | none => simp
    | some lower =>
      cases hupper : bounds.upperBound with
      | none => simp
      | some upper =>
        obtain ⟨hlowerValid, hlowerSome⟩ := h.lower_some lower hlower
        obtain ⟨hupperValid, hupperSome⟩ := h.upper_some upper hupper
        obtain ⟨lowerBound, hlowerBound⟩ := Option.isSome_iff_exists.mp hlowerSome
        obtain ⟨upperBound, hupperBound⟩ := Option.isSome_iff_exists.mp hupperSome
        simp only [Option.bind_some, hlowerBound, hupperBound, Option.some.injEq,
          exists_and_left, exists_eq_left', reduceCtorEq, false_and, exists_false,
          false_or]
        rw [lowerOf_version order hlowerBound, upperOf_version order hupperBound,
          order.compare_place hlowerValid hupperValid]
        unfold excludes
        dsimp only
        rw [Version.compare_dual,
          ← Version.compare_swap (order.place lower.version) (order.place upper.version)]
        cases (order.place lower.version).compare (order.place upper.version) <;>
          simp [archOrdering]

end Scan

/-! ## The projection -/

/-- Requirements of an invocation on one package. -/
structure OnePackage (requirements : List ConsumerDependencyRequirement) : Prop where
  name : ∃ name, ∀ requirement ∈ requirements, requirement.packageName = name
  parsed : ∀ requirement ∈ requirements, ∃ specification,
    parseDependencyRequirement specification = .ok (.consumer requirement)

def ConflictReported (vercmp : Bytes → Bytes → Int)
    (requirements : List ConsumerDependencyRequirement) : Prop :=
  projectConflictingConstraintInvocation vercmp requirements =
    .ok (some (.conflicting .incompatibleRequirements))

instance (vercmp : Bytes → Bytes → Int) (requirements : List ConsumerDependencyRequirement) :
    Decidable (ConflictReported vercmp requirements) :=
  inferInstanceAs (Decidable (_ = _))

/-- A version that was parsed is valid. -/
theorem parsed_valid {specification : Bytes} {requirement : ConsumerDependencyRequirement}
    (h : parseDependencyRequirement specification = .ok (.consumer requirement))
    (hconstraint : requirement.constraint = some constraint) : ValidConstraint constraint := by
  unfold parseDependencyRequirement at h
  dsimp only at h
  split at h
  · cases h
  · split at h
    · split at h
      · split at h
        · cases h
        · cases h
      · split at h
        · cases h
        · injection h with h
          injection h with h
          rw [← h] at hconstraint
          cases hconstraint
    · split at h
      · cases h
      · split at h
        · cases h
        · obtain ⟨version, hversion, h⟩ := Moguet.Verified.Checked.bind_eq_ok.mp h
          injection h with h
          injection h with h
          rw [← h] at hconstraint
          rw [← Option.some.inj hconstraint]
          unfold requireVersion at hversion
          split at hversion
          · cases hversion
          · split at hversion
            · cases hversion
            · rename_i hvalid
              injection hversion with hversion
              rw [← hversion]
              simp only [Bool.or_eq_true, not_or, Bool.not_eq_true', Bool.not_eq_false] at hvalid
              exact hvalid.2

section Projection

variable {vercmp : Bytes → Bytes → Int} {κ ρ : Type} [LinearOrder κ] [LinearOrder ρ]
  (order : VersionOrder vercmp κ ρ)

theorem placed_valid (h : OnePackage requirements) :
    ∀ constraint ∈ requirements.filterMap (·.constraint), ValidConstraint constraint := by
  intro constraint hmem
  obtain ⟨requirement, hrequirement, hconstraint⟩ := List.mem_filterMap.mp hmem
  obtain ⟨specification, hparsed⟩ := h.parsed requirement hrequirement
  exact parsed_valid hparsed hconstraint

/-- One requirement alone has no conflict. -/
theorem not_conflicting_single (required : Required κ ρ) : ¬ Conflicting [required] := by
  have hmeets : ∀ version, equalityOf required = some version → meets version required = true := by
    intro version h
    unfold equalityOf at h
    split at h
    · rename_i hrelation
      unfold meets
      rw [← Option.some.inj h, hrelation, Version.compare_self]
      rfl
    · cases h
  rintro (hchain | ⟨last, hlast, other, hother, hfails⟩ | ⟨-, lower, upper, hlower, hupper, -⟩)
  · apply hchain
    unfold equalities
    rw [List.filterMap_cons]
    split
    · exact List.isChain_nil
    · exact List.isChain_singleton _
  · rw [List.mem_singleton.mp hother] at hfails
    have hequality : equalityOf required = some last := by
      have hmem := List.mem_of_getLast? hlast
      unfold equalities at hmem
      simpa using hmem
    rw [hmeets last hequality] at hfails
    cases hfails
  · have hlowerMem := (kept_survives hlower).mem
    have hupperMem := (kept_survives hupper).mem
    unfold lowers at hlowerMem
    unfold uppers at hupperMem
    simp only [List.mem_filterMap, List.mem_singleton, exists_eq_left] at hlowerMem hupperMem
    unfold lowerOf at hlowerMem
    unfold upperOf at hupperMem
    split at hlowerMem
    · rename_i hrelation
      simp [hrelation] at hupperMem
    · rename_i hrelation
      simp [hrelation] at hupperMem
    · cases hlowerMem

theorem not_conflicting_nil : ¬ Conflicting ([] : List (Required κ ρ)) := by
  rintro (hchain | ⟨last, hlast, -⟩ | ⟨-, lower, -, hlower, -⟩)
  · exact hchain List.isChain_nil
  · cases hlast
  · cases hlower

/-- The projection reports exactly the conflicts between the places. -/
theorem conflictReported_iff (h : OnePackage requirements) :
    ConflictReported vercmp requirements ↔ Conflicting (order.placed requirements) := by
  have hvalid := placed_valid h
  match hrequirements : requirements with
  | [] =>
    constructor
    · intro hreported
      cases hreported
    · intro hconflict
      exact absurd hconflict not_conflicting_nil
  | [single] =>
    constructor
    · intro hreported
      cases hreported
    · intro hconflict
      exfalso
      unfold VersionOrder.placed at hconflict
      rw [List.filterMap_cons] at hconflict
      split at hconflict
      · exact not_conflicting_nil hconflict
      · exact not_conflicting_single _ hconflict
  | first :: second :: rest =>
    have hname : ((second :: rest).any fun candidate =>
        candidate.packageName ≠ first.packageName) = false := by
      obtain ⟨name, hname⟩ := h.name
      rw [List.any_eq_false]
      intro candidate hmem
      simp [hname candidate (List.mem_cons_of_mem _ hmem), hname first List.mem_cons_self]
    unfold ConflictReported projectConflictingConstraintInvocation VersionOrder.placed
    dsimp only
    rw [hname]
    simp only [Bool.false_eq_true, if_false]
    rcases scan_constraints order hvalid with ⟨hnone, hchain⟩ | ⟨bounds, hsome, hscanned⟩
    · rw [hnone]
      exact ⟨fun _ => Or.inl hchain, fun _ => rfl⟩
    · rw [hsome, ← hscanned.isConflicting_iff order hvalid]
      dsimp only
      split
      · rename_i hconflicting
        simp [hconflicting]
      · rename_i hconflicting
        simp [hconflicting]

end Projection

end Moguet.Plan.ConflictProjection
