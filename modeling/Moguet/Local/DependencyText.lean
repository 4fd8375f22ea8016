import Moguet.Local.Projection
import Moguet.Plan.Grammar

/-!
# One reading of a dependency

A dependency is read from its text in three places: as a typed requirement of
AUR metadata (`dependency_constraint.cpp`), as a legacy string
(`dependency_spec.cpp`) and as a relation of local metadata
(`local_package_metadata.cpp`). Each trims, finds its operator and checks its
version by its own code, and all of them have to see one name, one operator and
one version.
-/

namespace Moguet.Local.DependencyText

open Verified.ByteString Verified.Checked Plan.Constraint Plan.Grammar Metadata Projection

variable {name version text specification : Bytes} {constraint : Option DependencyVersionConstraint}
  {kind : RelationKind}

/-- A name, or a name and a version around an operator, with blanks on either
side of it. -/
inductive RequirementText : Bytes → Bytes → Option DependencyVersionConstraint → Prop
  | plain {name : Bytes} (hname : isValidPackageIdentity name = true) :
      RequirementText name name none
  | versioned {name front back version : Bytes} (relation : DependencyVersionRelation)
      (hname : isValidPackageIdentity name = true)
      (hversion : isValidPackageVersion version = true)
      (hfront : ∀ b ∈ front, isBlank b = true) (hback : ∀ b ∈ back, isBlank b = true) :
      RequirementText (name ++ front ++ (operatorText relation ++ (back ++ version))) name
        (some ⟨relation, version⟩)

theorem isBlank_not_operator {b : UInt8} (h : isBlank b = true) : isOperatorByte b = false := by
  simp only [isBlank, Bool.or_eq_true, decide_eq_true_eq] at h
  rcases h with ((rfl | rfl) | rfl) | rfl
  · decide
  · decide
  · decide
  · decide

/-- An operator is no blank and found before anything after it. -/
theorem splitAtFirst_operator {front : Bytes} (relation : DependencyVersionRelation) (rest : Bytes)
    (hname : isValidPackageIdentity name = true) (hfront : ∀ b ∈ front, isBlank b = true) :
    splitAtFirst isOperatorByte (name ++ front ++ (operatorText relation ++ rest)) =
      some (name ++ front, operatorText relation ++ rest) := by
  obtain ⟨b, tail, hoperator, hb⟩ := operatorText_cons relation
  rw [hoperator]
  apply splitAtFirst_of_append (tail ++ rest) hb
  intro c hc
  rcases List.mem_append.mp hc with hc | hc
  · exact identity_operator hname c hc
  · exact isBlank_not_operator (hfront c hc)

theorem trim_name {front : Bytes} (hname : isValidPackageIdentity name = true)
    (hfront : ∀ b ∈ front, isBlank b = true) : trim (name ++ front) = name :=
  trim_surround (List.forall_mem_nil _) (identity_visible hname) hfront

theorem trim_version {back : Bytes} (hversion : isValidPackageVersion version = true)
    (hback : ∀ b ∈ back, isBlank b = true) : trim (back ++ version) = version := by
  have hkept := trim_surround hback (version_visible hversion) (List.forall_mem_nil _)
  rw [List.append_nil] at hkept
  exact hkept

/-- After an operator comes a blank or a version, never an equality sign. -/
theorem head_after_operator {back : Bytes} (hversion : isValidPackageVersion version = true)
    (hback : ∀ b ∈ back, isBlank b = true) : (back ++ version).head? ≠ some (byte '=') := by
  intro hhead
  cases back with
  | nil =>
    have hmem : byte '=' ∈ version := List.mem_of_mem_head? hhead
    have hplain := version_operator hversion (byte '=') hmem
    exact absurd hplain (by decide)
  | cons b back =>
    have hb := hback b List.mem_cons_self
    injection hhead with hhead
    rw [hhead] at hb
    exact absurd hb (by decide)

/-- A text of a requirement starts and ends with a byte that is no blank. -/
theorem RequirementText.trim (h : RequirementText text name constraint) : trim text = text := by
  cases h with
  | plain hname => exact trim_identity hname
  | versioned relation hname hversion hfront hback =>
    rename_i front back version
    obtain ⟨hne, -⟩ := isValidPackageVersion_bytes hversion
    obtain ⟨hnamed, -⟩ := isValidPackageIdentity_bytes hname
    generalize htext : name ++ front ++ (operatorText relation ++ (back ++ version)) = whole
    obtain ⟨before, after, hbefore, hafter, hwhole⟩ := trim_parts whole
    have hstart : before = [] := by
      cases before with
      | nil => rfl
      | cons b before =>
        exfalso
        have hb := hbefore b List.mem_cons_self
        cases name with
        | nil => exact hnamed rfl
        | cons c name =>
          rw [← htext] at hwhole
          injection hwhole with hc _
          have hvisible := identity_visible hname c List.mem_cons_self
          rw [hc, hb] at hvisible
          cases hvisible
    have hend : after = [] := by
      rcases List.eq_nil_or_concat after with hnil | ⟨kept, b, hlast⟩
      · exact hnil
      · exfalso
        have hb := hafter b (by rw [hlast]; simp)
        rcases List.eq_nil_or_concat version with hnil | ⟨digits, c, hdigits⟩
        · exact hne hnil
        · have hends := congrArg List.getLast? hwhole
          rw [← htext, hlast, hdigits] at hends
          simp at hends
          have hvisible := version_visible hversion c (by rw [hdigits]; simp)
          rw [hends, hb] at hvisible
          cases hvisible
    rw [hstart, hend, List.append_nil, List.nil_append] at hwhole
    exact hwhole.symm

/-- Every text of a requirement is read as it is written. -/
theorem parseDependencyRequirement_of_text {specification name : Bytes}
    {constraint : Option DependencyVersionConstraint}
    (h : RequirementText (trim specification) name constraint) :
    parseDependencyRequirement specification =
      .ok (.consumer ⟨trim specification, name, constraint⟩) := by
  unfold parseDependencyRequirement
  generalize htext : trim specification = text at h
  cases h with
  | plain hname =>
    have hne := (isValidPackageIdentity_bytes hname).1
    simp only [if_neg hne, splitAtFirst_none.mpr (identity_operator hname),
      splitAtFirst_none.mpr (identity_no_colon hname), hname]
    rfl
  | versioned relation hname hversion hfront hback =>
    rename_i front back version
    have hne : name ++ front ++ (operatorText relation ++ (back ++ version)) ≠ [] := by
      intro hnil
      rw [List.append_assoc] at hnil
      exact (isValidPackageIdentity_bytes hname).1 (List.append_eq_nil_iff.mp hnil).1
    simp only [if_neg hne, splitAtFirst_operator relation _ hname hfront, trim_name hname hfront,
      hname, parseConsumerRelation_append relation (head_after_operator hversion hback),
      trim_version hversion hback, requireVersion_of_valid hversion]
    rfl

/-- What is read as a package requirement is a text of one. -/
theorem text_of_parseDependencyRequirement {requirement : ConsumerDependencyRequirement}
    (h : parseDependencyRequirement specification = .ok (.consumer requirement)) :
    requirement.rawSpecification = trim specification ∧
      RequirementText (trim specification) requirement.packageName requirement.constraint := by
  have htrimmed := trim_trim specification
  unfold parseDependencyRequirement at h
  dsimp only at h
  split at h
  · cases h
  · split at h
    · split at h
      · -- a component, not a package
        split at h
        · cases h
        · injection h with h
          cases h
      · split at h
        · cases h
        · rename_i hvalid
          injection h with h
          injection h with h
          rw [← h]
          exact ⟨rfl, .plain (by simpa using hvalid)⟩
    · rename_i front operator hsplit
      split at h
      · cases h
      · rename_i hvalid
        have hname : isValidPackageIdentity (trim front) = true := by simpa using hvalid
        split at h
        · cases h
        · rename_i relation rest hrelation
          rw [bind_eq_ok] at h
          obtain ⟨version, hkept, h⟩ := h
          obtain ⟨hversionText, hversion⟩ := requireVersion_ok hkept
          injection h with h
          injection h with h
          rw [← h]
          refine ⟨rfl, ?_⟩
          have hwhole : trim specification = front ++ (operatorText relation ++ rest) := by
            rw [← parseConsumerRelation_some hrelation]
            exact (splitAtFirst_append hsplit).symm
          obtain ⟨before, blanks, hbefore, hblanks, hfrontText⟩ := trim_parts front
          obtain ⟨spaces, after, hspaces, hafter, hrestText⟩ := trim_parts rest
          -- the outer blanks are gone already
          have hstart : before = [] := by
            have hparts : before ++ (trim front ++ blanks ++ (operatorText relation ++ rest)) =
                trim specification := by
              rw [← List.append_assoc, ← hfrontText, hwhole]
            have hkeep := htrimmed
            rw [← hparts] at hkeep
            exact trimmed_front hkeep hbefore
          have hend : after = [] := by
            have hparts : front ++ (operatorText relation ++ (spaces ++ trim rest)) ++ after =
                trim specification := by
              rw [hwhole, List.append_assoc, List.append_assoc, List.append_assoc, ← hrestText]
            have hkeep := htrimmed
            rw [← hparts] at hkeep
            exact trimmed_back hkeep hafter
          rw [hstart, List.nil_append] at hfrontText
          rw [hend, List.append_nil] at hrestText
          have hversion' : isValidPackageVersion (trim rest) = true := hversionText ▸ hversion
          have htext := RequirementText.versioned relation hname hversion' hblanks hspaces
          rw [← hfrontText, ← hrestText, ← hwhole] at htext
          rw [hversionText]
          exact htext

/-- The texts of a package requirement are exactly the ones it is read from. -/
theorem parseDependencyRequirement_iff (specification : Bytes)
    (requirement : ConsumerDependencyRequirement) :
    parseDependencyRequirement specification = .ok (.consumer requirement) ↔
      requirement.rawSpecification = trim specification ∧
        RequirementText (trim specification) requirement.packageName requirement.constraint := by
  constructor
  · exact text_of_parseDependencyRequirement
  · rintro ⟨hraw, htext⟩
    rw [parseDependencyRequirement_of_text htext, ← hraw]

/-- The operator the legacy reading takes is the operator of the relation. -/
theorem operator_size (relation : DependencyVersionRelation) {rest : Bytes}
    (h : rest.head? ≠ some (byte '=')) :
    (if ((operatorText relation ++ rest).head? = some (byte '<') ∨
          (operatorText relation ++ rest).head? = some (byte '>')) ∧
        (operatorText relation ++ rest)[1]? = some (byte '=') then 2 else 1) =
      (operatorText relation).length := by
  rw [List.head?_eq_getElem?] at h
  cases relation with
  | lessThan => exact if_neg fun hboth => h hboth.2
  | lessThanOrEqual => exact if_pos ⟨Or.inl rfl, rfl⟩
  | equal =>
    apply if_neg
    rintro ⟨hfirst | hfirst, -⟩
    · have hsame : byte '=' = byte '<' := Option.some.inj hfirst
      exact absurd hsame (by decide)
    · have hsame : byte '=' = byte '>' := Option.some.inj hfirst
      exact absurd hsame (by decide)
  | greaterThanOrEqual => exact if_pos ⟨Or.inr rfl, rfl⟩
  | greaterThan => exact if_neg fun hboth => h hboth.2

/-- The legacy reading sees the name, the operator and the version. -/
theorem parseDependencyString_of_text (h : RequirementText (trim specification) name constraint) :
    parseDependencyString specification =
      ⟨trim specification, name, constraint.map fun known => operatorText known.relation,
        constraint.map (·.version)⟩ := by
  unfold parseDependencyString
  generalize htext : trim specification = text at h
  cases h with
  | plain hname => simp only [splitAtFirst_none.mpr (identity_operator hname), Option.map_none]
  | versioned relation hname hversion hfront hback =>
    simp only [splitAtFirst_operator relation _ hname hfront, trim_name hname hfront,
      operator_size relation (head_after_operator hversion hback), List.take_left,
      List.drop_left, trim_version hversion hback, Option.map_some]

/-- A name, operator and version without spaces. -/
def printRequirement (requirement : ConsumerDependencyRequirement) : Bytes :=
  match requirement.constraint with
  | none => requirement.packageName
  | some constraint =>
    requirement.packageName ++ operatorText constraint.relation ++ constraint.version

theorem printRequirement_text (h : RequirementText text name constraint) (raw : Bytes) :
    RequirementText (printRequirement ⟨raw, name, constraint⟩) name constraint := by
  cases h with
  | plain hname => exact .plain hname
  | versioned relation hname hversion hfront hback =>
    have htight := RequirementText.versioned relation hname hversion
      (List.forall_mem_nil _) (List.forall_mem_nil _)
    rw [List.append_nil, List.nil_append, ← List.append_assoc] at htight
    exact htight

/-- The comparisons of local metadata are the relations of a requirement. -/
theorem parseComparison_relation (operator : Bytes) :
    (parseComparison operator).map (fun parts => (relationFromLocalComparison parts.1, parts.2)) =
      parseConsumerRelation operator := by
  unfold parseComparison parseConsumerRelation
  cases operator with
  | nil => rfl
  | cons b rest =>
    by_cases hless : b = byte '<'
    · simp only [if_pos hless]
      by_cases heq : rest.head? = some (byte '=')
      · simp only [if_pos heq]
        rfl
      · simp only [if_neg heq]
        rfl
    · simp only [if_neg hless]
      by_cases hequal : b = byte '='
      · simp only [if_pos hequal]
        rfl
      · simp only [if_neg hequal]
        by_cases hgreater : b = byte '>'
        · simp only [if_pos hgreater]
          by_cases heq : rest.head? = some (byte '=')
          · simp only [if_pos heq]
            rfl
          · simp only [if_neg heq]
            rfl
        · simp only [if_neg hgreater]
          rfl

/-- The same name, relation and version, or the same component. -/
inductive SameRequirement (raw : Bytes) : Target → DependencyRequirement → Prop
  | soname (name : Bytes) : SameRequirement raw ⟨.soname, name, none, none⟩ (.soname ⟨raw, name⟩)
  | plain (name : Bytes) :
      SameRequirement raw ⟨.package, name, none, none⟩ (.consumer ⟨raw, name, none⟩)
  | versioned (name version : Bytes) (comparison : Comparison) :
      SameRequirement raw ⟨.package, name, some comparison, some version⟩
        (.consumer ⟨raw, name, some ⟨relationFromLocalComparison comparison, version⟩⟩)

/-- A component in local metadata is a component on the typed route. -/
theorem parseDependencyRequirement_soname (h : isSonameText kind text = true) :
    parseDependencyRequirement text = .ok (.soname ⟨text, text⟩) := by
  unfold isSonameText at h
  rw [Bool.and_eq_true, Bool.and_eq_true] at h
  obtain ⟨⟨-, hoperator⟩, hparts⟩ := h
  split at hparts
  · cases hparts
  · rename_i library rest hsplit
    rw [Bool.and_eq_true, Bool.and_eq_true] at hparts
    obtain ⟨⟨hcolon, hlibrary⟩, hpayload⟩ := hparts
    obtain ⟨b, payload, hrest, hb, -, htext⟩ := splitAtFirst_some hsplit
    have hvisible : ∀ c ∈ text, isBlank c = false := by
      intro c hc
      rw [htext] at hc
      rcases List.mem_append.mp hc with hc | hc
      · exact identity_visible hlibrary c hc
      · rcases List.mem_cons.mp hc with rfl | hc
        · rw [of_decide_eq_true hb]
          decide
        · rw [hrest, List.tail_cons] at hpayload
          exact payload_visible hpayload c hc
    have hnone : splitAtFirst isOperatorByte text = none := by
      rw [splitAtFirst_none]
      intro c hc
      have hany : text.any isOperatorByte = false := by simpa using hoperator
      have hnot := List.any_eq_false.mp hany c hc
      simpa using hnot
    have hne : text ≠ [] := by
      rw [htext]
      exact List.append_ne_nil_of_right_ne_nil _ (List.cons_ne_nil _ _)
    have hcolon' : rest.tail.contains (byte ':') = false := by simpa using hcolon
    unfold parseDependencyRequirement
    rw [trim_eq_self hvisible]
    simp only [if_neg hne, hnone, hsplit, hcolon', hlibrary, hpayload]
    rfl

/-- A value the local reader accepts for a dependency is accepted on the typed
route, with the same requirement. -/
theorem parseRelationTarget_agrees {target : Target}
    (h : parseRelationTarget kind text = some target) :
    ∃ requirement, parseDependencyRequirement text = .ok requirement ∧
      SameRequirement text target requirement := by
  have hof : ∀ {name : Bytes} {constraint : Option DependencyVersionConstraint},
      RequirementText text name constraint →
      parseDependencyRequirement text = .ok (.consumer ⟨text, name, constraint⟩) := by
    intro name constraint htext
    have hkept := htext.trim
    have hparsed := @parseDependencyRequirement_of_text text name constraint (by rwa [hkept])
    rwa [hkept] at hparsed
  unfold parseRelationTarget at h
  split at h
  · cases h
  · split at h
    · rename_i hsoname
      injection h with h
      rw [← h]
      exact ⟨_, parseDependencyRequirement_soname hsoname, .soname text⟩
    · split at h
      · split at h
        · rename_i hvalid
          injection h with h
          rw [← h]
          exact ⟨_, hof (.plain hvalid), .plain text⟩
        · cases h
      · rename_i name operator hsplit
        split at h
        · cases h
        · rename_i hvalid
          have hname : isValidPackageIdentity name = true := by simpa using hvalid
          split at h
          · cases h
          · rename_i comparison version hcomparison
            split at h
            · cases h
            · split at h
              · cases h
              · rename_i hversion
                injection h with h
                rw [← h]
                have hrelation := parseComparison_relation operator
                rw [hcomparison] at hrelation
                have hoperator := parseConsumerRelation_some hrelation.symm
                have htext := RequirementText.versioned (relationFromLocalComparison comparison)
                  hname (by simpa using hversion) (List.forall_mem_nil _) (List.forall_mem_nil _)
                rw [List.append_nil, List.nil_append, ← hoperator, splitAtFirst_append hsplit]
                  at htext
                exact ⟨_, hof htext, .versioned name version comparison⟩

/-- The three readings of a dependency agree. -/
theorem dependency_readings (text : Bytes) :
    (∀ requirement, parseDependencyRequirement text = .ok (.consumer requirement) →
      parseDependencyString text =
          ⟨trim text, requirement.packageName,
            requirement.constraint.map fun constraint => operatorText constraint.relation,
            requirement.constraint.map (·.version)⟩ ∧
        parseDependencyRequirement (printRequirement requirement) =
          .ok (.consumer ⟨printRequirement requirement, requirement.packageName,
            requirement.constraint⟩)) ∧
    (∀ requirement, parseDependencyRequirement text = .ok (.consumer requirement) ↔
      requirement.rawSpecification = trim text ∧
        RequirementText (trim text) requirement.packageName requirement.constraint) ∧
    ∀ kind ∈ [RelationKind.depends, .makedepends, .checkdepends], ∀ target description,
      parseRelationValue kind text = some (target, description) →
      ∃ requirement, parseDependencyRequirement text = .ok requirement ∧
        SameRequirement text target requirement := by
  refine ⟨?_, parseDependencyRequirement_iff text, ?_⟩
  · intro requirement h
    obtain ⟨-, htext⟩ := text_of_parseDependencyRequirement h
    refine ⟨parseDependencyString_of_text htext, ?_⟩
    have hprinted := printRequirement_text htext requirement.rawSpecification
    have hkept := hprinted.trim
    have hparsed := @parseDependencyRequirement_of_text (printRequirement requirement)
      requirement.packageName requirement.constraint (by rw [hkept]; exact hprinted)
    rw [hkept] at hparsed
    exact hparsed
  · intro kind hkind target description h
    have htarget : relationTargetText kind text = some (text, none) := by
      unfold relationTargetText
      rw [if_pos]
      rintro rfl
      exact absurd hkind (by decide)
    unfold parseRelationValue at h
    rw [htarget] at h
    obtain ⟨known, hknown, hpair⟩ := Option.map_eq_some_iff.mp h
    injection hpair with hsame _
    rw [← hsame]
    exact parseRelationTarget_agrees hknown

end Moguet.Local.DependencyText
