import Moguet.Plan.Constraint

/-!
# Declared package relations

`Conflicts` and `Replaces` declarations (`package_relation.cpp`). The shared
dependency grammar contributes only the version constraint and the parse
failures: a relation has its own raw text, its own operator diagnosis and
its own version predicate.
-/

namespace Moguet.Relation.Declaration

open Verified.ByteString Plan.Constraint

inductive PackageRelationKind
  | conflict
  | replacement
  deriving DecidableEq

structure DeclaredPackageRelation where
  declaringPackageName : Bytes
  declaringPackageBase : Bytes
  kind : PackageRelationKind
  rawSpecification : Bytes
  targetComponent : Bytes
  constraint : Option DependencyVersionConstraint
  deriving DecidableEq

/-- A negated or approximate operator, or a second operator after the
first. -/
def hasMalformedOperator (specification : Bytes) : Bool :=
  match splitAtFirst isOperatorByte specification with
  | none => false
  | some (front, operator) =>
    if front.getLast? = some (byte '!') || front.getLast? = some (byte '~') then
      true
    else
      match parseConsumerRelation operator with
      | none => false
      | some (_, version) => version.any isOperatorByte

def relationFailure (failure : DependencyConstraintParseFailure)
    (rawSpecification : Bytes) : DependencyConstraintParseFailure :=
  { kind :=
      if hasMalformedOperator rawSpecification then .unsupportedConsumerOperator
      else failure.kind
    rawSpecification := rawSpecification }

def parseDeclaredPackageRelation
    (declaringPackageName declaringPackageBase : Bytes)
    (kind : PackageRelationKind) (specification : Bytes) :
    Except DependencyConstraintParseFailure DeclaredPackageRelation :=
  match parseDependencyRequirement specification with
  | .error failure => .error (relationFailure failure specification)
  | .ok (.soname _) => .error ⟨.invalidPackageIdentity, specification⟩
  | .ok (.consumer requirement) =>
    .ok {
      declaringPackageName := declaringPackageName
      declaringPackageBase := declaringPackageBase
      kind := kind
      rawSpecification := specification
      targetComponent := requirement.packageName
      constraint := requirement.constraint }

/-- Whether a component that already has the declared name satisfies the
declared version condition. A missing version satisfies no condition. -/
def declaredPackageRelationVersionMatches (vercmp : Bytes → Bytes → Int)
    (relation : DeclaredPackageRelation)
    (observedComponentVersion : Option Bytes) : Bool :=
  match relation.constraint with
  | none => true
  | some constraint =>
    match observedComponentVersion with
    | none => false
    | some observed =>
      relationIsSatisfied constraint.relation
        (compareArchPackageVersions vercmp observed constraint.version)

end Moguet.Relation.Declaration
