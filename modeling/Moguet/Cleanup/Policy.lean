import Moguet.Cleanup.Model

/-!
# Protection by policy

A build dependency that belongs to `base-devel` is never cleaned up. The
evidence comes from the installed meta package, from the configured sync
repositories, or from the group of the old layout, in this order; a later
authority counts only when every earlier one is completely absent. Evidence
with a malformed shape proves nothing.
-/

namespace Moguet.Cleanup.Policy

open Verified.ByteString Plan.Constraint Model

inductive MetadataCompleteness
  | complete
  | incomplete
  | failed
  deriving DecidableEq

inductive AuthorityKind
  | installedBaseDevelMetaPackage
  | configuredSyncBaseDevelMetaPackage
  | baseDevelGroupCompatibility
  deriving DecidableEq

inductive AuthorityObservation
  | present
  | absent
  | notObserved
  | unavailable
  deriving DecidableEq

inductive CandidateEvaluation
  | «protected»
  | notProtected
  | notEvaluated
  deriving DecidableEq

inductive EvidenceConsistency
  | consistent
  | contradictory
  deriving DecidableEq

structure CandidatePackageMetadata where
  packageName : Bytes
  version : Bytes
  provides : List Bytes
  groups : List Bytes

structure MetaPackageMetadata where
  authorityKind : AuthorityKind
  configuredRepositoryOrder : Option Nat
  repositoryName : Option Bytes
  packageName : Bytes
  version : Bytes
  dependencies : List Bytes

structure GroupMemberMetadata where
  configuredRepositoryOrder : Nat
  repositoryName : Bytes
  packageName : Bytes

structure GroupMetadata where
  groupName : Bytes
  repositoryOrder : List Bytes
  repositoriesWithGroup : List Bytes
  members : List GroupMemberMetadata

structure AuthorityEvidence where
  authorityKind : AuthorityKind
  observation : AuthorityObservation
  inventoryCompleteness : MetadataCompleteness
  candidateEvaluation : CandidateEvaluation
  evaluationCompleteness : MetadataCompleteness
  metaPackages : List MetaPackageMetadata
  group : Option GroupMetadata

/-- `CleanupPolicyProtectionEvidence`; `Failure` is `PackageMetadataFailure`. -/
structure PolicyEvidence (Failure : Type) where
  localDatabaseCompleteness : MetadataCompleteness
  candidateMetadataCompleteness : MetadataCompleteness
  candidate : Option CandidatePackageMetadata
  installedBaseDevel : AuthorityEvidence
  configuredSyncBaseDevel : AuthorityEvidence
  baseDevelGroup : AuthorityEvidence
  consistency : EvidenceConsistency
  failures : List Failure

def stringsAreUniqueAndNonempty (values : List Bytes) : Bool :=
  values.all (· ≠ []) && values.Nodup

def metaPackageShapeIsValid (expectedKind : AuthorityKind) (metadata : MetaPackageMetadata) :
    Bool :=
  metadata.authorityKind = expectedKind && metadata.packageName = ascii "base-devel" &&
    metadata.version ≠ [] && metadata.dependencies ≠ [] &&
    stringsAreUniqueAndNonempty metadata.dependencies &&
    (if expectedKind = .installedBaseDevelMetaPackage then
      metadata.configuredRepositoryOrder.isNone && metadata.repositoryName.isNone
    else
      metadata.configuredRepositoryOrder.isSome && metadata.repositoryName.any (· ≠ []))

def groupMemberIsValid (repositoryOrder : List Bytes) (member : GroupMemberMetadata) : Bool :=
  repositoryOrder[member.configuredRepositoryOrder]? = some member.repositoryName &&
    isValidPackageName member.packageName

def groupShapeIsValid (group : GroupMetadata) : Bool :=
  group.groupName = ascii "base-devel" && group.repositoryOrder ≠ [] &&
    group.repositoriesWithGroup ≠ [] && group.members ≠ [] &&
    stringsAreUniqueAndNonempty group.repositoryOrder &&
    stringsAreUniqueAndNonempty group.repositoriesWithGroup &&
    group.repositoriesWithGroup.all (· ∈ group.repositoryOrder) &&
    group.members.all (groupMemberIsValid group.repositoryOrder) &&
    (group.members.map (·.packageName)).Nodup

/-- The inventory of an authority of the expected kind. -/
def authorityInventoryIsValid (authority : AuthorityEvidence) (expectedKind : AuthorityKind) :
    Bool :=
  let complete := authority.inventoryCompleteness = .complete
  if authority.observation ≠ .present then
    authority.metaPackages = [] && authority.group.isNone
  else if expectedKind = .baseDevelGroupCompatibility then
    authority.metaPackages = [] && (authority.group.isSome || !complete) &&
      authority.group.all groupShapeIsValid
  else
    authority.group.isNone && (authority.metaPackages ≠ [] || !complete) &&
      authority.metaPackages.all (metaPackageShapeIsValid expectedKind)

def authorityShapeIsValid (authority : AuthorityEvidence) (expectedKind : AuthorityKind) :
    Bool :=
  authority.authorityKind = expectedKind &&
    (decide (authority.candidateEvaluation = .notEvaluated) !=
      decide (authority.evaluationCompleteness = .complete)) &&
    (authority.observation = .present || authority.candidateEvaluation = .notEvaluated) &&
    authorityInventoryIsValid authority expectedKind

def isCompleteAbsence (authority : AuthorityEvidence) : Bool :=
  authority.observation = .absent && authority.inventoryCompleteness = .complete &&
    authority.candidateEvaluation = .notEvaluated

def hasCompleteProtection (authority : AuthorityEvidence) : Bool :=
  authority.observation = .present && authority.candidateEvaluation = .«protected» &&
    authority.evaluationCompleteness = .complete

def hasCompleteNegative (authority : AuthorityEvidence) : Bool :=
  authority.observation = .present && authority.inventoryCompleteness = .complete &&
    authority.candidateEvaluation = .notProtected &&
    authority.evaluationCompleteness = .complete

variable {Failure : Type}

/-- The candidate of well-formed, consistent and complete evidence. -/
def wellFormedCandidate (evidence : PolicyEvidence Failure) :
    Option CandidatePackageMetadata := do
  guard (authorityShapeIsValid evidence.installedBaseDevel .installedBaseDevelMetaPackage ∧
    authorityShapeIsValid evidence.configuredSyncBaseDevel
      .configuredSyncBaseDevelMetaPackage ∧
    authorityShapeIsValid evidence.baseDevelGroup .baseDevelGroupCompatibility)
  guard (evidence.consistency = .consistent ∧
    evidence.localDatabaseCompleteness = .complete ∧
    evidence.candidateMetadataCompleteness = .complete)
  let candidate ← evidence.candidate
  guard (isValidPackageName candidate.packageName ∧ candidate.version ≠ [] ∧
    stringsAreUniqueAndNonempty candidate.provides ∧
    stringsAreUniqueAndNonempty candidate.groups)
  some candidate

/-- The first authority that is present behind complete absences. -/
def selectedAuthority (evidence : PolicyEvidence Failure) : Option AuthorityEvidence :=
  if evidence.installedBaseDevel.observation = .present then
    some evidence.installedBaseDevel
  else if isCompleteAbsence evidence.installedBaseDevel = false then none
  else if evidence.configuredSyncBaseDevel.observation = .present then
    some evidence.configuredSyncBaseDevel
  else if isCompleteAbsence evidence.configuredSyncBaseDevel = true ∧
      evidence.baseDevelGroup.observation = .present then
    some evidence.baseDevelGroup
  else none

/-- The group authority must agree with the groups the candidate declares. -/
def groupContradicts (authority : AuthorityEvidence) (candidate : CandidatePackageMetadata) :
    Bool :=
  authority.authorityKind = .baseDevelGroupCompatibility &&
    ((authority.candidateEvaluation = .«protected» &&
        ascii "base-devel" ∉ candidate.groups) ||
      (authority.candidateEvaluation = .notProtected &&
        ascii "base-devel" ∈ candidate.groups))

def projectCleanupPolicyProtection (evidence : PolicyEvidence Failure) : PolicyProtection :=
  match wellFormedCandidate evidence, selectedAuthority evidence with
  | some candidate, some authority =>
    if groupContradicts authority candidate = true then .unknown
    else if hasCompleteProtection authority = true then .«protected»
    else if evidence.failures = [] ∧ hasCompleteNegative authority = true then .notProtected
    else .unknown
  | _, _ => .unknown

end Moguet.Cleanup.Policy
