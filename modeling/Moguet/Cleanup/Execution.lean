import Moguet.Cleanup.Policy

/-!
# Removing approved dependencies

`execute_dependency_cleanup` removes packages only after an explicit approval,
and only after it has looked at every candidate again: still installed with the
approved identity, still a dependency, protected neither by policy nor by a
`HoldPkg` pattern, and needed by no installed package that stays. The last
condition is a closure: a candidate that stays keeps everything it needs.

The queries of the system are parameters. A query may return a failure, or
throw; only a `PackageMetadataError` is caught.
-/

namespace Moguet.Cleanup.Execution

open Verified.ByteString Plan.Constraint Model Policy

/-- `DependencyCleanupCandidateSnapshot`. -/
structure CandidateSnapshot where
  package : SourceAwarePackageIdentity
  expectedInstalled : InstalledPackageMetadata
  correlations : List PackageCorrelation
  classification : Classification
  sharedRequirement : SharedRequirementState
  policyProtection : PolicyProtection

def CandidateSnapshot.name (candidate : CandidateSnapshot) : Bytes :=
  candidate.expectedInstalled.name

inductive PreviewState
  | ready
  | noCandidates
  | blocked
  deriving DecidableEq

structure CleanupPreview where
  state : PreviewState
  eligibleCandidates : List CandidateSnapshot

inductive InteractionStatus
  | noCandidates
  | blocked
  | declined
  | cancelled
  | interactionUnavailable
  | approved
  deriving DecidableEq

/-- `DependencyCleanupInteractionResult`: its status and what was approved. -/
structure InteractionResult where
  status : InteractionStatus
  approvedSnapshot : Option CleanupPreview := none

/-- What a query throws. -/
inductive QueryThrown (Failure : Type)
  | packageMetadata (failure : Failure)
  | other

inductive FnmatchResult
  | matched
  | noMatch
  | failed
  deriving DecidableEq

abbrev InstalledSnapshot := List (Bytes × InstalledPackageMetadata)

section

variable {Failure Configuration Session : Type}

/-- The answers of the system while the candidates are looked at again. -/
structure CleanupQueries (Failure Configuration Session : Type) where
  resolveConfiguration : Except (QueryThrown Failure) Configuration
  holdPackagePatterns : Except (QueryThrown Failure) (Except Failure (List Bytes))
  openSession : Configuration → Except (QueryThrown Failure) Session
  snapshotInstalled : Session → Except (QueryThrown Failure) (Except Failure InstalledSnapshot)
  policyEvidence : Configuration → Bytes →
    Except (QueryThrown Failure) (PolicyEvidence Failure)
  runtimeConsumers : Session → Bytes →
    Except (QueryThrown Failure) (Except Failure (List Bytes))
  fnmatch : Bytes → Bytes → FnmatchResult

def installedPackageIdentityIsComplete (metadata : InstalledPackageMetadata) : Bool :=
  isValidPackageName metadata.name && metadata.version ≠ [] &&
    (match metadata.packageBase with
      | .known packageBase => isValidPackageName packageBase
      | _ => false) &&
    (match metadata.architecture with
      | .known architecture => hasValidArchitecture architecture
      | _ => false)

/-- `project_cleanup_current_package_evidence` on a snapshot that was read. -/
def projectCurrentPackageEvidence (snapshot : InstalledSnapshot) (packageName : Bytes) :
    CurrentPackageEvidence :=
  match snapshot.lookup packageName with
  | none => ⟨.absent, none, .verified⟩
  | some metadata =>
    ⟨.present, some metadata,
      if installedPackageIdentityIsComplete metadata then .verified else .unverified⟩

inductive RevalidationStatus
  | ready
  | alreadyAbsent
  | identityChanged
  | installReasonChanged
  | «protected»
  | stillRequired
  | unknown
  | invalid
  deriving DecidableEq

structure CandidateRevalidation (Failure : Type) where
  approved : CandidateSnapshot
  status : RevalidationStatus
  current : Option InstalledPackageMetadata := none
  runtimeConsumers : List Bytes := []
  failure : Option Failure := none

def CandidateRevalidation.name (candidate : CandidateRevalidation Failure) : Bytes :=
  candidate.approved.name

def CandidateRevalidation.isReady (candidate : CandidateRevalidation Failure) : Bool :=
  candidate.status = .ready

/-- The approved facts, judged by the classifier once more. -/
def approvedCleanupCandidate (candidate : CandidateSnapshot) : CleanupCandidate where
  package := candidate.package
  baseline := .newlyObserved
  currentPackage := ⟨.present, some candidate.expectedInstalled, .verified⟩
  causalOwnership := .unknown
  sharedRequirement := candidate.sharedRequirement
  policyProtection := candidate.policyProtection
  correlationCoverage := .complete
  correlations := candidate.correlations

def validApprovalCandidate (candidate : CandidateSnapshot) : Bool :=
  candidate.classification = .eligible &&
    (classifyInvocationOwnedCleanup (approvedCleanupCandidate candidate)).classification =
      .eligible

/-- The loop over the `HoldPkg` patterns: the first answer that is not a
mismatch decides. -/
def holdPackageMatch (fnmatch : Bytes → Bytes → FnmatchResult) (name : Bytes) :
    List Bytes → FnmatchResult
  | [] => .noMatch
  | pattern :: patterns =>
    match fnmatch pattern name with
    | .noMatch => holdPackageMatch fnmatch name patterns
    | answer => answer

def policyBinds (policy : PolicyEvidence Failure) (actual : InstalledPackageMetadata) :
    Bool :=
  policy.candidate.any fun candidate =>
    candidate.packageName = actual.name && candidate.version = actual.version

def identityChanged (expected actual : InstalledPackageMetadata) : Bool :=
  actual.name ≠ expected.name || actual.version ≠ expected.version ||
    actual.packageBase ≠ expected.packageBase || actual.architecture ≠ expected.architecture

/-- The consumers of a candidate that nothing protects. -/
def revalidateConsumers (queries : CleanupQueries Failure Configuration Session)
    (session : Session) (candidate : CandidateRevalidation Failure) :
    CandidateRevalidation Failure × Option (QueryThrown Failure) :=
  match queries.runtimeConsumers session candidate.name with
  | .error thrown => (candidate, some thrown)
  | .ok (.error failure) => ({ candidate with failure := some failure }, none)
  | .ok (.ok consumers) =>
    ({ candidate with runtimeConsumers := consumers, status := .ready }, none)

/-- Policy, then `HoldPkg`, then consumers, for a candidate that is installed
as it was approved. -/
def revalidateProtection (queries : CleanupQueries Failure Configuration Session)
    (configuration : Configuration) (session : Session) (patterns : List Bytes)
    (actual : InstalledPackageMetadata) (candidate : CandidateRevalidation Failure) :
    CandidateRevalidation Failure × Option (QueryThrown Failure) :=
  match queries.policyEvidence configuration candidate.name with
  | .error thrown => (candidate, some thrown)
  | .ok policy =>
    let candidate := { candidate with failure := policy.failures.head? <|> candidate.failure }
    if policyBinds policy actual = false then (candidate, none)
    else
      match projectCleanupPolicyProtection policy with
      | .«protected» => ({ candidate with status := .«protected» }, none)
      | .unknown => ({ candidate with status := .unknown }, none)
      | .notProtected =>
        match holdPackageMatch queries.fnmatch actual.name patterns with
        | .matched => ({ candidate with status := .«protected» }, none)
        | .failed => (candidate, none)
        | .noMatch => revalidateConsumers queries session candidate

/-- `revalidate_candidate`: the candidate as it is left, and what was thrown. -/
def revalidateCandidate (queries : CleanupQueries Failure Configuration Session)
    (configuration : Configuration) (session : Session) (snapshot : InstalledSnapshot)
    (patterns : List Bytes) (candidate : CandidateRevalidation Failure) :
    CandidateRevalidation Failure × Option (QueryThrown Failure) :=
  let expected := candidate.approved.expectedInstalled
  let current := projectCurrentPackageEvidence snapshot expected.name
  if current.state = .absent then ({ candidate with status := .alreadyAbsent }, none)
  else
    let candidate := { candidate with current := current.metadata }
    match current.verification, current.metadata with
    | .verified, some actual =>
      if identityChanged expected actual then
        ({ candidate with status := .identityChanged }, none)
      else if actual.reason ≠ .dependency then
        ({ candidate with status :=
          if actual.reason = .explicit then .installReasonChanged else .unknown }, none)
      else
        revalidateProtection queries configuration session patterns actual candidate
    | _, _ => (candidate, none)

/-- The candidates in the approved order; `names` are those of the valid ones
before. -/
def initialCandidates : List Bytes → List CandidateSnapshot →
    List (CandidateRevalidation Failure)
  | _, [] => []
  | names, candidate :: candidates =>
    if validApprovalCandidate candidate = true ∧ candidate.name ∉ names then
      ⟨candidate, .unknown, none, [], none⟩ ::
        initialCandidates (names ++ [candidate.name]) candidates
    else
      ⟨candidate, .invalid, none, [], none⟩ ::
        initialCandidates
          (if validApprovalCandidate candidate then names ++ [candidate.name] else names)
          candidates

/-- The loop over the candidates; an exception leaves the rest as they are. -/
def revalidateAll (queries : CleanupQueries Failure Configuration Session)
    (configuration : Configuration) (session : Session) (snapshot : InstalledSnapshot)
    (patterns : List Bytes) : List (CandidateRevalidation Failure) →
    List (CandidateRevalidation Failure) × Option (QueryThrown Failure)
  | [] => ([], none)
  | candidate :: candidates =>
    match revalidateCandidate queries configuration session snapshot patterns candidate with
    | (candidate, some thrown) => (candidate :: candidates, some thrown)
    | (candidate, none) =>
      let rest := revalidateAll queries configuration session snapshot patterns candidates
      (candidate :: rest.1, rest.2)

/-- The names of the candidates that are ready at the start of a round. -/
def readyNames (candidates : List (CandidateRevalidation Failure)) : List Bytes :=
  (candidates.filter (·.isReady)).map (·.name)

/-- A ready candidate with a consumer that stays. -/
def staysRequired (ready : List Bytes) (candidate : CandidateRevalidation Failure) : Bool :=
  candidate.isReady && candidate.runtimeConsumers.any (· ∉ ready)

def closePass (candidates : List (CandidateRevalidation Failure)) :
    List (CandidateRevalidation Failure) :=
  candidates.map fun candidate =>
    if staysRequired (readyNames candidates) candidate then
      { candidate with status := .stillRequired }
    else candidate

/-- The loop of the closure; `none` if the fuel is spent. -/
def closeLoop : Nat → List (CandidateRevalidation Failure) →
    Option (List (CandidateRevalidation Failure))
  | 0, _ => none
  | fuel + 1, candidates =>
    if candidates.any (staysRequired (readyNames candidates)) then
      closeLoop fuel (closePass candidates)
    else some (closePass candidates)

inductive RevalidationState
  | noCandidatesReady
  | ready
  | blocked
  deriving DecidableEq

structure RevalidationResult (Failure : Type) where
  state : RevalidationState := .blocked
  candidates : List (CandidateRevalidation Failure) := []
  failure : Option Failure := none

/-- `catch(const PackageMetadataError&)`; any other exception goes on. -/
def caughtResult (candidates : List (CandidateRevalidation Failure)) :
    QueryThrown Failure → Except Unit (RevalidationResult Failure)
  | .other => .error ()
  | .packageMetadata failure =>
    .ok ⟨.blocked, candidates.map fun candidate =>
      if candidate.isReady then { candidate with status := .unknown } else candidate,
      some failure⟩

def finishRevalidation (candidates : List (CandidateRevalidation Failure)) :
    RevalidationResult Failure :=
  ⟨if candidates.any (·.isReady) then .ready else .noCandidatesReady, candidates, none⟩

def approvalIsInvalid (approval : CleanupPreview)
    (candidates : List (CandidateRevalidation Failure)) : Bool :=
  approval.state ≠ .ready || approval.eligibleCandidates = [] ||
    candidates.any (·.status = .invalid)

/-- The body of the `try` of `revalidate_dependency_cleanup`; `none` if the
closure does not end. -/
def revalidateApproved (queries : CleanupQueries Failure Configuration Session)
    (candidates : List (CandidateRevalidation Failure)) :
    Option (Except Unit (RevalidationResult Failure)) :=
  match queries.resolveConfiguration with
  | .error thrown => some (caughtResult candidates thrown)
  | .ok configuration =>
    match queries.holdPackagePatterns with
    | .error thrown => some (caughtResult candidates thrown)
    | .ok (.error failure) => some (.ok ⟨.blocked, candidates, some failure⟩)
    | .ok (.ok patterns) =>
      match queries.openSession configuration with
      | .error thrown => some (caughtResult candidates thrown)
      | .ok session =>
        match queries.snapshotInstalled session with
        | .error thrown => some (caughtResult candidates thrown)
        | .ok (.error failure) => some (.ok ⟨.blocked, candidates, some failure⟩)
        | .ok (.ok snapshot) =>
          match revalidateAll queries configuration session snapshot patterns
            candidates with
          | (candidates, some thrown) => some (caughtResult candidates thrown)
          | (candidates, none) =>
            (closeLoop (candidates.length + 1) candidates).map fun closed =>
              .ok (finishRevalidation closed)

def revalidateDependencyCleanup (queries : CleanupQueries Failure Configuration Session)
    (approval : CleanupPreview) : Option (Except Unit (RevalidationResult Failure)) :=
  let candidates := initialCandidates [] approval.eligibleCandidates
  if approvalIsInvalid approval candidates then some (.ok ⟨.blocked, candidates, none⟩)
  else revalidateApproved queries candidates

inductive ExecutionStatus
  | noCandidatesReady
  | removed
  | removalFailed
  | blocked
  deriving DecidableEq

/-- `DependencyCleanupExecutionResult`, and the commands that were run. -/
structure ExecutionResult (Failure : Type) where
  status : ExecutionStatus := .blocked
  revalidation : Option (RevalidationResult Failure) := none
  attempted : List CandidateSnapshot := []
  removalExitStatus : Option Int := none
  commands : List Bytes := []

/-- `shell_words::quote`. -/
def quoteShellWord (value : Bytes) : Bytes :=
  ascii "'" ++ value.flatMap (fun b => if b = byte '\'' then ascii "'\\''" else [b]) ++
    ascii "'"

/-- `shell_words::join`. -/
def joinShellWords (arguments : List Bytes) : Bytes :=
  (ascii " ").intercalate (arguments.map quoteShellWord)

def removalArguments : List Bytes :=
  [ascii "sudo", ascii "pacman", ascii "-R", ascii "--noconfirm", ascii "--"]

def removalCommand (packageNames : List Bytes) : Bytes :=
  joinShellWords (removalArguments ++ packageNames)

/-- A ready candidate is what was approved, down to the last field. -/
def isExactCandidate (candidate : CandidateRevalidation Failure) : Bool :=
  isValidPackageName candidate.approved.package.packageName &&
    candidate.current.any fun current =>
      current.name = candidate.approved.package.packageName &&
        current = candidate.approved.expectedInstalled

/-- `remove_revalidated_candidates`; `run` is the exit status of a command,
`none` if it throws. -/
def removeRevalidatedCandidates (run : Bytes → Option Int)
    (revalidation : RevalidationResult Failure) : ExecutionResult Failure :=
  match revalidation.state with
  | .blocked => { revalidation := some revalidation }
  | .noCandidatesReady =>
    { revalidation := some revalidation, status := .noCandidatesReady }
  | .ready =>
    let ready := revalidation.candidates.filter (·.isReady)
    if ready.all isExactCandidate = false then { revalidation := some revalidation }
    else if ready = [] then
      { revalidation := some revalidation, status := .noCandidatesReady }
    else
      let command := removalCommand (ready.map (·.approved.package.packageName))
      let exitStatus := run command
      { status := if exitStatus = some 0 then .removed else .removalFailed
        revalidation := some revalidation
        attempted := ready.map (·.approved)
        removalExitStatus := exitStatus
        commands := [command] }

/-- `execute_dependency_cleanup`: `.error` if an exception leaves it, `none` if
it does not end. -/
def executeDependencyCleanup (queries : CleanupQueries Failure Configuration Session)
    (run : Bytes → Option Int) (interaction : InteractionResult) :
    Option (Except Unit (ExecutionResult Failure)) :=
  match interaction.status, interaction.approvedSnapshot with
  | .approved, some approval =>
    (revalidateDependencyCleanup queries approval).map fun revalidated =>
      revalidated.map (removeRevalidatedCandidates run)
  | _, _ => some (.ok {})

/-- The commands that were run; an exception leaves before the removal. -/
def commandsRun : Except Unit (ExecutionResult Failure) → List Bytes
  | .ok result => result.commands
  | .error _ => []

end

end Moguet.Cleanup.Execution
