import Moguet.Cleanup.Model
import Moguet.Verified.Fields

/-!
# The revision of a Git remote

`git ls-remote` is asked for one ref and answers with lines. What it printed decides
which commit the remote is at (`git_remote_revision_observer.cpp`), so only two shapes of
a transcript count as an answer: the one line of the ref that was asked for, and for
`HEAD` the line of its symbolic target before it. Everything else is refused, with a
reason that says how it is off.
-/

namespace Moguet.Source.RemoteRevision

open Verified.ByteString Verified.Checked Verified.Fields
open Cleanup.Model (SourceRevisionIdentity)

variable {objectId value output front : Bytes}

/-! ## Requests -/

/-- How `git check-ref-format --branch` ended. -/
inductive CheckRefFormatAnswer
  | exited (exitCode : Int) (output : Bytes)
  | failed
  deriving DecidableEq

def validatedExactGitBranchMaxInputBytes : Nat := 4 * 1024

/-- A branch name that Git has accepted and repeated unchanged. -/
structure ValidatedExactGitBranch (checkRefFormat : Bytes → CheckRefFormatAnswer) where
  name : Bytes
  nonempty : name ≠ []
  noNul : 0 ∉ name
  bounded : name.length ≤ validatedExactGitBranchMaxInputBytes
  accepted : checkRefFormat name = .exited 0 (name ++ ascii "\n")

inductive ValidatedGitRemoteSelectorKind
  | defaultHead
  | exactBranch
  deriving DecidableEq

section Observer

variable {checkRefFormat : Bytes → CheckRefFormatAnswer}

/-- The two factories keep the kind and the branch together. -/
structure ValidatedGitRemoteSelector (checkRefFormat : Bytes → CheckRefFormatAnswer) where
  kind : ValidatedGitRemoteSelectorKind
  exactBranch : Option (ValidatedExactGitBranch checkRefFormat)
  coherent : kind = .exactBranch ↔ exactBranch.isSome = true

def ValidatedGitRemoteSelector.defaultHead : ValidatedGitRemoteSelector checkRefFormat where
  kind := .defaultHead
  exactBranch := none
  coherent := by simp

def ValidatedGitRemoteSelector.ofBranch (branch : ValidatedExactGitBranch checkRefFormat) :
    ValidatedGitRemoteSelector checkRefFormat where
  kind := .exactBranch
  exactBranch := some branch
  coherent := by simp

structure GitRemoteRevisionObservationKey
    (checkRefFormat : Bytes → CheckRefFormatAnswer) where
  remote : Bytes
  selector : ValidatedGitRemoteSelector checkRefFormat

inductive VcsKind
  | git
  | svn
  | hg
  | bzr
  | cvs
  | darcs
  deriving DecidableEq

inductive VcsSelector
  | defaultHead
  | branch (name : Bytes)
  | fixedRevision (revision : Bytes)
  | tag (name : Bytes)
  | unsupported (selector : Bytes)
  | unrecognized (selector : Bytes)

structure VcsSourceIdentity where
  kind : VcsKind
  sourceLocation : Bytes
  selector : VcsSelector
  architecture : Option Bytes

/-- The selectors of `require_request_matches_source`. -/
def selectorsMatch (source : VcsSelector)
    (selector : ValidatedGitRemoteSelector checkRefFormat) : Bool :=
  match source with
  | .defaultHead => selector.kind = .defaultHead
  | .branch name => (selector.exactBranch.map ValidatedExactGitBranch.name) = some name
  | _ => false

/-- A request whose source and key agree. That the remote is the canonical spelling of the
source's location plays no part in reading an answer. -/
structure ValidatedGitRemoteRevisionRequest
    (checkRefFormat : Bytes → CheckRefFormatAnswer) where
  source : VcsSourceIdentity
  key : GitRemoteRevisionObservationKey checkRefFormat
  sourceKind : source.kind = .git
  selectors : selectorsMatch source.selector key.selector = true

/-! ## Results -/

structure UpstreamGitRevision where
  source : VcsSourceIdentity
  value : SourceRevisionIdentity

structure ObservedGitRemoteRevision (checkRefFormat : Bytes → CheckRefFormatAnswer) where
  request : ValidatedGitRemoteRevisionRequest checkRefFormat
  revision : UpstreamGitRevision

inductive GitRemoteRevisionMalformedOutputReason
  | emptyOutput
  | refNotFoundStatusWithOutput
  | missingFinalLineFeed
  | unexpectedControlByte
  | invalidRecord
  | wrongRef
  | unexpectedSymref
  | invalidSymbolicHeadTarget
  | wrongRecordOrder
  deriving DecidableEq

inductive GitRemoteRevisionAmbiguousOutputReason
  | duplicateExpectedRecord
  | extraOidRecord
  deriving DecidableEq

/-- The results of a process that exited. -/
inductive GitRemoteRevisionObservationResult
    (checkRefFormat : Bytes → CheckRefFormatAnswer)
  | observed (revision : ObservedGitRemoteRevision checkRefFormat)
  | refNotFound (key : GitRemoteRevisionObservationKey checkRefFormat)
  | gitExitFailure (key : GitRemoteRevisionObservationKey checkRefFormat) (exitCode : Int)
  | malformedOutput (key : GitRemoteRevisionObservationKey checkRefFormat)
      (reason : GitRemoteRevisionMalformedOutputReason)
  | ambiguousOutput (key : GitRemoteRevisionObservationKey checkRefFormat)
      (reason : GitRemoteRevisionAmbiguousOutputReason) (recordCount : Nat)

/-- What the observer may throw. -/
inductive ObserverFault
  | logicError (what : String)
  | invalidArgument (what : String)
  deriving DecidableEq

/-! ## Commits -/

/-- `detect_git_object_format`, without the format. -/
def requireGitObject (objectId : Bytes) : Except ObserverFault Unit :=
  if objectId.length ≠ 40 ∧ objectId.length ≠ 64 then
    .error (.invalidArgument
      "Git commit identity must be a complete SHA-1 or SHA-256 object ID.")
  else if objectId.all isLowerHex = false then
    .error (.invalidArgument
      "Git commit identity must use canonical lowercase hexadecimal.")
  else .ok ()

/-- `SourceRevisionIdentity::git_commit`. -/
def gitCommitIdentity (objectId : Bytes) : Except ObserverFault SourceRevisionIdentity := do
  requireGitObject objectId
  .ok (.gitCommit objectId)

def upstreamGitCommit (source : VcsSourceIdentity) (objectId : Bytes) :
    Except ObserverFault UpstreamGitRevision :=
  if source.kind ≠ .git then
    .error (.invalidArgument "Upstream Git revision requires a Git VCS source identity.")
  else do
    let value ← gitCommitIdentity objectId
    .ok ⟨source, value⟩

/-- `ObservationResultFactory::observed`. -/
def observedResult (request : ValidatedGitRemoteRevisionRequest checkRefFormat)
    (revision : SourceRevisionIdentity) :
    Except ObserverFault (GitRemoteRevisionObservationResult checkRefFormat) :=
  match revision with
  | .gitCommit objectId => do
      let upstream ← upstreamGitCommit request.source objectId
      .ok (.observed ⟨request, upstream⟩)
  | _ => .error (.logicError "Observed Git revision has no commit identity.")

/-! ## Records -/

def isTranscriptWhitespace (b : UInt8) : Bool :=
  b = byte ' ' || b = byte '\t' || b = byte '\n' || b = byte '\r' || b = 0x0c || b = 0x0b

def hasAsciiWhitespace (value : Bytes) : Bool := value.any isTranscriptWhitespace

def isUnexpectedTranscriptControl (b : UInt8) : Bool :=
  (b ≤ 0x1f && b ≠ byte '\t' && b ≠ byte '\n') || b = 0x7f

def hasUnexpectedTranscriptControl (output : Bytes) : Bool :=
  output.any isUnexpectedTranscriptControl

inductive ParsedRemoteRecord
  | oid (revision : SourceRevisionIdentity) (ref : Bytes)
  | symref (target ref : Bytes)

def symrefPrefix : Bytes := ascii "ref: "

def parseRemoteRecord (line : Bytes) : Option ParsedRemoteRecord :=
  if line = [] then none
  else
    match takeField (byte '\t') line with
    | none => none
    | some (first, ref) =>
      if byte '\t' ∈ ref then none
      else if ref = [] ∨ hasAsciiWhitespace ref = true then none
      else if symrefPrefix.isPrefixOf first then
        let target := first.drop symrefPrefix.length
        if target = [] ∨ hasAsciiWhitespace target = true then none
        else some (.symref target ref)
      else
        match gitCommitIdentity first with
        | .error _ => none
        | .ok revision => some (.oid revision ref)

def readRemoteRecord (output : Bytes) : Option (ParsedRemoteRecord × Bytes) :=
  match takeField (byte '\n') output with
  | none => none
  | some (line, rest) => (parseRemoteRecord line).map fun record => (record, rest)

def parseRemoteRecords (output : Bytes) : Option (List ParsedRemoteRecord) :=
  (readRecords (fun _ => ()) readRemoteRecord output.length 0 output).toOption

/-! ## The transcript -/

def isOidRecord : ParsedRemoteRecord → Bool
  | .oid _ _ => true
  | .symref _ _ => false

def isExpectedOidRecord (expectedRef : Bytes) : ParsedRemoteRecord → Bool
  | .oid _ ref => ref = expectedRef
  | .symref _ _ => false

def countOidRecords (records : List ParsedRemoteRecord) : Nat := records.countP isOidRecord

def countExpectedOidRecords (records : List ParsedRemoteRecord) (expectedRef : Bytes) : Nat :=
  records.countP (isExpectedOidRecord expectedRef)

def headsPrefix : Bytes := ascii "refs/heads/"

def headRef : Bytes := ascii "HEAD"

def isSafeSymbolicHeadTarget (target : Bytes) : Bool :=
  headsPrefix.isPrefixOf target && headsPrefix.length < target.length &&
    !hasAsciiWhitespace target

def malformed (request : ValidatedGitRemoteRevisionRequest checkRefFormat)
    (reason : GitRemoteRevisionMalformedOutputReason) :
    Except ObserverFault (GitRemoteRevisionObservationResult checkRefFormat) :=
  .ok (.malformedOutput request.key reason)

def ambiguous (request : ValidatedGitRemoteRevisionRequest checkRefFormat)
    (reason : GitRemoteRevisionAmbiguousOutputReason) (recordCount : Nat) :
    Except ObserverFault (GitRemoteRevisionObservationResult checkRefFormat) :=
  .ok (.ambiguousOutput request.key reason recordCount)

/-- A transcript of one record. -/
def readOnlyRecord (request : ValidatedGitRemoteRevisionRequest checkRefFormat)
    (expectedRef : Bytes) (record : ParsedRemoteRecord) :
    Except ObserverFault (GitRemoteRevisionObservationResult checkRefFormat) :=
  match record with
  | .symref _ _ => malformed request .unexpectedSymref
  | .oid revision ref =>
    if ref ≠ expectedRef then malformed request .wrongRef
    else observedResult request revision

def classifyBranchRecords (request : ValidatedGitRemoteRevisionRequest checkRefFormat)
    (expectedRef : Bytes) (records : List ParsedRemoteRecord) :
    Except ObserverFault (GitRemoteRevisionObservationResult checkRefFormat) :=
  match records with
  | [record] => readOnlyRecord request expectedRef record
  | _ =>
    let expectedCount := countExpectedOidRecords records expectedRef
    if 1 < expectedCount then ambiguous request .duplicateExpectedRecord records.length
    else if expectedCount = 1 ∧ 1 < countOidRecords records then
      ambiguous request .extraOidRecord records.length
    else if countOidRecords records = records.length then malformed request .wrongRef
    else malformed request .unexpectedSymref

/-- The records that are no answer for `HEAD`. -/
def refuseHeadRecords (request : ValidatedGitRemoteRevisionRequest checkRefFormat)
    (records : List ParsedRemoteRecord) :
    Except ObserverFault (GitRemoteRevisionObservationResult checkRefFormat) :=
  let expectedOidCount := countExpectedOidRecords records headRef
  if 1 < expectedOidCount then ambiguous request .duplicateExpectedRecord records.length
  else if expectedOidCount = 1 ∧ 1 < countOidRecords records then
    ambiguous request .extraOidRecord records.length
  else if expectedOidCount = 1 then malformed request .unexpectedSymref
  else malformed request .wrongRef

def classifyHeadRecords (request : ValidatedGitRemoteRevisionRequest checkRefFormat)
    (records : List ParsedRemoteRecord) :
    Except ObserverFault (GitRemoteRevisionObservationResult checkRefFormat) :=
  match records with
  | [record] => readOnlyRecord request headRef record
  | [.symref target symrefRef, .oid revision oidRef] =>
    if symrefRef ≠ headRef ∨ oidRef ≠ headRef then malformed request .wrongRef
    else if isSafeSymbolicHeadTarget target = false then
      malformed request .invalidSymbolicHeadTarget
    else observedResult request revision
  | [.oid revision oidRef, .symref target symrefRef] =>
    if oidRef ≠ headRef then
      refuseHeadRecords request [.oid revision oidRef, .symref target symrefRef]
    else if symrefRef ≠ headRef then malformed request .wrongRef
    else if isSafeSymbolicHeadTarget target = false then
      malformed request .invalidSymbolicHeadTarget
    else malformed request .wrongRecordOrder
  | _ => refuseHeadRecords request records

def classifyRecords (request : ValidatedGitRemoteRevisionRequest checkRefFormat)
    (records : List ParsedRemoteRecord) :
    Except ObserverFault (GitRemoteRevisionObservationResult checkRefFormat) :=
  match request.key.selector.kind with
  | .exactBranch =>
    match request.key.selector.exactBranch with
    | none => .error (.logicError "Exact branch selector has no validated branch.")
    | some branch => classifyBranchRecords request (headsPrefix ++ branch.name) records
  | .defaultHead => classifyHeadRecords request records

/-- `parse_git_remote_revision_observation`. -/
def parseRemoteRevisionObservation
    (request : ValidatedGitRemoteRevisionRequest checkRefFormat) (exitStatus : Int)
    (output : Bytes) :
    Except ObserverFault (GitRemoteRevisionObservationResult checkRefFormat) :=
  if exitStatus = 2 then
    if output = [] then .ok (.refNotFound request.key)
    else malformed request .refNotFoundStatusWithOutput
  else if exitStatus ≠ 0 then .ok (.gitExitFailure request.key exitStatus)
  else if output = [] then malformed request .emptyOutput
  else if output.getLast? ≠ some (byte '\n') then malformed request .missingFinalLineFeed
  else if hasUnexpectedTranscriptControl output = true then
    malformed request .unexpectedControlByte
  else
    match parseRemoteRecords output with
    | none => malformed request .invalidRecord
    | some [] => malformed request .invalidRecord
    | some (record :: records) => classifyRecords request (record :: records)

end Observer

variable {record : ParsedRemoteRecord} {records : List ParsedRemoteRecord}

/-! ## Records, read and written -/

/-- A complete commit name. -/
def IsCommit (objectId : Bytes) : Prop :=
  (objectId.length = 40 ∨ objectId.length = 64) ∧ ∀ b ∈ objectId, isLowerHex b = true

theorem requireGitObject_ok_iff : requireGitObject objectId = .ok () ↔ IsCommit objectId := by
  unfold requireGitObject IsCommit
  by_cases hlength : objectId.length ≠ 40 ∧ objectId.length ≠ 64
  · rw [if_pos hlength]
    constructor
    · intro h
      cases h
    · intro h
      omega
  · rw [if_neg hlength]
    by_cases hhex : objectId.all isLowerHex = false
    · rw [if_pos hhex]
      constructor
      · intro h
        cases h
      · intro h
        rw [List.all_eq_true.mpr h.2] at hhex
        cases hhex
    · rw [if_neg hhex]
      rw [Bool.not_eq_false, List.all_eq_true] at hhex
      exact iff_of_true rfl ⟨by omega, hhex⟩

theorem gitCommitIdentity_eq_ok_iff {revision : SourceRevisionIdentity} :
    gitCommitIdentity objectId = .ok revision ↔
      IsCommit objectId ∧ revision = .gitCommit objectId := by
  unfold gitCommitIdentity
  rw [bind_eq_ok]
  constructor
  · rintro ⟨_, hobject, h⟩
    injection h with h
    exact ⟨requireGitObject_ok_iff.mp hobject, h.symm⟩
  · intro h
    refine ⟨(), requireGitObject_ok_iff.mpr h.1, ?_⟩
    rw [h.2]

/-- The line of a record. -/
def recordLine : ParsedRemoteRecord → Bytes
  | .oid (.gitCommit objectId) ref => objectId ++ byte '\t' :: ref
  | .oid _ ref => byte '\t' :: ref
  | .symref target ref => symrefPrefix ++ target ++ byte '\t' :: ref

/-- A token of a line: not empty and without whitespace. -/
def IsToken (value : Bytes) : Prop := value ≠ [] ∧ ∀ b ∈ value, isTranscriptWhitespace b = false

/-- The records that a line can have. -/
def IsRemoteRecord : ParsedRemoteRecord → Prop
  | .oid (.gitCommit objectId) ref => IsCommit objectId ∧ IsToken ref
  | .oid _ _ => False
  | .symref target ref => IsToken target ∧ IsToken ref

theorem isToken_iff : ¬ (value = [] ∨ hasAsciiWhitespace value = true) ↔ IsToken value := by
  unfold IsToken hasAsciiWhitespace
  rw [not_or, Bool.not_eq_true, List.any_eq_false]
  simp

theorem IsToken.no_tab (h : IsToken value) : byte '\t' ∉ value := by
  intro hmem
  exact absurd (h.2 _ hmem) (by decide)

theorem IsToken.no_newline (h : IsToken value) : byte '\n' ∉ value := by
  intro hmem
  exact absurd (h.2 _ hmem) (by decide)

theorem IsCommit.no_tab (h : IsCommit objectId) : byte '\t' ∉ objectId := by
  intro hmem
  exact absurd (h.2 _ hmem) (by decide)

theorem IsCommit.no_newline (h : IsCommit objectId) : byte '\n' ∉ objectId := by
  intro hmem
  exact absurd (h.2 _ hmem) (by decide)

/-- A commit name does not start like a symbolic ref. -/
theorem IsCommit.not_symref (h : IsCommit objectId) : symrefPrefix.isPrefixOf objectId = false := by
  by_contra hstarts
  rw [Bool.not_eq_false] at hstarts
  obtain ⟨rest, hrest⟩ := List.isPrefixOf_iff_prefix.mp hstarts
  have hmem : byte 'r' ∈ objectId := by
    rw [← hrest]
    exact List.mem_cons_self
  exact absurd (h.2 _ hmem) (by decide)

theorem parseRemoteRecord_eq_some_iff {line : Bytes} : parseRemoteRecord line = some record ↔
      line = recordLine record ∧ IsRemoteRecord record := by
  unfold parseRemoteRecord
  constructor
  · intro h
    split at h
    · cases h
    · split at h
      · cases h
      · rename_i first ref htaken
        obtain ⟨_, hline⟩ := takeField_eq_some_iff.mp htaken
        split at h
        · cases h
        · split at h
          · cases h
          · rename_i href
            have hrefToken := isToken_iff.mp href
            split at h
            · rename_i hsymref
              obtain ⟨target, htarget⟩ := List.isPrefixOf_iff_prefix.mp hsymref
              rw [← htarget, List.drop_left] at h
              dsimp only at h
              split at h
              · cases h
              · rename_i hfits
                injection h with h
                rw [← h, hline, ← htarget]
                exact ⟨rfl, isToken_iff.mp hfits, hrefToken⟩
            · split at h
              · cases h
              · rename_i revision hrevision
                injection h with h
                obtain ⟨hcommit, hvalue⟩ := gitCommitIdentity_eq_ok_iff.mp hrevision
                rw [← h, hvalue, hline]
                exact ⟨rfl, hcommit, hrefToken⟩
  · rintro ⟨hline, hrecord⟩
    cases record with
    | oid revision ref =>
      cases revision with
      | gitCommit objectId =>
        obtain ⟨hcommit, href⟩ := hrecord
        have htaken : takeField (byte '\t') line = some (objectId, ref) := by
          rw [hline]
          exact takeField_append hcommit.no_tab ref
        have hne : line ≠ [] := by
          intro hnil
          rw [hnil] at htaken
          cases htaken
        rw [if_neg hne, htaken]
        dsimp only
        rw [if_neg href.no_tab, if_neg (isToken_iff.mpr href),
          if_neg (by rw [hcommit.not_symref]; exact Bool.false_ne_true),
          gitCommitIdentity_eq_ok_iff.mpr ⟨hcommit, rfl⟩]
      | unknown => exact hrecord.elim
      | absent => exact hrecord.elim
      | unavailable reason => exact hrecord.elim
      | inapplicable => exact hrecord.elim
    | symref target ref =>
      obtain ⟨htarget, href⟩ := hrecord
      have hfirst : byte '\t' ∉ symrefPrefix ++ target := by
        intro hmem
        rcases List.mem_append.mp hmem with hmem | hmem
        · exact absurd hmem (by decide)
        · exact htarget.no_tab hmem
      have htaken : takeField (byte '\t') line = some (symrefPrefix ++ target, ref) := by
        rw [hline]
        exact takeField_append hfirst ref
      have hne : line ≠ [] := by
        intro hnil
        rw [hnil] at htaken
        cases htaken
      rw [if_neg hne, htaken]
      dsimp only
      rw [if_neg href.no_tab, if_neg (isToken_iff.mpr href),
        if_pos (isPrefixOf_append _ _), List.drop_left, if_neg (isToken_iff.mpr htarget)]

/-- A record with its line feed. -/
def recordText (record : ParsedRemoteRecord) : Bytes := recordLine record ++ [byte '\n']

theorem recordLine_no_newline (h : IsRemoteRecord record) : byte '\n' ∉ recordLine record := by
  have htab : byte '\n' ≠ byte '\t' := by decide
  cases record with
  | oid revision ref =>
    cases revision with
    | gitCommit objectId =>
      intro hmem
      rcases List.mem_append.mp hmem with hmem | hmem
      · exact h.1.no_newline hmem
      · exact h.2.no_newline (List.mem_of_ne_of_mem htab hmem)
    | unknown => exact h.elim
    | absent => exact h.elim
    | unavailable reason => exact h.elim
    | inapplicable => exact h.elim
  | symref target ref =>
    intro hmem
    rcases List.mem_append.mp hmem with hmem | hmem
    · rcases List.mem_append.mp hmem with hmem | hmem
      · exact absurd hmem (by decide)
      · exact h.1.no_newline hmem
    · exact h.2.no_newline (List.mem_of_ne_of_mem htab hmem)

theorem readRemoteRecord_eq_some_iff {text : Bytes} {rest : Bytes} :
    readRemoteRecord text = some (record, rest) ↔
      text = recordText record ++ rest ∧ IsRemoteRecord record := by
  unfold readRemoteRecord recordText
  constructor
  · intro h
    split at h
    · cases h
    · rename_i line after htaken
      obtain ⟨parsed, hparsed, hpair⟩ := Option.map_eq_some_iff.mp h
      injection hpair with hrecord hrest
      rw [hrecord] at hparsed
      obtain ⟨hline, hgood⟩ := parseRemoteRecord_eq_some_iff.mp hparsed
      rw [(takeField_eq_some_iff.mp htaken).2, hline, hrest, List.append_assoc]
      exact ⟨rfl, hgood⟩
  · rintro ⟨htext, hgood⟩
    have htaken : takeField (byte '\n') text = some (recordLine record, rest) := by
      rw [htext, List.append_assoc]
      exact takeField_append (recordLine_no_newline hgood) rest
    rw [htaken]
    dsimp only
    rw [parseRemoteRecord_eq_some_iff.mpr ⟨rfl, hgood⟩]
    rfl

/-- The records of a transcript are what its lines are. -/
theorem parseRemoteRecords_eq_some_iff {records : List ParsedRemoteRecord} :
    parseRemoteRecords output = some records ↔
      output = records.flatMap recordText ∧ ∀ record ∈ records, IsRemoteRecord record := by
  have hwrite : ∀ {record : ParsedRemoteRecord}, IsRemoteRecord record →
      recordText record ≠ [] := by
    intro record _
    exact List.append_ne_nil_of_right_ne_nil _ (List.cons_ne_nil _ _)
  have hread : readRecords (fun _ => ()) readRemoteRecord output.length 0 output = .ok records ↔
      output = records.flatMap recordText ∧ ∀ record ∈ records, IsRemoteRecord record :=
    readRecords_eq_ok_iff readRemoteRecord_eq_some_iff hwrite (Nat.le_refl _)
  rw [← hread]
  unfold parseRemoteRecords
  cases readRecords (fun _ => ()) readRemoteRecord output.length 0 output with
  | error failure => exact ⟨nofun, nofun⟩
  | ok found =>
    show some found = some records ↔ Except.ok found = Except.ok records
    rw [Option.some.injEq, Except.ok.injEq]

/-! ## Observations -/

section Transcripts

variable {checkRefFormat : Bytes → CheckRefFormatAnswer}

/-- What `git check-ref-format` says of the names it accepts: no control character, no
space, no `DEL`. -/
def RefFormat (checkRefFormat : Bytes → CheckRefFormatAnswer) : Prop :=
  ∀ name : Bytes, checkRefFormat name = .exited 0 (name ++ ascii "\n") →
    ∀ b ∈ name, 0x20 < b ∧ b ≠ 0x7f

/-- The ref that a request asks for. -/
def requestedRef (request : ValidatedGitRemoteRevisionRequest checkRefFormat) : Bytes :=
  match request.key.selector.exactBranch with
  | some branch => headsPrefix ++ branch.name
  | none => headRef

/-- The line of a commit and its ref. -/
def commitLine (objectId ref : Bytes) : Bytes := objectId ++ ascii "\t" ++ ref ++ ascii "\n"

/-- The line of the symbolic target of `HEAD`. -/
def symbolicHeadLine (branch : Bytes) : Bytes :=
  ascii "ref: refs/heads/" ++ branch ++ ascii "\tHEAD\n"

/-- The transcripts that answer a request with a commit. -/
inductive Transcript (request : ValidatedGitRemoteRevisionRequest checkRefFormat)
    (objectId : Bytes) : Bytes → Prop
  | line : Transcript request objectId (commitLine objectId (requestedRef request))
  | symbolic (branch : Bytes) (hhead : request.key.selector.kind = .defaultHead)
      (hne : branch ≠ []) (hclean : ∀ b ∈ branch, 0x20 < b ∧ b ≠ 0x7f) :
      Transcript request objectId (symbolicHeadLine branch ++ commitLine objectId headRef)

/-- What was observed: the commit, for the source that was asked about. -/
def observation (request : ValidatedGitRemoteRevisionRequest checkRefFormat)
    (objectId : Bytes) : ObservedGitRemoteRevision checkRefFormat :=
  ⟨request, request.source, .gitCommit objectId⟩

theorem observedResult_commit (request : ValidatedGitRemoteRevisionRequest checkRefFormat)
    (h : IsCommit objectId) :
    observedResult request (.gitCommit objectId) =
      .ok (.observed (observation request objectId)) := by
  have hrevision := gitCommitIdentity_eq_ok_iff.mpr ⟨h, rfl⟩
  unfold observedResult upstreamGitCommit
  dsimp only
  rw [if_neg (not_not.mpr request.sourceKind), bind_of_ok hrevision]
  rfl

/-- The records that answer a request with a commit. -/
inductive Answer (request : ValidatedGitRemoteRevisionRequest checkRefFormat)
    (objectId : Bytes) : List ParsedRemoteRecord → Prop
  | line : Answer request objectId [.oid (.gitCommit objectId) (requestedRef request)]
  | symbolic (target : Bytes) (hhead : request.key.selector.kind = .defaultHead)
      (hsafe : isSafeSymbolicHeadTarget target = true) :
      Answer request objectId
        [.symref target headRef, .oid (.gitCommit objectId) headRef]

/-- An outcome says of the records what they answer, and throws nothing. -/
structure Decides (request : ValidatedGitRemoteRevisionRequest checkRefFormat)
    (records : List ParsedRemoteRecord)
    (result : GitRemoteRevisionObservationResult checkRefFormat) : Prop where
  observed : ∀ observed, result = .observed observed ↔
    ∃ objectId, observed = observation request objectId ∧ Answer request objectId records
  found : ∀ key, result ≠ .refNotFound key

theorem decides_malformed {request : ValidatedGitRemoteRevisionRequest checkRefFormat}
    {reason : GitRemoteRevisionMalformedOutputReason}
    (h : ∀ objectId, ¬ Answer request objectId records) :
    ∃ result, malformed request reason = .ok result ∧ Decides request records result := by
  refine ⟨_, rfl, ?_, nofun⟩
  intro observed
  constructor
  · intro hresult
    cases hresult
  · rintro ⟨objectId, _, hanswer⟩
    exact absurd hanswer (h objectId)

theorem decides_ambiguous {request : ValidatedGitRemoteRevisionRequest checkRefFormat}
    {reason : GitRemoteRevisionAmbiguousOutputReason} {count : Nat}
    (h : ∀ objectId, ¬ Answer request objectId records) :
    ∃ result, ambiguous request reason count = .ok result ∧ Decides request records result := by
  refine ⟨_, rfl, ?_, nofun⟩
  intro observed
  constructor
  · intro hresult
    cases hresult
  · rintro ⟨objectId, _, hanswer⟩
    exact absurd hanswer (h objectId)

/-- Records answer with one commit at most. -/
theorem Answer.unique {request : ValidatedGitRemoteRevisionRequest checkRefFormat}
    {first second : Bytes} (hfirst : Answer request first records)
    (hsecond : Answer request second records) : first = second := by
  cases hfirst with
  | line =>
    generalize hrecords : [ParsedRemoteRecord.oid (.gitCommit first) (requestedRef request)] =
      records at hsecond
    cases hsecond with
    | line =>
      injection hrecords with hrecord
      injection hrecord with hrevision
      injection hrevision
    | symbolic target _ _ => cases hrecords
  | symbolic target _ _ =>
    generalize hrecords : [ParsedRemoteRecord.symref target headRef,
      .oid (.gitCommit first) headRef] = records at hsecond
    cases hsecond with
    | line => cases hrecords
    | symbolic other _ _ =>
      injection hrecords with _ htail
      injection htail with hrecord
      injection hrecord with hrevision
      injection hrevision

theorem decides_observed {request : ValidatedGitRemoteRevisionRequest checkRefFormat}
    (hcommit : IsCommit objectId) (h : Answer request objectId records) :
    ∃ result, observedResult request (.gitCommit objectId) = .ok result ∧
      Decides request records result := by
  refine ⟨_, observedResult_commit request hcommit, ?_, nofun⟩
  intro observed
  constructor
  · intro hresult
    injection hresult with hobserved
    exact ⟨objectId, hobserved.symm, h⟩
  · rintro ⟨other, hobserved, hanswer⟩
    rw [hobserved, h.unique hanswer]

theorem readOnlyRecord_decides {request : ValidatedGitRemoteRevisionRequest checkRefFormat}
    (hgood : IsRemoteRecord record) :
    ∃ result, readOnlyRecord request (requestedRef request) record = .ok result ∧
      Decides request [record] result := by
  unfold readOnlyRecord
  cases record with
  | symref target ref =>
    apply decides_malformed
    intro objectId hanswer
    cases hanswer
  | oid revision ref =>
    dsimp only
    by_cases href : ref = requestedRef request
    · cases revision with
      | gitCommit objectId =>
        rw [if_neg (not_not.mpr href)]
        apply decides_observed hgood.1
        rw [href]
        exact .line
      | unknown => exact hgood.elim
      | absent => exact hgood.elim
      | unavailable reason => exact hgood.elim
      | inapplicable => exact hgood.elim
    · rw [if_pos href]
      apply decides_malformed
      intro objectId hanswer
      generalize hrecords : [ParsedRemoteRecord.oid revision ref] = records at hanswer
      cases hanswer with
      | line =>
        injection hrecords with hrecord
        injection hrecord with _ hsame
        exact href hsame
      | symbolic target _ _ => cases hrecords

theorem classifyBranchRecords_decides
    {request : ValidatedGitRemoteRevisionRequest checkRefFormat}
    {records : List ParsedRemoteRecord} (hkind : request.key.selector.kind = .exactBranch)
    (hgood : ∀ record ∈ records, IsRemoteRecord record) :
    ∃ result, classifyBranchRecords request (requestedRef request) records = .ok result ∧
      Decides request records result := by
  unfold classifyBranchRecords
  split
  · rename_i record
    exact readOnlyRecord_decides (hgood record List.mem_cons_self)
  · rename_i hmany
    have hnone : ∀ objectId, ¬ Answer request objectId records := by
      intro objectId hanswer
      cases hanswer with
      | line => exact hmany _ rfl
      | symbolic target hhead _ =>
        rw [hkind] at hhead
        cases hhead
    dsimp only
    split
    · exact decides_ambiguous hnone
    · split
      · exact decides_ambiguous hnone
      · split
        · exact decides_malformed hnone
        · exact decides_malformed hnone

theorem refuseHeadRecords_decides {request : ValidatedGitRemoteRevisionRequest checkRefFormat}
    (hnone : ∀ objectId, ¬ Answer request objectId records) :
    ∃ result, refuseHeadRecords request records = .ok result ∧ Decides request records result := by
  unfold refuseHeadRecords
  dsimp only
  split
  · exact decides_ambiguous hnone
  · split
    · exact decides_ambiguous hnone
    · split
      · exact decides_malformed hnone
      · exact decides_malformed hnone

theorem requestedRef_head {request : ValidatedGitRemoteRevisionRequest checkRefFormat}
    (hkind : request.key.selector.kind = .defaultHead) : requestedRef request = headRef := by
  have hnone : request.key.selector.exactBranch = none := by
    by_contra hsome
    have hbranch := request.key.selector.coherent.mpr (Option.isSome_iff_ne_none.mpr hsome)
    rw [hkind] at hbranch
    cases hbranch
  unfold requestedRef
  rw [hnone]

theorem classifyHeadRecords_decides
    {request : ValidatedGitRemoteRevisionRequest checkRefFormat}
    {records : List ParsedRemoteRecord} (hkind : request.key.selector.kind = .defaultHead)
    (hgood : ∀ record ∈ records, IsRemoteRecord record) :
    ∃ result, classifyHeadRecords request records = .ok result ∧
      Decides request records result := by
  have hrequested := requestedRef_head hkind
  unfold classifyHeadRecords
  split
  · rename_i record
    rw [← hrequested]
    exact readOnlyRecord_decides (hgood record List.mem_cons_self)
  · rename_i target symrefRef revision oidRef
    have hoid : IsRemoteRecord (.oid revision oidRef) :=
      hgood _ (List.mem_cons_of_mem _ List.mem_cons_self)
    -- The only answer of two records has both refs `HEAD` and a safe target.
    have hanswer : ∀ objectId,
        Answer request objectId [.symref target symrefRef, .oid revision oidRef] →
        symrefRef = headRef ∧ oidRef = headRef ∧ isSafeSymbolicHeadTarget target = true := by
      intro objectId h
      generalize hrecords : [ParsedRemoteRecord.symref target symrefRef,
        .oid revision oidRef] = records at h
      cases h with
      | line => cases hrecords
      | symbolic other _ hsafe =>
        injection hrecords with hfirst hsecond
        injection hfirst with htarget hsymref
        injection hsecond with hsecond _
        injection hsecond with _ href
        rw [htarget]
        exact ⟨hsymref, href, hsafe⟩
    split
    · rename_i hrefs
      apply decides_malformed
      intro objectId h
      obtain ⟨hsymref, href, _⟩ := hanswer objectId h
      rcases hrefs with hne | hne
      · exact hne hsymref
      · exact hne href
    · rename_i hrefs
      rw [not_or, not_not, not_not] at hrefs
      split
      · rename_i hunsafe
        apply decides_malformed
        intro objectId h
        rw [(hanswer objectId h).2.2] at hunsafe
        cases hunsafe
      · rename_i hsafe
        rw [Bool.not_eq_false] at hsafe
        cases revision with
        | gitCommit objectId =>
          apply decides_observed hoid.1
          rw [hrefs.1, hrefs.2]
          exact .symbolic target hkind hsafe
        | unknown => exact hoid.elim
        | absent => exact hoid.elim
        | unavailable reason => exact hoid.elim
        | inapplicable => exact hoid.elim
  · rename_i revision oidRef target symrefRef
    have hnone : ∀ objectId,
        ¬ Answer request objectId [.oid revision oidRef, .symref target symrefRef] := by
      intro objectId h
      generalize hrecords : [ParsedRemoteRecord.oid revision oidRef,
        .symref target symrefRef] = records at h
      cases h with
      | line => cases hrecords
      | symbolic other _ _ => cases hrecords
    split
    · exact refuseHeadRecords_decides hnone
    · split
      · exact decides_malformed hnone
      · split
        · exact decides_malformed hnone
        · exact decides_malformed hnone
  · rename_i hone htwo _
    apply refuseHeadRecords_decides
    intro objectId h
    cases h with
    | line => exact hone _ rfl
    | symbolic target _ _ => exact htwo _ _ _ _ rfl

/-- Every row of records is decided. -/
theorem classifyRecords_decides (request : ValidatedGitRemoteRevisionRequest checkRefFormat)
    {records : List ParsedRemoteRecord} (hgood : ∀ record ∈ records, IsRemoteRecord record) :
    ∃ result, classifyRecords request records = .ok result ∧ Decides request records result := by
  unfold classifyRecords
  cases hkind : request.key.selector.kind with
  | exactBranch =>
    obtain ⟨branch, hbranch⟩ :=
      Option.isSome_iff_exists.mp (request.key.selector.coherent.mp hkind)
    have hrequested : requestedRef request = headsPrefix ++ branch.name := by
      unfold requestedRef
      rw [hbranch]
    dsimp only
    rw [hbranch]
    dsimp only
    rw [← hrequested]
    exact classifyBranchRecords_decides hkind hgood
  | defaultHead => exact classifyHeadRecords_decides hkind hgood

/-! ## Transcripts -/

/-- A byte of a name: no control character, no space, no `DEL`. -/
theorem graph_iff (b : UInt8) : (0x20 < b ∧ b ≠ 0x7f) ↔
    isTranscriptWhitespace b = false ∧ isUnexpectedTranscriptControl b = false := by
  have hall : ∀ b : Fin 256, (0x20 < UInt8.ofFin b ∧ UInt8.ofFin b ≠ 0x7f) ↔
      isTranscriptWhitespace (UInt8.ofFin b) = false ∧
        isUnexpectedTranscriptControl (UInt8.ofFin b) = false := by
    decide +kernel
  exact hall b.toFin

theorem isToken_of_graph (hne : value ≠ []) (h : ∀ b ∈ value, 0x20 < b ∧ b ≠ 0x7f) :
    IsToken value :=
  ⟨hne, fun b hmem => ((graph_iff b).mp (h b hmem)).1⟩

theorem noControl_append {back : Bytes} : hasUnexpectedTranscriptControl (front ++ back) = false ↔
      hasUnexpectedTranscriptControl front = false ∧
        hasUnexpectedTranscriptControl back = false := by
  unfold hasUnexpectedTranscriptControl
  rw [List.any_append, Bool.or_eq_false_iff]

theorem noControl_of_graph {value : Bytes} (h : ∀ b ∈ value, 0x20 < b ∧ b ≠ 0x7f) :
    hasUnexpectedTranscriptControl value = false := by
  unfold hasUnexpectedTranscriptControl
  rw [List.any_eq_false]
  intro b hmem
  rw [((graph_iff b).mp (h b hmem)).2]
  exact Bool.false_ne_true

theorem IsCommit.graph (h : IsCommit objectId) : ∀ b ∈ objectId, 0x20 < b ∧ b ≠ 0x7f := by
  have hall : ∀ b : Fin 256, isLowerHex (UInt8.ofFin b) = true →
      0x20 < UInt8.ofFin b ∧ UInt8.ofFin b ≠ 0x7f := by
    decide +kernel
  intro b hmem
  exact hall b.toFin (h.2 b hmem)

/-- The ref of a request is a name. -/
theorem requestedRef_graph (hgit : RefFormat checkRefFormat)
    (request : ValidatedGitRemoteRevisionRequest checkRefFormat) :
    requestedRef request ≠ [] ∧ ∀ b ∈ requestedRef request, 0x20 < b ∧ b ≠ 0x7f := by
  unfold requestedRef
  cases request.key.selector.exactBranch with
  | none =>
    have hgraph : headRef ≠ [] ∧ ∀ b ∈ headRef, 0x20 < b ∧ b ≠ 0x7f := by decide
    exact hgraph
  | some branch =>
    refine ⟨List.append_ne_nil_of_left_ne_nil (by decide) _, ?_⟩
    intro b hmem
    rcases List.mem_append.mp hmem with hmem | hmem
    · have hprefix : ∀ b ∈ headsPrefix, 0x20 < b ∧ b ≠ 0x7f := by decide
      exact hprefix b hmem
    · exact hgit branch.name branch.accepted b hmem

theorem recordText_oid (objectId ref : Bytes) :
    recordText (.oid (.gitCommit objectId) ref) = commitLine objectId ref := by
  unfold recordText recordLine commitLine
  simp only [List.append_assoc]
  rfl

theorem recordText_symref (branch : Bytes) :
    recordText (.symref (headsPrefix ++ branch) headRef) = symbolicHeadLine branch := by
  unfold recordText recordLine symbolicHeadLine
  rw [show ascii "ref: refs/heads/" = symrefPrefix ++ headsPrefix from rfl,
    show ascii "\tHEAD\n" = byte '\t' :: headRef ++ [byte '\n'] from rfl]
  simp only [List.append_assoc]

/-- A safe target is a branch under `refs/heads/`. -/
theorem isSafeSymbolicHeadTarget_iff {target : Bytes} : isSafeSymbolicHeadTarget target = true ↔
      ∃ branch, target = headsPrefix ++ branch ∧ branch ≠ [] ∧
        hasAsciiWhitespace target = false := by
  unfold isSafeSymbolicHeadTarget
  simp only [Bool.and_eq_true, decide_eq_true_eq, Bool.not_eq_true']
  constructor
  · rintro ⟨⟨hstarts, hlength⟩, hclean⟩
    obtain ⟨branch, hbranch⟩ := List.isPrefixOf_iff_prefix.mp hstarts
    refine ⟨branch, hbranch.symm, ?_, hclean⟩
    intro hnil
    rw [← hbranch, hnil, List.append_nil] at hlength
    omega
  · rintro ⟨branch, htarget, hne, hclean⟩
    have hlength := List.length_pos_of_ne_nil hne
    rw [htarget, List.length_append]
    rw [htarget] at hclean
    exact ⟨⟨isPrefixOf_append _ _, by omega⟩, hclean⟩

/-- Records that answer are those of a transcript. -/
theorem transcript_of_answer {request : ValidatedGitRemoteRevisionRequest checkRefFormat}
    (hcontrol : hasUnexpectedTranscriptControl (records.flatMap recordText) = false)
    (h : Answer request objectId records) :
    Transcript request objectId (records.flatMap recordText) := by
  cases h with
  | line =>
    rw [List.flatMap_cons, List.flatMap_nil, List.append_nil, recordText_oid]
    exact .line
  | symbolic target hhead hsafe =>
    obtain ⟨branch, htarget, hne, hclean⟩ := isSafeSymbolicHeadTarget_iff.mp hsafe
    rw [htarget] at hclean hcontrol ⊢
    rw [List.flatMap_cons, List.flatMap_cons, List.flatMap_nil, List.append_nil,
      recordText_symref, recordText_oid] at hcontrol ⊢
    refine .symbolic branch hhead hne ?_
    intro b hmem
    rw [graph_iff]
    unfold hasAsciiWhitespace at hclean
    rw [List.any_append, Bool.or_eq_false_iff, List.any_eq_false, List.any_eq_false] at hclean
    have hline := (noControl_append.mp hcontrol).1
    unfold symbolicHeadLine at hline
    have hbranch := (noControl_append.mp (noControl_append.mp hline).1).2
    unfold hasUnexpectedTranscriptControl at hbranch
    rw [List.any_eq_false] at hbranch
    exact ⟨by simpa using hclean.2 b hmem, by simpa using hbranch b hmem⟩

/-- A transcript is the text of records that answer, and has no control byte. -/
theorem answer_of_transcript (hgit : RefFormat checkRefFormat)
    {request : ValidatedGitRemoteRevisionRequest checkRefFormat} (hcommit : IsCommit objectId)
    (h : Transcript request objectId output) :
    hasUnexpectedTranscriptControl output = false ∧ ∃ front records, output = front ++ [byte '\n'] ∧
        output = records.flatMap recordText ∧ (∀ record ∈ records, IsRemoteRecord record) ∧
        Answer request objectId records := by
  have hline : ∀ {ref : Bytes}, (∀ b ∈ ref, 0x20 < b ∧ b ≠ 0x7f) →
      hasUnexpectedTranscriptControl (commitLine objectId ref) = false := by
    intro ref href
    unfold commitLine
    rw [noControl_append, noControl_append, noControl_append]
    exact ⟨⟨⟨noControl_of_graph hcommit.graph, by decide⟩, noControl_of_graph href⟩, by decide⟩
  cases h with
  | line =>
    obtain ⟨hne, hgraph⟩ := requestedRef_graph hgit request
    refine ⟨hline hgraph, objectId ++ ascii "\t" ++ requestedRef request,
      [.oid (.gitCommit objectId) (requestedRef request)], rfl, ?_, ?_, .line⟩
    · rw [List.flatMap_cons, List.flatMap_nil, List.append_nil, recordText_oid]
    · intro record hmem
      rw [List.mem_singleton.mp hmem]
      exact ⟨hcommit, isToken_of_graph hne hgraph⟩
  | symbolic branch hhead hne hclean =>
    have hheadGraph : ∀ b ∈ headRef, 0x20 < b ∧ b ≠ 0x7f := by decide
    have htarget : IsToken (headsPrefix ++ branch) := by
      apply isToken_of_graph (List.append_ne_nil_of_left_ne_nil (by decide) _)
      intro b hmem
      rcases List.mem_append.mp hmem with hmem | hmem
      · have hprefix : ∀ b ∈ headsPrefix, 0x20 < b ∧ b ≠ 0x7f := by decide
        exact hprefix b hmem
      · exact hclean b hmem
    have hsafe : isSafeSymbolicHeadTarget (headsPrefix ++ branch) = true := by
      apply isSafeSymbolicHeadTarget_iff.mpr
      refine ⟨branch, rfl, hne, ?_⟩
      unfold hasAsciiWhitespace
      rw [List.any_eq_false]
      intro b hmem
      rw [htarget.2 b hmem]
      exact Bool.false_ne_true
    refine ⟨?_, symbolicHeadLine branch ++ (objectId ++ ascii "\t" ++ headRef),
      [.symref (headsPrefix ++ branch) headRef, .oid (.gitCommit objectId) headRef],
      ?_, ?_, ?_, .symbolic _ hhead hsafe⟩
    · rw [noControl_append]
      refine ⟨?_, hline hheadGraph⟩
      unfold symbolicHeadLine
      rw [noControl_append, noControl_append]
      exact ⟨⟨by decide, noControl_of_graph hclean⟩, by decide⟩
    · rw [List.append_assoc]
      rfl
    · rw [List.flatMap_cons, List.flatMap_cons, List.flatMap_nil, List.append_nil,
        recordText_symref, recordText_oid]
    · intro record hmem
      rcases List.mem_cons.mp hmem with rfl | hmem
      · exact ⟨htarget, isToken_of_graph (by decide) hheadGraph⟩
      · rw [List.mem_singleton.mp hmem]
        exact ⟨hcommit, isToken_of_graph (by decide) hheadGraph⟩

theorem parseRemoteRevisionObservation_parsed
    (request : ValidatedGitRemoteRevisionRequest checkRefFormat)
    (hcontrol : hasUnexpectedTranscriptControl (front ++ [byte '\n']) = false)
    (hparsed : parseRemoteRecords (front ++ [byte '\n']) = some records) :
    parseRemoteRevisionObservation request 0 (front ++ [byte '\n']) =
      classifyRecords request records := by
  have hne : front ++ [byte '\n'] ≠ [] :=
    List.append_ne_nil_of_right_ne_nil _ (List.cons_ne_nil _ _)
  unfold parseRemoteRevisionObservation
  rw [if_neg (by decide), if_neg (by decide), if_neg hne,
    if_neg (not_not.mpr List.getLast?_concat),
    if_neg (by rw [hcontrol]; exact Bool.false_ne_true), hparsed]
  cases records with
  | nil =>
    have htext := (parseRemoteRecords_eq_some_iff.mp hparsed).1
    exact absurd htext hne
  | cons record records => rfl

/-- What is parsed was decided from the records of the transcript, or refused before. -/
theorem parseRemoteRevisionObservation_cases
    (request : ValidatedGitRemoteRevisionRequest checkRefFormat) (exitStatus : Int)
    (output : Bytes) :
    (∃ result, parseRemoteRevisionObservation request exitStatus output = .ok result ∧
        (∀ observed, result ≠ .observed observed) ∧
        ∀ key, result = .refNotFound key ↔ key = request.key ∧ exitStatus = 2 ∧ output = []) ∨
      ∃ front records, exitStatus = 0 ∧ output = front ++ [byte '\n'] ∧
        hasUnexpectedTranscriptControl output = false ∧
        parseRemoteRecords output = some records := by
  have hrefused : ∀ reason, exitStatus ≠ 2 ∨ output ≠ [] →
      ∃ result, malformed request reason = .ok result ∧ (∀ observed, result ≠ .observed observed) ∧
        ∀ key, result = .refNotFound key ↔ key = request.key ∧ exitStatus = 2 ∧ output = [] := by
    intro reason hother
    refine ⟨_, rfl, (fun _ h => by cases h), ?_⟩
    intro key
    constructor
    · intro h
      cases h
    · rintro ⟨_, hstatus, hempty⟩
      rcases hother with hne | hne
      · exact absurd hstatus hne
      · exact absurd hempty hne
  unfold parseRemoteRevisionObservation
  by_cases hfound : exitStatus = 2
  · left
    rw [if_pos hfound]
    by_cases hempty : output = []
    · rw [if_pos hempty]
      refine ⟨_, rfl, (fun _ h => by cases h), ?_⟩
      intro key
      constructor
      · intro h
        injection h with h
        exact ⟨h.symm, hfound, hempty⟩
      · intro h
        rw [h.1]
    · rw [if_neg hempty]
      exact hrefused _ (Or.inr hempty)
  · rw [if_neg hfound]
    by_cases hstatus : exitStatus ≠ 0
    · left
      rw [if_pos hstatus]
      refine ⟨.gitExitFailure request.key exitStatus, rfl, ?_, ?_⟩
      · intro observed h
        cases h
      intro key
      constructor
      · intro h
        cases h
      · intro h
        exact absurd h.2.1 hfound
    · rw [if_neg hstatus]
      by_cases hempty : output = []
      · left
        rw [if_pos hempty]
        exact hrefused _ (Or.inl hfound)
      · rw [if_neg hempty]
        by_cases hlast : output.getLast? ≠ some (byte '\n')
        · left
          rw [if_pos hlast]
          exact hrefused _ (Or.inl hfound)
        · rw [if_neg hlast]
          by_cases hcontrol : hasUnexpectedTranscriptControl output = true
          · left
            rw [if_pos hcontrol]
            exact hrefused _ (Or.inl hfound)
          · rw [if_neg hcontrol]
            rw [not_not] at hstatus hlast
            rw [Bool.not_eq_true] at hcontrol
            cases hparsed : parseRemoteRecords output with
            | none =>
              left
              exact hrefused _ (Or.inl hfound)
            | some records =>
              right
              exact ⟨output.dropLast, records, hstatus,
                (List.dropLast_append_getLast? _ hlast).symm, hcontrol, rfl⟩

/-- **Remote revisions**: for every request, exit status and output, reading the answer
throws nothing; it is an observation exactly for status 0 and the transcript of a complete
commit name, which is then the revision; and the ref is reported as absent exactly for
status 2 without output. -/
theorem remoteRevision_exact (hgit : RefFormat checkRefFormat)
    (request : ValidatedGitRemoteRevisionRequest checkRefFormat) (exitStatus : Int)
    (output : Bytes) :
    ∃ result, parseRemoteRevisionObservation request exitStatus output = .ok result ∧
      (∀ observed, result = .observed observed ↔
        exitStatus = 0 ∧ ∃ objectId, IsCommit objectId ∧
          observed = observation request objectId ∧ Transcript request objectId output) ∧
      ∀ key, result = .refNotFound key ↔ key = request.key ∧ exitStatus = 2 ∧ output = [] := by
  rcases parseRemoteRevisionObservation_cases request exitStatus output with
    ⟨result, hresult, hnot, hfound⟩ | ⟨front, records, rfl, htext, hcontrol, hparsed⟩
  · refine ⟨result, hresult, ?_, hfound⟩
    intro observed
    constructor
    · intro h
      exact absurd h (hnot observed)
    · rintro ⟨hstatus, objectId, hcommit, hobserved, htranscript⟩
      obtain ⟨hclean, front, records, htext, hrecords, hgood, hanswer⟩ :=
        answer_of_transcript hgit hcommit htranscript
      have hparsed := parseRemoteRecords_eq_some_iff.mpr ⟨hrecords, hgood⟩
      obtain ⟨decided, hdecided, hdecides⟩ := classifyRecords_decides request hgood
      rw [htext] at hclean hparsed
      rw [hstatus, htext, parseRemoteRevisionObservation_parsed request hclean hparsed,
        hdecided] at hresult
      injection hresult with hsame
      rw [← hsame]
      exact (hdecides.observed observed).mpr ⟨objectId, hobserved, hanswer⟩
  · obtain ⟨hrecords, hgood⟩ := parseRemoteRecords_eq_some_iff.mp hparsed
    obtain ⟨result, hresult, hdecides⟩ := classifyRecords_decides request hgood
    refine ⟨result, ?_, ?_, ?_⟩
    · rw [htext] at hcontrol hparsed ⊢
      rw [parseRemoteRevisionObservation_parsed request hcontrol hparsed, hresult]
    · intro observed
      rw [hdecides.observed observed]
      constructor
      · rintro ⟨objectId, hobserved, hanswer⟩
        have hcommit : IsCommit objectId := by
          cases hanswer with
          | line => exact (hgood _ List.mem_cons_self).1
          | symbolic target _ _ =>
            exact (hgood _ (List.mem_cons_of_mem _ List.mem_cons_self)).1
        rw [hrecords] at hcontrol ⊢
        exact ⟨rfl, objectId, hcommit, hobserved, transcript_of_answer hcontrol hanswer⟩
      · rintro ⟨_, objectId, hcommit, hobserved, htranscript⟩
        obtain ⟨_, _, others, _, hothers, hall, hanswer⟩ :=
          answer_of_transcript hgit hcommit htranscript
        have hsame := parseRemoteRecords_eq_some_iff.mpr ⟨hothers, hall⟩
        rw [hparsed] at hsame
        injection hsame with hsame
        rw [hsame]
        exact ⟨objectId, hobserved, hanswer⟩
    · intro key
      constructor
      · intro h
        exact absurd h (hdecides.found key)
      · rintro ⟨_, hstatus, _⟩
        cases hstatus

end Transcripts

/-! ## Two requests -/

/-- The bytes that no ref may have, besides controls, the space and `DEL`. -/
def refPunctuation : Bytes := ascii "~^:?*[\\"

/-- The answers of Git to names without dots, slashes and braces. -/
def plainRefFormat (name : Bytes) : CheckRefFormatAnswer :=
  if name ≠ [] ∧ name.head? ≠ some (byte '-') ∧
      ∀ b ∈ name, (0x20 < b ∧ b ≠ 0x7f) ∧ b ∉ refPunctuation then
    .exited 0 (name ++ ascii "\n")
  else .exited 128 []

theorem plainRefFormat_refFormat : RefFormat plainRefFormat := by
  intro name h b hmem
  unfold plainRefFormat at h
  split at h
  · rename_i hname
    exact (hname.2.2 b hmem).1
  · cases h

def sampleSource (selector : VcsSelector) : VcsSourceIdentity where
  kind := .git
  sourceLocation := ascii "https://example.org/app.git"
  selector := selector
  architecture := none

def mainBranch : ValidatedExactGitBranch plainRefFormat where
  name := ascii "main"
  nonempty := by decide
  noNul := by decide
  bounded := by decide
  accepted := by decide

def mainRequest : ValidatedGitRemoteRevisionRequest plainRefFormat where
  source := sampleSource (.branch (ascii "main"))
  key := ⟨ascii "https://example.org/app.git", .ofBranch mainBranch⟩
  sourceKind := rfl
  selectors := by decide

def headRequest : ValidatedGitRemoteRevisionRequest plainRefFormat where
  source := sampleSource .defaultHead
  key := ⟨ascii "https://example.org/app.git", .defaultHead⟩
  sourceKind := rfl
  selectors := by decide

def sampleCommit : Bytes := List.replicate 40 (byte '1')

theorem remoteRevision_exact_main :
    parseRemoteRevisionObservation mainRequest 0
        (commitLine sampleCommit (ascii "refs/heads/main")) =
      .ok (.observed (observation mainRequest sampleCommit)) := by
  obtain ⟨result, hresult, hobserved, _⟩ := remoteRevision_exact plainRefFormat_refFormat
    mainRequest 0 (commitLine sampleCommit (ascii "refs/heads/main"))
  have hcommit : IsCommit sampleCommit := ⟨Or.inl rfl, by decide⟩
  have hsame := (hobserved (observation mainRequest sampleCommit)).mpr
    ⟨rfl, sampleCommit, hcommit, rfl, .line⟩
  rw [hresult, hsame]

/-- A symbolic target that is no ref name is refused. -/
theorem remoteRevision_spaced_target :
    parseRemoteRevisionObservation headRequest 0
        (symbolicHeadLine (ascii "a b") ++ commitLine sampleCommit headRef) =
      .ok (.malformedOutput headRequest.key .invalidRecord) := by
  have hempty : symbolicHeadLine (ascii "a b") ++ commitLine sampleCommit headRef ≠ [] := by
    decide
  have hlast : (symbolicHeadLine (ascii "a b") ++ commitLine sampleCommit headRef).getLast? =
      some (byte '\n') := by decide +kernel
  have hcontrol : hasUnexpectedTranscriptControl
      (symbolicHeadLine (ascii "a b") ++ commitLine sampleCommit headRef) = false := by
    decide +kernel
  have hrecords : parseRemoteRecords
      (symbolicHeadLine (ascii "a b") ++ commitLine sampleCommit headRef) = none := by
    decide +kernel
  unfold parseRemoteRevisionObservation
  rw [if_neg (by decide), if_neg (by decide), if_neg hempty, if_neg (not_not.mpr hlast),
    if_neg (by rw [hcontrol]; exact Bool.false_ne_true), hrecords]
  rfl

end Moguet.Source.RemoteRevision
