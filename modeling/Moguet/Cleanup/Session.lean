import Moguet.Install.Request
import Moguet.Cleanup.Policy

/-!
# The session of a cleanup

One session per invocation keeps the inventory of the trusted transactions
that were started under it, and numbers the observations that are taken before
the first change and after the last. A transaction may still be registered
after an observation; the aggregate finds that out from the size of the
inventory, which every observation remembers.
-/

namespace Moguet.Cleanup.Session

open Verified.ByteString
open Install.Request (isValidTrustedAlpmReceiptToken)
open Policy

variable {transactionToken : Bytes} {workItemIndices : List Nat} {workItemCount : Nat}

/-! ## The state of a session -/

/-- `InvocationDependencyTransactionOwner`: the path of a change. -/
inductive TransactionOwner
  | selectedRepositoryProvider
  | sourceArtifactInstall
  | makepkgSyncDependencies
  | unknown
  deriving DecidableEq

variable {owner : TransactionOwner}

structure InventoryEntry where
  owner : TransactionOwner
  transactionToken : Bytes
  workItemIndices : List Nat
  completedSuccessfully : Bool := false

variable {entry : InventoryEntry} {entries later : List InventoryEntry}

/-- `CleanupInvocationSessionState`; of the prepared build only the number of
its work items is read. -/
structure SessionState where
  workItemCount : Nat
  baselineObserved : Bool := false
  postSuccessObservationCount : Nat := 0
  transactionInventory : List InventoryEntry := []

variable {state state' : SessionState}

/-! ## Calls -/

def hasAdjacentDuplicate : List Nat → Bool
  | first :: second :: rest => first = second || hasAdjacentDuplicate (second :: rest)
  | _ => false

/-- The entry a registration would add, or `none` if it is refused. -/
def addedEntry (state : SessionState) (owner : TransactionOwner) (transactionToken : Bytes)
    (workItemIndices : List Nat) : Option InventoryEntry := do
  guard (owner = .selectedRepositoryProvider ∨ owner = .sourceArtifactInstall)
  guard (isValidTrustedAlpmReceiptToken transactionToken = true ∧ workItemIndices ≠ [])
  let sorted := workItemIndices.mergeSort
  guard (hasAdjacentDuplicate sorted = false)
  guard (state.baselineObserved = true ∧ ∀ index ∈ sorted, index < state.workItemCount)
  guard (∀ entry ∈ state.transactionInventory, entry.transactionToken ≠ transactionToken)
  some ⟨owner, transactionToken, sorted, false⟩

def registerTrustedTransactionToken (state : SessionState) (owner : TransactionOwner)
    (transactionToken : Bytes) (workItemIndices : List Nat) : Bool × SessionState :=
  match addedEntry state owner transactionToken workItemIndices with
  | none => (false, state)
  | some entry =>
    (true, { state with transactionInventory := state.transactionInventory ++ [entry] })

/-- The first entry of the owner and the token becomes completed; `none` if
there is none or it is completed already. -/
def completedEntry (owner : TransactionOwner) (transactionToken : Bytes) :
    List InventoryEntry → Option (List InventoryEntry)
  | [] => none
  | entry :: entries =>
    if entry.owner = owner ∧ entry.transactionToken = transactionToken then
      if entry.completedSuccessfully then none
      else some ({ entry with completedSuccessfully := true } :: entries)
    else (completedEntry owner transactionToken entries).map (entry :: ·)

def markTrustedTransactionCompleted (state : SessionState) (owner : TransactionOwner)
    (transactionToken : Bytes) : Bool × SessionState :=
  match completedEntry owner transactionToken state.transactionInventory with
  | none => (false, state)
  | some entries => (true, { state with transactionInventory := entries })

def recordBaselineObservation (state : SessionState) : Bool × SessionState :=
  if state.baselineObserved = true ∨ state.transactionInventory ≠ [] ∨
      state.postSuccessObservationCount ≠ 0 then
    (false, state)
  else (true, { state with baselineObserved := true })

def recordPostSuccessObservation (state : SessionState) : Option Nat × SessionState :=
  if state.baselineObserved = true ∧
      ∀ entry ∈ state.transactionInventory, entry.completedSuccessfully = true then
    (some state.transactionInventory.length,
      { state with postSuccessObservationCount := state.postSuccessObservationCount + 1 })
  else (none, state)

/-! ## Observations -/

inductive ObservationPhase
  | beforeFirstDependencyMutation
  | afterFullSupportedInvocationSuccess
  deriving DecidableEq

/-- An authority is the identity of one live session. -/
structure BaselineSnapshotObservation (Authority Snapshot : Type) where
  authority : Authority
  snapshot : Snapshot

/-- A baseline has one phase only. -/
def BaselineSnapshotObservation.phase {Authority Snapshot : Type}
    (_ : BaselineSnapshotObservation Authority Snapshot) : ObservationPhase :=
  .beforeFirstDependencyMutation

/-- `CleanupCurrentInstalledObservation` and `CleanupPolicyObservation`: what
was seen, and how many transactions were complete then. -/
structure PhaseObservation (Authority Seen : Type) where
  authority : Authority
  phase : ObservationPhase
  completedTransactionCount : Nat
  seen : Seen

section

variable {Authority Seen Failure Snapshot : Type} [DecidableEq Authority]

/-- `CleanupPhaseObservationProducer::current` and `::policy`, which do the
same; `none` if they throw. -/
def observePhase (authority : Authority) (state : SessionState) (seen : Seen)
    (phase : ObservationPhase) : Option (PhaseObservation Authority Seen × SessionState) :=
  match phase with
  | .beforeFirstDependencyMutation => some (⟨authority, phase, 0, seen⟩, state)
  | .afterFullSupportedInvocationSuccess =>
    let recorded := recordPostSuccessObservation state
    recorded.1.map fun completed => (⟨authority, phase, completed, seen⟩, recorded.2)

/-! ## The aggregate -/

/-- `CleanupInvocationEvidenceIssueKind`. -/
inductive EvidenceIssue
  | unsupportedRoute
  | routeAuthorityUnknown
  | remoteAurBuildPlanMissing
  | buildPlanIncomplete
  | rootInventoryIncomplete
  | workItemInventoryIncomplete
  | packageBaseInventoryIncomplete
  | workItemOutcomeFailed
  | workItemOutcomeNotAttempted
  | workItemOutcomeUnknown
  | workItemOutcomeInvalid
  | dependencyEdgeInventoryEmpty
  | cleanupRelevantEdgeInventoryEmpty
  | dependencyEdgeUnsupported
  | dependencyEdgeInvalidOrUnknown
  | dependencyEdgeAttributionMismatch
  | sourceArtifactCorrelationUnexpected
  | selectedProviderCorrelationUnexpected
  | correlationInvocationMismatch
  | correlationIncomplete
  | transactionTokenInventoryMissing
  | transactionTokenInventoryUnexpected
  | transactionTokenOwnerMismatch
  | transactionTokenDuplicate
  | phaseObservationMissing
  | phaseObservationMismatch
  | policyObservationIncomplete
  | uncorrelatedActualInstall
  deriving DecidableEq

inductive EvidenceCompleteness
  | complete
  | incomplete
  | unknown
  deriving DecidableEq

def addUniqueIssue (issues : List EvidenceIssue) (issue : EvidenceIssue) :
    List EvidenceIssue :=
  if issue ∈ issues then issues else issues ++ [issue]

def issueIf (condition : Bool) (issue : EvidenceIssue) : List EvidenceIssue :=
  if condition then [issue] else []

/-- The phase checks of a baseline, a current observation and the lifecycle
against the inventory at the time of the aggregate. -/
def observationsMismatch (authority : Authority) (inventory : List InventoryEntry)
    (lifecycleAuthority : Option Authority)
    (baseline : BaselineSnapshotObservation Authority (Except Failure Snapshot))
    (current : PhaseObservation Authority (Except Failure Snapshot)) : Bool :=
  baseline.authority ≠ authority || baseline.phase ≠ .beforeFirstDependencyMutation ||
    current.authority ≠ authority ||
    current.phase ≠ .afterFullSupportedInvocationSuccess ||
    current.completedTransactionCount ≠ inventory.length ||
    inventory.any (fun entry => !entry.completedSuccessfully) ||
    lifecycleAuthority ≠ some authority

def policyMismatch (authority : Authority) (inventory : List InventoryEntry)
    (policy : PhaseObservation Authority (PolicyEvidence Failure)) : Bool :=
  policy.authority ≠ authority || policy.phase ≠ .afterFullSupportedInvocationSuccess ||
    policy.completedTransactionCount ≠ inventory.length

def phaseIssues (authority : Authority) (inventory : List InventoryEntry)
    (lifecycleAuthority : Option Authority)
    (baseline : BaselineSnapshotObservation Authority (Except Failure Snapshot))
    (current : PhaseObservation Authority (Except Failure Snapshot))
    (policy : Option (PhaseObservation Authority (PolicyEvidence Failure))) :
    List EvidenceIssue :=
  issueIf (observationsMismatch authority inventory lifecycleAuthority baseline current)
      .phaseObservationMismatch ++
    issueIf (!baseline.snapshot.isOk || !current.seen.isOk) .phaseObservationMissing ++
    match policy with
    | none => []
    | some policy =>
      issueIf (policyMismatch authority inventory policy) .phaseObservationMismatch ++
        issueIf (projectCleanupPolicyProtection policy.seen = .unknown)
          .policyObservationIncomplete

/-- `aggregate_remote_aur_cleanup_invocation_evidence`: its completeness and its
issues. The phase checks come first; `correlationIssues` are those that the
checks of the plan, the work items and the correlations add to them. -/
def aggregateInvocationEvidence (authority : Authority) (state : SessionState)
    (lifecycleAuthority : Option Authority)
    (baseline : BaselineSnapshotObservation Authority (Except Failure Snapshot))
    (current : PhaseObservation Authority (Except Failure Snapshot))
    (policy : Option (PhaseObservation Authority (PolicyEvidence Failure)))
    (correlationIssues : List EvidenceIssue) :
    EvidenceCompleteness × List EvidenceIssue :=
  let issues := (phaseIssues authority state.transactionInventory lifecycleAuthority
    baseline current policy ++ correlationIssues).foldl addUniqueIssue []
  (if issues = [] then .complete else .incomplete,
    issues.mergeSort fun lhs rhs => lhs.ctorIdx ≤ rhs.ctorIdx)

end

variable {issue : EvidenceIssue} {correlationIssues : List EvidenceIssue}

/-! ## Sequences of calls -/

/-- A call on the session. The observations of the two later kinds are calls
of `recordPostSuccess`. -/
inductive SessionCall
  | recordBaseline
  | register (owner : TransactionOwner) (transactionToken : Bytes)
      (workItemIndices : List Nat)
  | markCompleted (owner : TransactionOwner) (transactionToken : Bytes)
  | recordPostSuccess

variable {call : SessionCall} {calls : List SessionCall}

def SessionCall.apply (call : SessionCall) (state : SessionState) : SessionState :=
  match call with
  | .recordBaseline => (recordBaselineObservation state).2
  | .register owner transactionToken workItemIndices =>
    (registerTrustedTransactionToken state owner transactionToken workItemIndices).2
  | .markCompleted owner transactionToken =>
    (markTrustedTransactionCompleted state owner transactionToken).2
  | .recordPostSuccess => (recordPostSuccessObservation state).2

/-- The call did what it was asked for. -/
def SessionCall.accepted (call : SessionCall) (state : SessionState) : Bool :=
  match call with
  | .recordBaseline => (recordBaselineObservation state).1
  | .register owner transactionToken workItemIndices =>
    (registerTrustedTransactionToken state owner transactionToken workItemIndices).1
  | .markCompleted owner transactionToken =>
    (markTrustedTransactionCompleted state owner transactionToken).1
  | .recordPostSuccess => (recordPostSuccessObservation state).1.isSome

/-- The session after some calls. -/
def runCalls (workItemCount : Nat) (calls : List SessionCall) : SessionState :=
  calls.foldl (fun state call => call.apply state) { workItemCount }

theorem runCalls_concat (workItemCount : Nat) (calls : List SessionCall) (call : SessionCall) :
    runCalls workItemCount (calls ++ [call]) = call.apply (runCalls workItemCount calls) := by
  simp [runCalls]

/-! ## One call -/

theorem addedEntry_eq_some
    (h : addedEntry state owner transactionToken workItemIndices = some entry) :
    state.baselineObserved = true ∧ entry.owner = owner ∧
      entry.transactionToken = transactionToken ∧ entry.completedSuccessfully = false ∧
      ∀ other ∈ state.transactionInventory, other.transactionToken ≠ transactionToken := by
  simp only [addedEntry, Option.bind_eq_bind, Option.bind_eq_some_iff, Option.guard_eq_some'] at h
  obtain ⟨_, -, _, -, _, -, _, hstate, _, hfresh, h⟩ := h
  injection h with h
  rw [← h]
  exact ⟨hstate.1, rfl, rfl, rfl, hfresh⟩

/-- Everything a call can do: nothing, or one of four changes. -/
inductive Change (state : SessionState) : SessionCall → SessionState → Prop
  | none (call : SessionCall) : Change state call state
  | baseline (h : SessionCall.recordBaseline.accepted state = true) :
      Change state .recordBaseline { state with baselineObserved := true }
  | registered {owner : TransactionOwner} {transactionToken : Bytes}
      {workItemIndices : List Nat} {entry : InventoryEntry}
      (h : addedEntry state owner transactionToken workItemIndices = some entry) :
      Change state (.register owner transactionToken workItemIndices)
        { state with transactionInventory := state.transactionInventory ++ [entry] }
  | completed {owner : TransactionOwner} {transactionToken : Bytes}
      {entries : List InventoryEntry}
      (h : completedEntry owner transactionToken state.transactionInventory =
        some entries) :
      Change state (.markCompleted owner transactionToken)
        { state with transactionInventory := entries }
  | observed :
      Change state .recordPostSuccess
        { state with postSuccessObservationCount := state.postSuccessObservationCount + 1 }

theorem change_apply (call : SessionCall) (state : SessionState) :
    Change state call (call.apply state) := by
  cases call with
  | recordBaseline =>
    show Change state _ (recordBaselineObservation state).2
    by_cases hrefused : state.baselineObserved = true ∨ state.transactionInventory ≠ [] ∨
        state.postSuccessObservationCount ≠ 0
    · rw [recordBaselineObservation, if_pos hrefused]
      exact .none _
    · have haccepted : SessionCall.recordBaseline.accepted state = true := by
        show (recordBaselineObservation state).1 = true
        rw [recordBaselineObservation, if_neg hrefused]
      rw [recordBaselineObservation, if_neg hrefused]
      exact .baseline haccepted
  | register owner transactionToken workItemIndices =>
    show Change state _
      (registerTrustedTransactionToken state owner transactionToken workItemIndices).2
    unfold registerTrustedTransactionToken
    split
    · exact .none _
    · rename_i entry hentry
      exact .registered hentry
  | markCompleted owner transactionToken =>
    show Change state _ (markTrustedTransactionCompleted state owner transactionToken).2
    unfold markTrustedTransactionCompleted
    split
    · exact .none _
    · rename_i entries hentries
      exact .completed hentries
  | recordPostSuccess =>
    show Change state _ (recordPostSuccessObservation state).2
    unfold recordPostSuccessObservation
    split
    · exact .observed
    · exact .none _

/-! ## Entries stay -/

/-- The same transaction, at least as far. -/
structure EntryKept (entry later : InventoryEntry) : Prop where
  owner : later.owner = entry.owner
  transactionToken : later.transactionToken = entry.transactionToken
  workItemIndices : later.workItemIndices = entry.workItemIndices
  completed : entry.completedSuccessfully = true → later.completedSuccessfully = true

theorem EntryKept.refl (entry : InventoryEntry) : EntryKept entry entry :=
  ⟨rfl, rfl, rfl, fun h => h⟩

theorem EntryKept.trans {first second third : InventoryEntry} (h : EntryKept first second)
    (h' : EntryKept second third) : EntryKept first third :=
  ⟨h'.owner.trans h.owner, h'.transactionToken.trans h.transactionToken,
    h'.workItemIndices.trans h.workItemIndices,
    fun hcompleted => h'.completed (h.completed hcompleted)⟩

/-- Every entry is still at its place. -/
def Kept (entries later : List InventoryEntry) : Prop :=
  ∀ (index : Nat) (entry : InventoryEntry), entries[index]? = some entry →
    ∃ found, later[index]? = some found ∧ EntryKept entry found

theorem Kept.refl (entries : List InventoryEntry) : Kept entries entries :=
  fun _ entry h => ⟨entry, h, EntryKept.refl entry⟩

theorem Kept.trans {first second third : List InventoryEntry} (h : Kept first second)
    (h' : Kept second third) : Kept first third := by
  intro index entry hentry
  obtain ⟨found, hfound, hkept⟩ := h index entry hentry
  obtain ⟨last, hlast, hkept'⟩ := h' index found hfound
  exact ⟨last, hlast, hkept.trans hkept'⟩

theorem kept_append (entries more : List InventoryEntry) : Kept entries (entries ++ more) := by
  intro index entry hentry
  have hindex := (List.getElem?_eq_some_iff.mp hentry).1
  refine ⟨entry, ?_, EntryKept.refl entry⟩
  rw [List.getElem?_append_left hindex]
  exact hentry

theorem completedEntry_kept : ∀ {entries later : List InventoryEntry},
      completedEntry owner transactionToken entries = some later →
      Kept entries later ∧ later.length = entries.length := by
  intro entries
  induction entries with
  | nil =>
    intro later h
    cases h
  | cons first entries ih =>
    intro later h
    rw [completedEntry] at h
    split at h
    · split at h
      · cases h
      · injection h with h
        rw [← h]
        refine ⟨?_, rfl⟩
        intro index entry hentry
        cases index with
        | zero =>
          injection hentry with hentry
          rw [← hentry]
          exact ⟨_, rfl, rfl, rfl, rfl, fun _ => rfl⟩
        | succ index => exact ⟨entry, hentry, EntryKept.refl entry⟩
    · obtain ⟨rest, hrest, rfl⟩ := Option.map_eq_some_iff.mp h
      obtain ⟨hkept, hlength⟩ := ih hrest
      refine ⟨?_, by rw [List.length_cons, List.length_cons, hlength]⟩
      intro index entry hentry
      cases index with
      | zero => exact ⟨entry, hentry, EntryKept.refl entry⟩
      | succ index => exact hkept index entry hentry

theorem change_kept (h : Change state call state') :
    Kept state.transactionInventory state'.transactionInventory := by
  cases h with
  | none => exact Kept.refl _
  | baseline => exact Kept.refl _
  | registered => exact kept_append _ _
  | completed h => exact (completedEntry_kept h).1
  | observed => exact Kept.refl _

theorem runCalls_kept (workItemCount : Nat) (before after : List SessionCall) :
    Kept (runCalls workItemCount before).transactionInventory
      (runCalls workItemCount (before ++ after)).transactionInventory := by
  induction after using List.reverseRecOn with
  | nil =>
    rw [List.append_nil]
    exact Kept.refl _
  | append_singleton after call ih =>
    rw [← List.append_assoc, runCalls_concat]
    exact ih.trans (change_kept (change_apply call _))

/-! ## Distinct tokens -/

def tokens (entries : List InventoryEntry) : List Bytes :=
  entries.map (·.transactionToken)

theorem tokens_eq_of_kept (h : Kept entries later) (hlength : later.length = entries.length) :
    tokens later = tokens entries := by
  apply List.ext_getElem?
  intro index
  simp only [tokens, List.getElem?_map]
  cases hentry : entries[index]? with
  | none =>
    have hindex := List.getElem?_eq_none_iff.mp hentry
    rw [List.getElem?_eq_none_iff.mpr (by omega)]
  | some entry =>
    obtain ⟨found, hfound, hkept⟩ := h index entry hentry
    rw [hfound]
    exact congrArg some hkept.transactionToken

theorem change_nodup (h : Change state call state')
    (hnodup : (tokens state.transactionInventory).Nodup) :
    (tokens state'.transactionInventory).Nodup := by
  cases h with
  | none => exact hnodup
  | baseline => exact hnodup
  | registered h =>
    obtain ⟨-, -, htoken, -, hfresh⟩ := addedEntry_eq_some h
    show ((state.transactionInventory ++ _).map (·.transactionToken)).Nodup
    rw [List.map_append, List.map_singleton, htoken, ← List.concat_eq_append]
    apply hnodup.concat
    intro hmem
    obtain ⟨other, hother, hsame⟩ := List.mem_map.mp hmem
    exact hfresh other hother hsame
  | completed h =>
    obtain ⟨hkept, hlength⟩ := completedEntry_kept h
    rw [tokens_eq_of_kept hkept hlength]
    exact hnodup
  | observed => exact hnodup

theorem runCalls_nodup (workItemCount : Nat) (calls : List SessionCall) :
    (tokens (runCalls workItemCount calls).transactionInventory).Nodup := by
  induction calls using List.reverseRecOn with
  | nil => exact List.nodup_nil
  | append_singleton calls call ih =>
    rw [runCalls_concat]
    exact change_nodup (change_apply call _) ih

/-! ## Where things come from -/

/-- The call was made and did what it was asked for, after `earlier`. -/
def AcceptedAfter (workItemCount : Nat) (earlier : List SessionCall) (call : SessionCall) :
    Prop :=
  call.accepted (runCalls workItemCount earlier) = true

theorem baselineObserved_recorded (h : (runCalls workItemCount calls).baselineObserved = true) :
    ∃ earlier later, calls = earlier ++ .recordBaseline :: later ∧
      AcceptedAfter workItemCount earlier .recordBaseline := by
  induction calls using List.reverseRecOn with
  | nil => cases h
  | append_singleton calls call ih =>
    rw [runCalls_concat] at h
    have hchange := change_apply call (runCalls workItemCount calls)
    -- Only an accepted recording sets the flag; every other call keeps it.
    have hcases : (runCalls workItemCount calls).baselineObserved = true ∨
        (call = .recordBaseline ∧ AcceptedAfter workItemCount calls .recordBaseline) := by
      generalize call.apply (runCalls workItemCount calls) = state' at h hchange
      cases hchange with
      | none => exact Or.inl h
      | baseline haccepted => exact Or.inr ⟨rfl, haccepted⟩
      | registered => exact Or.inl h
      | completed => exact Or.inl h
      | observed => exact Or.inl h
    rcases hcases with hbefore | ⟨rfl, haccepted⟩
    · obtain ⟨earlier, later, rfl, haccepted⟩ := ih hbefore
      exact ⟨earlier, later ++ [call], by simp, haccepted⟩
    · exact ⟨calls, [], rfl, haccepted⟩

/-- The entry was registered after the baseline had been recorded. -/
def RegisteredAfterBaseline (workItemCount : Nat) (calls : List SessionCall)
    (entry : InventoryEntry) : Prop :=
  ∃ earlier middle later workItemIndices,
    calls = earlier ++ .recordBaseline :: (middle ++
      .register entry.owner entry.transactionToken workItemIndices :: later) ∧
    AcceptedAfter workItemCount earlier .recordBaseline ∧
    AcceptedAfter workItemCount (earlier ++ .recordBaseline :: middle)
      (.register entry.owner entry.transactionToken workItemIndices)

theorem RegisteredAfterBaseline.concat {later : InventoryEntry}
    (h : RegisteredAfterBaseline workItemCount calls entry) (howner : later.owner = entry.owner)
    (htoken : later.transactionToken = entry.transactionToken) (call : SessionCall) :
    RegisteredAfterBaseline workItemCount (calls ++ [call]) later := by
  obtain ⟨earlier, middle, rest, workItemIndices, rfl, hbaseline, hregister⟩ := h
  unfold RegisteredAfterBaseline
  rw [howner, htoken]
  exact ⟨earlier, middle, rest ++ [call], workItemIndices, by simp, hbaseline, hregister⟩

/-- The transaction was marked completed. -/
def MarkedCompleted (workItemCount : Nat) (calls : List SessionCall)
    (entry : InventoryEntry) : Prop :=
  ∃ earlier later, calls = earlier ++
      .markCompleted entry.owner entry.transactionToken :: later ∧
    AcceptedAfter workItemCount earlier (.markCompleted entry.owner entry.transactionToken)

theorem MarkedCompleted.concat (h : MarkedCompleted workItemCount calls entry) (call : SessionCall)
    : MarkedCompleted workItemCount (calls ++ [call]) entry := by
  obtain ⟨earlier, later, rfl, haccepted⟩ := h
  exact ⟨earlier, later ++ [call], by simp, haccepted⟩

/-- An entry after a completion is an old one, or the one it is about. -/
theorem completedEntry_mem : ∀ {entries later : List InventoryEntry},
      completedEntry owner transactionToken entries = some later →
      ∀ entry ∈ later, entry ∈ entries ∨
        (entry.owner = owner ∧ entry.transactionToken = transactionToken ∧
          ∃ old ∈ entries, old.owner = entry.owner ∧
            old.transactionToken = entry.transactionToken) := by
  intro entries
  induction entries with
  | nil =>
    intro later h
    cases h
  | cons first entries ih =>
    intro later h entry hentry
    rw [completedEntry] at h
    split at h
    · rename_i hsame
      split at h
      · cases h
      · injection h with h
        rw [← h] at hentry
        rcases List.mem_cons.mp hentry with rfl | hentry
        · exact Or.inr ⟨hsame.1, hsame.2, first, List.mem_cons_self, rfl, rfl⟩
        · exact Or.inl (List.mem_cons_of_mem _ hentry)
    · obtain ⟨rest, hrest, rfl⟩ := Option.map_eq_some_iff.mp h
      rcases List.mem_cons.mp hentry with rfl | hentry
      · exact Or.inl List.mem_cons_self
      · rcases ih hrest entry hentry with hold | ⟨howner, htoken, old, hold, hsame⟩
        · exact Or.inl (List.mem_cons_of_mem _ hold)
        · exact Or.inr ⟨howner, htoken, old, List.mem_cons_of_mem _ hold, hsame⟩

theorem accepted_register (h : addedEntry state owner transactionToken workItemIndices = some entry)
    : (SessionCall.register owner transactionToken workItemIndices).accepted state = true := by
  show (registerTrustedTransactionToken state owner transactionToken workItemIndices).1 = true
  rw [registerTrustedTransactionToken, h]

theorem accepted_markCompleted
    (h : completedEntry owner transactionToken state.transactionInventory = some entries) :
    (SessionCall.markCompleted owner transactionToken).accepted state = true := by
  show (markTrustedTransactionCompleted state owner transactionToken).1 = true
  rw [markTrustedTransactionCompleted, h]

theorem registeredAfterBaseline_of_mem {workItemCount : Nat} {calls : List SessionCall} :
    ∀ entry ∈ (runCalls workItemCount calls).transactionInventory,
      RegisteredAfterBaseline workItemCount calls entry := by
  induction calls using List.reverseRecOn with
  | nil =>
    intro entry hentry
    cases hentry
  | append_singleton calls call ih =>
    intro entry hentry
    rw [runCalls_concat] at hentry
    have hchange := change_apply call (runCalls workItemCount calls)
    generalize call.apply (runCalls workItemCount calls) = state' at hentry hchange
    cases hchange with
    | none => exact (ih entry hentry).concat rfl rfl call
    | baseline => exact (ih entry hentry).concat rfl rfl _
    | registered h =>
      rcases List.mem_append.mp hentry with hentry | hentry
      · exact (ih entry hentry).concat rfl rfl _
      · rw [List.mem_singleton.mp hentry]
        obtain ⟨hbaseline, howner, htoken, -⟩ := addedEntry_eq_some h
        obtain ⟨earlier, middle, rfl, haccepted⟩ := baselineObserved_recorded hbaseline
        have hregister := accepted_register h
        unfold RegisteredAfterBaseline
        rw [howner, htoken]
        exact ⟨earlier, middle, [], _, by simp, haccepted, hregister⟩
    | completed h =>
      rcases completedEntry_mem h entry hentry with hold | ⟨-, -, old, hold, howner, htoken⟩
      · exact (ih entry hold).concat rfl rfl _
      · exact (ih old hold).concat howner.symm htoken.symm _
    | observed => exact (ih entry hentry).concat rfl rfl _

theorem markedCompleted_of_mem {workItemCount : Nat} {calls : List SessionCall} :
    ∀ entry ∈ (runCalls workItemCount calls).transactionInventory,
      entry.completedSuccessfully = true → MarkedCompleted workItemCount calls entry := by
  induction calls using List.reverseRecOn with
  | nil =>
    intro entry hentry
    cases hentry
  | append_singleton calls call ih =>
    intro entry hentry hcompleted
    rw [runCalls_concat] at hentry
    have hchange := change_apply call (runCalls workItemCount calls)
    generalize call.apply (runCalls workItemCount calls) = state' at hentry hchange
    cases hchange with
    | none => exact (ih entry hentry hcompleted).concat call
    | baseline => exact (ih entry hentry hcompleted).concat _
    | registered h =>
      rcases List.mem_append.mp hentry with hentry | hentry
      · exact (ih entry hentry hcompleted).concat _
      · rw [List.mem_singleton.mp hentry] at hcompleted
        obtain ⟨-, -, -, hnew, -⟩ := addedEntry_eq_some h
        rw [hnew] at hcompleted
        cases hcompleted
    | completed h =>
      rcases completedEntry_mem h entry hentry with hold | ⟨howner, htoken, -⟩
      · exact (ih entry hold hcompleted).concat _
      · have haccepted := accepted_markCompleted h
        unfold MarkedCompleted
        rw [howner, htoken]
        exact ⟨calls, [], rfl, haccepted⟩
    | observed => exact (ih entry hentry hcompleted).concat _

/-! ## Observations in phase -/

section

variable {Authority Seen Failure Snapshot : Type}

/-- The calls on the session that an observation makes. -/
def phaseCalls : ObservationPhase → List SessionCall
  | .beforeFirstDependencyMutation => []
  | .afterFullSupportedInvocationSuccess => [.recordPostSuccess]

/-- The session produced the observation after the calls `before`, and then
went on. -/
def ObservedAfter (authority : Authority) (workItemCount : Nat)
    (calls before : List SessionCall) (observation : PhaseObservation Authority Seen) :
    Prop :=
  (∃ state, observePhase authority (runCalls workItemCount before) observation.seen
      observation.phase = some (observation, state)) ∧
    ∃ after, calls = before ++ phaseCalls observation.phase ++ after

/-- A later observation saw only completed transactions, and counted them. -/
theorem observePhase_completed {authority : Authority} {seen : Seen}
    {observation : PhaseObservation Authority Seen}
    (h : observePhase authority state seen .afterFullSupportedInvocationSuccess =
      some (observation, state')) :
    observation.completedTransactionCount = state.transactionInventory.length ∧
      ∀ entry ∈ state.transactionInventory, entry.completedSuccessfully = true := by
  rw [observePhase] at h
  obtain ⟨completed, hcompleted, h⟩ := Option.map_eq_some_iff.mp h
  injection h with hobservation _
  unfold recordPostSuccessObservation at hcompleted
  split at hcompleted
  · rename_i haccepted
    injection hcompleted with hcompleted
    rw [← hobservation]
    exact ⟨hcompleted.symm, haccepted.2⟩
  · cases hcompleted

/-- Nothing was registered after `before`, and everything had been completed
by then. -/
def CompletedBy (workItemCount : Nat) (calls before : List SessionCall) : Prop :=
  (runCalls workItemCount calls).transactionInventory =
      (runCalls workItemCount before).transactionInventory ∧
    ∀ entry ∈ (runCalls workItemCount calls).transactionInventory,
      MarkedCompleted workItemCount before entry

theorem eq_of_kept_completed (h : Kept entries later) (hlength : later.length = entries.length)
    (hcompleted : ∀ entry ∈ entries, entry.completedSuccessfully = true) : later = entries := by
  apply List.ext_getElem?
  intro index
  cases hentry : entries[index]? with
  | none =>
    have hindex := List.getElem?_eq_none_iff.mp hentry
    exact List.getElem?_eq_none_iff.mpr (by omega)
  | some entry =>
    obtain ⟨found, hfound, hkept⟩ := h index entry hentry
    have hold := hcompleted entry (List.mem_of_getElem? hentry)
    have hnew := hkept.completed hold
    have howner := hkept.owner
    have htoken := hkept.transactionToken
    have hindices := hkept.workItemIndices
    obtain ⟨owner, token, indices, completed⟩ := entry
    obtain ⟨owner', token', indices', completed'⟩ := found
    dsimp only at hold hnew howner htoken hindices
    rw [hfound, howner, htoken, hindices, hold, hnew]

/-- An observation whose count is the size of the inventory came after every
transaction. -/
theorem completedBy_of_count {authority : Authority} {before : List SessionCall}
    {observation : PhaseObservation Authority Seen}
    (h : ObservedAfter authority workItemCount calls before observation)
    (hphase : observation.phase = .afterFullSupportedInvocationSuccess)
    (hcount : observation.completedTransactionCount =
      (runCalls workItemCount calls).transactionInventory.length) :
    CompletedBy workItemCount calls before := by
  obtain ⟨⟨state, hobserved⟩, after, rfl⟩ := h
  rw [hphase] at hobserved
  obtain ⟨hseen, hcompleted⟩ := observePhase_completed hobserved
  have hkept := runCalls_kept workItemCount before (phaseCalls observation.phase ++ after)
  rw [← List.append_assoc] at hkept
  rw [hseen] at hcount
  have hsame := eq_of_kept_completed hkept hcount.symm hcompleted
  refine ⟨hsame, ?_⟩
  intro entry hentry
  rw [hsame] at hentry
  exact markedCompleted_of_mem entry hentry (hcompleted entry hentry)

theorem mem_foldl_addUniqueIssue :
    ∀ {found kept : List EvidenceIssue}, issue ∈ kept ∨ issue ∈ found →
      issue ∈ found.foldl addUniqueIssue kept := by
  intro found
  induction found with
  | nil =>
    intro kept h
    simpa using h
  | cons first found ih =>
    intro kept h
    rw [List.foldl_cons]
    apply ih
    rw [addUniqueIssue]
    by_cases hfirst : first ∈ kept
    · rw [if_pos hfirst]
      rcases h with h | h
      · exact Or.inl h
      · rcases List.mem_cons.mp h with rfl | h
        · exact Or.inl hfirst
        · exact Or.inr h
    · rw [if_neg hfirst]
      rcases h with h | h
      · exact Or.inl (List.mem_append_left _ h)
      · rcases List.mem_cons.mp h with rfl | h
        · exact Or.inl (List.mem_append_right _ (List.mem_singleton.mpr rfl))
        · exact Or.inr h

variable [DecidableEq Authority]

theorem phaseIssues_of_complete {authority : Authority} {lifecycleAuthority : Option Authority}
    {baseline : BaselineSnapshotObservation Authority (Except Failure Snapshot)}
    {current : PhaseObservation Authority (Except Failure Snapshot)}
    {policy : Option (PhaseObservation Authority (PolicyEvidence Failure))}
    (h : (aggregateInvocationEvidence authority state lifecycleAuthority baseline current
      policy correlationIssues).1 = .complete) :
    phaseIssues authority state.transactionInventory lifecycleAuthority baseline current
      policy = [] := by
  apply List.eq_nil_iff_forall_not_mem.mpr
  intro issue hissue
  have hlisted : issue ∈ ([] : List EvidenceIssue) ∨ issue ∈
      phaseIssues authority state.transactionInventory lifecycleAuthority baseline current
        policy ++ correlationIssues := Or.inr (List.mem_append_left correlationIssues hissue)
  have hfound := mem_foldl_addUniqueIssue hlisted
  unfold aggregateInvocationEvidence at h
  dsimp only at h
  split at h
  · rename_i hnil
    rw [hnil] at hfound
    exact List.not_mem_nil hfound
  · cases h

@[simp] theorem issueIf_eq_nil_iff {condition : Bool} :
    issueIf condition issue = [] ↔ condition = false := by
  cases condition with
  | false => simp [issueIf]
  | true => simp [issueIf]

/-- Complete evidence has a current observation, and a policy observation if
there is one, whose counts are the size of the inventory. -/
theorem counts_of_complete {authority : Authority} {lifecycleAuthority : Option Authority}
    {baseline : BaselineSnapshotObservation Authority (Except Failure Snapshot)}
    {current : PhaseObservation Authority (Except Failure Snapshot)}
    {policy : Option (PhaseObservation Authority (PolicyEvidence Failure))}
    (h : (aggregateInvocationEvidence authority state lifecycleAuthority baseline current
      policy correlationIssues).1 = .complete) :
    (current.phase = .afterFullSupportedInvocationSuccess ∧
      current.completedTransactionCount = state.transactionInventory.length) ∧
      ∀ observation ∈ policy, observation.phase = .afterFullSupportedInvocationSuccess ∧
        observation.completedTransactionCount = state.transactionInventory.length := by
  have hphase := phaseIssues_of_complete h
  simp only [phaseIssues, List.append_eq_nil_iff, issueIf_eq_nil_iff] at hphase
  obtain ⟨⟨hobservations, -⟩, hpolicy⟩ := hphase
  simp only [observationsMismatch, Bool.or_eq_false_iff, decide_eq_false_iff_not,
    not_not] at hobservations
  refine ⟨⟨hobservations.1.1.1.2, hobservations.1.1.2⟩, ?_⟩
  intro observation hobservation
  rw [Option.mem_def.mp hobservation] at hpolicy
  simp only [List.append_eq_nil_iff, issueIf_eq_nil_iff, policyMismatch,
    Bool.or_eq_false_iff, decide_eq_false_iff_not, not_not] at hpolicy
  exact ⟨hpolicy.1.1.2, hpolicy.1.2⟩

/-- **Evidence in phase**: over every sequence of calls on a session the tokens
of the inventory are distinct, every entry was registered after the baseline
had been recorded, no entry is removed or moved and no completion is undone.
If the aggregate of observations of the session is complete, nothing was
registered after the observation of the current state, nor after that of the
policy, and everything had been marked completed before both. -/
theorem sessionEvidence_inPhase (authority : Authority) (workItemCount : Nat)
    (calls : List SessionCall) :
    (tokens (runCalls workItemCount calls).transactionInventory).Nodup ∧
      (∀ entry ∈ (runCalls workItemCount calls).transactionInventory,
        RegisteredAfterBaseline workItemCount calls entry) ∧
      (∀ before after, calls = before ++ after →
        Kept (runCalls workItemCount before).transactionInventory
          (runCalls workItemCount calls).transactionInventory) ∧
      (∀ (lifecycleAuthority : Option Authority)
        (baseline : BaselineSnapshotObservation Authority (Except Failure Snapshot))
        (current : PhaseObservation Authority (Except Failure Snapshot))
        (policy : Option (PhaseObservation Authority (PolicyEvidence Failure)))
        (correlationIssues : List EvidenceIssue),
        (aggregateInvocationEvidence authority (runCalls workItemCount calls)
          lifecycleAuthority baseline current policy correlationIssues).1 = .complete →
        (∀ before, ObservedAfter authority workItemCount calls before current →
          CompletedBy workItemCount calls before) ∧
        ∀ observation ∈ policy, ∀ before,
          ObservedAfter authority workItemCount calls before observation →
          CompletedBy workItemCount calls before) := by
  refine ⟨runCalls_nodup workItemCount calls, registeredAfterBaseline_of_mem, ?_, ?_⟩
  · rintro before after rfl
    exact runCalls_kept workItemCount before after
  · intro lifecycleAuthority baseline current policy correlationIssues h
    obtain ⟨⟨hphase, hcount⟩, hpolicy⟩ := counts_of_complete h
    constructor
    · intro before hobserved
      exact completedBy_of_count hobserved hphase hcount
    · intro observation hobservation before hobserved
      obtain ⟨hphase, hcount⟩ := hpolicy observation hobservation
      exact completedBy_of_count hobserved hphase hcount

end

/-- A transaction between the baseline and the current observation. -/
example :
    (aggregateInvocationEvidence () (runCalls 1 [.recordBaseline,
        .register .sourceArtifactInstall (List.replicate 64 (byte 'a')) [0],
        .markCompleted .sourceArtifactInstall (List.replicate 64 (byte 'a')),
        .recordPostSuccess])
      (some ()) ⟨(), (.ok () : Except Empty Unit)⟩
      ⟨(), .afterFullSupportedInvocationSuccess, 1, .ok ()⟩ none []).1 = .complete := by
  decide +kernel

end Moguet.Cleanup.Session
