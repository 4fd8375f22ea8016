import Moguet.Store.Publish

/-!
# The commit point of a publication

What a publication can still answer on either side of its link. Every exit
before it, and every exception there, says that no record was named; every exit
after it says that one was. A publication that answers `Published` has proven
the history three times, and the last proof found the first one with the new
record added.
-/

namespace Moguet.Store.Commit

open Verified ByteString Checked Dialogue Dialogue.Program Dialogue.Stage Record Chain
open Store.History (mem_orderGenerations readEntry_ok successor_some)
open Publish

variable {configuration : StoreConfiguration} {note : PublicationProgress} {record : ObservedRecord}

variable {expected : Option ObservedRecord}
  {last : Program Request Answer PublicationProgress PublishResult} {proven : ProvenChain}
  {readGenerationContents : ScannedGeneration → Except StoreFailure Bytes}
  {ordered : List ScannedGeneration} {result : PublishResult}
  {publication temporaryLeafPrefix : Bytes} {prepared : Prepared} {value : Unit}
  {expectedOwner : Nat} {directory : UnitDirectory} {highest : Option Nat}
  {isFutureDocument : Bytes → Bool}
variable {inventory : DirectoryInventory expectedOwner}

/-! ## Stages without a link -/

section Keeps

variable {Note ε α : Type} {node : Note → Request → Prop} {left : ε → Prop}

/-- A request that does not link. -/
def Harmless (request : Request) : Prop := ∀ leaf, request ≠ .linkRecord leaf

theorem keeps_orLeave {fail : StoreFailure → ε} (hfail : ∀ failure, left (fail failure))
    (answer : Except StoreFailure α) :
    Keeps node left (fun _ => True) (orLeave fail answer : StoreStage Note ε α) := by
  cases answer with
  | error failure => exact keeps_leave (hfail failure)
  | ok value => exact keeps_pure trivial

theorem keeps_leaveOn {fail : StoreFailure → ε} (hfail : ∀ failure, left (fail failure))
    (check : Option StoreFailure) :
    Keeps node left (fun _ => True) (leaveOn fail check : StoreStage Note ε Unit) := by
  cases check with
  | none => exact keeps_pure trivial
  | some failure => exact keeps_leave (hfail failure)

variable {note : Note} {fail : StoreFailure → ε} {configuration : StoreConfiguration}
  (hnode : ∀ request, Harmless request → node note request) (hfail : ∀ failure, left (fail failure))

include hnode hfail

theorem keeps_perform (operation : Operation) :
    Keeps node left (fun _ => True) (perform note fail operation) := by
  apply keeps_bind (keeps_query (hnode _ (by intro leaf h; cases h)) fun _ => trivial)
  intro answer _
  exact keeps_orLeave hfail answer

theorem keeps_inspectNamedEntry (leaf : Bytes) :
    Keeps node left (fun _ => True) (inspectNamedEntry note fail leaf) := by
  apply keeps_bind (keeps_query (hnode _ (by intro leaf h; cases h)) fun _ => trivial)
  intro answer _
  exact keeps_orLeave hfail answer

theorem keeps_statDescriptor (descriptor : Descriptor) :
    Keeps node left (fun _ => True) (statDescriptor note fail descriptor) := by
  apply keeps_bind (keeps_query (hnode _ (by intro leaf h; cases h)) fun _ => trivial)
  intro answer _
  exact keeps_orLeave hfail answer

theorem keeps_openExistingEntry (leaf : Bytes) (status : FileStatus) :
    Keeps node left (fun _ => True) (openExistingEntry note fail configuration leaf status) := by
  apply keeps_bind (keeps_query (hnode _ (by intro leaf h; cases h)) fun _ => trivial)
  intro answer _
  apply keeps_bind (keeps_orLeave hfail answer)
  intro opened _
  apply keeps_bind (keeps_leaveOn hfail _)
  intro _ _
  apply keeps_bind (keeps_require (hfail _))
  intro _ _
  exact keeps_pure trivial

omit hnode in
theorem keeps_present (leaf : Bytes) (status : Option FileStatus) :
    Keeps node left (fun _ => True) (present fail leaf status : StoreStage Note ε FileStatus) := by
  cases status with
  | none => exact keeps_leave (hfail _)
  | some status => exact keeps_pure trivial

theorem keeps_readAllBytes (leaf : Bytes) (status : FileStatus) :
    Keeps node left (fun _ => True) (readAllBytes note fail configuration leaf status) := by
  apply keeps_bind (keeps_require (hfail _))
  intro _ _
  apply keeps_bind (keeps_query (hnode _ (by intro leaf h; cases h)) fun _ => trivial)
  intro answer _
  apply keeps_bind (keeps_orLeave hfail answer)
  intro contents _
  apply keeps_bind (keeps_require (hfail _))
  intro _ _
  apply keeps_bind (keeps_statDescriptor hnode hfail .tip)
  intro afterStatus _
  apply keeps_bind (keeps_leaveOn hfail _)
  intro _ _
  apply keeps_bind (keeps_require (hfail _))
  intro _ _
  apply keeps_bind (keeps_inspectNamedEntry hnode hfail leaf)
  intro named _
  apply keeps_bind (keeps_present hfail leaf named)
  intro namedStatus _
  apply keeps_bind (keeps_leaveOn hfail _)
  intro _ _
  apply keeps_bind (keeps_require (hfail _))
  intro _ _
  apply keeps_bind (keeps_require (hfail _))
  intro _ _
  exact keeps_pure trivial

theorem keeps_rereadDescriptorContents (leaf : Bytes) : Keeps node left (fun _ => True)
      (rereadDescriptorContents note fail configuration leaf) := by
  apply keeps_bind (keeps_perform hnode hfail .seekRecord)
  intro _ _
  apply keeps_bind (keeps_statDescriptor hnode hfail .tip)
  intro status _
  exact keeps_readAllBytes hnode hfail leaf status

theorem keeps_proveAuthority {refuse : StoreUnsafeHistory → StoreStage Note ε ProvenChain}
    (hrefuse : ∀ observed, Keeps node left (fun _ => True) (refuse observed)) :
    Keeps node left (fun _ => True) (proveAuthority note fail configuration refuse) := by
  apply keeps_bind (keeps_query (hnode _ (by intro leaf h; cases h)) fun _ => trivial)
  intro answer _
  apply keeps_bind (keeps_orLeave hfail answer)
  intro observation _
  cases proveHistory configuration observation with
  | ok proven => exact keeps_pure trivial
  | error refusal =>
    cases refusal with
    | history observed => exact hrefuse observed
    | failure failure => exact keeps_leave (hfail failure)
    | unfinished => exact keeps_leave (hfail _)

theorem keeps_reproveAuthority {refuse : StoreUnsafeHistory → StoreStage Note ε ProvenChain}
    (hrefuse : ∀ observed, Keeps node left (fun _ => True) (refuse observed))
    (token : ChainProofToken) :
    Keeps node left (fun _ => True) (reproveAuthority note fail configuration refuse token) := by
  apply keeps_bind (keeps_proveAuthority hnode hfail hrefuse)
  intro proven _
  apply keeps_bind (keeps_require (hfail _))
  intro _ _
  exact keeps_pure trivial

end Keeps

/-! ## The two sides of the link -/

/-- A question before the commit. -/
def BeforeCommit (note : PublicationProgress) (request : Request) : Prop :=
  note.phase = .preCommit ∧ Harmless request

/-- A question after the commit. -/
def AfterCommit (note : PublicationProgress) (request : Request) : Prop :=
  note.phase = .committed ∧ Harmless request

def NotPublished (result : PublishResult) : Prop := result.isPublication = false

def WasPublished (result : PublishResult) : Prop := result.isPublication = true

/-- The early ends after the link. -/
def LeftUncertain : PublishResult → Prop
  | .publishedUncertain _ _ _ _ => True
  | _ => False

theorem LeftUncertain.wasPublished (h : LeftUncertain result) : WasPublished result := by
  cases result with
  | publishedUncertain => exact rfl
  | published => cases h
  | unsafeHistory => cases h
  | failure => cases h

/-- The name a publication after an observed record goes for. -/
def expectedLeaf (expected : Option ObservedRecord) : Bytes :=
  publicationLeaf
    (match expected with
      | none => 1
      | some record => nextGeneration record.generation) expected

section Before

variable {note : PublicationProgress} {configuration : StoreConfiguration}
  (hnote : note.phase = .preCommit)

include hnote

theorem beforeCommit_of_harmless : ∀ request, Harmless request → BeforeCommit note request :=
  fun _ hharmless => ⟨hnote, hharmless⟩

omit hnote in
theorem notPublished_failure (failure : StoreFailure) : NotPublished (.failure failure) := rfl

theorem requireExpected_keeps (current : Option ScannedGeneration)
    (expected : Option ObservedRecord) :
    Keeps BeforeCommit NotPublished
      (fun _ => publicationLeaf (generationAfter current) expected = expectedLeaf expected)
      (requireExpected note configuration current expected) := by
  have hnode := beforeCommit_of_harmless hnote
  cases current with
  | none =>
    cases expected with
    | none => exact keeps_pure rfl
    | some expected => exact keeps_leave (notPublished_failure _)
  | some current =>
    cases expected with
    | none => exact keeps_leave (notPublished_failure _)
    | some expected =>
      apply keeps_bind (keeps_require (notPublished_failure _))
      intro _ hsame
      apply keeps_bind (keeps_openExistingEntry hnode notPublished_failure _ _)
      intro _ _
      apply keeps_bind (keeps_readAllBytes hnode notPublished_failure _ _)
      intro existingRaw _
      apply keeps_bind (keeps_require (notPublished_failure _))
      intro _ _
      apply keeps_bind (keeps_require (notPublished_failure _))
      intro _ _
      apply keeps_pure
      -- the observed generation is the one of the tip
      simp only [Bool.and_eq_true, decide_eq_true_eq] at hsame
      show successorLeaf (nextGeneration current.leaf.generation) _ _ = _
      rw [hsame.1.1]
      rfl

theorem writeAnonymousRecord_keeps (publication : Bytes) :
    Keeps BeforeCommit NotPublished (fun _ => True)
      (writeAnonymousRecord note configuration publication) := by
  have hnode := beforeCommit_of_harmless hnote
  apply keeps_bind (keeps_perform hnode notPublished_failure _)
  intro _ _
  apply keeps_bind (keeps_perform hnode notPublished_failure _)
  intro _ _
  apply keeps_bind (keeps_perform hnode notPublished_failure _)
  intro _ _
  apply keeps_bind (keeps_perform hnode notPublished_failure _)
  intro _ _
  apply keeps_bind (keeps_statDescriptor hnode notPublished_failure _)
  intro status _
  apply keeps_bind (keeps_leaveOn notPublished_failure _)
  intro _ _
  exact keeps_pure trivial

theorem recheckPredecessor_keeps (leaf : Bytes) (current : Option ScannedGeneration)
    (expected : Option ObservedRecord) :
    Keeps BeforeCommit NotPublished (fun _ => True)
      (recheckPredecessor note configuration leaf current expected) := by
  have hnode := beforeCommit_of_harmless hnote
  have hother : Keeps BeforeCommit NotPublished (fun _ => True) (do
      let named ← inspectNamedEntry note .failure leaf
      let _ ← Stage.require named.isNone (.failure (concurrentReplacement (some leaf)))
      Stage.pure () : PublishStage Unit) := by
    apply keeps_bind (keeps_inspectNamedEntry hnode notPublished_failure leaf)
    intro named _
    apply keeps_bind (keeps_require (notPublished_failure _))
    intro _ _
    exact keeps_pure trivial
  cases current with
  | none => exact hother
  | some current =>
    cases expected with
    | none => exact hother
    | some expected =>
      apply keeps_bind (keeps_inspectNamedEntry hnode notPublished_failure _)
      intro named _
      apply keeps_bind (keeps_require (notPublished_failure _))
      intro _ _
      apply keeps_bind (keeps_rereadDescriptorContents hnode notPublished_failure _)
      intro contents _
      apply keeps_bind (keeps_require (notPublished_failure _))
      intro _ _
      exact keeps_pure trivial

end Before

theorem refusePublication_keeps (observed : StoreUnsafeHistory) :
    Keeps BeforeCommit NotPublished (fun _ => True) (refusePublication observed) :=
  keeps_leave rfl

theorem openHistory_keeps (configuration : StoreConfiguration) (publication : Bytes) :
    Keeps BeforeCommit NotPublished (fun _ => True) (openHistory configuration publication) := by
  have hnode : ∀ request, Harmless request → BeforeCommit {} request :=
    beforeCommit_of_harmless rfl
  apply keeps_bind (keeps_require (notPublished_failure _))
  intro _ _
  apply keeps_bind (keeps_perform hnode notPublished_failure _)
  intro _ _
  apply keeps_bind (keeps_perform hnode notPublished_failure _)
  intro _ _
  apply keeps_bind (keeps_perform hnode notPublished_failure _)
  intro _ _
  apply keeps_bind (keeps_perform hnode notPublished_failure _)
  intro _ _
  apply keeps_bind (keeps_perform hnode notPublished_failure _)
  intro _ _
  exact keeps_proveAuthority hnode notPublished_failure refusePublication_keeps

theorem prepareCommit_keeps (configuration : StoreConfiguration) (publication : Bytes)
    (expected : Option ObservedRecord) :
    Keeps BeforeCommit NotPublished (fun prepared => prepared.leaf = expectedLeaf expected)
      (prepareCommit configuration publication expected) := by
  apply keeps_bind (openHistory_keeps configuration publication)
  intro proven _
  apply keeps_bind (requireExpected_keeps rfl _ _)
  intro _ hleaf
  apply keeps_bind (keeps_require (notPublished_failure _))
  intro _ _
  apply keeps_bind (writeAnonymousRecord_keeps rfl publication)
  intro temporaryStatus _
  apply keeps_bind (recheckPredecessor_keeps rfl _ _ _)
  intro _ _
  apply keeps_bind (keeps_perform (beforeCommit_of_harmless rfl) notPublished_failure _)
  intro _ _
  apply keeps_bind (keeps_reproveAuthority (beforeCommit_of_harmless rfl) notPublished_failure
    refusePublication_keeps _)
  intro _ _
  exact keeps_pure hleaf

section After

variable {note : PublicationProgress} {configuration : StoreConfiguration} {record : ObservedRecord}
  (hnote : note.phase = .committed)

include hnote

theorem afterCommit_of_harmless : ∀ request, Harmless request → AfterCommit note request :=
  fun _ hharmless => ⟨hnote, hharmless⟩

omit hnote in
theorem leftUncertain_uncertain (issue : PostPublicationIssue) (entry : Option Bytes)
    (failure : StoreFailure) : LeftUncertain (uncertain record issue entry failure) := trivial

omit hnote in
theorem leftUncertain_historyUncertain (failure : StoreFailure) :
    LeftUncertain (historyUncertain record failure) := trivial

omit hnote in
theorem leftUncertain_predecessorReadUncertain (failure : StoreFailure) :
    LeftUncertain (predecessorReadUncertain record failure) := by
  unfold predecessorReadUncertain
  split
  · exact leftUncertain_historyUncertain _
  · exact leftUncertain_uncertain _ _ _

theorem verifyPredecessor_keeps (current : Option ScannedGeneration)
    (expected : Option ObservedRecord) :
    Keeps AfterCommit LeftUncertain (fun _ => True)
      (verifyPredecessor note configuration record current expected) := by
  have hnode := afterCommit_of_harmless hnote
  cases current with
  | none => exact keeps_pure trivial
  | some current =>
    cases expected with
    | none => exact keeps_pure trivial
    | some expected =>
      apply keeps_bind (keeps_inspectNamedEntry hnode (leftUncertain_uncertain _ _) _)
      intro named _
      apply keeps_bind (keeps_require (leftUncertain_historyUncertain _))
      intro _ _
      apply keeps_bind
        (keeps_rereadDescriptorContents hnode leftUncertain_predecessorReadUncertain _)
      intro contents _
      apply keeps_bind (keeps_require (leftUncertain_historyUncertain _))
      intro _ _
      exact keeps_pure trivial

theorem verifyPublished_keeps (temporaryStatus publishedStatus : FileStatus) :
    Keeps AfterCommit LeftUncertain (fun _ => True)
      (verifyPublished note configuration record temporaryStatus publishedStatus) := by
  have hnode := afterCommit_of_harmless hnote
  apply keeps_bind (keeps_query (hnode _ (by intro leaf h; cases h)) fun _ => trivial)
  intro answer _
  apply keeps_bind (keeps_require (leftUncertain_uncertain _ _ _))
  intro _ _
  exact keeps_leaveOn (leftUncertain_uncertain _ _) _

theorem closePublication_keeps :
    Keeps AfterCommit LeftUncertain (fun _ => True) (closePublication note record) := by
  have hnode := afterCommit_of_harmless hnote
  apply keeps_bind (keeps_perform hnode (leftUncertain_uncertain _ _) _)
  intro _ _
  apply keeps_bind (keeps_perform hnode (leftUncertain_uncertain _ _) _)
  intro _ _
  apply keeps_bind (keeps_perform hnode (leftUncertain_uncertain _ _) _)
  intro _ _
  apply keeps_bind (keeps_perform hnode (leftUncertain_uncertain _ _) _)
  intro _ _
  apply keeps_bind (keeps_perform hnode (leftUncertain_uncertain _ _) _)
  intro _ _
  exact keeps_perform hnode (leftUncertain_uncertain _ _) _

end After

theorem verifyCommit_keeps (configuration : StoreConfiguration) (publication : Bytes)
    (expected : Option ObservedRecord) (prepared : Prepared) :
    Keeps AfterCommit LeftUncertain WasPublished
      (verifyCommit configuration publication expected prepared) := by
  have hidentity : ∀ failure : StoreFailure, LeftUncertain
      (.publishedUncertain none .publishedIdentityUncertain failure.kind (some prepared.leaf)) :=
    fun _ => trivial
  apply keeps_bind (keeps_statDescriptor (afterCommit_of_harmless rfl) hidentity _)
  intro publishedStatus _
  apply keeps_bind (verifyPredecessor_keeps rfl _ _)
  intro _ _
  apply keeps_bind (verifyPublished_keeps rfl _ _)
  intro _ _
  apply keeps_bind (keeps_reproveAuthority (afterCommit_of_harmless rfl)
    leftUncertain_historyUncertain (fun _ => keeps_leave (leftUncertain_historyUncertain _)) _)
  intro _ _
  apply keeps_bind (closePublication_keeps rfl)
  intro _ _
  exact keeps_pure rfl

/-! ## Where a publication can be -/

abbrev StoreEvent : Type := Event Request Answer

variable {events : List StoreEvent}

/-- A link that succeeded. -/
def isLink : StoreEvent → Bool
  | ⟨.linkRecord _, answer⟩ => decide ((show LinkAnswer from answer) = .linked)
  | _ => false

/-- Whether a record was named. -/
def Linked (events : List StoreEvent) : Prop := ∃ event ∈ events, isLink event = true

theorem not_linked_of_harmless {events : List StoreEvent}
    (h : ∀ event ∈ events, Harmless event.request) : ¬ Linked events := by
  rintro ⟨⟨request, answer⟩, hmem, hlink⟩
  have hharmless := h _ hmem
  cases request with
  | linkRecord leaf => exact hharmless leaf rfl
  | _ => cases hlink

/-- A point before the link, or a result of having stopped there. -/
inductive Unlinked : Program Request Answer PublicationProgress PublishResult → Prop
  | asking {note : PublicationProgress} {request : Request}
      {next : Answer request → Program Request Answer PublicationProgress PublishResult}
      (hphase : note.phase = .preCommit) : Unlinked (.ask note request next)
  | stopped {result : PublishResult} (hresult : NotPublished result) : Unlinked (.done result)

/-- A point after the link, or a result there. -/
inductive Named : Program Request Answer PublicationProgress PublishResult → Prop
  | asking {note : PublicationProgress} {request : Request}
      {next : Answer request → Program Request Answer PublicationProgress PublishResult}
      (hphase : note.phase = .committed) (hrequest : Harmless request) :
      Named (.ask note request next)
  | finished {result : PublishResult} (hresult : WasPublished result) : Named (.done result)

/-- Both ways out of a stage give the result. -/
def collapse : Except PublishResult PublishResult →
    Program Request Answer PublicationProgress PublishResult
  | .ok result => .done result
  | .error result => .done result

theorem publishGenerationStore_eq (configuration : StoreConfiguration) (publication : Bytes)
    (expected : Option ObservedRecord) :
    publishGenerationStore configuration publication expected =
      Program.bind (publishStage configuration publication expected) collapse := by
  unfold publishGenerationStore
  congr 1

/-- The program after the preparation. -/
def commitProgram (configuration : StoreConfiguration) (publication : Bytes)
    (expected : Option ObservedRecord) :
    Except PublishResult Prepared → Program Request Answer PublicationProgress PublishResult
  | .error result => .done result
  | .ok prepared =>
    .ask (preparedProgress prepared.generation prepared.leaf publication)
      (.linkRecord prepared.leaf) fun answer =>
        match (show LinkAnswer from answer) with
        | .linked =>
          Program.bind (verifyCommit configuration publication expected prepared) collapse
        | .replaced => .done (.failure (concurrentReplacement (some prepared.leaf)))
        | .failed => .done (.failure ⟨.renameFailed, some prepared.leaf, none⟩)

/-- A publication is the preparation, the link and the verification. -/
theorem publish_eq_commit (configuration : StoreConfiguration) (publication : Bytes)
    (expected : Option ObservedRecord) :
    publishGenerationStore configuration publication expected =
      Program.bind (prepareCommit configuration publication expected)
        (commitProgram configuration publication expected) := by
  have hnext : ∀ result : Except PublishResult Prepared, Program.bind (andThen (fun prepared =>
        linkRecord (preparedProgress prepared.generation prepared.leaf publication) prepared.leaf
          >>= fun _ => verifyCommit configuration publication expected prepared) result)
        collapse = commitProgram configuration publication expected result := by
    intro result
    cases result with
    | error result => rfl
    | ok prepared =>
      show Program.ask _ _ _ = Program.ask _ _ _
      congr 1
      funext answer
      cases (show LinkAnswer from answer) with
      | linked => rfl
      | replaced => rfl
      | failed => rfl
  rw [publishGenerationStore_eq, ← funext hnext]
  exact bind_bind _ _ _

theorem named_of_verifyCommit
    (h : Reaches (Program.bind (verifyCommit configuration publication expected prepared)
      collapse) events last) : Named last := by
  have hholds : Holds AfterCommit WasPublished
      (Program.bind (verifyCommit configuration publication expected prepared) collapse) := by
    apply Holds.bind _ (verifyCommit_keeps configuration publication expected prepared)
    intro result hresult
    cases result with
    | error result => exact LeftUncertain.wasPublished hresult
    | ok result => exact hresult
  have hlast := (Holds.reaches h hholds).1
  cases last with
  | done result => exact Named.finished hlast
  | ask note request next => exact Named.asking hlast.1.1 hlast.1.2

/-- The point a commit is at after its link was answered. -/
theorem reaches_commitProgram
    (h : Reaches (commitProgram configuration publication expected (.ok prepared)) events last) :
    events = [] ∧ last = commitProgram configuration publication expected (.ok prepared) ∨
    (∃ answer, ¬ isLink ⟨.linkRecord prepared.leaf, answer⟩ = true ∧
      events = [⟨.linkRecord prepared.leaf, answer⟩] ∧
      ∃ failure, last = .done (.failure failure)) ∨
    ∃ answer back, isLink ⟨.linkRecord prepared.leaf, answer⟩ = true ∧
      events = ⟨.linkRecord prepared.leaf, answer⟩ :: back ∧
      Reaches (Program.bind (verifyCommit configuration publication expected prepared) collapse)
        back last := by
  cases h with
  | refl => exact Or.inl ⟨rfl, rfl⟩
  | step answer h =>
    refine Or.inr ?_
    match answer, h with
    | .linked, h => exact Or.inr ⟨_, _, rfl, rfl, h⟩
    | .replaced, h =>
      obtain ⟨rfl, rfl⟩ := reaches_done h
      exact Or.inl ⟨LinkAnswer.replaced, Bool.false_ne_true, rfl, _, rfl⟩
    | .failed, h =>
      obtain ⟨rfl, rfl⟩ := reaches_done h
      exact Or.inl ⟨LinkAnswer.failed, Bool.false_ne_true, rfl, _, rfl⟩

/-- Every point of a publication, over all answers: no link and nothing
published, or a link and never again a plain failure. -/
theorem publish_reaches
    (h : Reaches (publishGenerationStore configuration publication expected) events last) :
    (¬ Linked events ∧ Unlinked last) ∨ (Linked events ∧ Named last) := by
  rw [publish_eq_commit] at h
  have hkeeps := prepareCommit_keeps configuration publication expected
  rcases reaches_bind h with ⟨rest, rfl, hrest⟩ | ⟨front, result, back, rfl, hfront, hback⟩
  · obtain ⟨hpoint, hevents⟩ := Holds.reaches hrest hkeeps
    refine Or.inl ⟨not_linked_of_harmless fun event hmem => ?_, ?_⟩
    · obtain ⟨note, hnode⟩ := hevents event hmem
      exact hnode.2
    · cases rest with
      | ask note request next => exact Unlinked.asking hpoint.1.1
      | done result =>
        cases result with
        | error result => exact Unlinked.stopped hpoint
        | ok prepared => exact Unlinked.asking rfl
  · obtain ⟨hpoint, hevents⟩ := Holds.reaches hfront hkeeps
    have hquiet : ¬ Linked front := not_linked_of_harmless fun event hmem => by
      obtain ⟨note, hnode⟩ := hevents event hmem
      exact hnode.2
    cases result with
    | error result =>
      obtain ⟨rfl, rfl⟩ := reaches_done hback
      rw [List.append_nil]
      exact Or.inl ⟨hquiet, Unlinked.stopped hpoint⟩
    | ok prepared =>
      rcases reaches_commitProgram hback with
        ⟨rfl, rfl⟩ | ⟨answer, hno, rfl, failure, rfl⟩ | ⟨answer, back, hlink, rfl, hrest⟩
      · rw [List.append_nil]
        exact Or.inl ⟨hquiet, Unlinked.asking rfl⟩
      · refine Or.inl ⟨?_, Unlinked.stopped (notPublished_failure _)⟩
        rintro ⟨event, hmem, hlink⟩
        rcases List.mem_append.mp hmem with hmem | hmem
        · exact hquiet ⟨event, hmem, hlink⟩
        · rw [List.mem_singleton.mp hmem] at hlink
          exact hno hlink
      · refine Or.inr ⟨⟨_, ?_, hlink⟩, named_of_verifyCommit hrest⟩
        exact List.mem_append_right _ List.mem_cons_self

/-- A link goes for the name of the successor of the observed record. -/
theorem publish_links {leaf : Bytes}
    {next : Answer (.linkRecord leaf) → Program Request Answer PublicationProgress PublishResult}
    (h : Reaches (publishGenerationStore configuration publication expected) events
      (.ask note (.linkRecord leaf) next)) : leaf = expectedLeaf expected := by
  let node : PublicationProgress → Request → Prop := fun _ request =>
    ∀ other, request = .linkRecord other → other = expectedLeaf expected
  have hharmless : ∀ note request, Harmless request → node note request :=
    fun _ _ hharmless other heq => absurd heq (hharmless other)
  have hverify : ∀ prepared, Holds node (fun _ => True)
      (Program.bind (verifyCommit configuration publication expected prepared) collapse) := by
    intro prepared
    apply Holds.bind _ (Holds.mono (fun note request hnode => hharmless note request hnode.2)
      (fun _ hresult => hresult) (verifyCommit_keeps configuration publication expected prepared))
    intro result _
    cases result with
    | error result => exact trivial
    | ok result => exact trivial
  have hholds : Holds node (fun _ => True)
      (publishGenerationStore configuration publication expected) := by
    rw [publish_eq_commit]
    apply Holds.bind _ (Holds.mono (fun note request hnode => hharmless note request hnode.2)
      (fun _ hresult => hresult) (prepareCommit_keeps configuration publication expected))
    intro result hresult
    cases result with
    | error result => exact trivial
    | ok prepared =>
      refine ⟨?_, ?_⟩
      · intro other heq
        injection heq with heq
        rw [← heq]
        exact hresult
      · intro answer
        match answer with
        | .linked => exact hverify prepared
        | .replaced => exact trivial
        | .failed => exact trivial
  exact (Holds.reaches h hholds).1.1 leaf rfl

/-! ## The proofs behind `Published` -/

section Yields

variable {Note ε α : Type} {note : Note} {fail : StoreFailure → ε}
  {configuration : StoreConfiguration} {events : List StoreEvent}

theorem yields_orLeave {answer : Except StoreFailure α} {value : α}
    (h : Yields (orLeave fail answer : StoreStage Note ε α) events value) :
    events = [] ∧ answer = .ok value := by
  cases answer with
  | error failure => exact absurd h not_yields_leave
  | ok first =>
    obtain ⟨hevents, hvalue⟩ := yields_pure h
    rw [hvalue]
    exact ⟨hevents, rfl⟩

theorem yields_perform {operation : Operation}
    (h : Yields (perform note fail operation) events value) :
    ∀ event ∈ events, event.request ≠ .observeHistory := by
  obtain ⟨front, answer, back, rfl, hfront, hback⟩ := yields_bind h
  rw [yields_query hfront, (yields_orLeave hback).1]
  intro event hmem
  rw [List.append_nil] at hmem
  rw [List.mem_singleton.mp hmem]
  intro hrequest
  cases hrequest

variable {refuse : StoreUnsafeHistory → StoreStage Note ε ProvenChain}
  (hrefuse : ∀ observed events proven, ¬ Yields (refuse observed) events proven)

include hrefuse

theorem yields_requireProof {proof : Except ChainRefusal ProvenChain}
    (h : Yields (requireProof fail refuse proof) events proven) :
    events = [] ∧ proof = .ok proven := by
  cases proof with
  | ok other =>
    obtain ⟨hevents, hproven⟩ := yields_pure h
    rw [hproven]
    exact ⟨hevents, rfl⟩
  | error refusal =>
    cases refusal with
    | history observed => exact absurd h (hrefuse _ _ _)
    | failure failure => exact absurd h not_yields_leave
    | unfinished => exact absurd h not_yields_leave

theorem yields_proveAuthority
    (h : Yields (proveAuthority note fail configuration refuse) events proven) :
    ∃ observation : Observation, events = [(⟨.observeHistory, .ok observation⟩ : StoreEvent)] ∧
        proveHistory configuration observation = .ok proven := by
  obtain ⟨front, answer, back, rfl, hfront, hback⟩ := yields_bind h
  obtain ⟨front', observation, back', rfl, hfront', hback'⟩ := yields_bind hback
  obtain ⟨rfl, hanswer⟩ := yields_orLeave hfront'
  obtain ⟨rfl, hproof⟩ := yields_requireProof hrefuse hback'
  refine ⟨observation, ?_, hproof⟩
  rw [yields_query hfront, hanswer]
  rfl

theorem yields_reproveAuthority {token : ChainProofToken}
    (h : Yields (reproveAuthority note fail configuration refuse token) events proven) :
    ∃ observation : Observation, events = [(⟨.observeHistory, .ok observation⟩ : StoreEvent)] ∧
        proveHistory configuration observation = .ok proven ∧ proven.token = token := by
  obtain ⟨front, first, back, rfl, hfront, hback⟩ := yields_bind h
  obtain ⟨observation, rfl, hproof⟩ := yields_proveAuthority hrefuse hfront
  obtain ⟨front', _, back', rfl, hfront', hback'⟩ := yields_bind hback
  obtain ⟨rfl, htoken⟩ := yields_require hfront'
  obtain ⟨rfl, rfl⟩ := yields_pure hback'
  exact ⟨observation, rfl, hproof, of_decide_eq_true htoken⟩

end Yields

theorem not_yields_refusePublication (observed : StoreUnsafeHistory) (events : List StoreEvent)
    (proven : ProvenChain) : ¬ Yields (refusePublication observed) events proven :=
  not_yields_leave

theorem yields_openHistory (h : Yields (openHistory configuration publication) events proven) :
    ∃ observation : Observation, (⟨.observeHistory, .ok observation⟩ : StoreEvent) ∈ events ∧
        proveHistory configuration observation = .ok proven := by
  obtain ⟨_, _, _, rfl, _, h⟩ := yields_bind h
  obtain ⟨_, _, _, rfl, _, h⟩ := yields_bind h
  obtain ⟨_, _, _, rfl, _, h⟩ := yields_bind h
  obtain ⟨_, _, _, rfl, _, h⟩ := yields_bind h
  obtain ⟨_, _, _, rfl, _, h⟩ := yields_bind h
  obtain ⟨_, _, _, rfl, _, h⟩ := yields_bind h
  obtain ⟨observation, rfl, hproof⟩ := yields_proveAuthority not_yields_refusePublication h
  exact ⟨observation, by simp, hproof⟩

/-- The chain of a prepared commit was proven before it. -/
theorem yields_prepareCommit
    (h : Yields (prepareCommit configuration publication expected) events prepared) :
    ∃ observation : Observation, (⟨.observeHistory, .ok observation⟩ : StoreEvent) ∈ events ∧
        proveHistory configuration observation = .ok prepared.proven := by
  obtain ⟨front, proven, _, rfl, hopen, h⟩ := yields_bind h
  obtain ⟨_, _, _, rfl, _, h⟩ := yields_bind h
  obtain ⟨_, _, _, rfl, _, h⟩ := yields_bind h
  obtain ⟨_, _, _, rfl, _, h⟩ := yields_bind h
  obtain ⟨_, _, _, rfl, _, h⟩ := yields_bind h
  obtain ⟨_, _, _, rfl, _, h⟩ := yields_bind h
  obtain ⟨_, _, _, rfl, _, h⟩ := yields_bind h
  obtain ⟨_, rfl⟩ := yields_pure h
  obtain ⟨observation, hmem, hproof⟩ := yields_openHistory hopen
  exact ⟨observation, List.mem_append_left _ hmem, hproof⟩

theorem yields_closePublication (h : Yields (closePublication note record) events value) :
    ∀ event ∈ events, event.request ≠ .observeHistory := by
  obtain ⟨_, _, _, rfl, h₁, h⟩ := yields_bind h
  obtain ⟨_, _, _, rfl, h₂, h⟩ := yields_bind h
  obtain ⟨_, _, _, rfl, h₃, h⟩ := yields_bind h
  obtain ⟨_, _, _, rfl, h₄, h⟩ := yields_bind h
  obtain ⟨_, _, _, rfl, h₅, h₆⟩ := yields_bind h
  intro event hmem
  simp only [List.mem_append] at hmem
  rcases hmem with hmem | hmem | hmem | hmem | hmem | hmem
  · exact yields_perform h₁ event hmem
  · exact yields_perform h₂ event hmem
  · exact yields_perform h₃ event hmem
  · exact yields_perform h₄ event hmem
  · exact yields_perform h₅ event hmem
  · exact yields_perform h₆ event hmem

/-- The last proof of a commit, and the record it was made for. -/
theorem yields_verifyCommit
    (h : Yields (verifyCommit configuration publication expected prepared) events result) :
    ∃ (identity : RecordIdentity) (middle after : List StoreEvent) (observation : Observation)
      (reproven : ProvenChain),
      result = .published ⟨prepared.generation, prepared.leaf, identity, publication⟩ ∧
      events = middle ++ (⟨.observeHistory, .ok observation⟩ : StoreEvent) :: after ∧
      (∀ event ∈ after, event.request ≠ .observeHistory) ∧
      proveHistory configuration observation = .ok reproven ∧
      reproven.token =
        extendProofToken prepared.proven.token prepared.leaf identity publication := by
  obtain ⟨front₁, publishedStatus, _, rfl, _, h⟩ := yields_bind h
  obtain ⟨front₂, _, _, rfl, _, h⟩ := yields_bind h
  obtain ⟨front₃, _, _, rfl, _, h⟩ := yields_bind h
  obtain ⟨_, reproven, _, rfl, hreproof, h⟩ := yields_bind h
  obtain ⟨after, _, _, rfl, hclose, h⟩ := yields_bind h
  obtain ⟨rfl, rfl⟩ := yields_pure h
  obtain ⟨observation, rfl, hproof, htoken⟩ :=
    yields_reproveAuthority (fun _ _ _ => not_yields_leave) hreproof
  refine ⟨recordIdentityFromStatus publishedStatus, front₁ ++ (front₂ ++ front₃), after,
    observation, reproven, rfl, ?_, yields_closePublication hclose, hproof, htoken⟩
  simp

/-- The proofs behind a publication: one before its link, and one after it that
was the last and found the first history with the record added. -/
structure Reproof (configuration : StoreConfiguration) (record : ObservedRecord)
    (events : List StoreEvent) where
  before : List StoreEvent
  link : Answer (.linkRecord record.leafName)
  middle : List StoreEvent
  after : List StoreEvent
  first : Observation
  last : Observation
  proven : ProvenChain
  reproven : ProvenChain
  events_eq : events = before ++ ⟨.linkRecord record.leafName, link⟩ ::
    (middle ++ ⟨.observeHistory, .ok last⟩ :: after)
  linked : isLink ⟨.linkRecord record.leafName, link⟩ = true
  first_mem : (⟨.observeHistory, .ok first⟩ : StoreEvent) ∈ before
  last_proof : ∀ event ∈ after, event.request ≠ .observeHistory
  proves_first : proveHistory configuration first = .ok proven
  proves_last : proveHistory configuration last = .ok reproven
  extends_first : reproven.token =
    extendProofToken proven.token record.leafName record.identity record.rawContents

theorem publish_published
    (h : Reaches (publishGenerationStore configuration publication expected) events
      (.done (.published record))) : Nonempty (Reproof configuration record events) := by
  rw [publish_eq_commit] at h
  obtain ⟨front, result, back, rfl, hfront, hback⟩ := reaches_bind_done h
  cases result with
  | error result =>
    have hleft := (Holds.reaches hfront (prepareCommit_keeps configuration publication expected)).1
    have hdone := (reaches_done hback).2
    injection hdone with hdone
    rw [← hdone] at hleft
    cases hleft
  | ok prepared =>
    obtain ⟨first, hmem, hproof⟩ := yields_prepareCommit hfront
    rcases reaches_commitProgram hback with
      ⟨rfl, hlast⟩ | ⟨answer, _, rfl, failure, hlast⟩ | ⟨answer, rest, hlink, rfl, hrest⟩
    · cases hlast
    · cases hlast
    obtain ⟨events, value, tail, rfl, hverify, htail⟩ := reaches_bind_done hrest
    cases value with
    | error result =>
      have hleft := (Holds.reaches hverify
        (verifyCommit_keeps configuration publication expected prepared)).1
      have hdone := (reaches_done htail).2
      injection hdone with hdone
      rw [← hdone] at hleft
      cases hleft
    | ok result =>
      obtain ⟨identity, middle, after, last, reproven, rfl, rfl, hafter, hlast, htoken⟩ :=
        yields_verifyCommit hverify
      obtain ⟨rfl, hdone⟩ := reaches_done htail
      injection hdone with hdone
      injection hdone with hdone
      subst hdone
      rw [List.append_nil]
      exact ⟨⟨front, answer, middle, after, first, last, prepared.proven, reproven, rfl, hlink,
        hmem, hafter, hproof, hlast, htoken⟩⟩

/-! ## What a proof has seen -/

theorem inspectRecord_status {leaf : GenerationLeaf} {record : ScannedGeneration}
    (h : inspectRecord expectedOwner directory leaf = .ok record) :
    directory.inspectNamedEntry record.leaf.leaf = .ok (some record.status) := by
  unfold inspectRecord at h
  rw [bind_eq_ok] at h
  obtain ⟨status, hstatus, h⟩ := h
  split at h
  · cases h
  · split at h
    · cases h
    · injection h with h
      rw [← h]
      exact hstatus

/-- A scan keeps every name that is not an internal one, and the status each
record showed. -/
theorem scanLeaves_seen : ∀ {names : List Bytes} {leaves : ScannedLeaves},
      scanLeaves expectedOwner directory temporaryLeafPrefix names = .ok leaves →
      leaves.managedLeaves = names.filter (fun name =>
        !isInternalTempLeaf name temporaryLeafPrefix) ∧
      ∀ record ∈ leaves.parsed,
        directory.inspectNamedEntry record.leaf.leaf = .ok (some record.status) := by
  intro names
  induction names with
  | nil =>
    intro leaves h
    injection h with h
    rw [← h]
    exact ⟨rfl, by intro record hmem; cases hmem⟩
  | cons name names ih =>
    intro leaves h
    unfold scanLeaves at h
    split at h
    · rename_i htemporary
      obtain ⟨hmanaged, hparsed⟩ := ih h
      refine ⟨?_, hparsed⟩
      rw [List.filter_cons_of_neg (by rw [htemporary]; decide)]
      exact hmanaged
    · rename_i htemporary
      have hkept : (name :: names).filter (fun name =>
          !isInternalTempLeaf name temporaryLeafPrefix) =
          name :: names.filter (fun name =>
            !isInternalTempLeaf name temporaryLeafPrefix) :=
        List.filter_cons_of_pos (by simpa using htemporary)
      split at h
      · rw [bind_eq_ok] at h
        obtain ⟨rest, hrest, h⟩ := h
        injection h with h
        obtain ⟨hmanaged, hparsed⟩ := ih hrest
        rw [← h, hkept, ← hmanaged]
        exact ⟨rfl, hparsed⟩
      · rw [bind_eq_ok] at h
        obtain ⟨record, hrecord, h⟩ := h
        rw [bind_eq_ok] at h
        obtain ⟨rest, hrest, h⟩ := h
        injection h with h
        obtain ⟨hmanaged, hparsed⟩ := ih hrest
        rw [← h, hkept, ← hmanaged]
        refine ⟨rfl, ?_⟩
        intro other hmem
        rcases List.mem_cons.mp hmem with rfl | hmem
        · exact inspectRecord_status hrecord
        · exact hparsed other hmem

theorem scanUnitDirectory_seen
    (h : scanUnitDirectory expectedOwner directory temporaryLeafPrefix = .ok inventory) :
    inventory.managedLeaves = (directory.names.insertionSort (· ≤ ·)).filter (fun name =>
      !isInternalTempLeaf name temporaryLeafPrefix) ∧
    ∀ record ∈ inventory.parsed,
      directory.inspectNamedEntry record.leaf.leaf = .ok (some record.status) := by
  unfold scanUnitDirectory at h
  split at h
  · cases h
  · dsimp only at h
    split at h
    · cases h
    · rename_i leaves hscan
      injection h with h
      rw [← h]
      exact scanLeaves_seen hscan

theorem walkChain_members {advance : Nat → Nat} :
    ∀ {turns : Nat} {chain walked : List ChainEntry} {current : ScannedGeneration},
      walkChain expectedOwner readGenerationContents advance ordered highest turns chain
        current = .ok walked →
      current ∈ ordered → (∀ entry ∈ chain, entry.record ∈ ordered) →
      ∀ entry ∈ walked, entry.record ∈ ordered := by
  intro turns
  induction turns with
  | zero =>
    intro chain walked current h
    cases h
  | succ turns ih =>
    intro chain walked current h hcurrent hchain
    unfold walkChain at h
    rw [bind_eq_ok] at h
    obtain ⟨entry, hentry, h⟩ := h
    have hextended : ∀ other ∈ chain ++ [entry], other.record ∈ ordered := by
      intro other hmem
      rcases List.mem_append.mp hmem with hmem | hmem
      · exact hchain other hmem
      · rw [List.mem_singleton.mp hmem, (readEntry_ok hentry).1]
        exact hcurrent
    split at h
    · injection h with h
      rw [← h]
      exact hextended
    · rename_i candidate hnext
      exact ih h (successor_some hnext).1 hextended

theorem concludeChain_token {chain : List ChainEntry}
    (h : concludeChain expectedOwner readGenerationContents isFutureDocument inventory ordered
      highest chain = .ok proven) :
    proven.token = ⟨inventory.managedLeaves, chain.map ChainEntry.proofRecord⟩ := by
  unfold concludeChain at h
  rw [bind_eq_ok] at h
  obtain ⟨futureExtra, _, h⟩ := h
  split at h
  · cases h
  · split at h
    · cases h
    · split at h
      · cases h
      · injection h with h
        rw [← h]

/-- The names of a proof are the managed ones, and its records are scanned
ones. -/
theorem proveAuthoritativeChain_token
    (h : proveAuthoritativeChain expectedOwner readGenerationContents isFutureDocument
      inventory = .ok proven) :
    proven.token.managedLeaves = inventory.managedLeaves ∧
      ∀ record ∈ proven.token.records, ∃ scanned ∈ inventory.parsed,
        record.leaf = scanned.leaf.leaf ∧
          record.identity = recordIdentityFromStatus scanned.status := by
  unfold proveAuthoritativeChain proveChain at h
  dsimp only at h
  split at h
  · cases h
  · split at h
    · injection h with h
      rw [← h]
      exact ⟨rfl, by intro record hmem; cases hmem⟩
    · split at h
      · cases h
      · rename_i origin horigin
        split at h
        · cases h
        · rw [bind_eq_ok] at h
          obtain ⟨chain, hwalk, h⟩ := h
          have hmembers := walkChain_members hwalk
            (mem_orderGenerations.mpr (List.mem_of_find?_eq_some horigin))
            (by intro entry hmem; cases hmem)
          rw [concludeChain_token h]
          refine ⟨rfl, ?_⟩
          intro record hmem
          obtain ⟨entry, hentry, rfl⟩ := List.mem_map.mp hmem
          exact ⟨entry.record, mem_orderGenerations.mp (hmembers entry hentry), rfl, rfl⟩

/-- The proof over an observation, in terms of what was observed. -/
theorem proveHistory_seen {observation : Observation}
    (h : proveHistory configuration observation = .ok proven) :
    (∀ leaf, leaf ∈ proven.token.managedLeaves ↔ leaf ∈ observation.directory.names ∧
      isInternalTempLeaf leaf configuration.temporaryLeafPrefix = false) ∧
    ∀ record ∈ proven.token.records, ∃ status,
      observation.directory.inspectNamedEntry record.leaf = .ok (some status) ∧
        record.identity = recordIdentityFromStatus status := by
  unfold proveHistory at h
  split at h
  · cases h
  · rename_i inventory hscan
    obtain ⟨hmanaged, hrecords⟩ := proveAuthoritativeChain_token h
    obtain ⟨hnames, hstatuses⟩ := scanUnitDirectory_seen hscan
    refine ⟨?_, ?_⟩
    · intro leaf
      rw [hmanaged, hnames, List.mem_filter, List.mem_insertionSort, Bool.not_eq_true']
    · intro record hmem
      obtain ⟨scanned, hscanned, hleaf, hidentity⟩ := hrecords record hmem
      exact ⟨scanned.status, by rw [hleaf]; exact hstatuses scanned hscanned, hidentity⟩

end Moguet.Store.Commit
