import Moguet.Install.Store

/-!
# Using a token once

Any number of helper processes prepare, consume and abort transactions of one
token, and their system calls interleave in any order. A preparation looks for
the token in the used directory once, before it makes its staging directory, and
nothing but the name of that directory keeps two preparations apart. So a token
can be published again after it was used: when another process prepares and
retires it between the check and the `mkdirat`.

If every `mkdirat` of the staging name finds what the checks before it have found,
that the token is neither active nor used, a used token is never published again.
A preparation holds the staging name from its `mkdirat` to its publishing rename,
and while one holds it, no other can publish and none can retire.
-/

namespace Moguet.Receipt.SingleUse

open Verified.ByteString Verified.Dialogue Verified.Processes Install.Request Transaction

variable {helperPath : Store.HelperPath} {transactionToken : Bytes}

variable {β Name Extra Tree ε α ρ : Type} {ExtraAnswer : Extra → Type}
  {stage : StoreStage Name Extra ExtraAnswer ε α} {next : α → StoreStage Name Extra ExtraAnswer ε β}
  {request : Request Name Extra} {answer : Answer ExtraAnswer request}

/-! ## How far a process has come -/

/-- With the staging name: not yet, now, or no longer. -/
inductive Mode
  | waiting
  | holding
  | released
  deriving DecidableEq

variable {mode : Mode}

/-- Only a process that waits makes the staging directory, and only one that
holds it renames or removes it. -/
def mayAsk : Mode → Request Name Extra → Prop
  | mode, .makeStaging => mode = .waiting
  | mode, .publish => mode = .holding
  | mode, .removeStaging => mode = .holding
  | _, _ => True

def modeMoves : Effect Mode (Request Name Extra) (Answer ExtraAnswer)
  | _, .makeStaging, answer, after =>
    (answer = Except.ok () → after = .holding) ∧ (answer ≠ Except.ok () → after = .released)
  | before, .publish, answer, after =>
    (answer = Except.ok () → after = .released) ∧ (answer ≠ Except.ok () → after = before)
  | _, .removeStaging, _, after => after = .released
  | before, _, _, after => after = before

/-- A stage that leaves the mode as it is, however it ends. -/
abbrev Stays (mode : Mode) (stage : StoreStage Name Extra ExtraAnswer ε α) : Prop :=
  StageEnsures modeMoves mayAsk (fun after _ => after = mode) (fun after _ => after = mode) stage
    mode

theorem Stays.bind (hstage : Stays mode stage) (hnext : ∀ value, Stays mode (next value)) :
    Stays mode (stage >>= next) := by
  apply StageEnsures.bind hstage
  intro after value hafter
  rw [hafter]
  exact hnext value

theorem stays_pure (value : α) :
    Stays mode (Stage.pure value : StoreStage Name Extra ExtraAnswer ε α) :=
  StageEnsures.pure rfl

theorem stays_leave (failure : ε) :
    Stays mode (Stage.leave failure : StoreStage Name Extra ExtraAnswer ε α) :=
  StageEnsures.leave rfl

theorem stays_orThrow (thrown : Errno → ε) (answer : Except Errno α) :
    Stays mode (orThrow thrown answer : StoreStage Name Extra ExtraAnswer ε α) := by
  cases answer with
  | ok value => exact stays_pure value
  | error errno => exact stays_leave (thrown errno)

theorem stays_check (thrown : Errno → ε) (condition : Bool) :
    Stays mode (check thrown condition : StoreStage Name Extra ExtraAnswer ε Unit) := by
  cases condition with
  | true => exact stays_pure ()
  | false => exact stays_leave (thrown 0)

/-- What happens in a directory never moves the mode. -/
theorem stays_below (directory : Nat) (stage : TreeStage Name Extra ExtraAnswer ε α) :
    Stays mode (below directory stage) := by
  show Ensures _ _ _ (Program.embed _ _ stage) mode
  induction stage with
  | done result =>
    cases result with
    | error failure => exact rfl
    | ok value => exact rfl
  | ask note request next ih =>
    refine ⟨trivial, ?_⟩
    intro answer after hafter
    have hsame : after = mode := hafter
    rw [hsame]
    exact ih answer

theorem stays_requireEntryAbsent (thrown : Errno → ε) (place : Place) :
    Stays mode (requireEntryAbsent thrown place : StoreStage Name Extra ExtraAnswer ε Unit) := by
  apply Stays.bind
  · exact StageEnsures.query trivial fun _ _ hafter => hafter
  · intro answer
    exact (stays_orThrow thrown answer).bind fun present => stays_check thrown _

theorem stays_requireNamedIdentity (thrown : Errno → ε) (place : Place) (directory : Nat) :
    Stays mode (requireNamedIdentity thrown place directory :
      StoreStage Name Extra ExtraAnswer ε Unit) := by
  apply Stays.bind
  · exact StageEnsures.query trivial fun _ _ hafter => hafter
  · intro answer
    exact (stays_orThrow thrown answer).bind fun named => stays_check thrown _

theorem stays_openDirectoryAt (thrown : Errno → ε) (place : Place) :
    Stays mode (openDirectoryAt thrown place : StoreStage Name Extra ExtraAnswer ε Nat) := by
  apply Stays.bind
  · exact StageEnsures.query trivial fun _ _ hafter => hafter
  · intro answer
    apply (stays_orThrow thrown answer).bind
    intro directory
    exact (stays_requireNamedIdentity thrown place directory).bind fun _ => stays_pure directory

theorem stays_synchronizeDirectory (thrown : Errno → ε) (directory : StoreDirectory) :
    Stays mode (synchronizeDirectory thrown directory :
      StoreStage Name Extra ExtraAnswer ε Unit) := by
  apply Stays.bind
  · exact StageEnsures.query trivial fun _ _ hafter => hafter
  · intro answer
    exact stays_orThrow thrown answer

theorem stays_retireTransaction (thrown : Errno → ε) (transaction : Nat) :
    Stays mode (retireTransaction thrown transaction :
      StoreStage Name Extra ExtraAnswer ε Nat) := by
  have hretire : Stays mode (retireEntry thrown : StoreStage Name Extra ExtraAnswer ε Unit) := by
    apply Stays.bind
    · exact StageEnsures.query trivial fun _ _ hafter => hafter
    · intro answer
      exact stays_orThrow thrown answer
  apply (stays_requireEntryAbsent thrown .used).bind
  intro _
  apply hretire.bind
  intro _
  apply (stays_synchronizeDirectory thrown .active).bind
  intro _
  apply (stays_synchronizeDirectory thrown .used).bind
  intro _
  apply (stays_openDirectoryAt thrown .used).bind
  intro retired
  exact (stays_check thrown _).bind fun _ => stays_pure retired

theorem stays_catching {body : StoreStage Name Extra ExtraAnswer ε α}
    {handler : ε → StoreStage Name Extra ExtraAnswer ε α} (hbody : Stays mode body)
    (hhandler : ∀ failure, Stays mode (handler failure)) : Stays mode (catching body handler) := by
  apply Ensures.bind _ hbody
  intro after result hresult
  cases result with
  | error failure =>
    have hsame : after = mode := hresult
    rw [hsame]
    exact hhandler failure
  | ok value => exact hresult

/-- Nothing is asked of how a program ends. -/
def Behaves (mode : Mode) (stage : StoreStage Name Extra ExtraAnswer ε α) : Prop :=
  StageEnsures modeMoves mayAsk (fun _ _ => True) (fun _ _ => True) stage mode

theorem Stays.behaves (h : Stays mode stage) : Behaves mode stage :=
  h.mono (fun _ _ _ => trivial) fun _ _ _ => trivial

theorem Stays.bindBehaves (hstage : Stays mode stage) (hnext : ∀ value, Behaves mode (next value)) :
    Behaves mode (stage >>= next) := by
  apply StageEnsures.bind (hstage.mono (fun _ _ _ => trivial) fun _ _ hafter => hafter)
  intro after value hafter
  rw [hafter]
  exact hnext value

/-! ## The shape of a preparation -/

section Preparation

variable {thrown : Errno → ε} {fill : TreeStage Name Extra ExtraAnswer ε Unit}

/-- The publishing body: left while it holds the staging name, or finished
without it. -/
theorem ensures_fillStaging : StageEnsures modeMoves mayAsk (fun after _ => after = .holding)
      (fun after _ => after = .released)
      (do
        let staging ← openDirectoryAt thrown .staging
        below staging fill
        publishTransaction thrown : StoreStage Name Extra ExtraAnswer ε Unit) .holding := by
  apply StageEnsures.bind (stays_openDirectoryAt thrown .staging)
  intro mode staging hmode
  rw [hmode]
  apply StageEnsures.bind (stays_below staging fill)
  intro mode _ hmode
  rw [hmode]
  refine StageEnsures.bind (StageEnsures.query rfl fun _ _ hafter => hafter) ?_
  intro after answer hafter
  cases answer with
  | error errno => exact StageEnsures.leave (hafter.2 nofun)
  | ok value => exact StageEnsures.pure (hafter.1 rfl)

/-- The cleanup, in the mode in which it may remove the name. -/
theorem behaves_cleanupStaging (clean : TreeStage Name Extra ExtraAnswer ε Unit) :
    Behaves .holding (cleanupStaging clean) := by
  refine StageEnsures.bind (StageEnsures.query trivial fun _ _ hafter => hafter) ?_
  intro mode opened hmode
  have hholding : mode = .holding := hmode
  rw [hholding]
  cases opened with
  | error errno => exact trivial
  | ok staging =>
    apply (stays_below staging clean).bindBehaves
    intro _
    refine StageEnsures.bind (StageEnsures.query rfl fun _ _ hafter => hafter) ?_
    intro mode removed _
    cases removed with
    | error errno => exact trivial
    | ok value => exact trivial

/-- A preparation: three checks, `mkdirat`, the publishing body with its handler,
and whatever follows. -/
theorem behaves_preparation {body : StoreStage Name Extra ExtraAnswer ε Unit}
    {recover : ε → StoreStage Name Extra ExtraAnswer ε Unit}
    {finish : StoreStage Name Extra ExtraAnswer ε α}
    (hbody : StageEnsures modeMoves mayAsk (fun after _ => after = .holding)
      (fun after _ => after = .released) body .holding)
    (hrecover : ∀ failure, StageEnsures modeMoves mayAsk (fun _ _ => True) (fun _ _ => False)
      (recover failure) .holding)
    (hfinish : Behaves .released finish) :
    Behaves .waiting (do
      requireEntryAbsent thrown .used
      requireEntryAbsent thrown .active
      requireEntryAbsent thrown .staging
      makeStaging thrown
      catching body recover
      finish : StoreStage Name Extra ExtraAnswer ε α) := by
  apply (stays_requireEntryAbsent thrown .used).bindBehaves
  intro _
  apply (stays_requireEntryAbsent thrown .active).bindBehaves
  intro _
  apply (stays_requireEntryAbsent thrown .staging).bindBehaves
  intro _
  have hmake : StageEnsures modeMoves mayAsk (fun _ _ => True) (fun after _ => after = .holding)
      (makeStaging thrown : StoreStage Name Extra ExtraAnswer ε Unit) .waiting := by
    refine StageEnsures.bind (StageEnsures.query rfl fun _ _ hafter => hafter) ?_
    intro after answer hafter
    cases answer with
    | error errno => exact trivial
    | ok value => exact hafter.1 rfl
  apply StageEnsures.bind hmake
  intro mode _ hmode
  rw [hmode]
  have hcaught : StageEnsures modeMoves mayAsk (fun _ _ => True)
      (fun after _ => after = .released) (catching body recover) .holding := by
    apply Ensures.bind _ hbody
    intro after result hresult
    cases result with
    | error failure =>
      have hholding : after = .holding := hresult
      rw [hholding]
      exact (hrecover failure).mono (fun _ _ h => h) fun _ _ h => h.elim
    | ok value => exact hresult
  apply StageEnsures.bind hcaught
  intro mode _ hmode
  rw [hmode]
  exact hfinish

end Preparation

/-! ## The operations of the stores -/

/-- A process runs an operation for what it does, not for its result. -/
def forget (stage : StoreStage Name Extra ExtraAnswer ε α) :
    Process (Request Name Extra) (Answer ExtraAnswer) Unit :=
  Program.bind stage fun _ => .done ()

theorem ensures_forget (h : Behaves mode stage) :
    Ensures modeMoves mayAsk (fun _ _ => True) (forget stage) mode := by
  apply Ensures.bind _ h
  intro _ _ _
  exact trivial

section Receipt

open Store

variable (helperPath : HelperPath) (transactionToken : Bytes) {mode : Mode}

theorem stays_orRefuse (result : Protocol.ReceiptResult β) :
    Stays mode (orRefuse result : ReceiptStage β) := by
  cases result with
  | ok value => exact stays_pure value
  | error failure => exact stays_leave ()

theorem stays_retirePublished : Stays mode (retirePublished helperPath transactionToken) := by
  apply (stays_openDirectoryAt thrown .active).bind
  intro transaction
  apply (stays_below _ _).bind
  intro _
  exact (stays_retireTransaction thrown transaction).bind fun _ => stays_below _ _

theorem behaves_receiptPrepare (requestedPackageNames : List Bytes) :
    Behaves .waiting (prepare helperPath transactionToken requestedPackageNames) := by
  apply (stays_check thrown _).bindBehaves
  intro _
  apply (stays_orRefuse _).bindBehaves
  intro preparedProtocol
  apply behaves_preparation
  · exact ensures_fillStaging
  · intro _
    exact StageEnsures.bind (behaves_cleanupStaging _) fun _ _ _ =>
      StageEnsures.leave trivial
  · apply Stays.behaves
    apply stays_catching (stays_synchronizeDirectory thrown .active)
    intro _
    apply Stays.bind
    · exact stays_catching (stays_retirePublished helperPath transactionToken) fun _ =>
        stays_leave ()
    · exact fun _ => stays_leave ()

theorem behaves_receiptConsume : Behaves mode (consume helperPath transactionToken) := by
  apply Stays.behaves
  apply (stays_check thrown _).bind
  intro _
  apply (stays_openDirectoryAt thrown .active).bind
  intro transaction
  apply (stays_below _ _).bind
  intro read
  apply (stays_requireNamedIdentity thrown .active transaction).bind
  intro _
  apply (stays_retireTransaction thrown transaction).bind
  intro retired
  exact (stays_below _ _).bind fun _ => stays_orRefuse _

theorem behaves_receiptAbort : Behaves mode (abort helperPath transactionToken) := by
  apply Stays.behaves
  apply (stays_check thrown _).bind
  intro _
  apply (stays_openDirectoryAt thrown .active).bind
  intro transaction
  apply (stays_below _ _).bind
  intro read
  apply (stays_requireNamedIdentity thrown .active transaction).bind
  intro _
  exact (stays_retireTransaction thrown transaction).bind fun retired => stays_below _ _

/-- The processes on a token of the receipt store. -/
inductive ReceiptProcess : Process ReceiptRequest ReceiptAnswer Unit → Prop
  | prepare (requestedPackageNames : List Bytes) :
      ReceiptProcess (forget (prepare helperPath transactionToken requestedPackageNames))
  | consume : ReceiptProcess (forget (consume helperPath transactionToken))
  | abort : ReceiptProcess (forget (abort helperPath transactionToken))

end Receipt

section Install

open Install.Documents Install.Store

variable (helperPath : Receipt.Store.HelperPath) (transactionToken : Bytes) {mode : Mode}

theorem stays_installRefuse (refusal : SealingRefusal) (result : Protocol β) :
    Stays mode (orRefuse refusal result : InstallStage β) := by
  cases result with
  | ok value => exact stays_pure value
  | error failure => exact stays_leave refusal

theorem stays_requireSealedInput (request : RootPrepareRequest) (input : SealedInput) :
    Stays mode (requireSealedInput request input) := by
  apply (stays_check thrown _).bind
  intro _
  exact (stays_check thrown _).bind fun _ => stays_check thrown _

theorem stays_installAbort : Stays mode (abort transactionToken) := by
  apply (stays_check thrown _).bind
  intro _
  apply (stays_openDirectoryAt thrown .active).bind
  intro transaction
  apply (stays_below _ _).bind
  intro read
  apply (stays_requireNamedIdentity thrown .active transaction).bind
  intro _
  exact (stays_retireTransaction thrown transaction).bind fun retired => stays_below _ _

theorem behaves_installPrepare (request : RootPrepareRequest) (input : SealedInput) :
    Behaves .waiting (prepare helperPath request input) := by
  apply (stays_check thrown _).bindBehaves
  intro _
  apply (stays_requireSealedInput request input).bindBehaves
  intro _
  apply (stays_installRefuse _ _).bindBehaves
  intro preparedProtocol
  apply behaves_preparation
  · exact ensures_fillStaging
  · intro failure
    exact StageEnsures.bind (behaves_cleanupStaging _) fun _ _ _ =>
      StageEnsures.leave trivial
  · apply Stays.behaves
    apply stays_catching
    · apply (stays_synchronizeDirectory thrown .active).bind
      intro _
      exact (stays_openDirectoryAt thrown .active).bind fun transaction => stays_below _ _
    · intro failure
      apply Stays.bind
      · exact stays_catching (stays_installAbort request.transactionToken) fun _ =>
          stays_leave _
      · exact fun _ => stays_leave failure

theorem behaves_installConsume : Behaves mode (consume transactionToken) := by
  apply Stays.behaves
  apply (stays_check thrown _).bind
  intro _
  apply (stays_openDirectoryAt thrown .active).bind
  intro transaction
  apply (stays_below _ _).bind
  intro read
  apply (stays_requireNamedIdentity thrown .active transaction).bind
  intro _
  apply (stays_retireTransaction thrown transaction).bind
  intro retired
  exact (stays_below _ _).bind fun _ => stays_installRefuse _ _

/-- The processes on a token of the install store. -/
inductive InstallProcess : Process InstallRequest InstallAnswer Unit → Prop
  | prepare (request : RootPrepareRequest) (input : SealedInput)
      (htoken : request.transactionToken = transactionToken) :
      InstallProcess (forget (prepare helperPath request input))
  | consume : InstallProcess (forget (consume transactionToken))
  | abort : InstallProcess (forget (abort transactionToken))

end Install

/-! ## Who holds the staging name -/

/-- One process at most holds the staging name, and while it does, the token is
in neither directory. -/
structure Held (state : TransactionState Tree) (modes : Nat → Mode) : Prop where
  unique : ∀ first second, modes first = .holding → modes second = .holding → first = second
  staged : ∀ index, modes index = .holding → state.staging ≠ none
  unpublished : ∀ index, modes index = .holding → state.active = none ∧ state.used = none

/-- A staging directory is only made while the token is new. -/
def StagesNew (before after : TransactionState Tree) : Prop :=
  before.staging = none → after.staging ≠ none → before.active = none ∧ before.used = none

instance (before after : TransactionState Tree) : Decidable (StagesNew before after) :=
  inferInstanceAs (Decidable (_ → _ → _))

variable {state after : TransactionState Tree} {modes : Nat → Mode} {index : Nat}

theorem holding_update {other : Nat} (h : Function.update modes index mode other = .holding) :
    (other = index ∧ mode = .holding) ∨ (other ≠ index ∧ modes other = .holding) := by
  by_cases hother : other = index
  · rw [hother, Function.update_self] at h
    exact Or.inl ⟨hother, h⟩
  · rw [Function.update_of_ne hother] at h
    exact Or.inr ⟨hother, h⟩

/-- A process that leaves the mode holding, or was not in it, takes nothing from
the others. -/
theorem Held.release (h : Held state modes) (hmode : mode ≠ .holding)
    (hafter : ∀ other, other ≠ index → modes other = .holding →
      after.staging ≠ none ∧ after.active = none ∧ after.used = none) :
    Held after (Function.update modes index mode) := by
  have hold : ∀ other, Function.update modes index mode other = .holding →
      other ≠ index ∧ modes other = .holding := by
    intro other hother
    rcases holding_update hother with ⟨-, hholding⟩ | hother
    · exact absurd hholding hmode
    · exact hother
  constructor
  · intro first second hfirst hsecond
    exact h.unique first second (hold first hfirst).2 (hold second hsecond).2
  · intro other hother
    exact (hafter other (hold other hother).1 (hold other hother).2).1
  · intro other hother
    exact (hafter other (hold other hother).1 (hold other hother).2).2

/-- A step that leaves the modes and the entries as they are. -/
theorem Held.unchanged (h : Held state modes) (hstaging : after.staging = state.staging)
    (hactive : after.active = state.active) (hused : after.used = state.used) :
    Held after (Function.update modes index (modes index)) := by
  rw [Function.update_eq_self]
  refine ⟨h.unique, ?_, ?_⟩
  · intro other hother
    rw [hstaging]
    exact h.staged other hother
  · intro other hother
    rw [hactive, hused]
    exact h.unpublished other hother

section Effect

variable {empty : Tree} {IsEmpty : Tree → Prop}
  {tree : Effect Tree (TreeRequest Name Extra) (TreeAnswer ExtraAnswer)}

/-- Each request moves the mode of its process along with the entries. -/
theorem held_step (h : Held state modes) (hmay : mayAsk (modes index) request)
    (heffect : storeEffect empty IsEmpty tree state request answer after)
    (hnew : StagesNew state after) :
    ∃ mode, modeMoves (modes index) request answer mode ∧
      Held after (Function.update modes index mode) := by
  cases request with
  | entryExists place =>
    have hsame : after = state := heffect.1
    rw [hsame]
    exact ⟨modes index, rfl, h.unchanged rfl rfl rfl⟩
  | openDirectory place =>
    have hsame : after = state := heffect.1
    rw [hsame]
    exact ⟨modes index, rfl, h.unchanged rfl rfl rfl⟩
  | namedIdentity place =>
    have hsame : after = state := heffect.1
    rw [hsame]
    exact ⟨modes index, rfl, h.unchanged rfl rfl rfl⟩
  | synchronize directory =>
    have hsame : after = state := heffect
    rw [hsame]
    exact ⟨modes index, rfl, h.unchanged rfl rfl rfl⟩
  | below directory request =>
    obtain ⟨changed, -, hafter⟩ := heffect
    rw [hafter]
    exact ⟨modes index, rfl, h.unchanged rfl rfl rfl⟩
  | makeStaging =>
    rcases heffect with ⟨hanswer, hfree, hafter⟩ | ⟨⟨errno, hanswer⟩, hafter⟩
    · -- the name was free, so nobody held it
      have hnobody : ∀ other, modes other ≠ .holding := by
        intro other hother
        exact h.staged other hother hfree
      have hentries := hnew hfree (by rw [hafter]; simp [TransactionState.makeStaging])
      have hself : ∀ other, Function.update modes index .holding other = .holding →
          other = index := by
        intro other hother
        rcases holding_update hother with ⟨hsame, -⟩ | ⟨-, hholding⟩
        · exact hsame
        · exact absurd hholding (hnobody other)
      refine ⟨.holding, ⟨fun _ => rfl, fun hne => absurd hanswer hne⟩, ?_⟩
      rw [hafter]
      refine ⟨?_, ?_, ?_⟩
      · intro first second hfirst hsecond
        rw [hself first hfirst, hself second hsecond]
      · intro _ _
        simp [TransactionState.makeStaging]
      · intro _ _
        exact hentries
    · refine ⟨.released, ⟨fun hok => ?_, fun _ => rfl⟩, ?_⟩
      · rw [hanswer] at hok
        cases hok
      · rw [hafter]
        exact h.release (by decide) fun other _ hother => ⟨h.staged other hother,
          h.unpublished other hother⟩
  | publish =>
    have hholding : modes index = .holding := hmay
    rcases heffect with ⟨hanswer, -, -, hafter⟩ | ⟨⟨errno, hanswer⟩, hafter⟩
    · refine ⟨.released, ⟨fun _ => rfl, fun hne => absurd hanswer hne⟩, ?_⟩
      apply h.release (by decide)
      intro other hother hheld
      exact absurd (h.unique other index hheld hholding) hother
    · refine ⟨modes index, ⟨fun hok => ?_, fun _ => rfl⟩, ?_⟩
      · rw [hanswer] at hok
        cases hok
      · rw [hafter]
        exact h.unchanged rfl rfl rfl
  | retire =>
    rcases heffect with ⟨-, hactive, -, hafter⟩ | ⟨-, hafter⟩
    · -- an active token is held by nobody
      refine ⟨modes index, rfl, ?_⟩
      rw [Function.update_eq_self]
      have hnobody : ∀ other, modes other ≠ .holding := by
        intro other hother
        exact hactive (h.unpublished other hother).1
      exact ⟨h.unique, fun other hother => absurd hother (hnobody other),
        fun other hother => absurd hother (hnobody other)⟩
    · rw [hafter]
      exact ⟨modes index, rfl, h.unchanged rfl rfl rfl⟩
  | removeStaging =>
    have hholding : modes index = .holding := hmay
    refine ⟨.released, rfl, ?_⟩
    apply h.release (by decide)
    intro other hother hheld
    exact absurd (h.unique other index hheld hholding) hother

/-- What a request does to the active and the used entry. -/
theorem entries_step (heffect : storeEffect empty IsEmpty tree state request answer after) :
    (after.active = state.active ∧ after.used = state.used) ∨
    (request = .publish ∧ after.used = state.used) ∨
    (state.used = none ∧ after.active = none) := by
  cases request with
  | entryExists place =>
    rw [heffect.1]
    exact Or.inl ⟨rfl, rfl⟩
  | openDirectory place =>
    rw [heffect.1]
    exact Or.inl ⟨rfl, rfl⟩
  | namedIdentity place =>
    rw [heffect.1]
    exact Or.inl ⟨rfl, rfl⟩
  | synchronize directory =>
    have hsame : after = state := heffect
    rw [hsame]
    exact Or.inl ⟨rfl, rfl⟩
  | below directory request =>
    obtain ⟨changed, -, hafter⟩ := heffect
    rw [hafter]
    exact Or.inl ⟨rfl, rfl⟩
  | makeStaging =>
    rcases heffect with ⟨-, -, hafter⟩ | ⟨-, hafter⟩ <;> rw [hafter] <;>
      exact Or.inl ⟨rfl, rfl⟩
  | publish =>
    rcases heffect with ⟨-, -, -, hafter⟩ | ⟨-, hafter⟩ <;> rw [hafter] <;>
      exact Or.inr (Or.inl ⟨rfl, rfl⟩)
  | retire =>
    rcases heffect with ⟨-, -, hunused, hafter⟩ | ⟨-, hafter⟩
    · rw [hafter]
      exact Or.inr (Or.inr ⟨hunused, rfl⟩)
    · rw [hafter]
      exact Or.inl ⟨rfl, rfl⟩
  | removeStaging =>
    rcases heffect with ⟨-, -, hafter⟩ | ⟨-, hafter⟩ <;> rw [hafter] <;>
      exact Or.inl ⟨rfl, rfl⟩

/-! ## Runs -/

variable {MayStart : Process (Request Name Extra) (Answer ExtraAnswer) ρ → Prop}

/-- The world, as one of the processes of a store that share the entries. -/
abbrev StoreWorld (Name Extra : Type) (ExtraAnswer : Extra → Type) (Tree ρ : Type) : Type :=
  World (TransactionState Tree) (Request Name Extra) (Answer ExtraAnswer) ρ

/-- The step from one world to the next publishes the token. -/
def Publishes (before after : StoreWorld Name Extra ExtraAnswer Tree ρ) : Prop :=
  before.state.active = none ∧ after.state.active ≠ none

/-- Once the token has been in the used directory, no step publishes it. -/
def NeverPublishedAgain (worlds : List (StoreWorld Name Extra ExtraAnswer Tree ρ)) : Prop :=
  ∀ (early late : Nat) (first before after : StoreWorld Name Extra ExtraAnswer Tree ρ),
    early ≤ late → worlds[early]? = some first → worlds[late]? = some before →
    worlds[late + 1]? = some after → first.state.used ≠ none → ¬ Publishes before after

variable {worlds : List (StoreWorld Name Extra ExtraAnswer Tree ρ)}

/-- A token that is in the used directory stays there. -/
theorem used_stays (hrun : Run (storeEffect empty IsEmpty tree) MayStart worlds)
    {early : Nat} {first : StoreWorld Name Extra ExtraAnswer Tree ρ}
    (hfirst : worlds[early]? = some first) (hused : first.state.used ≠ none) :
    ∀ (gap : Nat) (later : StoreWorld Name Extra ExtraAnswer Tree ρ),
      worlds[early + gap]? = some later → later.state.used ≠ none := by
  intro gap
  induction gap with
  | zero =>
    intro later hlater
    rw [Nat.add_zero, hfirst] at hlater
    rw [← Option.some.inj hlater]
    exact hused
  | succ gap ih =>
    intro later hlater
    have hlt : early + gap + 1 < worlds.length := (List.getElem?_eq_some_iff.mp hlater).1
    have hmiddle : worlds[early + gap]? = some worlds[early + gap] :=
      List.getElem?_eq_getElem (by omega)
    have hstep : Step _ MayStart worlds[early + gap] worlds[early + gap + 1] :=
      List.IsChain.getElem hrun _ hlt
    have hlast : worlds[early + gap + 1] = later := by
      rw [← Option.some.inj (hlater.symm.trans (List.getElem?_eq_getElem hlt))]
    rw [hlast] at hstep
    have hbefore := ih _ hmiddle
    generalize worlds[early + gap] = before at hstep hbefore
    cases hstep with
    | start hprogram => exact hbefore
    | act hprocess heffect =>
      rcases entries_step heffect with ⟨-, hsame⟩ | ⟨-, hsame⟩ | ⟨hunused, -⟩
      · exact hsame ▸ hbefore
      · exact hsame ▸ hbefore
      · exact absurd hunused hbefore

/-- In a run of processes that take the staging name before they publish, and
take it only while the token is new. -/
theorem neverPublishedAgain (hstart : ∀ program, MayStart program →
      Ensures modeMoves mayAsk (fun _ _ => True) program .waiting)
    (hrun : Run (storeEffect empty IsEmpty tree) MayStart worlds)
    (hempty : ∀ world, worlds.head? = some world → world.processes = [])
    (hnew : worlds.IsChain fun before after => StagesNew before.state after.state) :
    NeverPublishedAgain worlds := by
  have hkept : ∀ {world world' : StoreWorld Name Extra ExtraAnswer Tree ρ},
      Tracked modeMoves mayAsk .waiting Held world →
      Step (storeEffect empty IsEmpty tree) MayStart world world' →
      StagesNew world.state world'.state → Tracked modeMoves mayAsk .waiting Held world' := by
    intro world world' h hstep hfair
    apply Tracked.step hstart _ h hstep hfair
    intro state state' modes index request answer hheld hmay heffect hnew
    exact held_step hheld hmay heffect hnew
  have htracked : ∀ world ∈ worlds, Tracked modeMoves mayAsk .waiting Held world := by
    apply Tracked.run hkept hrun hnew
    intro world hworld
    refine ⟨fun _ => .waiting, ?_, fun _ _ => rfl, ⟨nofun, nofun, nofun⟩⟩
    intro index program hindex
    rw [hempty world hworld] at hindex
    cases hindex
  intro early late first before after hle hfirst hbefore hafter hused hpublishes
  obtain ⟨gap, rfl⟩ := Nat.exists_eq_add_of_le hle
  have hstillUsed := used_stays hrun hfirst hused gap before hbefore
  have hlt := (List.getElem?_eq_some_iff.mp hafter).1
  have hstep : Step _ MayStart worlds[early + gap] worlds[early + gap + 1] :=
    List.IsChain.getElem hrun _ hlt
  rw [(List.getElem?_eq_some_iff.mp hbefore).2, (List.getElem?_eq_some_iff.mp hafter).2] at hstep
  obtain ⟨modes, hprocesses, -, hheld⟩ := htracked before (List.mem_of_getElem? hbefore)
  obtain ⟨hnone, hsome⟩ := hpublishes
  cases hstep with
  | start hprogram => exact hsome hnone
  | @act index note request next answer state' hprocess heffect =>
    rcases entries_step heffect with ⟨hsame, -⟩ | ⟨hpublish, -⟩ | ⟨hunused, -⟩
    · exact hsome (hsame.trans hnone)
    · have hmay : mayAsk (modes index) request := (hprocesses index _ hprocess).1
      rw [hpublish] at hmay
      exact hstillUsed (hheld.unpublished index hmay).2
    · exact hstillUsed hunused

end Effect

/-! ## The stores -/

/-- A run of processes that start in any state of the entries and take the
staging name only while the token is new. -/
structure NewRun (effect : Effect (TransactionState Tree) (Request Name Extra)
      (Answer ExtraAnswer)) (MayStart : Process (Request Name Extra) (Answer ExtraAnswer) ρ → Prop)
    (worlds : List (StoreWorld Name Extra ExtraAnswer Tree ρ)) : Prop where
  run : Run effect MayStart worlds
  starts : ∀ world, worlds.head? = some world → world.processes = []
  stages : worlds.IsChain fun before after => StagesNew before.state after.state

theorem starts_receiptProcess {program : Process Store.ReceiptRequest Store.ReceiptAnswer Unit}
    (h : ReceiptProcess helperPath transactionToken program) :
    Ensures modeMoves mayAsk (fun _ _ => True) program .waiting := by
  cases h with
  | prepare names => exact ensures_forget (behaves_receiptPrepare helperPath _ names)
  | consume => exact ensures_forget (behaves_receiptConsume helperPath transactionToken)
  | abort => exact ensures_forget (behaves_receiptAbort helperPath transactionToken)

theorem starts_installProcess
    {program : Process Install.Store.InstallRequest Install.Store.InstallAnswer Unit}
    (h : InstallProcess helperPath transactionToken program) :
    Ensures modeMoves mayAsk (fun _ _ => True) program .waiting := by
  cases h with
  | prepare request input htoken => exact ensures_forget (behaves_installPrepare helperPath _ _)
  | consume => exact ensures_forget (behaves_installConsume transactionToken)
  | abort => exact ensures_forget (stays_installAbort transactionToken).behaves

/-- **Tokens are used once**: in every run of the helper processes of a token, of
either store, in which each staging directory is made while the token is neither
active nor used, the token is never published after it has been used. What the
calls do inside the directories does not matter. -/
theorem token_neverPublishedAgain (helperPath : Store.HelperPath) (transactionToken : Bytes) :
    (∀ worlds, NewRun Store.receiptEffect (ReceiptProcess helperPath transactionToken) worlds →
        NeverPublishedAgain worlds) ∧
      ∀ (Tree : Type) (empty : Tree) (IsEmpty : Tree → Prop)
        (tree : Effect Tree
          (TreeRequest Install.Store.InstallName Install.Store.InstallExtra)
          (TreeAnswer Install.Store.InstallExtraAnswer)) (worlds : List (StoreWorld _ _ _ Tree Unit)),
        NewRun (storeEffect empty IsEmpty tree) (InstallProcess helperPath transactionToken)
          worlds → NeverPublishedAgain worlds := by
  constructor
  · intro worlds h
    exact neverPublishedAgain (fun _ => starts_receiptProcess) h.run h.starts h.stages
  · intro Tree empty IsEmpty tree worlds h
    exact neverPublishedAgain (fun _ => starts_installProcess) h.run h.starts h.stages

/-! ## A stale check -/

section Sample

open Store

def sampleHelper : HelperPath :=
  ⟨ascii "/usr/lib/moguet/moguet-alpm-receipt-helper", installedHelper_short⟩

def sampleToken : Bytes := List.replicate 64 (byte '0')

abbrev ReceiptWorld : Type :=
  World ReceiptState ReceiptRequest ReceiptAnswer Unit

/-- Two preparations of one package and an abort. -/
def sampleProcesses : List (Process ReceiptRequest ReceiptAnswer Unit) :=
  [forget (prepare sampleHelper sampleToken [ascii "mesa"]),
    forget (prepare sampleHelper sampleToken [ascii "mesa"]),
    forget (abort sampleHelper sampleToken)]

/-- The worlds while the processes are started, one after the other. -/
def startedWorlds : List ReceiptWorld :=
  [⟨freshState, []⟩, ⟨freshState, sampleProcesses.take 1⟩, ⟨freshState, sampleProcesses.take 2⟩]

/-- The worlds of a schedule of the three processes. -/
def sampleRun (schedule : List Nat) : List ReceiptWorld :=
  startedWorlds ++ (⟨freshState, sampleProcesses⟩ : ReceiptWorld) ::
    (⟨freshState, sampleProcesses⟩ : ReceiptWorld).trace receiptMachine schedule

theorem sampleRun_run (schedule : List Nat) :
    Run receiptEffect (ReceiptProcess sampleHelper sampleToken) (sampleRun schedule) := by
  have hprepare : ReceiptProcess sampleHelper sampleToken
      (forget (prepare sampleHelper sampleToken [ascii "mesa"])) := ReceiptProcess.prepare _
  have habort : ReceiptProcess sampleHelper sampleToken
      (forget (abort sampleHelper sampleToken)) := ReceiptProcess.abort
  have hrun : Run receiptEffect (ReceiptProcess sampleHelper sampleToken) _ :=
    World.run_trace receiptMachine_effect schedule ⟨freshState, sampleProcesses⟩
  refine List.isChain_cons_cons.mpr ⟨Step.start hprepare, ?_⟩
  refine List.isChain_cons_cons.mpr ⟨Step.start hprepare, ?_⟩
  exact List.isChain_cons_cons.mpr ⟨Step.start habort, hrun⟩

/-- The entries of a world, where there is one. -/
def entriesAt (worlds : List ReceiptWorld) (index : Nat) :
    Option (Option Nat × Option Nat) :=
  worlds[index]?.map fun world => (world.state.active, world.state.used)

theorem entriesAt_eq_some {worlds : List ReceiptWorld} {active used : Option Nat}
    (h : entriesAt worlds index = some (active, used)) :
    ∃ world, worlds[index]? = some world ∧ world.state.active = active ∧
      world.state.used = used := by
  obtain ⟨world, hworld, hentries⟩ := Option.map_eq_some_iff.mp h
  injection hentries with hactive hused
  exact ⟨world, hworld, hactive, hused⟩

/-- A preparation, an abort and then another preparation. -/
def orderlySchedule : List Nat :=
  List.replicate 60 1 ++ List.replicate 80 2 ++ List.replicate 60 0

/-- After the abort the token is used, and the second preparation leaves it at
that. -/
theorem token_neverPublishedAgain_orderly :
    NeverPublishedAgain (sampleRun orderlySchedule) ∧
      entriesAt (sampleRun orderlySchedule) 53 = some (none, some 0) := by
  constructor
  · apply (token_neverPublishedAgain sampleHelper sampleToken).1
    refine ⟨sampleRun_run _, ?_, by decide +kernel⟩
    intro world hworld
    rw [← Option.some.inj hworld]
  · decide +kernel

/-- The first preparation has made its three checks when the second prepares the
token and the third retires it. -/
def staleSchedule : List Nat :=
  List.replicate 3 0 ++ List.replicate 60 1 ++ List.replicate 80 2 ++ List.replicate 60 0

/-- A used token is published again: the first preparation acts on what it saw
before the token was used. -/
theorem token_published_again :
    ¬ ∀ worlds : List ReceiptWorld,
      Run receiptEffect (ReceiptProcess sampleHelper sampleToken) worlds →
      (∀ world, worlds.head? = some world → world = ⟨freshState, []⟩) →
      NeverPublishedAgain worlds := by
  intro h
  have hnever := h (sampleRun staleSchedule) (sampleRun_run _) (by
    intro world hworld
    exact (Option.some.inj hworld).symm)
  obtain ⟨before, hbefore, hinactive, hused⟩ := entriesAt_eq_some
    (show entriesAt (sampleRun staleSchedule) 69 = some (none, some 0) by decide +kernel)
  obtain ⟨after, hafter, hactive, -⟩ := entriesAt_eq_some
    (show entriesAt (sampleRun staleSchedule) 70 = some (some 1, some 0) by decide +kernel)
  apply hnever 69 69 before before after (Nat.le_refl 69) hbefore hbefore hafter
  · rw [hused]
    exact Option.some_ne_none 0
  · refine ⟨hinactive, ?_⟩
    rw [hactive]
    exact Option.some_ne_none 1

end Sample

end Moguet.Receipt.SingleUse
