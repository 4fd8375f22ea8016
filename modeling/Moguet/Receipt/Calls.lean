import Moguet.Receipt.StoreSpec

/-!
# One call of the receipt store

A token is idle until it is published, then live, and spent once it is retired; a
live token has no receipt, a part of one, or a complete one. A call may fail or be
cut off at any of its system calls, and it still moves its token forward in this
order only.
-/

namespace Moguet.Receipt.Calls

open Verified.ByteString Verified.Dialogue Verified.Processes Install.Request Protocol Transaction
open Store StoreSpec

variable {packages names : List Bytes} {text : Bytes} {α : Type} {tree : ReceiptTree}
  {operation : FileOperation ReceiptName} {request : ReceiptRequest} {which : StoreDirectory}

/-! ## Settings of the store -/

abbrev Tracked : Type := ReceiptState × Tally

variable {post : Tracked → α → Prop} {Safe : Tracked → Prop} {tracked : Tracked}

abbrev ReceiptSetting : Type := Setting Tracked ReceiptRequest ReceiptAnswer

def receiptCounted : Effect Tracked ReceiptRequest ReceiptAnswer := counted receiptEffect storeTally

def Succeeds : (request : ReceiptRequest) → ReceiptAnswer request → Prop
  | .entryExists _, answer => ∃ value, answer = Except.ok value
  | .makeStaging, answer => ∃ value, answer = Except.ok value
  | .openDirectory _, answer => ∃ value, answer = Except.ok value
  | .namedIdentity _, answer => ∃ value, answer = Except.ok value
  | .publish, answer => ∃ value, answer = Except.ok value
  | .retire, answer => ∃ value, answer = Except.ok value
  | .removeStaging, answer => ∃ value, answer = Except.ok value
  | .synchronize _, answer => ∃ value, answer = Except.ok value
  | .below _ (.file _), answer => ∃ value, answer = Except.ok value
  | .below _ (.extra _), _ => True

/-- Every call may fail, or be the last one; the state has to be safe there. -/
def lenient (Safe : Tracked → Prop) : ReceiptSetting where
  effect := receiptCounted
  point state _ := Safe state
  left := Safe

/-- System calls that succeed. -/
def orderlyEffect : Effect ReceiptState ReceiptRequest ReceiptAnswer :=
  fun state request answer after => receiptEffect state request answer after ∧
    Succeeds request answer

/-- Every call succeeds, and has to be able to. -/
def strict : ReceiptSetting where
  effect := counted orderlyEffect storeTally
  point state request := ∃ answer after,
    counted orderlyEffect storeTally state request answer after
  left _ := False

def KnowsEffect (setting : ReceiptSetting) : Prop :=
  ∀ {state : Tracked} {request : ReceiptRequest} {answer : ReceiptAnswer request}
    {after : Tracked}, setting.effect state request answer after →
      receiptCounted state request answer after

theorem knowsEffect_lenient (Safe : Tracked → Prop) : KnowsEffect (lenient Safe) :=
  fun h => h

theorem knowsEffect_strict : KnowsEffect strict :=
  fun h => ⟨h.1.1, h.2⟩

/-! ### Inside a directory -/

/-- The setting as a function sees it that is given one directory. -/
def inside (setting : ReceiptSetting) (base : ReceiptState) (directory : Nat) : FileSetting where
  effect state request answer after :=
    setting.effect (base.writeTree directory state.1, state.2) (.below directory request) answer
      (base.writeTree directory after.1, after.2)
  point state request :=
    setting.point (base.writeTree directory state.1, state.2) (.below directory request)
  left state := setting.left (base.writeTree directory state.1, state.2)

variable {setting : ReceiptSetting} {state : ReceiptState} {tally : Tally} {directory : Nat}

theorem writeTree_self (state : ReceiptState) (directory : Nat) :
    state.writeTree directory (state.tree directory) = state := by
  unfold TransactionState.writeTree
  rw [Function.update_eq_self]

theorem writeTree_writeTree (state : ReceiptState) (directory : Nat) (first second : ReceiptTree) :
    (state.writeTree directory first).writeTree directory second =
      state.writeTree directory second := by
  unfold TransactionState.writeTree
  rw [Function.update_idem]

theorem writeTree_tree (state : ReceiptState) (directory : Nat) (tree : ReceiptTree) :
    (state.writeTree directory tree).tree directory = tree :=
  Function.update_self ..

theorem sound_inside (hsound : KnowsEffect setting) : Sound (inside setting state directory) := by
  intro before request answer after heffect
  obtain ⟨⟨changed, htree, hafter⟩, htally⟩ := hsound heffect
  rw [writeTree_tree] at htree
  have hchanged : after.1 = changed := by
    rw [← writeTree_tree state directory after.1]
    show TransactionState.tree (state.writeTree directory after.1) directory = changed
    rw [show state.writeTree directory after.1 = _ from hafter, writeTree_tree]
  rw [← hchanged] at htree
  exact ⟨htree, htally⟩

/-- A function that is given a directory, from its own specification. -/
theorem spec_below (hsound : KnowsEffect setting) {stage : ReceiptTreeStage α}
    (h : (inside setting state directory).Spec
      (fun last value => post (state.writeTree directory last.1, last.2) value) stage
      (state.tree directory, tally)) :
    setting.Spec post (below directory stage) (state, tally) := by
  have hrelated : (state, tally) =
      (state.writeTree directory (state.tree directory), tally) := by rw [writeTree_self]
  refine Ensures.embed (fun (wide : Tracked) (narrow : ReceiptTree × Tally) =>
    wide = (state.writeTree directory narrow.1, narrow.2)) ?_ ?_ ?_ hrelated h
  · rintro _ narrow request rfl hpoint
    exact hpoint
  · rintro _ wide' narrow request answer rfl heffect
    obtain ⟨⟨changed, -, hafter⟩, -⟩ := hsound heffect
    rw [writeTree_writeTree] at hafter
    have hwide : wide' = (state.writeTree directory changed, wide'.2) := Prod.ext hafter rfl
    rw [hwide] at heffect ⊢
    exact ⟨(changed, wide'.2), heffect, rfl⟩
  · rintro _ narrow result rfl hfinish
    cases result with
    | error failure => exact hfinish
    | ok value => exact hfinish

/-- A function that only reads. -/
theorem spec_below_read (hsound : KnowsEffect setting) {Found : α → Prop}
    {stage : ReceiptTreeStage α} (h : (inside setting state directory).Spec
      (fun last value => last = (state.tree directory, tally) ∧ Found value) stage
      (state.tree directory, tally)) :
    setting.Spec (fun after value => after = (state, tally) ∧ Found value)
      (below directory stage) (state, tally) := by
  apply spec_below hsound
  apply h.mono
  intro last value hlast
  rw [hlast.1]
  exact ⟨Prod.ext (writeTree_self state directory) rfl, hlast.2⟩

/-! ### What may be asked -/

theorem fileEffect_error_read {after : ReceiptTree} {answer : FileAnswer operation}
    (hread : IsRead operation) (h : fileEffect ReceiptName.parent tree operation answer after) :
    after = tree := by
  cases operation with
  | entryExists name => exact h.1
  | synchronize name => exact h
  | openDirectory name => exact h.1
  | openFile name => exact h.1
  | readFile name => exact h.1
  | listEntries listed => exact h.1
  | _ => exact absurd hread id

theorem lenient_reads (h : Safe (state.writeTree directory tree, tally)) :
    ReadReady (inside (lenient Safe) state directory) (tree, tally) := by
  intro operation _ hread
  refine ⟨h, ?_⟩
  intro errno after heffect
  obtain ⟨hfile, htally⟩ := sound_inside (knowsEffect_lenient Safe) heffect
  rw [fileTally_quiet (isQuiet_of_isRead hread)] at htally
  have htree : after.1 = tree := fileEffect_error_read hread hfile
  show Safe (state.writeTree directory after.1, after.2)
  rw [htree, htally]
  exact h

theorem lenient_all (h : ∀ tree, Safe (state.writeTree directory tree, tally)) :
    AllReady (inside (lenient Safe) state directory) tally := by
  intro tree operation _ hquiet
  refine ⟨h tree, ?_⟩
  intro errno after heffect
  obtain ⟨-, htally⟩ := sound_inside (knowsEffect_lenient Safe) heffect
  rw [fileTally_quiet hquiet] at htally
  show Safe (state.writeTree directory after.1, after.2)
  rw [htally]
  exact h after.1

theorem strict_ready (h : Able tree operation) :
    Ready (inside strict state directory) (tree, tally) operation := by
  obtain ⟨value, changed, heffect⟩ := h
  constructor
  · refine ⟨Except.ok value, (state.writeTree directory changed, _),
      ⟨⟨changed, ?_, ?_⟩, value, rfl⟩, rfl⟩
    · rw [writeTree_tree]
      exact heffect
    · rw [writeTree_writeTree]
  · intro errno after herror
    obtain ⟨value, hvalue⟩ := herror.1.2
    cases hvalue

theorem strict_reads (tree : ReceiptTree) :
    ReadReady (inside strict state directory) (tree, tally) :=
  fun _ hable _ => strict_ready hable

theorem strict_all : AllReady (inside strict state directory) tally :=
  fun _ _ hable _ => strict_ready hable

/-- A request about the entries may be asked here, and may fail. -/
structure MayAsk (setting : ReceiptSetting) (tracked : Tracked) (request : ReceiptRequest) :
    Prop where
  point : setting.point tracked request
  left : ∀ answer after, setting.effect tracked request answer after →
    ¬ Succeeds request answer → setting.left after

/-- A failed call leaves the entries as they are. -/
theorem unchanged_of_failure {after : Tracked} {answer : ReceiptAnswer request}
    (hplace : ∀ directory inner, request ≠ .below directory inner)
    (heffect : receiptCounted tracked request answer after) (hfails : ¬ Succeeds request answer) :
    after = tracked := by
  obtain ⟨hstate, htally⟩ := heffect
  cases request with
  | entryExists place => exact Prod.ext hstate.1 htally
  | openDirectory place => exact Prod.ext hstate.1 htally
  | namedIdentity place => exact Prod.ext hstate.1 htally
  | synchronize which => exact Prod.ext hstate htally
  | below directory inner => exact absurd rfl (hplace directory inner)
  | makeStaging =>
    rcases hstate with ⟨hok, -⟩ | ⟨-, hsame⟩
    · exact absurd ⟨(), hok⟩ hfails
    · exact Prod.ext hsame htally
  | removeStaging =>
    rcases hstate with ⟨hok, -⟩ | ⟨-, hsame⟩
    · exact absurd ⟨(), hok⟩ hfails
    · exact Prod.ext hsame htally
  | publish =>
    rcases hstate with ⟨hok, -⟩ | ⟨⟨errno, herror⟩, hsame⟩
    · exact absurd ⟨(), hok⟩ hfails
    · rw [herror] at htally
      exact Prod.ext hsame htally
  | retire =>
    rcases hstate with ⟨hok, -⟩ | ⟨⟨errno, herror⟩, hsame⟩
    · exact absurd ⟨(), hok⟩ hfails
    · rw [herror] at htally
      exact Prod.ext hsame htally

theorem lenient_mayAsk (h : Safe tracked)
    (hplace : ∀ directory inner, request ≠ .below directory inner) :
    MayAsk (lenient Safe) tracked request := by
  refine ⟨h, ?_⟩
  intro answer after heffect hfails
  rw [unchanged_of_failure hplace heffect hfails]
  exact h

theorem strict_mayAsk (h : ∃ answer after, receiptCounted tracked request answer after ∧
      Succeeds request answer) : MayAsk strict tracked request := by
  obtain ⟨answer, after, ⟨hstate, htally⟩, hsucceeds⟩ := h
  exact ⟨⟨answer, after, ⟨hstate, hsucceeds⟩, htally⟩,
    fun _ _ heffect hfails => absurd heffect.1.2 hfails⟩

/-! ### The entries -/

section Entries

variable {place : Place}

theorem spec_requireEntryAbsent (hsound : KnowsEffect setting)
    (hask : MayAsk setting (state, tally) (.entryExists place))
    (hleft : state.entry place ≠ none → setting.left (state, tally)) :
    setting.Spec (fun after _ => after = (state, tally) ∧ state.entry place = none)
      (requireEntryAbsent thrown place : ReceiptStage Unit) (state, tally) := by
  refine StageEnsures.bind (StageEnsures.query hask.point fun _ _ heffect => heffect) ?_
  intro after answer heffect
  cases answer with
  | error errno => exact hask.left _ after heffect nofun
  | ok present =>
    obtain ⟨hstate, htally⟩ := hsound heffect
    have hsame : after = (state, tally) := Prod.ext hstate.1 htally
    have hpresent : present = (state.entry place).isSome := hstate.2 present rfl
    rw [hsame]
    show setting.Spec _ (check thrown !present : ReceiptStage Unit) (state, tally)
    apply (StageEnsures.require _).mono (fun _ _ h => h)
    · rintro _ _ ⟨rfl, habsent⟩
      refine ⟨rfl, ?_⟩
      simpa [hpresent] using habsent
    · intro hfalse
      apply hleft
      rw [← Option.isSome_iff_ne_none, ← hpresent]
      simpa using hfalse

theorem spec_requireNamedIdentity (hsound : KnowsEffect setting)
    (hask : MayAsk setting (state, tally) (.namedIdentity place))
    (h : state.entry place = some directory) :
    setting.Spec (fun after _ => after = (state, tally))
      (requireNamedIdentity thrown place directory : ReceiptStage Unit) (state, tally) := by
  refine StageEnsures.bind (StageEnsures.query hask.point fun _ _ heffect => heffect) ?_
  intro after answer heffect
  cases answer with
  | error errno => exact hask.left _ after heffect nofun
  | ok named =>
    obtain ⟨hstate, htally⟩ := hsound heffect
    have hsame : after = (state, tally) := Prod.ext hstate.1 htally
    have hnamed : named = directory := by
      have hentry := hstate.2 named rfl
      rw [h] at hentry
      exact (Option.some.inj hentry).symm
    rw [hsame]
    show setting.Spec _ (check thrown (decide (named = directory))) (state, tally)
    rw [decide_eq_true hnamed]
    exact Setting.Spec.pure rfl

theorem spec_openDirectoryAt (hsound : KnowsEffect setting)
    (hask : MayAsk setting (state, tally) (.openDirectory place))
    (hnamed : state.entry place ≠ none → MayAsk setting (state, tally) (.namedIdentity place)) :
    setting.Spec (fun after opened => after = (state, tally) ∧ state.entry place = some opened)
      (openDirectoryAt thrown place : ReceiptStage Nat) (state, tally) := by
  refine StageEnsures.bind (StageEnsures.query hask.point fun _ _ heffect => heffect) ?_
  intro after answer heffect
  cases answer with
  | error errno => exact hask.left _ after heffect nofun
  | ok opened =>
    obtain ⟨hstate, htally⟩ := hsound heffect
    have hsame : after = (state, tally) := Prod.ext hstate.1 htally
    have hentry : state.entry place = some opened := hstate.2.1 opened rfl
    rw [hsame]
    show setting.Spec _ (do
      requireNamedIdentity thrown place opened
      Stage.pure opened : ReceiptStage Nat) (state, tally)
    apply Setting.Spec.bind (spec_requireNamedIdentity hsound
      (hnamed (by rw [hentry]; exact Option.some_ne_none opened)) hentry)
    rintro _ _ rfl
    exact Setting.Spec.pure ⟨rfl, hentry⟩

/-- A call whose success says nothing new. -/
theorem spec_synchronizeDirectory (hsound : KnowsEffect setting)
    (hask : MayAsk setting (state, tally) (.synchronize which)) :
    setting.Spec (fun after _ => after = (state, tally))
      (synchronizeDirectory thrown which : ReceiptStage Unit) (state, tally) := by
  refine StageEnsures.bind (StageEnsures.query hask.point fun _ _ heffect => heffect) ?_
  intro after answer heffect
  cases answer with
  | error errno => exact hask.left _ after heffect nofun
  | ok value =>
    obtain ⟨hstate, htally⟩ := hsound heffect
    exact StageEnsures.pure (Prod.ext hstate htally)

/-- Every request about the entries that can succeed here may be asked. -/
def Allows (setting : ReceiptSetting) (tracked : Tracked) : Prop :=
  ∀ request, (∀ directory inner, request ≠ .below directory inner) →
    (∃ answer after, receiptCounted tracked request answer after ∧ Succeeds request answer) →
    MayAsk setting tracked request

theorem lenient_allows (h : Safe tracked) : Allows (lenient Safe) tracked :=
  fun _ hplace _ => lenient_mayAsk h hplace

theorem strict_allows (tracked : Tracked) : Allows strict tracked :=
  fun _ _ hable => strict_mayAsk hable

theorem Allows.entryExists (h : Allows setting tracked) :
    MayAsk setting tracked (.entryExists place) := by
  apply h (.entryExists place) nofun
  refine ⟨Except.ok (tracked.1.entry place).isSome, tracked, ⟨⟨rfl, ?_⟩, rfl⟩, _, rfl⟩
  rintro _ ⟨rfl⟩
  rfl

theorem Allows.openDirectory (h : Allows setting tracked)
    (hentry : tracked.1.entry place = some directory) :
    MayAsk setting tracked (.openDirectory place) := by
  apply h (.openDirectory place) nofun
  refine ⟨Except.ok directory, tracked, ⟨⟨rfl, ?_, nofun⟩, rfl⟩, directory, rfl⟩
  rintro _ ⟨rfl⟩
  exact hentry

theorem Allows.namedIdentity (h : Allows setting tracked)
    (hentry : tracked.1.entry place = some directory) :
    MayAsk setting tracked (.namedIdentity place) := by
  apply h (.namedIdentity place) nofun
  refine ⟨Except.ok directory, tracked, ⟨⟨rfl, ?_⟩, rfl⟩, directory, rfl⟩
  rintro _ ⟨rfl⟩
  exact hentry

theorem Allows.synchronize (h : Allows setting tracked) :
    MayAsk setting tracked (.synchronize which) :=
  h (.synchronize which) nofun ⟨Except.ok (), tracked, ⟨rfl, rfl⟩, (), rfl⟩

/-- The state after the transaction is retired. -/
def retired (tracked : Tracked) : Tracked :=
  (tracked.1.retire, { tracked.2 with retirements := tracked.2.retirements + 1 })

theorem Allows.retire (h : Allows setting (state, tally)) (hactive : state.active = some directory)
    (hused : state.used = none) : MayAsk setting (state, tally) .retire := by
  apply h .retire nofun
  refine ⟨Except.ok (), retired (state, tally), ⟨Or.inl ⟨rfl, ?_, hused, rfl⟩, rfl⟩, (), rfl⟩
  rw [hactive]
  exact Option.some_ne_none directory

theorem spec_retireTransaction (hsound : KnowsEffect setting)
    (hactive : state.active = some directory) (hused : state.used = none)
    (hallows : Allows setting (state, tally))
    (hafter : Allows setting (retired (state, tally))) :
    setting.Spec (fun after found => after = retired (state, tally) ∧ found = directory)
      (retireTransaction thrown directory : ReceiptStage Nat) (state, tally) := by
  have hentry : (retired (state, tally)).1.entry .used = some directory := hactive
  apply StageEnsures.bind
    (spec_requireEntryAbsent hsound hallows.entryExists fun (hne : state.entry .used ≠ none) =>
      absurd hused hne)
  rintro _ _ ⟨rfl, -⟩
  have hretire := hallows.retire hactive hused
  have hmoved : setting.Spec (fun after _ => after = retired (state, tally))
      (retireEntry thrown : ReceiptStage Unit) (state, tally) := by
    refine StageEnsures.bind (StageEnsures.query hretire.point fun _ _ heffect => heffect) ?_
    intro after answer heffect
    cases answer with
    | error errno => exact hretire.left _ after heffect nofun
    | ok value =>
      obtain ⟨hstate, htally⟩ := hsound heffect
      rcases hstate with ⟨-, -, -, hstate⟩ | ⟨⟨errno, herror⟩, -⟩
      · exact StageEnsures.pure (Prod.ext hstate htally)
      · cases herror
  apply StageEnsures.bind hmoved
  rintro _ _ rfl
  apply StageEnsures.bind (spec_synchronizeDirectory hsound hafter.synchronize)
  rintro _ _ rfl
  apply StageEnsures.bind (spec_synchronizeDirectory hsound hafter.synchronize)
  rintro _ _ rfl
  apply StageEnsures.bind (spec_openDirectoryAt hsound (hafter.openDirectory hentry)
    fun _ => hafter.namedIdentity hentry)
  rintro _ found ⟨rfl, hfound⟩
  have hsame : directory = found := Option.some.inj (hentry.symm.trans hfound)
  have hchecked : setting.Spec (fun after _ => after = retired (state, tally))
      (check thrown (decide (directory = found)) : ReceiptStage Unit)
      (retired (state, tally)) := by
    rw [decide_eq_true hsame]
    exact Setting.Spec.pure rfl
  apply StageEnsures.bind hchecked
  rintro _ _ rfl
  exact Setting.Spec.pure ⟨rfl, hsame.symm⟩

end Entries

/-! ## Phases -/

inductive Phase
  | idle
  | live (receipt : ReceiptPhase)
  | spent

def completions : ReceiptPhase → Nat
  | .complete _ => 1
  | _ => 0

/-- A live token has its files, and what has been counted is what has happened. -/
def InPhase (helperPath : HelperPath) (transactionToken : Bytes) : Phase → Tracked → Prop
  | .idle, tracked => tracked.1.active = none ∧ tracked.1.used = none ∧ tracked.2 = ⟨0, 0, 0⟩
  | .live receipt, tracked => tracked.1.used = none ∧ tracked.2 = ⟨1, completions receipt, 0⟩ ∧
      ∃ inode, tracked.1.active = some inode ∧
        PreparedTree helperPath transactionToken (tracked.1.tree inode) ∧
        receipt.Holds transactionToken (tracked.1.tree inode)
  | .spent, tracked => tracked.1.active = none ∧ tracked.1.used ≠ none ∧
      tracked.2.publications = 1 ∧ tracked.2.completions ≤ 1 ∧ tracked.2.retirements = 1

/-! ## Calls -/

inductive Call
  | prepare (requestedPackageNames : List Bytes)
  | record (needsTargetsInput : Except Errno Bytes)
  | consume
  | abort

/-- What a call runs; only `consume` has a text to return. -/
def Call.stage (helperPath : HelperPath) (transactionToken : Bytes) :
    Call → ReceiptStage (Option Bytes)
  | .prepare names => do
      Store.prepare helperPath transactionToken names
      Stage.pure none
  | .record input => do
      Store.record helperPath transactionToken input
      Stage.pure none
  | .consume => do
      let text ← Store.consume helperPath transactionToken
      Stage.pure (some text)
  | .abort => do
      Store.abort helperPath transactionToken
      Stage.pure none

/-- The names that a record was given. -/
def Recorded (needsTargetsInput : Except Errno Bytes) (packages : List Bytes) : Prop :=
  ∃ input, needsTargetsInput = Except.ok input ∧ parseNeedsTargets input = Except.ok packages

/-- The phases in which a call may stop, by the phase it finds. -/
inductive Leads : Call → Phase → Phase → Prop
  | stays (call : Call) (phase : Phase) : Leads call phase phase
  | published (names : List Bytes) : Leads (.prepare names) .idle (.live .unrecorded)
  | withdrawn (names : List Bytes) : Leads (.prepare names) .idle .spent
  | begun (input : Except Errno Bytes) :
      Leads (.record input) (.live .unrecorded) (.live .unfinished)
  | recorded {input : Except Errno Bytes} {packages : List Bytes} (h : Recorded input packages) :
      Leads (.record input) (.live .unrecorded) (.live (.complete packages))
  | consumed {receipt : ReceiptPhase} (h : receipt ≠ .unfinished) :
      Leads .consume (.live receipt) .spent
  | aborted (receipt : ReceiptPhase) : Leads .abort (.live receipt) .spent

/-- The receipt that belongs to a phase. -/
def deliveredReceipt (transactionToken : Bytes) : ReceiptPhase → Option MachineReceipt
  | .unrecorded => some ⟨.missing, transactionToken, []⟩
  | .unfinished => none
  | .complete packages => some ⟨.complete, transactionToken, packages⟩

/-- What a call has done when it succeeds. -/
inductive Delivers (transactionToken : Bytes) : Call → Phase → Phase → Option Bytes → Prop
  | prepared (names : List Bytes) :
      Delivers transactionToken (.prepare names) .idle (.live .unrecorded) none
  | recorded {input : Except Errno Bytes} {packages : List Bytes} (h : Recorded input packages) :
      Delivers transactionToken (.record input) (.live .unrecorded) (.live (.complete packages))
        none
  | consumed {phase : ReceiptPhase} {receipt : MachineReceipt} {text : Bytes}
      (hreceipt : deliveredReceipt transactionToken phase = some receipt)
      (htext : serializeMachineReceipt receipt = Except.ok text) :
      Delivers transactionToken .consume (.live phase) .spent (some text)
  | aborted (receipt : ReceiptPhase) :
      Delivers transactionToken .abort (.live receipt) .spent none

section OneCall

variable {helperPath : HelperPath} {transactionToken : Bytes}

/-- Where a call may stop. -/
def Stops (helperPath : HelperPath) (transactionToken : Bytes) (call : Call) (phase : Phase)
    (tracked : Tracked) : Prop :=
  ∃ reached, Leads call phase reached ∧ InPhase helperPath transactionToken reached tracked

variable {call : Call} {phase : Phase}

theorem stops_self (h : InPhase helperPath transactionToken phase tracked) :
    Stops helperPath transactionToken call phase tracked := ⟨phase, Leads.stays call phase, h⟩

/-- Exceptions that are caught. -/
theorem spec_catching {Caught : Tracked → Prop} {post : Tracked → Unit → Prop}
    {body : ReceiptStage Unit} {handler : Unit → ReceiptStage Unit}
    (hbody : (lenient Caught).Spec post body tracked)
    (hsafe : ∀ tracked, Caught tracked → Safe tracked)
    (hhandler : ∀ tracked, Caught tracked → (lenient Safe).Spec post (handler ()) tracked) :
    (lenient Safe).Spec post (catching body handler) tracked := by
  apply Ensures.bind _ (Ensures.mono_point (fun state _ h => hsafe state h) hbody)
  intro state result hresult
  cases result with
  | error failure => exact hhandler state hresult
  | ok value => exact hresult

/-- A token that is not active cannot be opened. -/
theorem spec_openTransaction_absent (hactive : state.active = none) (hsafe : Safe (state, tally)) :
    (lenient Safe).Spec (fun _ _ => False) (openTransaction thrown : ReceiptStage Nat)
      (state, tally) := by
  apply (spec_openDirectoryAt (knowsEffect_lenient Safe) (lenient_mayAsk hsafe nofun)
    fun _ => lenient_mayAsk hsafe nofun).mono
  intro _ opened hopened
  have hentry : state.active = some opened := hopened.2
  rw [hactive] at hentry
  cases hentry

theorem spec_openTransaction (hactive : state.active = some directory) (hsafe : Safe (state, tally))
    :
    (lenient Safe).Spec (fun after opened => after = (state, tally) ∧ opened = directory)
      (openTransaction thrown : ReceiptStage Nat) (state, tally) := by
  apply (spec_openDirectoryAt (knowsEffect_lenient Safe) (lenient_mayAsk hsafe nofun)
    fun _ => lenient_mayAsk hsafe nofun).mono
  intro after opened hopened
  have hentry : state.active = some opened := hopened.2
  rw [hactive] at hentry
  exact ⟨hopened.1, (Option.some.inj hentry).symm⟩

/-- A spent token is spent whatever is in its directory. -/
theorem inPhase_spent_writeTree (directory : Nat) (tree : ReceiptTree)
    (h : InPhase helperPath transactionToken .spent tracked) :
    InPhase helperPath transactionToken .spent (tracked.1.writeTree directory tree, tracked.2) := h

theorem inPhase_retired {receipt : ReceiptPhase}
    (h : InPhase helperPath transactionToken (.live receipt) (state, tally)) :
    InPhase helperPath transactionToken .spent (retired (state, tally)) := by
  obtain ⟨hused, htally, inode, hactive, -, -⟩ := h
  refine ⟨rfl, ?_, ?_, ?_, ?_⟩
  · show state.active ≠ none
    rw [hactive]
    exact Option.some_ne_none inode
  · show tally.publications = 1
    rw [show tally = _ from htally]
  · show tally.completions ≤ 1
    rw [show tally = _ from htally]
    cases receipt <;> simp [completions]
  · show tally.retirements + 1 = 1
    rw [show tally = _ from htally]

/-- Checks and documents, where every failure is safe. -/
theorem lenient_check {condition : Bool} (hsafe : Safe tracked) :
    (lenient Safe).Spec (fun after _ => after = tracked ∧ condition = true)
      (check thrown condition : ReceiptStage Unit) tracked :=
  StageEnsures.require fun _ => hsafe

theorem lenient_orRefuse {result : ReceiptResult α} (hsafe : Safe tracked) :
    (lenient Safe).Spec (fun after value => after = tracked ∧ result = Except.ok value)
      (orRefuse result : ReceiptStage α) tracked := by
  cases result with
  | error failure => exact hsafe
  | ok value => exact ⟨rfl, rfl⟩

/-! ### Retiring -/

/-- Everything may be asked once the token is spent. -/
def SpentAllows (helperPath : HelperPath) (transactionToken : Bytes) (setting : ReceiptSetting) :
    Prop :=
  ∀ state tally, InPhase helperPath transactionToken .spent (state, tally) →
    Allows setting (state, tally) ∧
      ∀ directory, AllReady (inside setting state directory) tally

theorem lenient_spentAllows
    (h : ∀ tracked, InPhase helperPath transactionToken .spent tracked → Safe tracked) :
    SpentAllows helperPath transactionToken (lenient Safe) := by
  intro state tally hspent
  refine ⟨lenient_allows (h _ hspent), ?_⟩
  intro directory
  exact lenient_all fun tree => h _ (inPhase_spent_writeTree directory tree hspent)

theorem strict_spentAllows : SpentAllows helperPath transactionToken strict :=
  fun state tally _ => ⟨strict_allows (state, tally), fun _ => strict_all⟩

variable {receipt : ReceiptPhase}

theorem spec_retireLive (hsound : KnowsEffect setting)
    (hlive : InPhase helperPath transactionToken (.live receipt) (state, tally))
    (hactive : state.active = some directory) (hallows : Allows setting (state, tally))
    (hspent : SpentAllows helperPath transactionToken setting) :
    setting.Spec (fun after found => after = retired (state, tally) ∧ found = directory)
      (retireTransaction thrown directory : ReceiptStage Nat) (state, tally) :=
  spec_retireTransaction hsound hactive hlive.1 hallows (hspent _ _ (inPhase_retired hlive)).1

theorem spec_cleanupRetired (hsound : KnowsEffect setting)
    (hlive : InPhase helperPath transactionToken (.live receipt) (state, tally))
    (hactive : state.active = some directory)
    (hspent : SpentAllows helperPath transactionToken setting) :
    setting.Spec (fun after _ => InPhase helperPath transactionToken .spent after)
      (below directory (cleanupRetiredTransaction receipt.hasReceipt receipt.hasPartialReceipt) :
        ReceiptStage Unit) (retired (state, tally)) := by
  have hretired := inPhase_retired hlive
  obtain ⟨-, -, inode, hinode, hprepared, hreceipt⟩ := hlive
  have hsame : inode = directory := Option.some.inj (hinode.symm.trans hactive)
  rw [hsame] at hprepared hreceipt
  apply spec_below hsound
  apply (spec_cleanupRetiredTransaction (sound_inside hsound)
    ((hspent _ _ hretired).2 directory) hprepared hreceipt).mono
  intro after _ hafter
  rw [hafter]
  exact inPhase_spent_writeTree directory after.1 hretired

/-- What a live token has in its directory. -/
theorem live_tree (hlive : InPhase helperPath transactionToken (.live receipt) (state, tally))
    (hactive : state.active = some directory) :
    PreparedTree helperPath transactionToken (state.tree directory) ∧
      receipt.Holds transactionToken (state.tree directory) := by
  obtain ⟨-, -, inode, hinode, hprepared, hreceipt⟩ := hlive
  have hsame : inode = directory := Option.some.inj (hinode.symm.trans hactive)
  rw [hsame] at hprepared hreceipt
  exact ⟨hprepared, hreceipt⟩

theorem live_token (h : InPhase helperPath transactionToken (.live receipt) (state, tally)) :
    isValidTrustedAlpmReceiptToken transactionToken = true := by
  obtain ⟨-, -, inode, -, hprepared, -⟩ := h
  obtain ⟨names, text, hwritten, -⟩ := hprepared.prepared
  exact (serializePreparedState_eq_ok_iff.mp hwritten).token

theorem spec_abort (hsound : KnowsEffect setting)
    (hlive : InPhase helperPath transactionToken (.live receipt) (state, tally))
    (hallows : Allows setting (state, tally))
    (hreads : ∀ directory, ReadReady (inside setting state directory) (state.tree directory, tally))
    (hspent : SpentAllows helperPath transactionToken setting) :
    setting.Spec (fun after _ => InPhase helperPath transactionToken .spent after)
      (abort helperPath transactionToken) (state, tally) := by
  obtain ⟨directory, hactive⟩ : ∃ directory, state.active = some directory :=
    hlive.2.2.imp fun _ h => h.1
  obtain ⟨hprepared, hreceipt⟩ := live_tree hlive hactive
  have htoken : setting.Spec (fun after _ => after = (state, tally))
      (check thrown (isValidTrustedAlpmReceiptToken transactionToken) : ReceiptStage Unit)
      (state, tally) := by
    rw [live_token hlive]
    exact Setting.Spec.pure rfl
  apply Setting.Spec.bind htoken
  rintro _ _ rfl
  have hentry : state.entry .active = some directory := hactive
  apply Setting.Spec.bind (spec_openDirectoryAt hsound (hallows.openDirectory hentry)
    fun _ => hallows.namedIdentity hentry)
  rintro _ opened ⟨rfl, hopened⟩
  rw [Option.some.inj (hopened.symm.trans hentry)]
  apply Setting.Spec.bind (spec_below_read hsound
    (spec_readAbortable (sound_inside hsound) (hreads directory) hprepared hreceipt))
  rintro _ _ ⟨rfl, rfl⟩
  apply Setting.Spec.bind (spec_requireNamedIdentity hsound (hallows.namedIdentity hentry) hentry)
  rintro _ _ rfl
  apply Setting.Spec.bind (spec_retireLive hsound hlive hactive hallows hspent)
  rintro _ found ⟨rfl, hfound⟩
  rw [hfound]
  exact spec_cleanupRetired hsound hlive hactive hspent

/-- An abort whose system calls succeed. -/
theorem spec_abort_strict
    (hlive : InPhase helperPath transactionToken (.live receipt) (state, tally)) :
    strict.Spec (fun after _ => InPhase helperPath transactionToken .spent after)
      (abort helperPath transactionToken) (state, tally) :=
  spec_abort knowsEffect_strict hlive (strict_allows _) (fun _ => strict_reads _) strict_spentAllows

theorem spec_consume (hlive : InPhase helperPath transactionToken (.live receipt) (state, tally))
    (hsafe : Safe (state, tally)) (hspent : receipt ≠ .unfinished → ∀ tracked,
      InPhase helperPath transactionToken .spent tracked → Safe tracked) :
    (lenient Safe).Spec (fun after text => InPhase helperPath transactionToken .spent after ∧
        ∃ delivered, deliveredReceipt transactionToken receipt = some delivered ∧
          serializeMachineReceipt delivered = Except.ok text)
      (consume helperPath transactionToken) (state, tally) := by
  have hsound : KnowsEffect (lenient Safe) := knowsEffect_lenient Safe
  obtain ⟨directory, hactive⟩ : ∃ directory, state.active = some directory :=
    hlive.2.2.imp fun _ h => h.1
  obtain ⟨hprepared, hreceipt⟩ := live_tree hlive hactive
  have hreads : ReadReady (inside (lenient Safe) state directory)
      (state.tree directory, tally) := lenient_reads (by rw [writeTree_self]; exact hsafe)
  apply Setting.Spec.bind (lenient_check hsafe)
  rintro _ _ ⟨rfl, -⟩
  have hentry : state.entry .active = some directory := hactive
  apply Setting.Spec.bind (spec_openTransaction hactive hsafe)
  rintro _ opened ⟨rfl, hopened⟩
  rw [hopened]
  apply Setting.Spec.bind (spec_below_read hsound
    (spec_readConsumable (sound_inside hsound) hreads hprepared hreceipt ?unfinished))
  case unfinished =>
    intro _
    show Safe (state.writeTree directory (state.tree directory), tally)
    rw [writeTree_self]
    exact hsafe
  rintro _ ⟨hasReceipt, found⟩ ⟨rfl, hflag, hfound⟩
  have hfinished : receipt ≠ .unfinished := by
    rcases hfound with ⟨hphase, -⟩ | ⟨packages, hphase, -⟩ <;> rw [hphase] <;> nofun
  have hno : receipt.hasPartialReceipt = false := by
    cases receipt with
    | unfinished => exact absurd rfl hfinished
    | unrecorded => rfl
    | complete packages => rfl
  have hdelivered : deliveredReceipt transactionToken receipt = some found := by
    rcases hfound with ⟨hphase, hvalue⟩ | ⟨packages, hphase, hvalue⟩ <;>
      dsimp only at hvalue <;> rw [hphase, hvalue] <;> rfl
  dsimp only at hflag
  dsimp only
  rw [hflag, ← hno]
  have hallows := lenient_spentAllows (hspent hfinished)
  apply Setting.Spec.bind (spec_requireNamedIdentity hsound (lenient_mayAsk hsafe nofun) hentry)
  rintro _ _ rfl
  apply Setting.Spec.bind (spec_retireLive hsound hlive hactive (lenient_allows hsafe) hallows)
  rintro _ moved ⟨rfl, hmoved⟩
  rw [hmoved]
  apply Setting.Spec.bind (spec_cleanupRetired hsound hlive hactive hallows)
  intro after _ hafter
  apply (lenient_orRefuse (hspent hfinished after hafter)).mono
  rintro _ text ⟨rfl, htext⟩
  exact ⟨hafter, found, hdelivered, htext⟩

/-! ### Recording -/

/-- A record that has begun to write. -/
theorem inPhase_unfinished (bytes : Bytes)
    (hlive : InPhase helperPath transactionToken (.live .unrecorded) (state, tally))
    (hactive : state.active = some directory) :
    InPhase helperPath transactionToken (.live .unfinished) (state.writeTree directory
        (Function.update (state.tree directory) .partialReceipt (some bytes)), tally) := by
  obtain ⟨hprepared, hreceipt⟩ := live_tree hlive hactive
  obtain ⟨names, text, hwritten, hstored⟩ := hprepared.prepared
  refine ⟨hlive.1, hlive.2.1, directory, hactive, ?_, ?_⟩
  · dsimp only
    rw [writeTree_tree]
    exact ⟨⟨names, text, hwritten, by simpa using hstored⟩, by simpa using hprepared.hooks,
      by simpa using hprepared.hook⟩
  · dsimp only
    rw [writeTree_tree]
    exact ⟨by simpa using hreceipt.1, by simp⟩

/-- A record whose rename has succeeded. -/
theorem inPhase_complete
    (hlive : InPhase helperPath transactionToken (.live .unfinished) (state, tally))
    (hactive : state.active = some directory)
    (htext : serializeMachineReceipt ⟨.complete, transactionToken, packages⟩ = Except.ok text) :
    InPhase helperPath transactionToken (.live (.complete packages))
      (state.writeTree directory (completedTree (state.tree directory) text),
        { tally with completions := tally.completions + 1 }) := by
  obtain ⟨hprepared, hreceipt⟩ := live_tree hlive hactive
  obtain ⟨names, prepared, hwritten, hstored⟩ := hprepared.prepared
  have htally : tally = ⟨1, 0, 0⟩ := hlive.2.1
  refine ⟨hlive.1, ?_, directory, hactive, ?_, ?_⟩
  · rw [htally]
    rfl
  · dsimp only
    rw [writeTree_tree]
    exact ⟨⟨names, prepared, hwritten, by simpa [completedTree] using hstored⟩,
      by simpa [completedTree] using hprepared.hooks,
      by simpa [completedTree] using hprepared.hook⟩
  · dsimp only
    rw [writeTree_tree]
    exact ⟨by simp [completedTree], text, by simp [completedTree], htext⟩

theorem spec_writePartial
    (hlive : InPhase helperPath transactionToken (.live .unrecorded) (state, tally))
    (hactive : state.active = some directory) (hsafe : Safe (state, tally))
    (hunfinished : ∀ tracked, InPhase helperPath transactionToken (.live .unfinished) tracked →
      Safe tracked) :
    (lenient Safe).Spec (fun after _ => after = (state.writeTree directory
        (Function.update (state.tree directory) .partialReceipt (some text)), tally))
      (below directory (writePartialReceipt text) : ReceiptStage Unit) (state, tally) := by
  have hsound : KnowsEffect (lenient Safe) := knowsEffect_lenient Safe
  have hbegun : ∀ bytes, Safe (state.writeTree directory
      (Function.update (state.tree directory) .partialReceipt (some bytes)), tally) :=
    fun bytes => hunfinished _ (inPhase_unfinished bytes hlive hactive)
  have hself : Safe (state.writeTree directory (state.tree directory), tally) := by
    rw [writeTree_self]
    exact hsafe
  apply spec_below hsound
  apply (spec_writePartialReceipt (sound_inside hsound) ⟨hself, ?create⟩ ⟨hbegun [], ?write⟩
    (lenient_reads (hbegun text))).mono
  · intro last _ hlast
    rw [hlast]
  case create =>
    intro errno after heffect
    obtain ⟨hfile, htally⟩ := sound_inside hsound heffect
    have hcount : after.2 = tally := htally
    show Safe (state.writeTree directory after.1, after.2)
    rw [hcount]
    rcases hfile with ⟨-, htree⟩ | ⟨-, htree⟩
    · rw [htree]
      exact hbegun []
    · rw [htree]
      exact hself
  case write =>
    intro errno after heffect
    obtain ⟨hfile, htally⟩ := sound_inside hsound heffect
    have hcount : after.2 = tally := htally
    show Safe (state.writeTree directory after.1, after.2)
    rw [hcount]
    rcases hfile with ⟨hok, -⟩ | ⟨-, htree | ⟨old, part, -, -, htree⟩⟩
    · cases hok
    · rw [htree]
      exact hbegun []
    · rw [htree, Function.update_idem]
      exact hbegun (old ++ part)

theorem spec_complete
    (hlive : InPhase helperPath transactionToken (.live .unfinished) (state, tally))
    (hactive : state.active = some directory)
    (hstored : state.tree directory .partialReceipt = some text)
    (htext : serializeMachineReceipt ⟨.complete, transactionToken, packages⟩ = Except.ok text)
    (hsafe : Safe (state, tally))
    (hcomplete : ∀ tracked, InPhase helperPath transactionToken (.live (.complete packages))
      tracked → Safe tracked) :
    (lenient Safe).Spec
      (fun after _ => InPhase helperPath transactionToken (.live (.complete packages)) after)
      (below directory completeReceipt : ReceiptStage Unit) (state, tally) := by
  have hsound : KnowsEffect (lenient Safe) := knowsEffect_lenient Safe
  have hphase := inPhase_complete hlive hactive htext
  have hself : Safe (state.writeTree directory (state.tree directory), tally) := by
    rw [writeTree_self]
    exact hsafe
  apply spec_below hsound
  apply (spec_completeReceipt (sound_inside hsound) (live_tree hlive hactive).1 hstored
    ⟨hself, ?rename⟩ (lenient_reads (hcomplete _ hphase))).mono
  · intro last _ hlast
    rw [hlast]
    exact hphase
  case rename =>
    intro errno after heffect
    obtain ⟨hfile, htally⟩ := sound_inside hsound heffect
    have hcount : after.2 = tally := htally
    show Safe (state.writeTree directory after.1, after.2)
    rw [hcount]
    rcases hfile with ⟨hok, -⟩ | ⟨-, htree⟩
    · cases hok
    · rw [htree]
      exact hself

theorem spec_record {input : Except Errno Bytes}
    (hlive : InPhase helperPath transactionToken (.live receipt) (state, tally))
    (hsafe : Safe (state, tally)) (hbegun : receipt = .unrecorded → ∀ tracked,
      InPhase helperPath transactionToken (.live .unfinished) tracked → Safe tracked)
    (hcomplete : receipt = .unrecorded → ∀ packages, Recorded input packages → ∀ tracked,
      InPhase helperPath transactionToken (.live (.complete packages)) tracked → Safe tracked) :
    (lenient Safe).Spec
      (fun after _ => receipt = .unrecorded ∧ ∃ packages, Recorded input packages ∧
        InPhase helperPath transactionToken (.live (.complete packages)) after)
      (record helperPath transactionToken input) (state, tally) := by
  have hsound : KnowsEffect (lenient Safe) := knowsEffect_lenient Safe
  obtain ⟨directory, hactive⟩ : ∃ directory, state.active = some directory :=
    hlive.2.2.imp fun _ h => h.1
  obtain ⟨hprepared, hreceipt⟩ := live_tree hlive hactive
  have hself : Safe (state.writeTree directory (state.tree directory), tally) := by
    rw [writeTree_self]
    exact hsafe
  apply Setting.Spec.bind (lenient_check hsafe)
  rintro _ _ ⟨rfl, -⟩
  apply Setting.Spec.bind (spec_openTransaction hactive hsafe)
  rintro _ opened ⟨rfl, hopened⟩
  rw [hopened]
  apply Setting.Spec.bind (spec_below_read hsound (spec_validateRecordable (sound_inside hsound)
    (lenient_reads hself) hprepared hreceipt fun _ => hself))
  rintro _ _ ⟨rfl, hunrecorded⟩
  rw [hunrecorded] at hlive
  cases input with
  | error errno => exact hsafe
  | ok bytes =>
    apply Setting.Spec.bind (lenient_check hsafe)
    rintro _ _ ⟨rfl, -⟩
    apply Setting.Spec.bind (lenient_orRefuse hsafe)
    rintro _ packages ⟨rfl, hpackages⟩
    have hrecorded : Recorded (Except.ok bytes) packages := ⟨bytes, rfl, hpackages⟩
    apply Setting.Spec.bind (lenient_orRefuse hsafe)
    rintro _ text ⟨rfl, htext⟩
    apply Setting.Spec.bind (spec_writePartial hlive hactive hsafe (hbegun hunrecorded))
    rintro _ _ rfl
    have hunfinished := inPhase_unfinished text hlive hactive
    have hsafe' := hbegun hunrecorded _ hunfinished
    apply Setting.Spec.bind (spec_requireNamedIdentity hsound (lenient_mayAsk hsafe' nofun)
      (show TransactionState.entry _ .active = some directory from hactive))
    rintro _ _ rfl
    apply (spec_complete hunfinished hactive ?stored htext hsafe'
      (hcomplete hunrecorded packages hrecorded)).mono
    · intro after _ hafter
      exact ⟨hunrecorded, packages, hrecorded, hafter⟩
    case stored =>
      rw [writeTree_tree]
      exact Function.update_self ..

/-! ### Preparing -/

/-- An idle token is idle whatever is staged. -/
theorem inPhase_idle_of_same {state' : ReceiptState}
    (h : InPhase helperPath transactionToken .idle (state, tally))
    (hactive : state'.active = state.active) (hused : state'.used = state.used) :
    InPhase helperPath transactionToken .idle (state', tally) :=
  ⟨hactive.trans h.1, hused.trans h.2.1, h.2.2⟩

theorem spec_makeStaging (hsafe : Safe (state, tally)) :
    (lenient Safe).Spec (fun after _ => after = (state.makeStaging emptyTree, tally))
      (makeStaging thrown : ReceiptStage Unit) (state, tally) := by
  have hask : MayAsk (lenient Safe) (state, tally) .makeStaging := lenient_mayAsk hsafe nofun
  refine StageEnsures.bind (StageEnsures.query hask.point fun _ _ heffect => heffect) ?_
  intro after answer heffect
  cases answer with
  | error errno => exact hask.left _ after heffect nofun
  | ok value =>
    obtain ⟨hstate, htally⟩ := heffect
    rcases hstate with ⟨-, -, hstate⟩ | ⟨⟨errno, herror⟩, -⟩
    · exact StageEnsures.pure (Prod.ext hstate htally)
    · cases herror

/-- The rename that publishes: the files are there and the token is live. -/
theorem spec_publish (hidle : InPhase helperPath transactionToken .idle (state, tally))
    (hstaging : state.staging = some directory)
    (htext : serializePreparedState ⟨transactionToken, names⟩ = Except.ok text)
    (htree : state.tree directory = preparedTree helperPath transactionToken text)
    (hsafe : Safe (state, tally)) :
    (lenient Safe).Spec
      (fun after _ => InPhase helperPath transactionToken (.live .unrecorded) after)
      (publishTransaction thrown : ReceiptStage Unit) (state, tally) := by
  have hask : MayAsk (lenient Safe) (state, tally) .publish := lenient_mayAsk hsafe nofun
  refine StageEnsures.bind (StageEnsures.query hask.point fun _ _ heffect => heffect) ?_
  intro after answer heffect
  cases answer with
  | error errno => exact hask.left _ after heffect nofun
  | ok value =>
    obtain ⟨hstate, htally⟩ := heffect
    rcases hstate with ⟨-, -, -, hstate⟩ | ⟨⟨errno, herror⟩, -⟩
    · have hcount : tally = ⟨0, 0, 0⟩ := hidle.2.2
      dsimp only at hstate htally
      rw [hcount] at htally
      apply StageEnsures.pure
      refine ⟨?_, htally, directory, ?_, ?_, ?_⟩
      · rw [hstate]
        exact hidle.2.1
      · rw [hstate]
        exact hstaging
      · rw [hstate]
        show PreparedTree helperPath transactionToken (state.tree directory)
        rw [htree]
        exact preparedTree_prepared htext
      · rw [hstate]
        show ReceiptPhase.Holds transactionToken .unrecorded (state.tree directory)
        rw [htree]
        exact ⟨rfl, rfl⟩
    · cases herror

theorem spec_writeStaged (hidle : InPhase helperPath transactionToken .idle (state, tally))
    (htree : state.tree directory = emptyTree) (text : Bytes) :
    (lenient (InPhase helperPath transactionToken .idle)).Spec (fun after _ => after =
        (state.writeTree directory (preparedTree helperPath transactionToken text), tally))
      (below directory (writePreparedFiles helperPath transactionToken text) :
        ReceiptStage Unit) (state, tally) := by
  have hsound : KnowsEffect (lenient (InPhase helperPath transactionToken .idle)) :=
    knowsEffect_lenient _
  have hall : AllReady (inside (lenient (InPhase helperPath transactionToken .idle)) state
      directory) tally := lenient_all fun _ => inPhase_idle_of_same hidle rfl rfl
  apply spec_below hsound
  rw [htree]
  apply (spec_writePreparedFiles (sound_inside hsound) hall text).mono
  intro last _ hlast
  rw [hlast]

/-- The staging directory is filled and published; until then the token is
idle. -/
theorem spec_fillStaging (hidle : InPhase helperPath transactionToken .idle (state, tally))
    (htext : serializePreparedState ⟨transactionToken, names⟩ = Except.ok text) :
    (lenient (InPhase helperPath transactionToken .idle)).Spec
      (fun after _ => InPhase helperPath transactionToken (.live .unrecorded) after)
      (fillStaging helperPath transactionToken text) (state.makeStaging emptyTree, tally) := by
  have hmade : InPhase helperPath transactionToken .idle (state.makeStaging emptyTree, tally) :=
    inPhase_idle_of_same hidle rfl rfl
  have hentry : (state.makeStaging emptyTree).entry .staging = some state.next := rfl
  apply Setting.Spec.bind (spec_openDirectoryAt (knowsEffect_lenient _)
    (lenient_mayAsk hmade nofun) fun _ => lenient_mayAsk hmade nofun)
  rintro _ opened ⟨rfl, hopened⟩
  rw [← Option.some.inj (hentry.symm.trans hopened)]
  apply Setting.Spec.bind (spec_writeStaged hmade (Function.update_self ..) text)
  rintro _ _ rfl
  have hwritten := inPhase_idle_of_same hmade rfl rfl
  exact spec_publish hwritten hentry htext (writeTree_tree _ _ _) hwritten

/-- Calls whose failure is ignored. -/
theorem spec_unlinkIgnoring (hsafe : ∀ tree, Safe (state.writeTree directory tree, tally))
    (operation : FileOperation ReceiptName) (hquiet : IsQuiet operation)
    {before : ReceiptTree × Tally} (hbefore : before.2 = tally) :
    (inside (lenient Safe) state directory).Spec (fun after _ => after.2 = tally)
      (unlinkIgnoring operation) before := by
  have hpoint : Safe (state.writeTree directory before.1, before.2) := by
    rw [hbefore]
    exact hsafe before.1
  refine StageEnsures.bind (StageEnsures.query hpoint fun _ _ heffect => heffect) ?_
  intro after answer heffect
  obtain ⟨-, htally⟩ := sound_inside (knowsEffect_lenient Safe) heffect
  rw [hbefore] at htally
  exact StageEnsures.pure (htally.trans (fileTally_quiet hquiet answer tally))

theorem spec_cleanupPreparingFiles (hsafe : ∀ tree, Safe (state.writeTree directory tree, tally))
    (tree : ReceiptTree) :
    (inside (lenient Safe) state directory).Spec (fun after _ => after.2 = tally)
      cleanupPreparingFiles (tree, tally) := by
  have hrest : ∀ before : ReceiptTree × Tally, before.2 = tally →
      (inside (lenient Safe) state directory).Spec (fun after _ => after.2 = tally) (do
          unlinkIgnoring (.removeDirectory .hooks)
          unlinkIgnoring (.unlink .prepared)) before := by
    intro before hbefore
    apply Setting.Spec.bind (spec_unlinkIgnoring hsafe (.removeDirectory .hooks) nofun hbefore)
    intro after _ hafter
    exact spec_unlinkIgnoring hsafe (.unlink .prepared) nofun hafter
  refine StageEnsures.bind (StageEnsures.query (hsafe tree) fun _ _ heffect => heffect) ?_
  intro after answer heffect
  obtain ⟨-, htally⟩ := sound_inside (knowsEffect_lenient Safe) heffect
  cases answer with
  | error errno => exact hrest after htally
  | ok value =>
    show (inside (lenient Safe) state directory).Spec _ (do
      unlinkIgnoring (.unlink .hook)
      unlinkIgnoring (.removeDirectory .hooks)
      unlinkIgnoring (.unlink .prepared)) after
    apply Setting.Spec.bind (spec_unlinkIgnoring hsafe (.unlink .hook) nofun htally)
    intro after _ hafter
    exact hrest after hafter

theorem spec_cleanupPreparingDirectory
    (hsafe : ∀ tracked, InPhase helperPath transactionToken .idle tracked → Safe tracked)
    (hidle : InPhase helperPath transactionToken .idle tracked) :
    (lenient Safe).Spec (fun after _ => InPhase helperPath transactionToken .idle after)
      cleanupPreparingDirectory tracked := by
  refine StageEnsures.bind (StageEnsures.query (hsafe _ hidle) fun _ _ heffect => heffect) ?_
  intro after answer heffect
  have hopened : InPhase helperPath transactionToken .idle after := by
    rw [show after = tracked from Prod.ext heffect.1.1 heffect.2]
    exact hidle
  obtain ⟨state, tally⟩ := after
  cases answer with
  | error errno => exact StageEnsures.pure hopened
  | ok staging =>
    have hinside : ∀ tree, Safe (state.writeTree staging tree, tally) :=
      fun tree => hsafe _ (inPhase_idle_of_same hopened rfl rfl)
    have hcleaned : (lenient Safe).Spec
        (fun after _ => InPhase helperPath transactionToken .idle after)
        (below staging cleanupPreparingFiles : ReceiptStage Unit) (state, tally) := by
      apply spec_below (knowsEffect_lenient Safe)
      apply (spec_cleanupPreparingFiles hinside _).mono
      intro last _ hlast
      rw [hlast]
      exact inPhase_idle_of_same hopened rfl rfl
    apply StageEnsures.bind hcleaned
    intro after _ hafter
    refine StageEnsures.bind (StageEnsures.query (hsafe _ hafter) fun _ _ heffect => heffect) ?_
    intro last answer heffect
    have hlast : InPhase helperPath transactionToken .idle last := by
      obtain ⟨hstate, htally⟩ := heffect
      have hcount : last.2 = after.2 := htally
      rcases hstate with ⟨-, -, hstate⟩ | ⟨-, hstate⟩
      · refine ⟨?_, ?_, hcount.trans hafter.2.2⟩
        · rw [hstate]
          exact hafter.1
        · rw [hstate]
          exact hafter.2.1
      · rw [show last = after from Prod.ext hstate hcount]
        exact hafter
    cases answer with
    | error errno => exact StageEnsures.pure hlast
    | ok value => exact StageEnsures.pure hlast

theorem spec_retirePublished
    (hlive : InPhase helperPath transactionToken (.live .unrecorded) (state, tally))
    (hsafe : Safe (state, tally))
    (hspent : ∀ tracked, InPhase helperPath transactionToken .spent tracked → Safe tracked) :
    (lenient Safe).Spec (fun after _ => InPhase helperPath transactionToken .spent after)
      (retirePublished helperPath transactionToken) (state, tally) := by
  have hsound : KnowsEffect (lenient Safe) := knowsEffect_lenient Safe
  have hallows := lenient_spentAllows hspent
  obtain ⟨directory, hactive⟩ : ∃ directory, state.active = some directory :=
    hlive.2.2.imp fun _ h => h.1
  obtain ⟨hprepared, -⟩ := live_tree hlive hactive
  have hreads : ReadReady (inside (lenient Safe) state directory)
      (state.tree directory, tally) := lenient_reads (by rw [writeTree_self]; exact hsafe)
  apply Setting.Spec.bind (spec_openTransaction hactive hsafe)
  rintro _ opened ⟨rfl, hopened⟩
  rw [hopened]
  have hvalidated : (lenient Safe).Spec (fun after _ => after = (state, tally) ∧ True)
      (below directory (validatePreparedState helperPath transactionToken) :
        ReceiptStage ReceiptPreparedState) (state, tally) := by
    apply spec_below_read hsound
    apply (spec_validatePreparedState (sound_inside hsound) hreads hprepared).mono
    intro last _ hlast
    exact ⟨hlast, trivial⟩
  apply Setting.Spec.bind hvalidated
  rintro _ _ ⟨rfl, -⟩
  apply Setting.Spec.bind (spec_retireLive hsound hlive hactive (lenient_allows hsafe) hallows)
  rintro _ moved ⟨rfl, hmoved⟩
  rw [hmoved]
  have hcleaned := spec_cleanupRetired hsound hlive hactive hallows
  simp only [ReceiptPhase.hasReceipt, ReceiptPhase.hasPartialReceipt] at hcleaned
  exact hcleaned

theorem spec_prepare (hidle : InPhase helperPath transactionToken .idle (state, tally))
    (hsafe : ∀ phase ∈ [Phase.idle, .live .unrecorded, .spent], ∀ tracked,
      InPhase helperPath transactionToken phase tracked → Safe tracked) :
    (lenient Safe).Spec
      (fun after _ => InPhase helperPath transactionToken (.live .unrecorded) after)
      (prepare helperPath transactionToken names) (state, tally) := by
  have hsound : KnowsEffect (lenient Safe) := knowsEffect_lenient Safe
  have hsafeIdle := hsafe .idle (by simp)
  have hsafeLive := hsafe (.live .unrecorded) (by simp)
  have hsafeSpent := hsafe .spent (by simp)
  have hstart := hsafeIdle _ hidle
  have habsent : ∀ place, (lenient Safe).Spec
      (fun after _ => after = (state, tally) ∧ state.entry place = none)
      (requireEntryAbsent thrown place : ReceiptStage Unit) (state, tally) := fun place =>
    spec_requireEntryAbsent hsound (lenient_mayAsk hstart nofun) fun _ => hstart
  apply Setting.Spec.bind (lenient_check hstart)
  rintro _ _ ⟨rfl, -⟩
  apply Setting.Spec.bind (lenient_orRefuse hstart)
  rintro _ text ⟨rfl, htext⟩
  apply Setting.Spec.bind (habsent .used)
  rintro _ _ ⟨rfl, -⟩
  apply Setting.Spec.bind (habsent .active)
  rintro _ _ ⟨rfl, -⟩
  apply Setting.Spec.bind (habsent .staging)
  rintro _ _ ⟨rfl, -⟩
  apply Setting.Spec.bind (spec_makeStaging hstart)
  rintro _ _ rfl
  apply Setting.Spec.bind (spec_catching (spec_fillStaging hidle htext) hsafeIdle ?unpublished)
  case unpublished =>
    intro tracked hcaught
    apply Setting.Spec.bind (spec_cleanupPreparingDirectory hsafeIdle hcaught)
    intro after _ hafter
    exact StageEnsures.leave (hsafeIdle after hafter)
  intro published _ hpublished
  obtain ⟨state, tally⟩ := published
  have hsynchronized : (lenient (InPhase helperPath transactionToken (.live .unrecorded))).Spec
      (fun after _ => InPhase helperPath transactionToken (.live .unrecorded) after)
      (synchronizeDirectory thrown .active : ReceiptStage Unit) (state, tally) := by
    apply (spec_synchronizeDirectory (knowsEffect_lenient _) (lenient_mayAsk hpublished nofun)).mono
    intro after _ hafter
    rw [hafter]
    exact hpublished
  apply spec_catching hsynchronized hsafeLive
  rintro ⟨state, tally⟩ hcaught
  have hwithdrawn : (lenient Safe).Spec
      (fun after _ => InPhase helperPath transactionToken .spent after)
      (catching (retirePublished helperPath transactionToken) fun _ => Stage.leave ())
      (state, tally) :=
    spec_catching (spec_retirePublished hcaught (hsafeLive _ hcaught) hsafeSpent)
      (fun _ h => h) fun _ h => StageEnsures.leave h
  apply Setting.Spec.bind hwithdrawn
  intro after _ hafter
  exact StageEnsures.leave (hsafeSpent after hafter)

/-! ### Every call -/

/-- A token that is not live is not opened. -/
theorem spec_notLive (hactive : state.active = none) (hsafe : Safe (state, tally))
    {next : Nat → ReceiptStage α} :
    (lenient Safe).Spec (fun _ _ => False) (do
        check thrown (isValidTrustedAlpmReceiptToken transactionToken)
        let transaction ← openTransaction thrown
        next transaction) (state, tally) := by
  apply Setting.Spec.bind (lenient_check hsafe)
  rintro _ _ ⟨rfl, -⟩
  apply Setting.Spec.bind (spec_openTransaction_absent hactive hsafe)
  intro _ _ hfalse
  exact hfalse.elim

/-- A token that has an entry is not prepared. -/
theorem spec_prepare_present (hsafe : Safe (state, tally))
    (hpresent : state.used ≠ none ∨ state.active ≠ none) :
    (lenient Safe).Spec (fun _ _ => False) (prepare helperPath transactionToken names)
      (state, tally) := by
  have habsent : ∀ place, (lenient Safe).Spec
      (fun after _ => after = (state, tally) ∧ state.entry place = none)
      (requireEntryAbsent thrown place : ReceiptStage Unit) (state, tally) := fun place =>
    spec_requireEntryAbsent (knowsEffect_lenient Safe) (lenient_mayAsk hsafe nofun) fun _ => hsafe
  apply Setting.Spec.bind (lenient_check hsafe)
  rintro _ _ ⟨rfl, -⟩
  apply Setting.Spec.bind (lenient_orRefuse hsafe)
  rintro _ text ⟨rfl, -⟩
  apply Setting.Spec.bind (habsent .used)
  rintro _ _ ⟨rfl, hused⟩
  apply Setting.Spec.bind (habsent .active)
  rintro _ _ ⟨rfl, hactive⟩
  rcases hpresent with hne | hne
  · exact absurd hused hne
  · exact absurd hactive hne

/-- A call whose result is dropped or wrapped. -/
theorem spec_result {stage : ReceiptStage α} {result : α → Option Bytes}
    (h : setting.Spec post stage tracked) :
    setting.Spec (fun after value => ∃ found, post after found ∧ value = result found) (do
        let found ← stage
        Stage.pure (result found)) tracked := by
  apply Setting.Spec.bind h
  intro after found hfound
  exact Setting.Spec.pure ⟨found, hfound, rfl⟩

/-- Where a call may stop, and what it has done when it succeeds. -/
theorem spec_call_phase (hphase : InPhase helperPath transactionToken phase (state, tally)) :
    (lenient (Stops helperPath transactionToken call phase)).Spec
      (fun after value => ∃ reached, Delivers transactionToken call phase reached value ∧
        InPhase helperPath transactionToken reached after)
      (call.stage helperPath transactionToken) (state, tally) := by
  have hstays : Stops helperPath transactionToken call phase (state, tally) := stops_self hphase
  have hinactive : (∀ receipt, phase ≠ .live receipt) → state.active = none := by
    intro hne
    cases phase with
    | idle => exact hphase.1
    | live receipt => exact absurd rfl (hne receipt)
    | spent => exact hphase.1
  cases call with
  | prepare names =>
    cases phase with
    | idle =>
      apply (spec_result (spec_prepare hphase _)).mono
      · rintro after _ ⟨_, hafter, rfl⟩
        exact ⟨_, Delivers.prepared names, hafter⟩
      · intro reached hreached tracked hin
        refine ⟨reached, ?_, hin⟩
        simp only [List.mem_cons, List.not_mem_nil, or_false] at hreached
        rcases hreached with rfl | rfl | rfl
        · exact Leads.stays _ _
        · exact Leads.published names
        · exact Leads.withdrawn names
    | live receipt =>
      apply (spec_result (spec_prepare_present hstays (Or.inr _))).mono
      · rintro _ _ ⟨_, hfalse, -⟩
        exact hfalse.elim
      · obtain ⟨-, -, inode, hactive, -, -⟩ := hphase
        dsimp only at hactive
        rw [hactive]
        exact Option.some_ne_none inode
    | spent =>
      apply (spec_result (spec_prepare_present hstays (Or.inl hphase.2.1))).mono
      rintro _ _ ⟨_, hfalse, -⟩
      exact hfalse.elim
  | record input =>
    cases phase with
    | live receipt =>
      apply (spec_result (spec_record hphase hstays _ _)).mono
      · rintro after _ ⟨_, ⟨rfl, packages, hrecorded, hafter⟩, rfl⟩
        exact ⟨_, Delivers.recorded hrecorded, hafter⟩
      · rintro rfl tracked hin
        exact ⟨_, Leads.begun input, hin⟩
      · rintro rfl packages hrecorded tracked hin
        exact ⟨_, Leads.recorded hrecorded, hin⟩
    | _ =>
      apply (spec_result (spec_notLive (hinactive nofun) hstays)).mono
      rintro _ _ ⟨_, hfalse, -⟩
      exact hfalse.elim
  | consume =>
    cases phase with
    | live receipt =>
      apply (spec_result (spec_consume hphase hstays _)).mono
      · rintro after _ ⟨text, ⟨hafter, delivered, hdelivered, htext⟩, rfl⟩
        exact ⟨_, Delivers.consumed hdelivered htext, hafter⟩
      · intro hfinished tracked hin
        exact ⟨_, Leads.consumed hfinished, hin⟩
    | _ =>
      apply (spec_result (spec_notLive (hinactive nofun) hstays)).mono
      rintro _ _ ⟨_, hfalse, -⟩
      exact hfalse.elim
  | abort =>
    cases phase with
    | live receipt =>
      apply (spec_result (spec_abort (knowsEffect_lenient _) hphase (lenient_allows hstays) _
        (lenient_spentAllows _))).mono
      · rintro after _ ⟨_, hafter, rfl⟩
        exact ⟨_, Delivers.aborted receipt, hafter⟩
      · intro directory
        apply lenient_reads
        rw [writeTree_self]
        exact hstays
      · intro tracked hin
        exact ⟨_, Leads.aborted receipt, hin⟩
    | _ =>
      apply (spec_result (spec_notLive (hinactive nofun) hstays)).mono
      rintro _ _ ⟨_, hfalse, -⟩
      exact hfalse.elim

end OneCall

end Moguet.Receipt.Calls
