import Moguet.Receipt.Calls

/-!
# The life of a transaction

Calls of the receipt store run one after the other on any tokens; each may be cut
off or fail at any of its system calls. The phase of a token sums up what the
calls so far have left behind, and one call moves it forward.
-/

namespace Moguet.Receipt.Lifecycle

open Verified.ByteString Verified.Dialogue Verified.Processes Protocol Transaction Store StoreSpec
open Calls

variable {phase reached : Phase} {state : ReceiptState}

variable {value : Option Bytes} {tally : Tally} {receipt : ReceiptPhase} {call : Call}

/-! ## Histories -/

/-- A call with what it did; without an outcome it was cut off. -/
structure Invocation where
  transactionToken : Bytes
  call : Call
  events : List (Program.Event ReceiptRequest ReceiptAnswer)
  outcome : Option (Except Unit (Option Bytes))

abbrev ReceiptStore : Type := Bytes → ReceiptState

/-- Calls one after the other, from a store that knows no token. -/
inductive History (helperPath : HelperPath) : List Invocation → ReceiptStore → Prop
  | start : History helperPath [] fun _ => freshState
  | call {invocations : List Invocation} {store : ReceiptStore} {invocation : Invocation}
      {last : ReceiptState} (h : History helperPath invocations store)
      (hperforms : Performs receiptEffect (store invocation.transactionToken)
        (invocation.call.stage helperPath invocation.transactionToken) invocation.events
        invocation.outcome last) :
      History helperPath (invocations ++ [invocation])
        (Function.update store invocation.transactionToken last)

def zeroTally : Tally := ⟨0, 0, 0⟩

/-- What the calls on a token have published, completed and retired. -/
def tallyOf (transactionToken : Bytes) (invocations : List Invocation) : Tally :=
  (invocations.filter fun invocation => invocation.transactionToken = transactionToken).foldl
    (fun tally invocation => countEvents storeTally tally invocation.events) zeroTally

/-- The receipts that a call completed. -/
def Invocation.completions (invocation : Invocation) : Nat :=
  (countEvents storeTally zeroTally invocation.events).completions

/-- A record that completed, with the names it was given. -/
def Completed (transactionToken : Bytes) (invocation : Invocation) (packages : List Bytes) : Prop :=
  invocation.transactionToken = transactionToken ∧ invocation.completions ≠ 0 ∧
    ∃ input, invocation.call = .record input ∧ Recorded input packages

def CompletedRecord (transactionToken : Bytes) (invocations : List Invocation)
    (packages : List Bytes) : Prop :=
  ∃ invocation ∈ invocations, Completed transactionToken invocation packages

/-! ## Counting over a history -/

section Counting

variable {transactionToken : Bytes} {invocations : List Invocation} {invocation : Invocation}

theorem tallyOf_concat_same (h : invocation.transactionToken = transactionToken) :
    tallyOf transactionToken (invocations ++ [invocation]) =
      countEvents storeTally (tallyOf transactionToken invocations) invocation.events := by
  have hone : [invocation].filter
      (fun invocation => invocation.transactionToken = transactionToken) = [invocation] :=
    List.filter_cons_of_pos (decide_eq_true h)
  unfold tallyOf
  rw [List.filter_append, List.foldl_append, hone]
  rfl

theorem tallyOf_concat_other (h : invocation.transactionToken ≠ transactionToken) :
    tallyOf transactionToken (invocations ++ [invocation]) =
      tallyOf transactionToken invocations := by
  unfold tallyOf
  rw [List.filter_append, List.filter_cons_of_neg (by simpa using h), List.filter_nil,
    List.append_nil]

theorem fileTally_completions (request : ReceiptTreeRequest) (answer : ReceiptTreeAnswer request)
    (tally : Tally) :
    (fileTally request answer tally).completions =
      tally.completions + (fileTally request answer zeroTally).completions := by
  cases request with
  | extra operation => exact operation.elim
  | file operation =>
    by_cases hquiet : IsQuiet operation
    · rw [show fileTally (.file operation) answer tally = tally from
          fileTally_quiet hquiet answer tally,
        show fileTally (.file operation) answer zeroTally = zeroTally from
          fileTally_quiet hquiet answer zeroTally]
      rfl
    · have hrename : operation = .rename .partialReceipt .receipt := not_not.mp hquiet
      subst hrename
      cases answer with
      | error errno => rfl
      | ok value => rfl

theorem storeTally_completions (request : ReceiptRequest) (answer : ReceiptAnswer request)
    (tally : Tally) :
    (storeTally request answer tally).completions =
      tally.completions + (storeTally request answer zeroTally).completions := by
  cases request with
  | publish =>
    cases answer with
    | error errno => rfl
    | ok value => rfl
  | retire =>
    cases answer with
    | error errno => rfl
    | ok value => rfl
  | below directory request => exact fileTally_completions request answer tally
  | _ => rfl

theorem countEvents_completions (events : List (Program.Event ReceiptRequest ReceiptAnswer)) :
    ∀ tally : Tally, (countEvents storeTally tally events).completions =
      tally.completions + (countEvents storeTally zeroTally events).completions := by
  induction events with
  | nil =>
    intro tally
    rfl
  | cons event rest ih =>
    intro tally
    have hstep := storeTally_completions event.request event.answer tally
    show (countEvents storeTally (storeTally event.request event.answer tally) rest).completions =
      tally.completions + (countEvents storeTally
        (storeTally event.request event.answer zeroTally) rest).completions
    rw [ih, ih (storeTally event.request event.answer zeroTally), hstep]
    omega

theorem completions_concat (h : invocation.transactionToken = transactionToken) :
    (tallyOf transactionToken (invocations ++ [invocation])).completions =
      (tallyOf transactionToken invocations).completions + invocation.completions := by
  rw [tallyOf_concat_same h]
  exact countEvents_completions _ _

theorem completedRecord_concat {packages : List Bytes} :
    CompletedRecord transactionToken (invocations ++ [invocation]) packages ↔
      CompletedRecord transactionToken invocations packages ∨
        Completed transactionToken invocation packages := by
  unfold CompletedRecord
  simp only [List.mem_append, List.mem_singleton, or_and_right, exists_or, exists_eq_left]

end Counting

/-! ## What is remembered -/

section Remembered

variable {helperPath : HelperPath} {transactionToken : Bytes}

/-- While a token is not spent, its receipt is that of the record that completed. -/
def Remembers (transactionToken : Bytes) (invocations : List Invocation) : Phase → Prop
  | .idle => ∀ packages, ¬ CompletedRecord transactionToken invocations packages
  | .live receipt => ∀ packages, CompletedRecord transactionToken invocations packages ↔
      receipt = .complete packages
  | .spent => True

theorem recorded_unique {input : Except Errno Bytes} {first second : List Bytes}
    (hfirst : Recorded input first) (hsecond : Recorded input second) : first = second := by
  obtain ⟨bytes, rfl, hfirst⟩ := hfirst
  obtain ⟨bytes', heq, hsecond⟩ := hsecond
  rw [← Except.ok.inj heq, hfirst] at hsecond
  exact Except.ok.inj hsecond

variable {invocations : List Invocation} {invocation : Invocation} {phase reached : Phase}
  {state : ReceiptState}

/-- A call that completed nothing changes nothing about the records. -/
theorem remembers_of_no_completion (h : Remembers transactionToken invocations phase)
    (hzero : phase ≠ .spent → invocation.completions = 0) :
    Remembers transactionToken (invocations ++ [invocation]) phase := by
  have hsame : phase ≠ .spent → ∀ packages,
      (CompletedRecord transactionToken (invocations ++ [invocation]) packages ↔
        CompletedRecord transactionToken invocations packages) := by
    intro hne packages
    rw [completedRecord_concat]
    exact or_iff_left fun hcompleted => hcompleted.2.1 (hzero hne)
  cases phase with
  | idle =>
    intro packages
    rw [hsame nofun]
    exact h packages
  | live receipt =>
    intro packages
    rw [hsame nofun]
    exact h packages
  | spent => trivial

/-- How many receipts a phase has seen completed, as long as it is known. -/
theorem inPhase_completions (h : InPhase helperPath transactionToken (.live receipt) (state, tally))
    : tally.completions = completions receipt := by
  rw [show tally = _ from h.2.1]

theorem remembers_call (hname : invocation.transactionToken = transactionToken)
    (hleads : Leads invocation.call phase reached) {before : ReceiptState}
    (hbefore : InPhase helperPath transactionToken phase
      (before, tallyOf transactionToken invocations))
    (hafter : InPhase helperPath transactionToken reached
      (state, tallyOf transactionToken (invocations ++ [invocation])))
    (h : Remembers transactionToken invocations phase) :
    Remembers transactionToken (invocations ++ [invocation]) reached := by
  have hcount : (tallyOf transactionToken (invocations ++ [invocation])).completions =
      (tallyOf transactionToken invocations).completions + invocation.completions :=
    completions_concat hname
  generalize hcall : invocation.call = call at hleads
  cases hleads with
  | stays call phase =>
    apply remembers_of_no_completion h
    intro hne
    cases phase with
    | idle =>
      have hnone : tallyOf transactionToken invocations = zeroTally := hbefore.2.2
      have hstill : tallyOf transactionToken (invocations ++ [invocation]) = zeroTally :=
        hafter.2.2
      rw [hnone, hstill] at hcount
      omega
    | live receipt =>
      rw [inPhase_completions hbefore, inPhase_completions hafter] at hcount
      omega
    | spent => exact absurd rfl hne
  | published names =>
    intro packages
    rw [completedRecord_concat]
    constructor
    · rintro (hearlier | ⟨-, -, input, hrecord, -⟩)
      · exact absurd hearlier (h packages)
      · rw [hcall] at hrecord
        cases hrecord
    · intro hphase
      cases hphase
  | withdrawn names => trivial
  | begun input =>
    rw [inPhase_completions hbefore, inPhase_completions hafter] at hcount
    have hzero : invocation.completions = 0 := by
      simpa [completions] using hcount.symm
    intro packages
    rw [completedRecord_concat, h packages]
    constructor
    · rintro (hearlier | hcompleted)
      · cases hearlier
      · exact absurd hzero hcompleted.2.1
    · intro hphase
      cases hphase
  | @recorded input packages hrecorded =>
    rw [inPhase_completions hbefore, inPhase_completions hafter] at hcount
    have hone : invocation.completions ≠ 0 := by
      simp only [completions] at hcount
      omega
    intro other
    rw [completedRecord_concat, h other]
    constructor
    · rintro (hearlier | ⟨-, -, input', hrecord, hother⟩)
      · cases hearlier
      · rw [hcall] at hrecord
        injection hrecord with hinput
        rw [← hinput] at hother
        rw [recorded_unique hrecorded hother]
    · intro hother
      injection hother with hother
      rw [← hother]
      exact Or.inr ⟨hname, hone, input, hcall, hrecorded⟩
  | consumed hfinished => trivial
  | aborted receipt => trivial

/-- A token between two calls. -/
def Standing (helperPath : HelperPath) (invocations : List Invocation) (store : ReceiptStore)
    (transactionToken : Bytes) (phase : Phase) : Prop :=
  InPhase helperPath transactionToken phase
    (store transactionToken, tallyOf transactionToken invocations) ∧
    Remembers transactionToken invocations phase

variable {store : ReceiptStore} {last : ReceiptState}

theorem delivers_leads (h : Delivers transactionToken call phase reached value) :
    Leads call phase reached := by
  cases h with
  | prepared names => exact Leads.published names
  | recorded hrecorded => exact Leads.recorded hrecorded
  | aborted receipt => exact Leads.aborted receipt
  | consumed hreceipt _ =>
    apply Leads.consumed
    rintro rfl
    cases hreceipt

/-- What one call does to its token, and what it has done when it succeeds. -/
theorem standing_call (h : Standing helperPath invocations store invocation.transactionToken phase)
    (hperforms : Performs receiptEffect (store invocation.transactionToken)
      (invocation.call.stage helperPath invocation.transactionToken) invocation.events
      invocation.outcome last) :
    (∃ reached, Standing helperPath (invocations ++ [invocation])
      (Function.update store invocation.transactionToken last) invocation.transactionToken
        reached) ∧
    ∀ value, invocation.outcome = some (Except.ok value) → ∃ reached,
      Delivers invocation.transactionToken invocation.call phase reached value ∧
        Standing helperPath (invocations ++ [invocation])
          (Function.update store invocation.transactionToken last) invocation.transactionToken
          reached := by
  have hstands : ∀ reached, Leads invocation.call phase reached →
      InPhase helperPath invocation.transactionToken reached
        (last, countEvents storeTally (tallyOf invocation.transactionToken invocations)
          invocation.events) →
      Standing helperPath (invocations ++ [invocation])
        (Function.update store invocation.transactionToken last) invocation.transactionToken
        reached := by
    intro reached hleads hin
    rw [← tallyOf_concat_same rfl] at hin
    refine ⟨?_, remembers_call rfl hleads h.1 hin h.2⟩
    rw [Function.update_self]
    exact hin
  obtain ⟨hfinished, hreached⟩ := (hperforms.counted
    (tallyOf invocation.transactionToken invocations)).ensures (spec_call_phase h.1)
  constructor
  · rcases hreached with ⟨-, reached, hleads, hin⟩ | ⟨result, hresult⟩
    · exact ⟨reached, hstands reached hleads hin⟩
    · cases result with
      | error failure =>
        obtain ⟨reached, hleads, hin⟩ := hresult
        exact ⟨reached, hstands reached hleads hin⟩
      | ok value =>
        obtain ⟨reached, hdelivers, hin⟩ := hresult
        exact ⟨reached, hstands reached (delivers_leads hdelivers) hin⟩
  · intro value houtcome
    obtain ⟨reached, hdelivers, hin⟩ := hfinished _ houtcome
    exact ⟨reached, hdelivers, hstands reached (delivers_leads hdelivers) hin⟩

/-- A call on another token. -/
theorem standing_other (hne : invocation.transactionToken ≠ transactionToken)
    (h : Standing helperPath invocations store transactionToken phase) :
    Standing helperPath (invocations ++ [invocation])
      (Function.update store invocation.transactionToken last) transactionToken phase := by
  have hsame : ∀ packages, CompletedRecord transactionToken (invocations ++ [invocation]) packages ↔
      CompletedRecord transactionToken invocations packages := by
    intro packages
    rw [completedRecord_concat]
    exact or_iff_left fun hcompleted => hne hcompleted.1
  refine ⟨?_, ?_⟩
  · rw [Function.update_of_ne (Ne.symm hne), tallyOf_concat_other hne]
    exact h.1
  · cases phase with
    | idle =>
      intro packages
      rw [hsame]
      exact h.2 packages
    | live receipt =>
      intro packages
      rw [hsame]
      exact h.2 packages
    | spent => trivial

theorem standing_history (h : History helperPath invocations store) (transactionToken : Bytes) :
    ∃ phase, Standing helperPath invocations store transactionToken phase := by
  induction h with
  | start =>
    refine ⟨.idle, ⟨rfl, rfl, rfl⟩, ?_⟩
    rintro packages ⟨invocation, hmem, -⟩
    cases hmem
  | @call invocations store invocation last h hperforms ih =>
    obtain ⟨phase, hstanding⟩ := ih
    by_cases hname : invocation.transactionToken = transactionToken
    · subst hname
      exact (standing_call hstanding hperforms).1
    · exact ⟨phase, standing_other hname hstanding⟩

/-- The store before a call of a history. -/
theorem history_before {earlier later : List Invocation} :
    ∀ {store : ReceiptStore}, History helperPath (earlier ++ invocation :: later) store →
      ∃ before last, History helperPath earlier before ∧
        Performs receiptEffect (before invocation.transactionToken)
          (invocation.call.stage helperPath invocation.transactionToken) invocation.events
          invocation.outcome last := by
  induction later using List.reverseRecOn with
  | nil =>
    intro store h
    generalize hall : earlier ++ [invocation] = all at h
    cases h with
    | start => simp at hall
    | call h hperforms =>
      obtain ⟨hinit, hlast⟩ := List.append_inj' hall rfl
      injection hlast with hlast
      subst hinit hlast
      exact ⟨_, _, h, hperforms⟩
  | append_singleton later final ih =>
    intro store h
    generalize hall : earlier ++ invocation :: (later ++ [final]) = all at h
    cases h with
    | start => simp at hall
    | call h hperforms =>
      rw [← List.cons_append, ← List.append_assoc] at hall
      obtain ⟨hinit, -⟩ := List.append_inj' hall rfl
      subst hinit
      exact ih h

end Remembered

/-! ## The life cycle -/

/-- A token is published, completed and retired at most once each. -/
def AtMostOnce (tally : Tally) : Prop :=
  tally.publications ≤ 1 ∧ tally.completions ≤ 1 ∧ tally.retirements ≤ 1

/-- What `consume` has delivered: the text that its caller reads has the names of
the one record that completed, or says that none has. -/
def DeliversRecorded (transactionToken : Bytes) (earlier : List Invocation)
    (value : Option Bytes) : Prop :=
  ∃ receipt text, value = some text ∧ parseMachineReceipt text = Except.ok receipt ∧
    receipt.transactionToken = transactionToken ∧
    match receipt.state with
    | .complete => (tallyOf transactionToken earlier).completions = 1 ∧
        ∀ packages, CompletedRecord transactionToken earlier packages ↔
          packages = receipt.installedPackageNames
    | .missing => (tallyOf transactionToken earlier).completions = 0

/-- An abort whose system calls succeed ends, and retires the token. -/
def AbortRetires (helperPath : HelperPath) (transactionToken : Bytes) (state : ReceiptState) :
    Prop :=
  (∃ events result last, Performs orderlyEffect state (abort helperPath transactionToken) events
    (some result) last) ∧
  ∀ events result last, Performs orderlyEffect state (abort helperPath transactionToken) events
    (some result) last → result = Except.ok () ∧ last.active = none ∧ last.used ≠ none

section Lifecycle

variable {helperPath : HelperPath} {transactionToken : Bytes} {invocations : List Invocation}
  {store : ReceiptStore}

theorem atMostOnce_of_inPhase (h : InPhase helperPath transactionToken phase (state, tally)) :
    AtMostOnce tally := by
  cases phase with
  | idle =>
    rw [show tally = _ from h.2.2]
    exact ⟨Nat.zero_le 1, Nat.zero_le 1, Nat.zero_le 1⟩
  | live receipt =>
    rw [show tally = _ from h.2.1]
    refine ⟨Nat.le_refl 1, ?_, Nat.zero_le 1⟩
    cases receipt <;> simp [completions]
  | spent =>
    obtain ⟨-, -, hpublications, hcompletions, hretirements⟩ := h
    exact ⟨Nat.le_of_eq hpublications, hcompletions, Nat.le_of_eq hretirements⟩

/-- Only a token that is not spent answers a call. -/
theorem retirements_of_delivers (hdelivers : Delivers transactionToken call phase reached value)
    (h : InPhase helperPath transactionToken phase (state, tally)) : tally.retirements = 0 := by
  cases hdelivers with
  | prepared names => rw [show tally = _ from h.2.2]
  | recorded hrecorded => rw [show tally = _ from h.2.1]
  | consumed hreceipt htext => rw [show tally = _ from h.2.1]
  | aborted receipt => rw [show tally = _ from h.2.1]

theorem deliversRecorded_of_delivers
    (hdelivers : Delivers transactionToken .consume phase reached value)
    (h : Standing helperPath invocations store transactionToken phase) :
    DeliversRecorded transactionToken invocations value := by
  cases hdelivers with
  | @consumed receiptPhase receipt text hreceipt htext =>
    have hparsed : parseMachineReceipt text = Except.ok receipt :=
      parseMachineReceipt_eq_ok_iff.mpr (serializeMachineReceipt_eq_ok_iff.mp htext)
    have hcompletions := inPhase_completions h.1
    cases receiptPhase with
    | unrecorded =>
      have hmissing := Option.some.inj hreceipt
      subst hmissing
      exact ⟨_, text, rfl, hparsed, rfl, hcompletions⟩
    | unfinished => cases hreceipt
    | complete packages =>
      have hcomplete := Option.some.inj hreceipt
      subst hcomplete
      refine ⟨_, text, rfl, hparsed, rfl, hcompletions, ?_⟩
      intro other
      refine (h.2 other).trans ?_
      constructor
      · intro hother
        injection hother with hother
        exact hother.symm
      · rintro rfl
        rfl

theorem abortRetires_of_live
    (h : InPhase helperPath transactionToken (.live receipt) (state, tally)) :
    AbortRetires helperPath transactionToken state := by
  have hspec := spec_abort_strict h
  constructor
  · obtain ⟨events, result, last, hperforms⟩ := hspec.performs
    exact ⟨events, result, last.1, hperforms.uncounted⟩
  · intro events result last hperforms
    have hresult := ((hperforms.counted tally).ensures hspec).1 result rfl
    cases result with
    | error failure => exact hresult.elim
    | ok value => exact ⟨rfl, hresult.1, hresult.2.1⟩

/-- Every token is published, completed and retired at most once; no call on it
succeeds once it is retired; what is consumed is what was recorded; and an active
token can always be aborted. -/
theorem receipt_lifecycle (h : History helperPath invocations store) (transactionToken : Bytes) :
    AtMostOnce (tallyOf transactionToken invocations) ∧
    (∀ earlier invocation later value, invocations = earlier ++ invocation :: later →
      invocation.transactionToken = transactionToken →
      invocation.outcome = some (Except.ok value) →
        (tallyOf transactionToken earlier).retirements = 0 ∧
        (invocation.call = .consume → DeliversRecorded transactionToken earlier value) ∧
        ∀ input, invocation.call = .record input →
          ∃ packages, Completed transactionToken invocation packages) ∧
    ((store transactionToken).active ≠ none →
      AbortRetires helperPath transactionToken (store transactionToken)) := by
  obtain ⟨phase, hphase, -⟩ := standing_history h transactionToken
  refine ⟨atMostOnce_of_inPhase hphase, ?_, ?_⟩
  · rintro earlier invocation later value rfl rfl houtcome
    obtain ⟨before, last, hearlier, hperforms⟩ := history_before h
    obtain ⟨found, hstanding⟩ := standing_history hearlier invocation.transactionToken
    obtain ⟨reached, hdelivers, hreached⟩ :=
      (standing_call hstanding hperforms).2 value houtcome
    refine ⟨retirements_of_delivers hdelivers hstanding.1, ?_, ?_⟩
    · intro hconsume
      rw [hconsume] at hdelivers
      exact deliversRecorded_of_delivers hdelivers hstanding
    · intro input hrecord
      have hcount : (tallyOf invocation.transactionToken (earlier ++ [invocation])).completions =
          (tallyOf invocation.transactionToken earlier).completions + invocation.completions :=
        completions_concat rfl
      rw [hrecord] at hdelivers
      cases hdelivers with
      | @recorded _ packages hrecorded =>
        rw [inPhase_completions hstanding.1, inPhase_completions hreached.1] at hcount
        refine ⟨packages, rfl, ?_, input, hrecord, hrecorded⟩
        simp only [completions] at hcount
        omega
  · intro hactive
    cases phase with
    | idle => exact absurd hphase.1 hactive
    | live receipt => exact abortRetires_of_live hphase
    | spent => exact absurd hphase.1 hactive

end Lifecycle

/-! ## Calls answered by a machine -/

section Sample

def sampleHelper : HelperPath :=
  ⟨ascii "/usr/lib/moguet/moguet-alpm-receipt-helper", installedHelper_short⟩

def sampleToken : Bytes := List.replicate 64 (byte '0')

/-- A call on the sample token, in a store without failures. -/
def machineInvocation (store : ReceiptStore) (call : Call) : Invocation :=
  let run := perform receiptMachine (call.stage sampleHelper sampleToken) (store sampleToken)
  ⟨sampleToken, call, run.1, some run.2.1⟩

def machineCall (before : List Invocation × ReceiptStore) (call : Call) :
    List Invocation × ReceiptStore :=
  (before.1 ++ [machineInvocation before.2 call], Function.update before.2 sampleToken
    (perform receiptMachine (call.stage sampleHelper sampleToken) (before.2 sampleToken)).2.2)

def machineCalls (calls : List Call) : List Invocation × ReceiptStore :=
  calls.foldl machineCall ([], fun _ => freshState)

theorem machineCalls_concat (calls : List Call) (call : Call) :
    machineCalls (calls ++ [call]) = machineCall (machineCalls calls) call := by
  unfold machineCalls
  rw [List.foldl_append]
  rfl

theorem history_machineCalls (calls : List Call) :
    History sampleHelper (machineCalls calls).1 (machineCalls calls).2 := by
  induction calls using List.reverseRecOn with
  | nil => exact History.start
  | append_singleton calls call ih =>
    rw [machineCalls_concat]
    exact History.call ih (performs_perform receiptMachine_effect _ _)

def preparedAndRecorded : List Call :=
  [.prepare [ascii "mesa"], .record (Except.ok (ascii "mesa\n"))]

/-- The consume that comes next. -/
def consumed : Invocation := machineInvocation (machineCalls preparedAndRecorded).2 .consume

def deliveredText (invocation : Invocation) : Option Bytes :=
  match invocation.outcome with
  | some (.ok (some text)) => some text
  | _ => none

theorem outcome_of_deliveredText {invocation : Invocation} {text : Bytes}
    (h : deliveredText invocation = some text) :
    invocation.outcome = some (Except.ok (some text)) := by
  unfold deliveredText at h
  split at h
  · rename_i found hfound
    rw [hfound, Option.some.inj h]
  · cases h

/-- What was recorded is delivered, and it could have been aborted before. -/
theorem receipt_lifecycle_recorded :
    AtMostOnce (tallyOf sampleToken (machineCalls (preparedAndRecorded ++ [.consume])).1) ∧
      (∃ text, deliveredText consumed = some text ∧
        DeliversRecorded sampleToken (machineCalls preparedAndRecorded).1 (some text)) ∧
      AbortRetires sampleHelper sampleToken ((machineCalls preparedAndRecorded).2 sampleToken) := by
  obtain ⟨text, htext⟩ := Option.isSome_iff_exists.mp
    (show (deliveredText consumed).isSome = true by decide +kernel)
  have hconsumed : (machineCalls (preparedAndRecorded ++ [.consume])).1 =
      (machineCalls preparedAndRecorded).1 ++ [consumed] := by
    rw [machineCalls_concat]
    rfl
  have hrecorded := receipt_lifecycle (history_machineCalls preparedAndRecorded) sampleToken
  have hactive : ((machineCalls preparedAndRecorded).2 sampleToken).active = some 0 := by
    decide +kernel
  have hafter := receipt_lifecycle
    (history_machineCalls (preparedAndRecorded ++ [.consume])) sampleToken
  refine ⟨hafter.1, ⟨text, htext, ?_⟩, hrecorded.2.2 ?_⟩
  · exact (hafter.2.1 _ consumed [] (some text) hconsumed rfl
      (outcome_of_deliveredText htext)).2.1 rfl
  · rw [hactive]
    exact Option.some_ne_none 0

end Sample

end Moguet.Receipt.Lifecycle
