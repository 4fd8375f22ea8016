import Moguet.Receipt.Store

/-!
# What the steps of the receipt store do

One lemma for each helper function of the receipt store, against an arbitrary
setting. Two settings are used later: one in which every call may fail or be the
last, and one in which every call succeeds and has to be able to.

Three kinds of calls are counted along the way: the rename that publishes a
token, the one that completes a receipt, and the one that retires the token.
-/

namespace Moguet.Receipt.StoreSpec

open Verified.ByteString Verified.Dialogue Verified.Processes Install.Request Protocol Transaction
open Store

variable {operation : FileOperation ReceiptName} {name : ReceiptName}

variable {listed : Option ReceiptName} {bytes old text : Bytes} {expected : List ReceiptName}

/-! ## Counting -/

structure Tally where
  publications : Nat
  completions : Nat
  retirements : Nat

abbrev ReceiptTree : Type := FileTree ReceiptName

variable {tree : ReceiptTree}

abbrev ReceiptTreeRequest : Type := TreeRequest ReceiptName Empty

abbrev ReceiptTreeAnswer : ReceiptTreeRequest → Type := TreeAnswer Empty.elim

/-- A receipt is complete when its rename has succeeded. -/
def fileTally : (request : ReceiptTreeRequest) → ReceiptTreeAnswer request → Tally → Tally
  | .file (.rename .partialReceipt .receipt), answer, tally =>
    match (answer : Except Errno Unit) with
    | .ok _ => { tally with completions := tally.completions + 1 }
    | .error _ => tally
  | _, _, tally => tally

def storeTally : (request : ReceiptRequest) → ReceiptAnswer request → Tally → Tally
  | .publish, answer, tally =>
    match (answer : Except Errno Unit) with
    | .ok _ => { tally with publications := tally.publications + 1 }
    | .error _ => tally
  | .retire, answer, tally =>
    match (answer : Except Errno Unit) with
    | .ok _ => { tally with retirements := tally.retirements + 1 }
    | .error _ => tally
  | .below _ request, answer, tally => fileTally request answer tally
  | _, _, tally => tally

/-! ## Calls below a directory -/

abbrev FileSetting : Type :=
  Setting (ReceiptTree × Tally) ReceiptTreeRequest ReceiptTreeAnswer

/-- The setting knows the effect of the calls. -/
def Sound (setting : FileSetting) : Prop :=
  ∀ {state : ReceiptTree × Tally} {request : ReceiptTreeRequest}
    {answer : ReceiptTreeAnswer request} {after : ReceiptTree × Tally},
    setting.effect state request answer after →
      counted receiptTreeEffect fileTally state request answer after

/-- A call may be asked here, and may fail. -/
structure Ready (setting : FileSetting) (state : ReceiptTree × Tally)
    (operation : FileOperation ReceiptName) : Prop where
  point : setting.point state (.file operation)
  left : ∀ errno after, setting.effect state (.file operation) (Except.error errno) after →
    setting.left after

/-- A call that can succeed. -/
def Able (tree : ReceiptTree) (operation : FileOperation ReceiptName) : Prop :=
  ∃ value after, fileEffect ReceiptName.parent tree operation (Except.ok value) after

/-- Calls that change nothing. -/
def IsRead : FileOperation ReceiptName → Prop
  | .entryExists _ => True
  | .synchronize _ => True
  | .openDirectory _ => True
  | .openFile _ => True
  | .readFile _ => True
  | .listEntries _ => True
  | _ => False

/-- Calls that are not counted. -/
def IsQuiet (operation : FileOperation ReceiptName) : Prop :=
  operation ≠ .rename .partialReceipt .receipt

/-- Everything that can be read here may be read. -/
def ReadReady (setting : FileSetting) (state : ReceiptTree × Tally) : Prop :=
  ∀ operation, Able state.1 operation → IsRead operation → Ready setting state operation

/-- Whatever is in the directory, every call that is not counted may be made. -/
def AllReady (setting : FileSetting) (tally : Tally) : Prop :=
  ∀ tree operation, Able tree operation → IsQuiet operation →
    Ready setting (tree, tally) operation

theorem isQuiet_of_isRead (h : IsRead operation) : IsQuiet operation := by
  intro hrename
  rw [hrename] at h
  exact h

theorem AllReady.reads {setting : FileSetting} {tally : Tally} (h : AllReady setting tally)
    (tree : ReceiptTree) : ReadReady setting (tree, tally) :=
  fun operation hable hread => h tree operation hable (isQuiet_of_isRead hread)

theorem fileTally_quiet (h : IsQuiet operation) (answer : FileAnswer operation) (tally : Tally) :
    fileTally (.file operation) answer tally = tally := by
  cases operation with
  | rename old new =>
    cases old <;> cases new <;> first | rfl | exact absurd rfl h
  | _ => rfl

section Calls

variable {setting : FileSetting} {state : ReceiptTree × Tally}
  {operation : FileOperation ReceiptName} {name : ReceiptName}

theorem spec_check (condition : Bool) (hleft : condition = false → setting.left state) :
    setting.Spec (fun after _ => after = state ∧ condition = true) (check thrown condition)
      state :=
  StageEnsures.require hleft

/-- A check that is known to pass. -/
theorem spec_passes {condition : Bool} (h : condition = true) :
    setting.Spec (fun after _ => after = state) (check thrown condition) state := by
  rw [h]
  exact Setting.Spec.pure rfl

theorem spec_orRefuse {β : Type} {result : ReceiptResult β} {value : β}
    (h : result = Except.ok value) :
    setting.Spec (fun after found => after = state ∧ found = value) (orRefuse result) state := by
  rw [h]
  exact Setting.Spec.pure ⟨rfl, rfl⟩

/-- Any call, when it succeeds. -/
theorem spec_call (hsound : Sound setting) (hready : Ready setting state operation) :
    setting.Spec (fun after value =>
        fileEffect ReceiptName.parent state.1 operation (Except.ok value) after.1 ∧
        after.2 = fileTally (.file operation) (Except.ok value) state.2)
      (do
        let answer ← Stage.query () (TreeRequest.file operation)
        orThrow thrown answer : ReceiptTreeStage (FileValue operation)) state := by
  refine StageEnsures.bind (StageEnsures.query hready.point fun _ _ heffect => heffect) ?_
  intro after answer heffect
  cases answer with
  | error errno => exact hready.left errno after heffect
  | ok value => exact hsound heffect

/-- A call that changes nothing. -/
theorem spec_read (hsound : Sound setting) (hready : ReadReady setting state)
    (hable : Able state.1 operation) (hread : IsRead operation) :
    setting.Spec (fun after value => after = state ∧
        fileEffect ReceiptName.parent state.1 operation (Except.ok value) state.1)
      (do
        let answer ← Stage.query () (TreeRequest.file operation)
        orThrow thrown answer : ReceiptTreeStage (FileValue operation)) state := by
  apply (spec_call hsound (hready operation hable hread)).mono
  intro after value heffect
  have htally := heffect.2
  rw [fileTally_quiet (isQuiet_of_isRead hread)] at htally
  have htree : after.1 = state.1 := by
    cases operation with
    | entryExists name => exact heffect.1.1
    | synchronize name => exact heffect.1
    | openDirectory name => exact heffect.1.1
    | openFile name => exact heffect.1.1
    | readFile name => exact heffect.1.1
    | listEntries listed => exact heffect.1.1
    | _ => exact absurd hread id
  refine ⟨Prod.ext htree htally, ?_⟩
  rw [← htree]
  nth_rewrite 1 [htree]
  exact heffect.1

/-! ### What can succeed -/

theorem able_entryExists (tree : ReceiptTree) : Able tree (.entryExists name) := by
  refine ⟨(tree name).isSome, tree, rfl, ?_⟩
  intro present hpresent
  injection hpresent with hpresent
  exact hpresent.symm

theorem able_synchronize : Able tree (.synchronize listed) := ⟨(), tree, rfl⟩

theorem able_openDirectory (h : tree name ≠ none) : Able tree (.openDirectory name) := ⟨(), tree, rfl, fun _ => h⟩

theorem able_openFile (h : tree name ≠ none) : Able tree (.openFile name) := ⟨(), tree, rfl, fun _ => h⟩

theorem able_readFile (h : tree name = some bytes) : Able tree (.readFile name) := by
  refine ⟨bytes, tree, rfl, ?_⟩
  intro read hread
  injection hread with hread
  rw [h, hread]

theorem able_listEntries : Able tree (.listEntries listed) := by
  refine ⟨receiptNames.filter fun name => name.parent = listed && (tree name).isSome, tree,
    rfl, ?_⟩
  intro entries hentries name
  injection hentries with hentries
  rw [← hentries, List.mem_filter]
  simp [mem_receiptNames, Option.isSome_iff_ne_none]

theorem able_createFile (h : tree name = none) : Able tree (.createFile name) := ⟨(), _, Or.inl ⟨h, rfl⟩⟩

theorem able_writeFile (h : tree name = some old) : Able tree (.writeFile name bytes) := ⟨(), _, Or.inl ⟨rfl, old, h, rfl⟩⟩

theorem able_makeDirectory (h : tree name = none) : Able tree (.makeDirectory name) := ⟨(), _, Or.inl ⟨rfl, h, rfl⟩⟩

theorem able_unlink (h : tree name ≠ none) : Able tree (.unlink name) :=
  ⟨(), _, Or.inl ⟨rfl, h, rfl⟩⟩

theorem able_removeDirectory (h : tree name ≠ none)
    (hempty : ∀ below, below.parent = some name → tree below = none) :
    Able tree (.removeDirectory name) := ⟨(), _, Or.inl ⟨rfl, h, hempty, rfl⟩⟩

/-! ### The helper functions -/

theorem spec_openPrivateFile (hsound : Sound setting) (hready : ReadReady setting state)
    (h : state.1 name ≠ none) :
    setting.Spec (fun after _ => after = state) (openPrivateFile thrown name) state :=
  (spec_read hsound hready (able_openFile h) trivial).mono fun _ _ h => h.1

theorem spec_openDirectoryInside (hsound : Sound setting) (hready : ReadReady setting state)
    (h : state.1 name ≠ none) :
    setting.Spec (fun after _ => after = state) (openDirectoryInside thrown name) state :=
  (spec_read hsound hready (able_openDirectory h) trivial).mono fun _ _ h => h.1

theorem spec_synchronizeFile (hsound : Sound setting) (hready : ReadReady setting state)
    (listed : Option ReceiptName) :
    setting.Spec (fun after _ => after = state) (synchronizeFile thrown listed) state :=
  (spec_read hsound hready able_synchronize trivial).mono fun _ _ h => h.1

theorem spec_entryExists (hsound : Sound setting) (hready : ReadReady setting state)
    (name : ReceiptName) :
    setting.Spec (fun after present => after = state ∧ present = (state.1 name).isSome)
      (entryExists thrown name) state := by
  apply (spec_read hsound hready (able_entryExists state.1) trivial).mono
  intro after present h
  exact ⟨h.1, h.2.2 present rfl⟩

theorem spec_readBounded (hsound : Sound setting) (hready : ReadReady setting state)
    {maximumBytes : Nat} (h : state.1 name = some bytes) (hsize : bytes.length ≤ maximumBytes) :
    setting.Spec (fun after read => after = state ∧ read = bytes)
      (readBounded thrown name maximumBytes) state := by
  apply Setting.Spec.bind (spec_call hsound (hready _ (able_readFile h) trivial))
  intro after read hread
  have hsame : after = state := Prod.ext hread.1.1 hread.2
  have hbytes : read = bytes := by
    have hcontents := hread.1.2 read rfl
    rw [h] at hcontents
    exact (Option.some.inj hcontents).symm
  rw [hsame, hbytes]
  apply Setting.Spec.bind (spec_passes (decide_eq_true hsize))
  intro after _ hafter
  rw [hafter]
  exact Setting.Spec.pure ⟨rfl, rfl⟩

theorem sameEntries_iff {entries : List ReceiptName} :
    sameEntries entries expected = true ↔ ∀ name, name ∈ entries ↔ name ∈ expected := by
  unfold sameEntries
  rw [Bool.and_eq_true, List.all_eq_true, List.all_eq_true]
  constructor
  · intro h name
    exact ⟨fun hname => of_decide_eq_true (h.1 name hname),
      fun hname => of_decide_eq_true (h.2 name hname)⟩
  · intro h
    exact ⟨fun name hname => decide_eq_true ((h name).mp hname),
      fun name hname => decide_eq_true ((h name).mpr hname)⟩

/-- The names there are in a directory are the expected ones. -/
def Lists (tree : ReceiptTree) (listed : Option ReceiptName) (expected : List ReceiptName) :
    Prop :=
  ∀ name, name ∈ expected ↔ name.parent = listed ∧ tree name ≠ none

theorem spec_requireExactEntries (hsound : Sound setting) (hready : ReadReady setting state)
    (hleft : ¬ Lists state.1 listed expected → setting.left state) :
    setting.Spec (fun after _ => after = state ∧ Lists state.1 listed expected)
      (requireExactEntries thrown listed expected) state := by
  apply Setting.Spec.bind (spec_read hsound hready able_listEntries trivial)
  rintro after (entries : List ReceiptName) hentries
  have hmembers := hentries.2.2 entries rfl
  have hlists : sameEntries entries expected = true ↔ Lists state.1 listed expected := by
    rw [sameEntries_iff]
    constructor
    · intro h name
      rw [← h name]
      exact hmembers name
    · intro h name
      rw [h name]
      exact hmembers name
  rw [hentries.1]
  apply (spec_check _ _).mono
  · intro last _ hlast
    exact ⟨hlast.1, hlists.mp hlast.2⟩
  · intro hfalse
    apply hleft
    intro h
    rw [hlists.mpr h] at hfalse
    cases hfalse

theorem spec_createPrivateFile (hsound : Sound setting)
    (hready : Ready setting state (.createFile name)) :
    setting.Spec (fun after _ => after = (Function.update state.1 name (some []), state.2))
      (createPrivateFile thrown name) state := by
  apply (spec_call hsound hready).mono
  intro after _ h
  rcases h.1 with ⟨-, hafter⟩ | ⟨⟨errno, herror⟩, -⟩
  · exact Prod.ext hafter h.2
  · cases herror

theorem spec_writeAll (hsound : Sound setting)
    (hready : Ready setting state (.writeFile name bytes)) (hold : state.1 name = some old) :
    setting.Spec
      (fun after _ => after = (Function.update state.1 name (some (old ++ bytes)), state.2))
      (writeAll thrown name bytes) state := by
  apply (spec_call hsound hready).mono
  intro after _ h
  rcases h.1 with ⟨-, found, hfound, hafter⟩ | ⟨⟨errno, herror⟩, -⟩
  · rw [hold] at hfound
    rw [Option.some.inj hfound]
    exact Prod.ext hafter h.2
  · cases herror

theorem spec_unlinkFile (hsound : Sound setting) (hready : Ready setting state (.unlink name)) :
    setting.Spec (fun after _ => after = (Function.update state.1 name none, state.2))
      (unlinkFile thrown name) state := by
  apply (spec_call hsound hready).mono
  intro after _ h
  rcases h.1 with ⟨-, -, hafter⟩ | ⟨⟨errno, herror⟩, -⟩
  · exact Prod.ext hafter h.2
  · cases herror

theorem spec_removeDirectory (hsound : Sound setting)
    (hready : Ready setting state (.removeDirectory name)) :
    setting.Spec (fun after _ => after = (Function.update state.1 name none, state.2))
      (removeDirectory thrown name) state := by
  apply (spec_call hsound hready).mono
  intro after _ h
  rcases h.1 with ⟨-, -, -, hafter⟩ | ⟨⟨errno, herror⟩, -⟩
  · exact Prod.ext hafter h.2
  · cases herror

end Calls

/-! ## Functions on a whole directory -/

section Directory

variable {setting : FileSetting} {tree : ReceiptTree} {tally : Tally} {helperPath : HelperPath}
  {transactionToken : Bytes}

/-- The files of a prepared transaction. -/
structure PreparedTree (helperPath : HelperPath) (transactionToken : Bytes)
    (tree : ReceiptTree) : Prop where
  prepared : ∃ names text,
    serializePreparedState ⟨transactionToken, names⟩ = Except.ok text ∧
    tree .prepared = some text
  hooks : tree .hooks ≠ none
  hook : tree .hook = some (hookContents helperPath transactionToken)

theorem hookContents_length (htoken : isValidTrustedAlpmReceiptToken transactionToken = true) :
    (hookContents helperPath transactionToken).length ≤ receiptMaximumBytes := by
  have hlength := length_of_token htoken
  have hpath := helperPath.path_short
  unfold hookContents
  simp only [List.length_append, hlength]
  have hfixed : (ascii "[Trigger]\nOperation = Install\nType = Package\nTarget = *\n\n[Action]\n").length +
      (ascii "Description = Record Moguet transaction-local package installs\n").length +
      (ascii "When = PostTransaction\nExec = ").length + (ascii " record ").length +
      (ascii " ").length + owner.length + (ascii "\nNeedsTargets\n").length ≤ 400 := by decide
  unfold receiptMaximumBytes
  omega

theorem lists_hooks (h : PreparedTree helperPath transactionToken tree) :
    Lists tree (some .hooks) [.hook] := by
  intro name
  cases name <;> simp [ReceiptName.parent, h.hook]

theorem spec_validatePreparedState (hsound : Sound setting)
    (hready : ReadReady setting (tree, tally))
    (h : PreparedTree helperPath transactionToken tree) :
    setting.Spec (fun after _ => after = (tree, tally))
      (validatePreparedState helperPath transactionToken) (tree, tally) := by
  obtain ⟨names, text, hwritten, hprepared⟩ := h.prepared
  have htext := serializePreparedState_eq_ok_iff.mp hwritten
  have hparsed : parsePreparedState text = Except.ok ⟨transactionToken, names⟩ :=
    parsePreparedState_eq_ok_iff.mpr htext
  apply Setting.Spec.bind (spec_openPrivateFile hsound hready (by simp [hprepared]))
  rintro _ _ rfl
  apply Setting.Spec.bind (spec_readBounded hsound hready hprepared htext.size)
  rintro _ _ ⟨rfl, rfl⟩
  apply Setting.Spec.bind (spec_orRefuse hparsed)
  rintro _ _ ⟨rfl, rfl⟩
  apply Setting.Spec.bind (spec_passes (decide_eq_true rfl))
  rintro _ _ rfl
  apply Setting.Spec.bind (spec_openDirectoryInside hsound hready h.hooks)
  rintro _ _ rfl
  apply Setting.Spec.bind (spec_requireExactEntries hsound hready fun hne =>
    absurd (lists_hooks h) hne)
  rintro _ _ ⟨rfl, -⟩
  apply Setting.Spec.bind (spec_openPrivateFile hsound hready (by simp [h.hook]))
  rintro _ _ rfl
  apply Setting.Spec.bind (spec_readBounded hsound hready h.hook (hookContents_length htext.token))
  rintro _ observed ⟨rfl, hobserved⟩
  apply Setting.Spec.bind (spec_passes (decide_eq_true hobserved))
  rintro _ _ rfl
  exact Setting.Spec.pure rfl

/-! ### Preparing -/

theorem spec_ensurePrivateDirectory (hsound : Sound setting) (hready : AllReady setting tally)
    (h : tree name = none) :
    setting.Spec (fun after _ => after = (Function.update tree name (some []), tally))
      (ensurePrivateDirectory thrown name) (tree, tally) := by
  have hmade : Ready setting (tree, tally) (.makeDirectory name) :=
    hready tree _ (able_makeDirectory h) nofun
  apply Setting.Spec.bind (spec_call hsound hmade)
  intro after _ hafter
  have hstate : after = (Function.update tree name (some []), tally) := by
    rcases hafter.1 with ⟨-, -, htree⟩ | ⟨-, hpresent, -⟩ | ⟨⟨errno, herror⟩, -⟩
    · exact Prod.ext htree hafter.2
    · exact absurd h hpresent
    · cases herror
  rw [hstate]
  exact spec_openDirectoryInside hsound (hready.reads _) (by simp)

/-- The receipts that a transaction can have. -/
inductive ReceiptPhase
  | unrecorded
  | unfinished
  | complete (packages : List Bytes)

def ReceiptPhase.Holds (transactionToken : Bytes) : ReceiptPhase → ReceiptTree → Prop
  | .unrecorded, tree => tree .receipt = none ∧ tree .partialReceipt = none
  | .unfinished, tree => tree .receipt = none ∧ tree .partialReceipt ≠ none
  | .complete packages, tree => tree .partialReceipt = none ∧
      ∃ text, tree .receipt = some text ∧
        serializeMachineReceipt ⟨.complete, transactionToken, packages⟩ = Except.ok text

def ReceiptPhase.hasReceipt : ReceiptPhase → Bool
  | .complete _ => true
  | _ => false

def ReceiptPhase.hasPartialReceipt : ReceiptPhase → Bool
  | .unfinished => true
  | _ => false

theorem ReceiptPhase.Holds.receipt {phase : ReceiptPhase} (h : phase.Holds transactionToken tree) :
    (tree .receipt).isSome = phase.hasReceipt := by
  cases phase with
  | unrecorded => rw [h.1]; rfl
  | unfinished => rw [h.1]; rfl
  | complete packages =>
    obtain ⟨text, htext, -⟩ := h.2
    rw [htext]
    rfl

theorem ReceiptPhase.Holds.partialReceipt {phase : ReceiptPhase}
    (h : phase.Holds transactionToken tree) :
    (tree .partialReceipt).isSome = phase.hasPartialReceipt := by
  cases phase with
  | unrecorded => rw [h.2]; rfl
  | unfinished => exact Option.isSome_iff_ne_none.mpr h.2
  | complete packages => rw [h.1]; rfl

/-- The entries of a transaction are those its receipts say. -/
theorem lists_expectedEntries (h : PreparedTree helperPath transactionToken tree)
    {hasReceipt hasPartialReceipt : Bool} :
    Lists tree none (expectedEntries hasReceipt hasPartialReceipt) ↔
      (tree .receipt).isSome = hasReceipt ∧ (tree .partialReceipt).isSome = hasPartialReceipt := by
  obtain ⟨names, text, -, hprepared⟩ := h.prepared
  constructor
  · intro hlists
    have hreceipt := hlists .receipt
    have hpart := hlists .partialReceipt
    cases hasReceipt <;> cases hasPartialReceipt <;>
      simp_all [expectedEntries, ReceiptName.parent, Option.isSome_iff_ne_none]
  · intro hflags name
    cases name <;> cases hasReceipt <;> cases hasPartialReceipt <;>
      simp_all [expectedEntries, ReceiptName.parent, h.hooks, Option.isSome_iff_ne_none]

/-- The files that a preparation leaves. -/
def preparedTree (helperPath : HelperPath) (transactionToken text : Bytes) : ReceiptTree
  | .prepared => some text
  | .hooks => some []
  | .hook => some (hookContents helperPath transactionToken)
  | .receipt => none
  | .partialReceipt => none

theorem preparedTree_prepared {names : List Bytes}
    (h : serializePreparedState ⟨transactionToken, names⟩ = Except.ok text) :
    PreparedTree helperPath transactionToken (preparedTree helperPath transactionToken text) :=
  ⟨⟨names, text, h, rfl⟩, nofun, rfl⟩

theorem spec_writePreparedFiles (hsound : Sound setting) (hready : AllReady setting tally)
    (text : Bytes) :
    setting.Spec (fun after _ => after = (preparedTree helperPath transactionToken text, tally))
      (writePreparedFiles helperPath transactionToken text) (emptyTree, tally) := by
  apply Setting.Spec.bind (spec_createPrivateFile hsound (hready _ _ (able_createFile rfl) nofun))
  rintro _ _ rfl
  apply Setting.Spec.bind (spec_writeAll hsound
    (hready _ _ (able_writeFile (Function.update_self ..)) nofun) (Function.update_self ..))
  rintro _ _ rfl
  apply Setting.Spec.bind (spec_synchronizeFile hsound (hready.reads _) _)
  rintro _ _ rfl
  apply Setting.Spec.bind (spec_ensurePrivateDirectory hsound hready rfl)
  rintro _ _ rfl
  apply Setting.Spec.bind (spec_createPrivateFile hsound (hready _ _ (able_createFile rfl) nofun))
  rintro _ _ rfl
  apply Setting.Spec.bind (spec_writeAll hsound
    (hready _ _ (able_writeFile (Function.update_self ..)) nofun) (Function.update_self ..))
  rintro _ _ rfl
  apply Setting.Spec.bind (spec_synchronizeFile hsound (hready.reads _) _)
  rintro _ _ rfl
  apply Setting.Spec.bind (spec_synchronizeFile hsound (hready.reads _) _)
  rintro _ _ rfl
  apply Setting.Spec.bind (spec_requireExactEntries hsound (hready.reads _) fun hne =>
    absurd ?entries hne)
  case entries =>
    intro name
    cases name <;> simp [ReceiptName.parent, emptyTree]
  rintro _ _ ⟨rfl, -⟩
  apply (spec_synchronizeFile hsound (hready.reads _) none).mono
  rintro _ _ rfl
  refine Prod.ext ?_ rfl
  funext name
  cases name <;> rfl

/-! ### Recording -/

theorem spec_validateRecordable (hsound : Sound setting)
    (hready : ReadReady setting (tree, tally)) {phase : ReceiptPhase}
    (h : PreparedTree helperPath transactionToken tree)
    (hphase : phase.Holds transactionToken tree)
    (hleft : phase ≠ .unrecorded → setting.left (tree, tally)) :
    setting.Spec (fun after _ => after = (tree, tally) ∧ phase = .unrecorded)
      (validateRecordable helperPath transactionToken) (tree, tally) := by
  have hentries : Lists tree none [.prepared, .hooks] ↔ phase = .unrecorded := by
    have hlists : Lists tree none (expectedEntries false false) ↔ _ := lists_expectedEntries h
    rw [hphase.receipt, hphase.partialReceipt] at hlists
    refine (show Lists tree none [.prepared, .hooks] ↔ _ from hlists).trans ?_
    cases phase <;> simp [ReceiptPhase.hasReceipt, ReceiptPhase.hasPartialReceipt]
  apply Setting.Spec.bind (spec_validatePreparedState hsound hready h)
  rintro _ _ rfl
  apply (spec_requireExactEntries hsound hready _).mono
  · rintro _ _ ⟨rfl, hlists⟩
    exact ⟨rfl, hentries.mp hlists⟩
  · intro hne
    exact hleft fun hphase => hne (hentries.mpr hphase)

theorem spec_writePartialReceipt (hsound : Sound setting)
    (hcreate : Ready setting (tree, tally) (.createFile .partialReceipt))
    (hwrite : Ready setting (Function.update tree .partialReceipt (some []), tally)
      (.writeFile .partialReceipt text))
    (hsync : ReadReady setting (Function.update tree .partialReceipt (some text), tally)) :
    setting.Spec (fun after _ => after = (Function.update tree .partialReceipt (some text), tally))
      (writePartialReceipt text) (tree, tally) := by
  apply Setting.Spec.bind (spec_createPrivateFile hsound hcreate)
  rintro _ _ rfl
  apply Setting.Spec.bind (spec_writeAll hsound hwrite rfl)
  rintro _ _ rfl
  rw [Function.update_idem, List.nil_append]
  exact spec_synchronizeFile hsound hsync _

/-- The files once the receipt is complete. -/
def completedTree (tree : ReceiptTree) (text : Bytes) : ReceiptTree :=
  Function.update (Function.update tree .receipt (some text)) .partialReceipt none

theorem spec_completeReceipt (hsound : Sound setting)
    (h : PreparedTree helperPath transactionToken tree) (hpart : tree .partialReceipt = some text)
    (hrename : Ready setting (tree, tally) (.rename .partialReceipt .receipt))
    (hready : ReadReady setting
      (completedTree tree text, { tally with completions := tally.completions + 1 })) :
    setting.Spec (fun after _ => after =
        (completedTree tree text, { tally with completions := tally.completions + 1 }))
      completeReceipt (tree, tally) := by
  apply Setting.Spec.bind (spec_call hsound hrename)
  intro after _ hafter
  have hstate : after =
      (completedTree tree text, { tally with completions := tally.completions + 1 }) := by
    rcases hafter.1 with ⟨-, -, -, htree⟩ | ⟨⟨errno, herror⟩, -⟩
    · dsimp only at htree
      rw [hpart] at htree
      exact Prod.ext htree hafter.2
    · cases herror
  rw [hstate]
  apply Setting.Spec.bind (spec_synchronizeFile hsound hready _)
  rintro _ _ rfl
  apply (spec_requireExactEntries hsound hready fun hne => absurd ?entries hne).mono
  case entries =>
    obtain ⟨names, prepared, -, hprepared⟩ := h.prepared
    intro name
    cases name <;> simp [ReceiptName.parent, completedTree, hprepared, h.hooks]
  rintro _ _ ⟨rfl, -⟩
  rfl

/-! ### Consuming and aborting -/

theorem spec_readReceipt (hsound : Sound setting) (hready : ReadReady setting (tree, tally))
    {phase : ReceiptPhase} (hphase : phase.Holds transactionToken tree)
    (hfinished : phase ≠ .unfinished) :
    setting.Spec (fun after receipt => after = (tree, tally) ∧
        ((phase = .unrecorded ∧ receipt = ⟨.missing, transactionToken, []⟩) ∨
          ∃ packages, phase = .complete packages ∧
            receipt = ⟨.complete, transactionToken, packages⟩))
      (readReceipt transactionToken phase.hasReceipt) (tree, tally) := by
  cases phase with
  | unfinished => exact absurd rfl hfinished
  | unrecorded => exact Setting.Spec.pure ⟨rfl, Or.inl ⟨rfl, rfl⟩⟩
  | complete packages =>
    obtain ⟨-, text, hreceipt, hwritten⟩ := hphase
    have htext := serializeMachineReceipt_eq_ok_iff.mp hwritten
    have hparsed := parseMachineReceipt_eq_ok_iff.mpr htext
    apply Setting.Spec.bind (spec_openPrivateFile hsound hready (by simp [hreceipt]))
    rintro _ _ rfl
    apply Setting.Spec.bind (spec_readBounded hsound hready hreceipt htext.size)
    rintro _ _ ⟨rfl, rfl⟩
    apply Setting.Spec.bind (spec_orRefuse hparsed)
    rintro _ _ ⟨rfl, rfl⟩
    apply Setting.Spec.bind (spec_passes (decide_eq_true rfl))
    rintro _ _ rfl
    apply Setting.Spec.bind (spec_passes (decide_eq_true rfl))
    rintro _ _ rfl
    exact Setting.Spec.pure ⟨rfl, Or.inr ⟨packages, rfl, rfl⟩⟩

theorem spec_readConsumable (hsound : Sound setting) (hready : ReadReady setting (tree, tally))
    {phase : ReceiptPhase} (h : PreparedTree helperPath transactionToken tree)
    (hphase : phase.Holds transactionToken tree)
    (hleft : phase = .unfinished → setting.left (tree, tally)) :
    setting.Spec (fun after read => after = (tree, tally) ∧ read.1 = phase.hasReceipt ∧
        ((phase = .unrecorded ∧ read.2 = ⟨.missing, transactionToken, []⟩) ∨
          ∃ packages, phase = .complete packages ∧
            read.2 = ⟨.complete, transactionToken, packages⟩))
      (readConsumable helperPath transactionToken) (tree, tally) := by
  apply Setting.Spec.bind (spec_validatePreparedState hsound hready h)
  rintro _ _ rfl
  apply Setting.Spec.bind (spec_entryExists hsound hready .receipt)
  rintro _ _ ⟨rfl, rfl⟩
  apply Setting.Spec.bind (spec_entryExists hsound hready .partialReceipt)
  rintro _ _ ⟨rfl, rfl⟩
  rw [hphase.receipt, hphase.partialReceipt]
  apply Setting.Spec.bind (spec_check _ _)
  · rintro _ _ ⟨rfl, hfinished⟩
    have hne : phase ≠ .unfinished := by
      rintro rfl
      cases hfinished
    have hflag : phase.hasPartialReceipt = false := by simpa using hfinished
    apply Setting.Spec.bind (spec_requireExactEntries hsound hready _)
    · rintro _ _ ⟨rfl, -⟩
      apply Setting.Spec.bind (spec_readReceipt hsound hready hphase hne)
      rintro _ receipt ⟨rfl, hreceipt⟩
      exact Setting.Spec.pure ⟨rfl, rfl, hreceipt⟩
    · intro hlists
      refine absurd ((lists_expectedEntries h).mpr ⟨hphase.receipt, ?_⟩) hlists
      rw [hphase.partialReceipt, hflag]
  · intro hunfinished
    apply hleft
    cases phase with
    | unfinished => rfl
    | unrecorded => cases hunfinished
    | complete packages => cases hunfinished

theorem spec_validateOptional (hsound : Sound setting) (hready : ReadReady setting (tree, tally))
    (name : ReceiptName) :
    setting.Spec (fun after _ => after = (tree, tally))
      (validateOptionalPrivateFile thrown name) (tree, tally) := by
  apply Setting.Spec.bind (spec_entryExists hsound hready name)
  rintro _ present ⟨rfl, hpresent⟩
  cases present with
  | true =>
    exact spec_openPrivateFile hsound hready (Option.isSome_iff_ne_none.mp hpresent.symm)
  | false => exact Setting.Spec.pure rfl

theorem spec_readAbortable (hsound : Sound setting) (hready : ReadReady setting (tree, tally))
    {phase : ReceiptPhase} (h : PreparedTree helperPath transactionToken tree)
    (hphase : phase.Holds transactionToken tree) :
    setting.Spec (fun after read => after = (tree, tally) ∧
        read = (phase.hasReceipt, phase.hasPartialReceipt))
      (readAbortable helperPath transactionToken) (tree, tally) := by
  apply Setting.Spec.bind (spec_validatePreparedState hsound hready h)
  rintro _ _ rfl
  apply Setting.Spec.bind (spec_entryExists hsound hready .receipt)
  rintro _ _ ⟨rfl, rfl⟩
  apply Setting.Spec.bind (spec_entryExists hsound hready .partialReceipt)
  rintro _ _ ⟨rfl, rfl⟩
  rw [hphase.receipt, hphase.partialReceipt]
  apply Setting.Spec.bind (spec_passes (by cases phase <;> rfl))
  rintro _ _ rfl
  apply Setting.Spec.bind (spec_validateOptional hsound hready .receipt)
  rintro _ _ rfl
  apply Setting.Spec.bind (spec_validateOptional hsound hready .partialReceipt)
  rintro _ _ rfl
  apply Setting.Spec.bind (spec_requireExactEntries hsound hready fun hlists =>
    absurd ((lists_expectedEntries h).mpr ⟨hphase.receipt, hphase.partialReceipt⟩) hlists)
  rintro _ _ ⟨rfl, -⟩
  exact Setting.Spec.pure ⟨rfl, rfl⟩

/-! ### Cleaning up -/

theorem spec_removePrivateFile (hsound : Sound setting) (hready : AllReady setting tally)
    (h : tree name ≠ none) :
    setting.Spec (fun after _ => after = (Function.update tree name none, tally))
      (removePrivateFile name) (tree, tally) := by
  apply Setting.Spec.bind (spec_openPrivateFile hsound (hready.reads tree) h)
  rintro _ _ rfl
  exact spec_unlinkFile hsound (hready tree _ (able_unlink h) nofun)

/-- A file that is removed if it is there. -/
theorem spec_removeOptional (hsound : Sound setting) (hready : AllReady setting tally) {flag : Bool}
    (h : (tree name).isSome = flag) :
    setting.Spec (fun after _ => after = (Function.update tree name none, tally))
      (removeOptionalFile flag name) (tree, tally) := by
  cases flag with
  | true => exact spec_removePrivateFile hsound hready (Option.isSome_iff_ne_none.mp h)
  | false =>
    have habsent : tree name = none := by simpa using h
    apply Setting.Spec.pure
    rw [← habsent, Function.update_eq_self]

theorem spec_cleanupRetiredTransaction (hsound : Sound setting) (hready : AllReady setting tally)
    {phase : ReceiptPhase} (h : PreparedTree helperPath transactionToken tree)
    (hphase : phase.Holds transactionToken tree) :
    setting.Spec (fun after _ => after.2 = tally)
      (cleanupRetiredTransaction phase.hasReceipt phase.hasPartialReceipt) (tree, tally) := by
  obtain ⟨names, text, -, hprepared⟩ := h.prepared
  apply Setting.Spec.bind (spec_requireExactEntries hsound (hready.reads _) fun hlists =>
    absurd ((lists_expectedEntries h).mpr ⟨hphase.receipt, hphase.partialReceipt⟩) hlists)
  rintro _ _ ⟨rfl, -⟩
  apply Setting.Spec.bind (spec_openDirectoryInside hsound (hready.reads _) h.hooks)
  rintro _ _ rfl
  apply Setting.Spec.bind (spec_requireExactEntries hsound (hready.reads _) fun hne =>
    absurd (lists_hooks h) hne)
  rintro _ _ ⟨rfl, -⟩
  apply Setting.Spec.bind (spec_removePrivateFile hsound hready (by simp [h.hook]))
  rintro _ _ rfl
  apply Setting.Spec.bind (spec_removeDirectory hsound (hready _ _ ?removable nofun))
  case removable =>
    apply able_removeDirectory
    · simpa using h.hooks
    · intro below hbelow
      cases below <;> first | exact absurd hbelow (by decide) | rfl
  rintro _ _ rfl
  apply Setting.Spec.bind (spec_removePrivateFile hsound hready (by simp [hprepared]))
  rintro _ _ rfl
  apply Setting.Spec.bind (spec_removeOptional hsound hready (by simpa using hphase.receipt))
  rintro _ _ rfl
  apply Setting.Spec.bind (spec_removeOptional hsound hready (by simpa using hphase.partialReceipt))
  rintro _ _ rfl
  apply Setting.Spec.bind (spec_requireExactEntries hsound (hready.reads _) fun hne =>
    absurd ?empty hne)
  case empty =>
    intro name
    cases name <;> simp [ReceiptName.parent]
  rintro _ _ ⟨rfl, -⟩
  apply (spec_synchronizeFile hsound (hready.reads _) none).mono
  rintro _ _ rfl
  rfl

end Directory

end Moguet.Receipt.StoreSpec
