import Mathlib.Data.List.Infix
import Moguet.Verified.ByteString
import Moguet.Verified.Processes

/-!
# The directory of a transaction

The trusted stores keep one directory for each transaction token. It is filled
under the name `.<token>.preparing`, renamed to `<token>` in the directory of
active transactions, and renamed once more into the directory of used tokens,
where it stays as a tombstone. What the operations do to these three entries and
inside the directory is a sequence of system calls; every call may fail, and
others may act between two of them.

The helper functions that the two stores share are written once here. Error
texts are left out; `thrown` is the exception for an `errno`, and its value at
zero the exception of a check.
-/

namespace Moguet.Receipt.Transaction

open Verified.ByteString Verified.Dialogue Verified.Processes

abbrev Errno : Type := Nat

def ENOENT : Errno := 2

/-! ## Requests -/

/-- The three entries of a token: two in the active directory, one in the used
directory. -/
inductive Place
  | staging
  | active
  | used
  deriving DecidableEq

inductive StoreDirectory
  | active
  | used
  deriving DecidableEq

/-- Calls below a transaction directory. `Name` are its files and directories; a
listing of `none` is of the transaction directory itself. -/
inductive FileOperation (Name : Type)
  | entryExists (name : Name)
  | createFile (name : Name)
  | writeFile (name : Name) (bytes : Bytes)
  | synchronize (name : Option Name)
  | makeDirectory (name : Name)
  | openDirectory (name : Name)
  | openFile (name : Name)
  | readFile (name : Name)
  | listEntries (name : Option Name)
  | rename (old new : Name)
  | unlink (name : Name)
  | removeDirectory (name : Name)

variable {Name Extra : Type} {ExtraAnswer : Extra → Type}

/-- What a successful call gives. -/
def FileValue : FileOperation Name → Type
  | .entryExists _ => Bool
  | .readFile _ => Bytes
  | .listEntries _ => List Name
  | _ => Unit

abbrev FileAnswer (operation : FileOperation Name) : Type := Except Errno (FileValue operation)

/-- Requests that concern what is in one directory. `Extra` are the calls a store
makes besides those on files. -/
inductive TreeRequest (Name Extra : Type)
  | file (operation : FileOperation Name)
  | extra (operation : Extra)

def TreeAnswer (ExtraAnswer : Extra → Type) : TreeRequest Name Extra → Type
  | .file operation => FileAnswer operation
  | .extra operation => ExtraAnswer operation

/-- An open directory is known by its inode. -/
inductive Request (Name Extra : Type)
  | entryExists (place : Place)
  | makeStaging
  | openDirectory (place : Place)
  | namedIdentity (place : Place)
  | publish
  | retire
  | removeStaging
  | synchronize (directory : StoreDirectory)
  | below (directory : Nat) (request : TreeRequest Name Extra)

def Answer (ExtraAnswer : Extra → Type) : Request Name Extra → Type
  | .entryExists _ => Except Errno Bool
  | .openDirectory _ => Except Errno Nat
  | .namedIdentity _ => Except Errno Nat
  | .below _ request => TreeAnswer ExtraAnswer request
  | _ => Except Errno Unit

/-! ## The entries of a token -/

/-- Which directory each entry names, what the directories hold, and the inode
of the next one. -/
structure TransactionState (Tree : Type) where
  staging : Option Nat
  active : Option Nat
  used : Option Nat
  tree : Nat → Tree
  next : Nat

variable {Tree : Type}

namespace TransactionState

def entry (state : TransactionState Tree) : Place → Option Nat
  | .staging => state.staging
  | .active => state.active
  | .used => state.used

/-- `mkdirat` of the staging name. -/
def makeStaging (empty : Tree) (state : TransactionState Tree) : TransactionState Tree :=
  { state with
    staging := some state.next
    tree := Function.update state.tree state.next empty
    next := state.next + 1 }

/-- `renameat2` of the staging name to the token. -/
def publish (state : TransactionState Tree) : TransactionState Tree :=
  { state with staging := none, active := state.staging }

/-- `renameat2` of the token into the used directory. -/
def retire (state : TransactionState Tree) : TransactionState Tree :=
  { state with active := none, used := state.active }

def removeStaging (state : TransactionState Tree) : TransactionState Tree :=
  { state with staging := none }

def writeTree (state : TransactionState Tree) (directory : Nat) (tree : Tree) :
    TransactionState Tree :=
  { state with tree := Function.update state.tree directory tree }

end TransactionState

/-- What a call does to the entries. A successful call tells the truth and
changes what it is there to change; a failed one changes nothing. What happens in
the directories is for `tree` to say. -/
def storeEffect (empty : Tree) (IsEmpty : Tree → Prop)
    (tree : Effect Tree (TreeRequest Name Extra) (TreeAnswer ExtraAnswer)) :
    Effect (TransactionState Tree) (Request Name Extra) (Answer ExtraAnswer)
  | state, .entryExists place, answer, after =>
    after = state ∧ ∀ present, answer = Except.ok present →
      present = (state.entry place).isSome
  | state, .makeStaging, answer, after =>
    (answer = Except.ok () ∧ state.staging = none ∧ after = state.makeStaging empty) ∨
    (∃ errno, answer = Except.error errno) ∧ after = state
  | state, .openDirectory place, answer, after =>
    after = state ∧ (∀ inode, answer = Except.ok inode → state.entry place = some inode) ∧
      (answer = Except.error ENOENT → state.entry place = none)
  | state, .namedIdentity place, answer, after =>
    after = state ∧ ∀ inode, answer = Except.ok inode → state.entry place = some inode
  | state, .publish, answer, after =>
    (answer = Except.ok () ∧ state.staging ≠ none ∧ state.active = none ∧
      after = state.publish) ∨
    (∃ errno, answer = Except.error errno) ∧ after = state
  | state, .retire, answer, after =>
    (answer = Except.ok () ∧ state.active ≠ none ∧ state.used = none ∧
      after = state.retire) ∨
    (∃ errno, answer = Except.error errno) ∧ after = state
  | state, .removeStaging, answer, after =>
    (answer = Except.ok () ∧ (∃ inode, state.staging = some inode ∧
      IsEmpty (state.tree inode)) ∧ after = state.removeStaging) ∨
    (∃ errno, answer = Except.error errno ∧ (errno = ENOENT → state.staging = none)) ∧
      after = state
  | state, .synchronize _, _, after => after = state
  | state, .below directory request, answer, after =>
    ∃ changed, tree (state.tree directory) request answer changed ∧
      after = state.writeTree directory changed

/-! ## The files of a transaction -/

/-- The contents of each file; a directory that is there has none. -/
abbrev FileTree (Name : Type) : Type := Name → Option Bytes

def emptyTree : FileTree Name := fun _ => none

/-- What a call does below the directory; `parent` says where a name belongs. A
creation may fail after the file is there, and a write after some of it. -/
def fileEffect [DecidableEq Name] (parent : Name → Option Name) :
    Effect (FileTree Name) (FileOperation Name) FileAnswer
  | tree, .entryExists name, answer, after =>
    after = tree ∧ ∀ present : Bool, answer = Except.ok present →
      present = (tree name).isSome
  | tree, .createFile name, answer, after =>
    (tree name = none ∧ after = Function.update tree name (some [])) ∨
    (∃ errno, answer = Except.error errno) ∧ after = tree
  | tree, .writeFile name bytes, answer, after =>
    (answer = Except.ok () ∧ ∃ old, tree name = some old ∧
      after = Function.update tree name (some (old ++ bytes))) ∨
    (∃ errno, answer = Except.error errno) ∧
      (after = tree ∨ ∃ old part, tree name = some old ∧ part <+: bytes ∧
        after = Function.update tree name (some (old ++ part)))
  | tree, .synchronize _, _, after => after = tree
  | tree, .makeDirectory name, answer, after =>
    (answer = Except.ok () ∧ tree name = none ∧ after = Function.update tree name (some [])) ∨
    (answer = Except.ok () ∧ tree name ≠ none ∧ after = tree) ∨
    (∃ errno, answer = Except.error errno) ∧ after = tree
  | tree, .openDirectory name, answer, after =>
    after = tree ∧ (answer = Except.ok () → tree name ≠ none)
  | tree, .openFile name, answer, after =>
    after = tree ∧ (answer = Except.ok () → tree name ≠ none)
  | tree, .readFile name, answer, after =>
    after = tree ∧ ∀ bytes : Bytes, answer = Except.ok bytes → tree name = some bytes
  | tree, .listEntries listed, answer, after =>
    after = tree ∧ ∀ entries : List Name, answer = Except.ok entries →
      ∀ name, name ∈ entries ↔ parent name = listed ∧ tree name ≠ none
  | tree, .rename old new, answer, after =>
    (answer = Except.ok () ∧ tree old ≠ none ∧ tree new = none ∧
      after = Function.update (Function.update tree new (tree old)) old none) ∨
    (∃ errno, answer = Except.error errno) ∧ after = tree
  | tree, .unlink name, answer, after =>
    (answer = Except.ok () ∧ tree name ≠ none ∧ after = Function.update tree name none) ∨
    (∃ errno, answer = Except.error errno) ∧ after = tree
  | tree, .removeDirectory name, answer, after =>
    (answer = Except.ok () ∧ tree name ≠ none ∧
      (∀ below, parent below = some name → tree below = none) ∧
      after = Function.update tree name none) ∨
    (∃ errno, answer = Except.error errno) ∧ after = tree

/-- The files and whatever else a store observes of a directory. -/
def treeEffect (file : Effect Tree (FileOperation Name) FileAnswer)
    (extra : Effect Tree Extra ExtraAnswer) :
    Effect Tree (TreeRequest Name Extra) (TreeAnswer ExtraAnswer)
  | tree, .file operation, answer, after => file tree operation answer after
  | tree, .extra operation, answer, after => extra tree operation answer after

/-! ## A machine without failures -/

def EEXIST : Errno := 17

def ENOTEMPTY : Errno := 39

section Machine

variable [DecidableEq Name] (names : List Name) (parent : Name → Option Name)

/-- Whether some name of a directory is there. -/
def hasEntries (tree : FileTree Name) (name : Name) : Bool :=
  names.any fun below => parent below = some name && (tree below).isSome

/-- Every call succeeds that can. -/
def respondFile (tree : FileTree Name) :
    (operation : FileOperation Name) → FileAnswer operation × FileTree Name
  | .entryExists name => (Except.ok (tree name).isSome, tree)
  | .createFile name =>
    match tree name with
    | none => (Except.ok (), Function.update tree name (some []))
    | some _ => (Except.error EEXIST, tree)
  | .writeFile name bytes =>
    match tree name with
    | some old => (Except.ok (), Function.update tree name (some (old ++ bytes)))
    | none => (Except.error ENOENT, tree)
  | .synchronize _ => (Except.ok (), tree)
  | .makeDirectory name =>
    match tree name with
    | none => (Except.ok (), Function.update tree name (some []))
    | some _ => (Except.ok (), tree)
  | .openDirectory name =>
    match tree name with
    | some _ => (Except.ok (), tree)
    | none => (Except.error ENOENT, tree)
  | .openFile name =>
    match tree name with
    | some _ => (Except.ok (), tree)
    | none => (Except.error ENOENT, tree)
  | .readFile name =>
    match tree name with
    | some bytes => (Except.ok bytes, tree)
    | none => (Except.error ENOENT, tree)
  | .listEntries listed =>
    (Except.ok (names.filter fun name => parent name = listed && (tree name).isSome), tree)
  | .rename old new =>
    match tree old, tree new with
    | some bytes, none =>
      (Except.ok (), Function.update (Function.update tree new (some bytes)) old none)
    | _, _ => (Except.error EEXIST, tree)
  | .unlink name =>
    match tree name with
    | some _ => (Except.ok (), Function.update tree name none)
    | none => (Except.error ENOENT, tree)
  | .removeDirectory name =>
    match tree name, hasEntries names parent tree name with
    | some _, false => (Except.ok (), Function.update tree name none)
    | _, _ => (Except.error ENOTEMPTY, tree)

variable {names parent}

theorem respondFile_effect (hnames : ∀ name, name ∈ names) (tree : FileTree Name)
    (operation : FileOperation Name) :
    fileEffect parent tree operation (respondFile names parent tree operation).1
      (respondFile names parent tree operation).2 := by
  cases operation with
  | entryExists name =>
    refine ⟨rfl, ?_⟩
    intro present hpresent
    injection hpresent with hpresent
    exact hpresent.symm
  | createFile name =>
    cases htree : tree name with
    | none => exact Or.inl ⟨htree, by simp only [respondFile, htree]⟩
    | some bytes =>
      simp only [respondFile, htree]
      exact Or.inr ⟨⟨EEXIST, rfl⟩, rfl⟩
  | writeFile name bytes =>
    cases htree : tree name with
    | none =>
      simp only [respondFile, htree]
      exact Or.inr ⟨⟨ENOENT, rfl⟩, Or.inl rfl⟩
    | some old =>
      simp only [respondFile, htree]
      exact Or.inl ⟨rfl, old, htree, rfl⟩
  | synchronize name => exact rfl
  | makeDirectory name =>
    cases htree : tree name with
    | none =>
      simp only [respondFile, htree]
      exact Or.inl ⟨rfl, htree, rfl⟩
    | some bytes =>
      simp only [respondFile, htree]
      exact Or.inr (Or.inl ⟨rfl, by simp [htree], rfl⟩)
  | openDirectory name =>
    cases htree : tree name with
    | none =>
      simp only [respondFile, htree]
      exact ⟨rfl, nofun⟩
    | some bytes =>
      simp only [respondFile, htree]
      exact ⟨rfl, fun _ => by simp [htree]⟩
  | openFile name =>
    cases htree : tree name with
    | none =>
      simp only [respondFile, htree]
      exact ⟨rfl, nofun⟩
    | some bytes =>
      simp only [respondFile, htree]
      exact ⟨rfl, fun _ => by simp [htree]⟩
  | readFile name =>
    cases htree : tree name with
    | none =>
      simp only [respondFile, htree]
      exact ⟨rfl, nofun⟩
    | some bytes =>
      simp only [respondFile, htree]
      refine ⟨rfl, ?_⟩
      intro read hread
      injection hread with hread
      rw [htree, hread]
  | listEntries listed =>
    refine ⟨rfl, ?_⟩
    intro entries hentries name
    injection hentries with hentries
    rw [← hentries, List.mem_filter]
    simp [hnames, Option.isSome_iff_ne_none]
  | rename old new =>
    cases hold : tree old with
    | none =>
      simp only [respondFile, hold]
      exact Or.inr ⟨⟨EEXIST, rfl⟩, rfl⟩
    | some bytes =>
      cases hnew : tree new with
      | none =>
        simp only [respondFile, hold, hnew]
        exact Or.inl ⟨rfl, by simp [hold], hnew, by rw [hold]⟩
      | some other =>
        simp only [respondFile, hold, hnew]
        exact Or.inr ⟨⟨EEXIST, rfl⟩, rfl⟩
  | unlink name =>
    cases htree : tree name with
    | none =>
      simp only [respondFile, htree]
      exact Or.inr ⟨⟨ENOENT, rfl⟩, rfl⟩
    | some bytes =>
      simp only [respondFile, htree]
      exact Or.inl ⟨rfl, by simp [htree], rfl⟩
  | removeDirectory name =>
    cases htree : tree name with
    | none =>
      simp only [respondFile, htree]
      exact Or.inr ⟨⟨ENOTEMPTY, rfl⟩, rfl⟩
    | some bytes =>
      cases hentries : hasEntries names parent tree name with
      | true =>
        simp only [respondFile, htree, hentries]
        exact Or.inr ⟨⟨ENOTEMPTY, rfl⟩, rfl⟩
      | false =>
        simp only [respondFile, htree, hentries]
        refine Or.inl ⟨rfl, by simp [htree], ?_, rfl⟩
        intro below hbelow
        have habsent := List.any_eq_false.mp hentries below (hnames below)
        simpa [hbelow] using habsent

end Machine

/-- The entries of a token, answered without failures. -/
def respondStore {Tree : Type} (empty : Tree) (isEmpty : Tree → Bool)
    (respondTree : Tree → (request : TreeRequest Name Extra) →
      TreeAnswer ExtraAnswer request × Tree) (state : TransactionState Tree) :
    (request : Request Name Extra) → Answer ExtraAnswer request × TransactionState Tree
  | .entryExists place => (Except.ok (state.entry place).isSome, state)
  | .makeStaging =>
    match state.staging with
    | none => (Except.ok (), state.makeStaging empty)
    | some _ => (Except.error EEXIST, state)
  | .openDirectory place =>
    match state.entry place with
    | some inode => (Except.ok inode, state)
    | none => (Except.error ENOENT, state)
  | .namedIdentity place =>
    match state.entry place with
    | some inode => (Except.ok inode, state)
    | none => (Except.error ENOENT, state)
  | .publish =>
    match state.staging, state.active with
    | some _, none => (Except.ok (), state.publish)
    | _, _ => (Except.error EEXIST, state)
  | .retire =>
    match state.active, state.used with
    | some _, none => (Except.ok (), state.retire)
    | _, _ => (Except.error EEXIST, state)
  | .removeStaging =>
    match state.staging with
    | none => (Except.error ENOENT, state)
    | some inode =>
      if isEmpty (state.tree inode) then (Except.ok (), state.removeStaging)
      else (Except.error ENOTEMPTY, state)
  | .synchronize _ => (Except.ok (), state)
  | .below directory request =>
    ((respondTree (state.tree directory) request).1,
      state.writeTree directory (respondTree (state.tree directory) request).2)

theorem respondStore_effect {empty : Tree} {isEmpty : Tree → Bool} {IsEmpty : Tree → Prop}
    {tree : Effect Tree (TreeRequest Name Extra) (TreeAnswer ExtraAnswer)}
    {respondTree : Tree → (request : TreeRequest Name Extra) →
      TreeAnswer ExtraAnswer request × Tree} (hempty : ∀ tree, isEmpty tree = true → IsEmpty tree)
    (hrespond : ∀ contents request, tree contents request (respondTree contents request).1
      (respondTree contents request).2) (state : TransactionState Tree)
    (request : Request Name Extra) :
    storeEffect empty IsEmpty tree state request
      (respondStore empty isEmpty respondTree state request).1
      (respondStore empty isEmpty respondTree state request).2 := by
  cases request with
  | entryExists place =>
    refine ⟨rfl, ?_⟩
    intro present hpresent
    injection hpresent with hpresent
    exact hpresent.symm
  | makeStaging =>
    cases hstaging : state.staging with
    | none =>
      simp only [respondStore, hstaging]
      exact Or.inl ⟨rfl, hstaging, rfl⟩
    | some inode =>
      simp only [respondStore, hstaging]
      exact Or.inr ⟨⟨EEXIST, rfl⟩, rfl⟩
  | openDirectory place =>
    cases hentry : state.entry place with
    | none =>
      simp only [respondStore, hentry]
      exact ⟨rfl, nofun, fun _ => hentry⟩
    | some inode =>
      simp only [respondStore, hentry]
      refine ⟨rfl, ?_, nofun⟩
      intro opened hopened
      injection hopened with hopened
      rw [hentry, hopened]
  | namedIdentity place =>
    cases hentry : state.entry place with
    | none =>
      simp only [respondStore, hentry]
      exact ⟨rfl, nofun⟩
    | some inode =>
      simp only [respondStore, hentry]
      refine ⟨rfl, ?_⟩
      intro named hnamed
      injection hnamed with hnamed
      rw [hentry, hnamed]
  | publish =>
    simp only [respondStore]
    split
    · rename_i hstaging hactive
      exact Or.inl ⟨rfl, by simp [hstaging], hactive, rfl⟩
    · exact Or.inr ⟨⟨EEXIST, rfl⟩, rfl⟩
  | retire =>
    simp only [respondStore]
    split
    · rename_i hactive hused
      exact Or.inl ⟨rfl, by simp [hactive], hused, rfl⟩
    · exact Or.inr ⟨⟨EEXIST, rfl⟩, rfl⟩
  | removeStaging =>
    simp only [respondStore]
    split
    · rename_i hstaging
      exact Or.inr ⟨⟨ENOENT, rfl, fun _ => hstaging⟩, rfl⟩
    · rename_i inode hstaging
      split
      · rename_i hisEmpty
        exact Or.inl ⟨rfl, ⟨inode, hstaging, hempty _ hisEmpty⟩, rfl⟩
      · exact Or.inr ⟨⟨ENOTEMPTY, rfl, nofun⟩, rfl⟩
  | synchronize directory => exact rfl
  | below directory request => exact ⟨_, hrespond (state.tree directory) request, rfl⟩

/-! ## Exceptions and loops -/

section Stages

variable {Call ε α : Type} {CallAnswer : Call → Type} (thrown : Errno → ε)

/-- A failed system call throws its `errno`. -/
def orThrow : Except Errno α → Stage Call CallAnswer Unit ε α
  | .ok value => Stage.pure value
  | .error errno => Stage.leave (thrown errno)

def check (condition : Bool) : Stage Call CallAnswer Unit ε Unit :=
  Stage.require condition (thrown 0)

/-- `try { .. } catch(...) { .. }`: what is thrown is handed to the handler. -/
def catching (body : Stage Call CallAnswer Unit ε α)
    (handler : ε → Stage Call CallAnswer Unit ε α) : Stage Call CallAnswer Unit ε α :=
  Program.bind body fun
    | .ok value => Stage.pure value
    | .error failure => handler failure

/-- A loop over a list. -/
def forEach (body : α → Stage Call CallAnswer Unit ε Unit) :
    List α → Stage Call CallAnswer Unit ε Unit
  | [] => Stage.pure ()
  | value :: rest => do
      body value
      forEach body rest

end Stages

/-! ## Helper functions -/

section Helpers

variable {ε α : Type}

abbrev StoreStage (Name Extra : Type) (ExtraAnswer : Extra → Type) (ε α : Type) : Type :=
  Stage (Request Name Extra) (Answer ExtraAnswer) Unit ε α

/-- A function that is given the descriptor of a transaction directory and
touches nothing else; the descriptor is the argument of `below`. -/
abbrev TreeStage (Name Extra : Type) (ExtraAnswer : Extra → Type) (ε α : Type) : Type :=
  Stage (TreeRequest Name Extra) (TreeAnswer ExtraAnswer) Unit ε α

def below (directory : Nat) (stage : TreeStage Name Extra ExtraAnswer ε α) :
    StoreStage Name Extra ExtraAnswer ε α :=
  Program.embed (Request.below directory) (fun _ answer => answer) stage

variable (thrown : Errno → ε)

def requireEntryAbsent (place : Place) : StoreStage Name Extra ExtraAnswer ε Unit := do
  let answer ← Stage.query () (Request.entryExists place)
  let present ← orThrow thrown answer
  check thrown !present

/-- `require_named_identity` for the directory of a token. -/
def requireNamedIdentity (place : Place) (directory : Nat) :
    StoreStage Name Extra ExtraAnswer ε Unit := do
  let answer ← Stage.query () (Request.namedIdentity place)
  let named ← orThrow thrown answer
  check thrown (named = directory)

/-- `open_directory_at` for the directory of a token. -/
def openDirectoryAt (place : Place) : StoreStage Name Extra ExtraAnswer ε Nat := do
  let answer ← Stage.query () (Request.openDirectory place)
  let directory ← orThrow thrown answer
  requireNamedIdentity thrown place directory
  Stage.pure directory

def openTransaction : StoreStage Name Extra ExtraAnswer ε Nat :=
  openDirectoryAt thrown .active

/-- `mkdirat` of the staging name. -/
def makeStaging : StoreStage Name Extra ExtraAnswer ε Unit := do
  let answer ← Stage.query () Request.makeStaging
  orThrow thrown answer

/-- `rename_noreplace` of the staging name to the token. -/
def publishTransaction : StoreStage Name Extra ExtraAnswer ε Unit := do
  let answer ← Stage.query () Request.publish
  orThrow thrown answer

/-- `rename_noreplace` of the token into the used directory. -/
def retireEntry : StoreStage Name Extra ExtraAnswer ε Unit := do
  let answer ← Stage.query () Request.retire
  orThrow thrown answer

def synchronizeDirectory (directory : StoreDirectory) :
    StoreStage Name Extra ExtraAnswer ε Unit := do
  let answer ← Stage.query () (Request.synchronize directory)
  orThrow thrown answer

/-- `retire_transaction`. -/
def retireTransaction (transaction : Nat) : StoreStage Name Extra ExtraAnswer ε Nat := do
  requireEntryAbsent thrown .used
  retireEntry thrown
  synchronizeDirectory thrown .active
  synchronizeDirectory thrown .used
  let retired ← openDirectoryAt thrown .used
  check thrown (transaction = retired)
  Stage.pure retired

/-- `cleanup_preparing_directory`: whether nothing is left under the name. What
is removed before the directory itself differs between the stores. -/
def cleanupStaging (clean : TreeStage Name Extra ExtraAnswer ε Unit) :
    StoreStage Name Extra ExtraAnswer ε Bool := do
  let opened ← Stage.query () (Request.openDirectory .staging)
  match opened with
  | .error errno => Stage.pure (errno = ENOENT)
  | .ok staging =>
    below staging clean
    let removed ← Stage.query () Request.removeStaging
    match removed with
    | .ok _ => Stage.pure true
    | .error errno => Stage.pure (errno = ENOENT)

/-! ### Inside the directory -/

def entryExists (name : Name) : TreeStage Name Extra ExtraAnswer ε Bool := do
  let answer ← Stage.query () (TreeRequest.file (.entryExists name))
  orThrow thrown answer

def createPrivateFile (name : Name) : TreeStage Name Extra ExtraAnswer ε Unit := do
  let answer ← Stage.query () (TreeRequest.file (.createFile name))
  orThrow thrown answer

def writeAll (name : Name) (bytes : Bytes) : TreeStage Name Extra ExtraAnswer ε Unit := do
  let answer ← Stage.query () (TreeRequest.file (.writeFile name bytes))
  orThrow thrown answer

def synchronizeFile (name : Option Name) : TreeStage Name Extra ExtraAnswer ε Unit := do
  let answer ← Stage.query () (TreeRequest.file (.synchronize name))
  orThrow thrown answer

/-- `open_directory_at` for a directory of the transaction. -/
def openDirectoryInside (name : Name) : TreeStage Name Extra ExtraAnswer ε Unit := do
  let answer ← Stage.query () (TreeRequest.file (.openDirectory name))
  orThrow thrown answer

def ensurePrivateDirectory (name : Name) : TreeStage Name Extra ExtraAnswer ε Unit := do
  let answer ← Stage.query () (TreeRequest.file (.makeDirectory name))
  orThrow thrown answer
  openDirectoryInside thrown name

def openPrivateFile (name : Name) : TreeStage Name Extra ExtraAnswer ε Unit := do
  let answer ← Stage.query () (TreeRequest.file (.openFile name))
  orThrow thrown answer

/-- `read_bounded` of a file that has been opened. -/
def readBounded (name : Name) (maximumBytes : Nat) :
    TreeStage Name Extra ExtraAnswer ε Bytes := do
  let answer ← Stage.query () (TreeRequest.file (.readFile name))
  let bytes ← orThrow thrown answer
  check thrown (bytes.length ≤ maximumBytes)
  Stage.pure bytes

/-- `rename_noreplace` inside the directory. -/
def renameNoreplace (old new : Name) : TreeStage Name Extra ExtraAnswer ε Unit := do
  let answer ← Stage.query () (TreeRequest.file (.rename old new))
  orThrow thrown answer

def unlinkFile (name : Name) : TreeStage Name Extra ExtraAnswer ε Unit := do
  let answer ← Stage.query () (TreeRequest.file (.unlink name))
  orThrow thrown answer

def removeDirectory (name : Name) : TreeStage Name Extra ExtraAnswer ε Unit := do
  let answer ← Stage.query () (TreeRequest.file (.removeDirectory name))
  orThrow thrown answer

/-- Both lists come without duplicates, so sorted they are equal when they have
the same members. -/
def sameEntries [DecidableEq Name] (entries expected : List Name) : Bool :=
  entries.all (fun name => name ∈ expected) && expected.all fun name => name ∈ entries

def requireExactEntries [DecidableEq Name] (listed : Option Name) (expected : List Name) :
    TreeStage Name Extra ExtraAnswer ε Unit := do
  let answer ← Stage.query () (TreeRequest.file (.listEntries listed))
  let entries ← orThrow thrown answer
  check thrown (sameEntries entries expected)

/-- `validate_optional_private_file`. -/
def validateOptionalPrivateFile (name : Name) : TreeStage Name Extra ExtraAnswer ε Unit := do
  let present ← entryExists thrown name
  if present then openPrivateFile thrown name else Stage.pure ()

end Helpers

end Moguet.Receipt.Transaction
