import Moguet.Plan.NumberedSelection
import Moguet.Plan.Selection

/-!
# The provider selection session

`ProviderSelectionSession` keeps the answers of one invocation: which
providers were chosen for a dependency name, and for which names the choice
was cancelled. A choice is recorded from explicit positions, found again among
the candidates a later question offers, or asked for at a prompt.
-/

namespace Moguet.Plan.ProviderSession

open Verified.ByteString Verified.Checked Constraint Metadata Discovery Interaction Selection
open NumberedSelection

variable {members : List ProvidedDependency}

variable {indices : List Nat} {index : Nat} {candidate : ProvidedDependency}
  {rest collected candidates : List ProvidedDependency}
  {name other dependencyName dependency : Bytes} {selection : ProviderSelectionSet}

/-- `dependency_package_name` of `dependency_spec.cpp`: the name part of a raw
specification. -/
def dependencyPackageName (dependency : Bytes) : Bytes :=
  let raw := trim dependency
  match splitAtFirst isOperatorByte raw with
  | none => raw
  | some (name, _) => trim name

/-! ## The session -/

/-- `selections_` is a map and is iterated by key; `cancelled_dependencies_`
is only asked for membership. -/
structure ProviderSelectionSession where
  isInteractive : Bool
  selections : List (Bytes × ProviderSelectionSet) := []
  cancelledDependencies : List Bytes := []

variable {session : ProviderSelectionSession}
  {outcome : Except Thrown (Option ProviderSelectionSet) × ProviderSelectionSession}

def emptyDependencyName : Thrown :=
  ⟨.invalidArgument, ascii "Provider selection requires a non-empty dependency name."⟩

def alreadyDecided : Thrown :=
  ⟨.logicError, ascii "Provider selection was already decided."⟩

/-- `selections_.emplace` for a name that is not in the map. -/
def insertSelection (name : Bytes) (selection : ProviderSelectionSet) :
    List (Bytes × ProviderSelectionSet) → List (Bytes × ProviderSelectionSet)
  | [] => [(name, selection)]
  | existing :: rest =>
    if name < existing.1 then (name, selection) :: existing :: rest
    else existing :: insertSelection name selection rest

/-- The first member of an earlier decision that gives the package of a new
member another identity. -/
def recordedConflict (selections : List (Bytes × ProviderSelectionSet))
    (selection : ProviderSelectionSet) : Option Thrown :=
  selections.findSome? fun existing =>
    selection.members.findSome? fun selected =>
      (existing.2.members.find? fun previous =>
        hasIncompatibleProviderPackageIdentity previous selected).map fun conflict =>
          ⟨.runtimeError, incompatibleProviders conflict selected⟩

/-- `record_provider_selection`. A throw leaves the session it was called on,
so the session is a second result. -/
def recordProviderSelection (session : ProviderSelectionSession) (dependency : Bytes)
    (candidates : List ProvidedDependency) (oneOriginIndices : List Nat) :
    Except Thrown ProviderSelectionSet × ProviderSelectionSession :=
  let dependencyName := dependencyPackageName dependency
  if dependencyName = [] then (.error emptyDependencyName, session)
  else if (findSelection session.selections dependencyName).isSome ∨
      dependencyName ∈ session.cancelledDependencies then
    (.error alreadyDecided, session)
  else
    match ProviderSelectionSet.fromCandidateIndices candidates oneOriginIndices with
    | .error thrown => (.error thrown, session)
    | .ok selection =>
      match recordedConflict session.selections selection with
      | some thrown => (.error thrown, session)
      | none =>
        (.ok selection,
          { session with
            selections := insertSelection dependencyName selection session.selections })

/-- The one-origin position of a recorded member among the candidates. -/
def currentIndex (dependencyName : Bytes) (candidates : List ProvidedDependency)
    (previous : ProvidedDependency) : Except Thrown Nat :=
  match candidates.findIdx? (sameProviderIdentity · previous) with
  | some index => .ok (index + 1)
  | none => .error (noLongerCandidate dependencyName)

/-- `reuse_provider_selection`. -/
def reuseProviderSelection (session : ProviderSelectionSession) (dependency : Bytes)
    (candidates : List ProvidedDependency) : Except Thrown (Option ProviderSelectionSet) :=
  let dependencyName := dependencyPackageName dependency
  if dependencyName = [] then .error emptyDependencyName
  else
    match findSelection session.selections dependencyName with
    | none => .ok none
    | some existing => do
        let currentIndices ← existing.members.mapM (currentIndex dependencyName candidates)
        let rebuilt ← ProviderSelectionSet.fromCandidateIndices candidates currentIndices
        .ok (some rebuilt)

/-! ## The prompt -/

/-- `std::isspace` in the C locale. -/
def isSpace (b : UInt8) : Bool := b = 32 || (9 ≤ b && b ≤ 13)

/-- `std::tolower` in the C locale. -/
def toLower (b : UInt8) : UInt8 := if isAsciiUpper b then b + 32 else b

def isCancelResponse (line : Bytes) : Bool :=
  let response := ((line.dropWhile isSpace).rdropWhile isSpace).map toLower
  response = [] || response = ascii "q" || response = ascii "quit" ||
    response = ascii "cancel"

def cancelDependency (session : ProviderSelectionSession) (dependencyName : Bytes) :
    ProviderSelectionSession :=
  { session with
    cancelledDependencies :=
      if dependencyName ∈ session.cancelledDependencies then session.cancelledDependencies
      else session.cancelledDependencies ++ [dependencyName] }

/-- The prompt loop: a line that is no selection is asked for again, and the
end of the input cancels. -/
def promptForSelection (session : ProviderSelectionSession) (dependencyName : Bytes)
    (candidates : List ProvidedDependency) :
    List Bytes → Except Thrown (Option ProviderSelectionSet) × ProviderSelectionSession
  | [] => (.ok none, cancelDependency session dependencyName)
  | line :: rest =>
    if isCancelResponse line then (.ok none, cancelDependency session dependencyName)
    else
      match selectedIndices line candidates.length with
      | .error _ => promptForSelection session dependencyName candidates rest
      | .ok indices =>
        let recorded := recordProviderSelection session dependencyName candidates indices
        (recorded.1.map some, recorded.2)

/-- `select_provider_set`; `lines` is what the input still holds. -/
def selectProviderSet (session : ProviderSelectionSession) (dependency : Bytes)
    (candidates : List ProvidedDependency) (lines : List Bytes) :
    Except Thrown (Option ProviderSelectionSet) × ProviderSelectionSession :=
  match reuseProviderSelection session dependency candidates with
  | .error thrown => (.error thrown, session)
  | .ok (some cached) => (.ok (some cached), session)
  | .ok none =>
    let dependencyName := dependencyPackageName dependency
    if dependencyName = [] then (.error emptyDependencyName, session)
    else if dependencyName ∈ session.cancelledDependencies then (.ok none, session)
    else if !session.isInteractive || candidates.length < 2 then (.ok none, session)
    else promptForSelection session dependencyName candidates lines

/-! ## Runs -/

/-- One call of the session's interface. A choice is cancelled at the prompt,
so `select` is also the cancelling operation. -/
inductive SessionOperation
  | record (dependency : Bytes) (candidates : List ProvidedDependency)
      (oneOriginIndices : List Nat)
  | reuse (dependency : Bytes) (candidates : List ProvidedDependency)
  | select (dependency : Bytes) (candidates : List ProvidedDependency) (lines : List Bytes)

def runOperation (session : ProviderSelectionSession) :
    SessionOperation →
      Except Thrown (Option ProviderSelectionSet) × ProviderSelectionSession
  | .record dependency candidates oneOriginIndices =>
    let recorded := recordProviderSelection session dependency candidates oneOriginIndices
    (recorded.1.map some, recorded.2)
  | .reuse dependency candidates =>
    (reuseProviderSelection session dependency candidates, session)
  | .select dependency candidates lines =>
    selectProviderSet session dependency candidates lines

/-- The session after a sequence of calls, thrown or not. -/
def runSession (session : ProviderSelectionSession) (operations : List SessionOperation) :
    ProviderSelectionSession :=
  operations.foldl (fun session operation => (runOperation session operation).2) session

def newSession (isInteractive : Bool) : ProviderSelectionSession :=
  { isInteractive := isInteractive }

/-! ## Rebuilt selections -/

/-- No package has two identities among the providers. -/
def Compatible (members : List ProvidedDependency) : Prop :=
  ∀ first ∈ members, ∀ second ∈ members,
    first.packageName = second.packageName → sameProviderIdentity first second = true

theorem sameProviderIdentity_of_not_incompatible {first second : ProvidedDependency}
    (h : ¬ hasIncompatibleProviderPackageIdentity first second = true)
    (hname : first.packageName = second.packageName) :
    sameProviderIdentity first second = true := by
  by_contra hdifferent
  rw [Bool.not_eq_true] at hdifferent
  apply h
  simp [hasIncompatibleProviderPackageIdentity, hname, hdifferent]

/-- Lists that are compatible in themselves and across are compatible. -/
theorem compatible_append {front back : List ProvidedDependency} (hfront : Compatible front)
    (hback : Compatible back)
    (hacross : ∀ first ∈ front, ∀ second ∈ back,
      first.packageName = second.packageName → sameProviderIdentity first second = true) :
    Compatible (front ++ back) := by
  intro first hfirst second hsecond hname
  rcases List.mem_append.mp hfirst with hf | hf
  · rcases List.mem_append.mp hsecond with hs | hs
    · exact hfront first hf second hs hname
    · exact hacross first hf second hs hname
  · rcases List.mem_append.mp hsecond with hs | hs
    · exact sameProviderIdentity_symm (hacross second hs first hf hname.symm)
    · exact hback first hf second hs hname

theorem compatible_singleton (member : ProvidedDependency) : Compatible [member] := by
  intro first hfirst second hsecond _
  rw [List.mem_singleton.mp hfirst, List.mem_singleton.mp hsecond]
  exact sameProviderIdentity_refl member

/-- No identity occurs twice among the providers. -/
def Distinct (members : List ProvidedDependency) : Prop :=
  members.Pairwise fun first second => sameProviderIdentity first second = false

/-- What the collection of selected candidates comes to. -/
structure Collected (indices : List Nat) (index : Nat)
    (candidates members collected : List ProvidedDependency) : Prop where
  compatible : Compatible members → Compatible collected
  distinct : Distinct members → Distinct collected
  added : ∃ added, collected = members ++ added ∧ added.Sublist candidates
  complete : ∀ position candidate, candidates[position]? = some candidate →
    index + position ∈ indices →
    ∃ member ∈ collected, sameProviderIdentity member candidate = true

/-- A candidate that is passed over, because it is not selected or because its
identity is a member already. -/
theorem Collected.skip (h : Collected indices (index + 1) rest members collected)
    (hskip : index ∈ indices → ∃ member ∈ members, sameProviderIdentity member candidate = true) :
    Collected indices index (candidate :: rest) members collected := by
  obtain ⟨added, hcollected, hsublist⟩ := h.added
  refine ⟨h.compatible, h.distinct, ⟨added, hcollected, hsublist.cons _⟩, ?_⟩
  intro position other hat hindex
  cases position with
  | zero =>
    have hother : candidate = other := by simpa using hat
    obtain ⟨member, hmem, hsame⟩ := hskip hindex
    rw [← hother, hcollected]
    exact ⟨member, List.mem_append_left _ hmem, hsame⟩
  | succ position =>
    apply h.complete position other (by simpa using hat)
    rw [show index + 1 + position = index + (position + 1) by omega]
    exact hindex

/-- A candidate that becomes a member. -/
theorem Collected.take (h : Collected indices (index + 1) rest (members ++ [candidate]) collected)
    (hnew : ¬ members.any (sameProviderIdentity · candidate) = true)
    (hnone : members.find? (fun member =>
      hasIncompatibleProviderPackageIdentity member candidate) = none) :
    Collected indices index (candidate :: rest) members collected := by
  obtain ⟨added, hcollected, hsublist⟩ := h.added
  refine ⟨?_, ?_, ⟨candidate :: added, ?_, hsublist.cons_cons _⟩, ?_⟩
  · intro hmembers
    apply h.compatible
    apply compatible_append hmembers (compatible_singleton candidate)
    intro first hfirst second hsecond hname
    rw [List.mem_singleton.mp hsecond] at hname ⊢
    exact sameProviderIdentity_of_not_incompatible (List.find?_eq_none.mp hnone first hfirst) hname
  · intro hmembers
    apply h.distinct
    refine List.pairwise_append.mpr ⟨hmembers, List.pairwise_singleton _ _, ?_⟩
    intro first hfirst second hsecond
    rw [List.mem_singleton.mp hsecond, ← Bool.not_eq_true]
    intro hsame
    exact hnew (List.any_eq_true.mpr ⟨first, hfirst, hsame⟩)
  · rw [hcollected, List.append_assoc, List.singleton_append]
  · intro position other hat hindex
    cases position with
    | zero =>
      have hother : candidate = other := by simpa using hat
      refine ⟨candidate, ?_, ?_⟩
      · rw [hcollected]
        simp
      · rw [← hother]
        exact sameProviderIdentity_refl candidate
    | succ position =>
      apply h.complete position other (by simpa using hat)
      rw [show index + 1 + position = index + (position + 1) by omega]
      exact hindex

theorem collectMembers_collected :
    ∀ {candidates members collected : List ProvidedDependency} {index : Nat},
      collectMembers indices index candidates members = .ok collected →
      Collected indices index candidates members collected := by
  intro candidates
  induction candidates with
  | nil =>
    intro members collected index h
    injection h with h
    rw [← h]
    refine ⟨fun hmembers => hmembers, fun hmembers => hmembers, ⟨[], by simp⟩, ?_⟩
    intro position candidate hat
    simp at hat
  | cons candidate rest ih =>
    intro members collected index h
    unfold collectMembers at h
    by_cases hselected : index ∈ indices
    · rw [if_neg (not_not.mpr hselected)] at h
      by_cases hduplicate : members.any (sameProviderIdentity · candidate) = true
      · rw [if_pos hduplicate] at h
        apply Collected.skip (ih h)
        intro _
        simpa using hduplicate
      · rw [if_neg hduplicate] at h
        split at h
        · cases h
        · rename_i hnone
          exact Collected.take (ih h) hduplicate hnone
    · rw [if_pos hselected] at h
      exact Collected.skip (ih h) fun hmem => absurd hmem hselected

/-- A selection built from positions: compatible, in candidate order, and with
the identity of every selected candidate. -/
theorem fromCandidateIndices_collected {set : ProviderSelectionSet}
    (h : ProviderSelectionSet.fromCandidateIndices candidates indices = .ok set) :
    Compatible set.members ∧ Distinct set.members ∧ set.members.Sublist candidates ∧
      ∀ position candidate, candidates[position]? = some candidate → position + 1 ∈ indices →
        ∃ member ∈ set.members, sameProviderIdentity member candidate = true := by
  unfold ProviderSelectionSet.fromCandidateIndices at h
  split at h
  · cases h
  · split at h
    · cases h
    · split at h
      · cases h
      · rename_i members hcollected
        split at h
        · cases h
        · injection h with h
          rw [← h]
          have hspec := collectMembers_collected hcollected
          obtain ⟨added, hadded, hsublist⟩ := hspec.added
          refine ⟨hspec.compatible (by intro first hfirst; cases hfirst),
            hspec.distinct List.Pairwise.nil, ?_, ?_⟩
          · show members.Sublist candidates
            rw [hadded, List.nil_append]
            exact hsublist
          · intro position candidate hat hindex
            apply hspec.complete position candidate hat
            rw [Nat.add_comm]
            exact hindex

/-! ## One operation -/

theorem mem_insertSelection {item : Bytes × ProviderSelectionSet} :
    ∀ {selections : List (Bytes × ProviderSelectionSet)},
      item ∈ insertSelection name selection selections ↔
        item = (name, selection) ∨ item ∈ selections := by
  intro selections
  induction selections with
  | nil => simp [insertSelection]
  | cons existing rest ih =>
    unfold insertSelection
    split
    · simp
    · rw [List.mem_cons, ih, List.mem_cons]
      exact or_left_comm

theorem findSelection_insertSelection : ∀ {selections : List (Bytes × ProviderSelectionSet)},
      findSelection selections name = none →
      findSelection (insertSelection name selection selections) other =
        if other = name then some selection else findSelection selections other := by
  intro selections
  induction selections with
  | nil =>
    intro _
    by_cases hsame : other = name
    · simp [insertSelection, findSelection, hsame]
    · have hother : ¬ name = other := fun h => hsame h.symm
      simp [insertSelection, findSelection, hsame, hother]
  | cons existing rest ih =>
    intro hnone
    have hexisting : ¬ existing.1 = name := by
      intro hname
      simp [findSelection, hname] at hnone
    have hrest : findSelection rest name = none := by
      simpa [findSelection, hexisting] using hnone
    have htail := ih hrest
    unfold insertSelection
    split
    · by_cases hsame : other = name
      · simp [findSelection, hsame]
      · have hother : ¬ name = other := fun h => hsame h.symm
        simp [findSelection, hsame, hother]
    · unfold findSelection at htail ⊢
      by_cases hfirst : existing.1 = other
      · have hsame : ¬ other = name := fun h => hexisting (hfirst.trans h)
        simp [hfirst, hsame]
      · rw [List.find?_cons_of_neg (by simpa using hfirst), htail,
          List.find?_cons_of_neg (by simpa using hfirst)]

theorem recordedConflict_none {selections : List (Bytes × ProviderSelectionSet)}
    (h : recordedConflict selections selection = none) :
    ∀ existing ∈ selections, ∀ previous ∈ existing.2.members, ∀ selected ∈ selection.members,
      previous.packageName = selected.packageName →
      sameProviderIdentity previous selected = true := by
  intro existing hexisting previous hprevious selected hselected hname
  unfold recordedConflict at h
  have hmember := List.findSome?_eq_none_iff.mp h existing hexisting
  have hfind := List.findSome?_eq_none_iff.mp hmember selected hselected
  rw [Option.map_eq_none_iff, List.find?_eq_none] at hfind
  exact sameProviderIdentity_of_not_incompatible (hfind previous hprevious) hname

/-- Everything an operation can do to a session, with its result. -/
inductive Decision (session : ProviderSelectionSession) :
    Except Thrown (Option ProviderSelectionSet) × ProviderSelectionSession → Prop
  | kept (result : Except Thrown (Option ProviderSelectionSet)) :
      Decision session (result, session)
  | recorded (name : Bytes) (selection : ProviderSelectionSet)
      (hundecided : findSelection session.selections name = none)
      (hopen : name ∉ session.cancelledDependencies)
      (hcompatible : Compatible selection.members)
      (hconflict : recordedConflict session.selections selection = none) :
      Decision session (.ok (some selection),
        { session with selections := insertSelection name selection session.selections })
  | cancelled (name : Bytes)
      (hundecided : findSelection session.selections name = none) :
      Decision session (.ok none, cancelDependency session name)

theorem recordProviderSelection_decision (session : ProviderSelectionSession)
    (dependency : Bytes) (candidates : List ProvidedDependency) (indices : List Nat) :
    Decision session ((recordProviderSelection session dependency candidates indices).1.map some,
        (recordProviderSelection session dependency candidates indices).2) := by
  unfold recordProviderSelection
  dsimp only
  split
  · exact Decision.kept _
  · split
    · exact Decision.kept _
    · rename_i hopen
      rw [not_or] at hopen
      split
      · exact Decision.kept _
      · rename_i selection hselection
        split
        · exact Decision.kept _
        · rename_i hconflict
          exact Decision.recorded (dependencyPackageName dependency) selection
            (by simpa using hopen.1) hopen.2
            (fromCandidateIndices_collected hselection).1 hconflict

theorem promptForSelection_decision
    (hundecided : findSelection session.selections dependencyName = none) :
    ∀ lines : List Bytes,
      Decision session (promptForSelection session dependencyName candidates lines) := by
  intro lines
  induction lines with
  | nil => exact Decision.cancelled dependencyName hundecided
  | cons line rest ih =>
    unfold promptForSelection
    split
    · exact Decision.cancelled dependencyName hundecided
    · split
      · exact ih
      · exact recordProviderSelection_decision session dependencyName candidates _

theorem reuseProviderSelection_none
    (h : reuseProviderSelection session dependency candidates = .ok none) :
    findSelection session.selections (dependencyPackageName dependency) = none := by
  unfold reuseProviderSelection at h
  dsimp only at h
  split at h
  · cases h
  · split at h
    · rename_i hnone
      exact hnone
    · simp only [bind_eq_ok] at h
      obtain ⟨_, _, _, _, h⟩ := h
      cases h

theorem runOperation_decision (session : ProviderSelectionSession)
    (operation : SessionOperation) : Decision session (runOperation session operation) := by
  cases operation with
  | record dependency candidates indices =>
    exact recordProviderSelection_decision session dependency candidates indices
  | reuse dependency candidates => exact Decision.kept _
  | select dependency candidates lines =>
    show Decision session (selectProviderSet session dependency candidates lines)
    unfold selectProviderSet
    split
    · exact Decision.kept _
    · exact Decision.kept _
    · rename_i hnone
      dsimp only
      split
      · exact Decision.kept _
      · split
        · exact Decision.kept _
        · split
          · exact Decision.kept _
          · exact promptForSelection_decision (reuseProviderSelection_none hnone) lines

/-! ## Sessions over runs -/

/-- The members of all decisions of a session. -/
def selectedMembers (session : ProviderSelectionSession) : List ProvidedDependency :=
  session.selections.flatMap fun selection => selection.2.members

structure Consistent (session : ProviderSelectionSession) : Prop where
  compatible : Compatible (selectedMembers session)
  undecided : ∀ name ∈ session.cancelledDependencies,
    findSelection session.selections name = none

/-- A later session with the decisions of an earlier one. -/
structure Extends (earlier later : ProviderSelectionSession) : Prop where
  decided : ∀ name selection, findSelection earlier.selections name = some selection →
    findSelection later.selections name = some selection
  cancelled : ∀ name ∈ earlier.cancelledDependencies, name ∈ later.cancelledDependencies

theorem mem_cancelDependency : other ∈ (cancelDependency session name).cancelledDependencies ↔
      other = name ∨ other ∈ session.cancelledDependencies := by
  unfold cancelDependency
  by_cases hmem : name ∈ session.cancelledDependencies
  · rw [if_pos hmem]
    constructor
    · exact Or.inr
    · rintro (rfl | hother)
      · exact hmem
      · exact hother
  · rw [if_neg hmem, List.mem_append, List.mem_singleton]
    exact or_comm

theorem consistent_of_decision (h : Decision session outcome) (hsession : Consistent session) :
    Consistent outcome.2 := by
  cases h with
  | kept result => exact hsession
  | recorded name selection hundecided hopen hcompatible hconflict =>
    constructor
    · have hall : Compatible (selectedMembers session ++ selection.members) := by
        apply compatible_append hsession.compatible hcompatible
        intro previous hprevious selected hselected hname
        obtain ⟨existing, hexisting, hmember⟩ := List.mem_flatMap.mp hprevious
        exact recordedConflict_none hconflict existing hexisting previous hmember selected
          hselected hname
      have hincluded : ∀ member, member ∈ selectedMembers
            { session with
              selections := insertSelection name selection session.selections } →
          member ∈ selectedMembers session ++ selection.members := by
        intro member hmember
        obtain ⟨item, hitem, hin⟩ := List.mem_flatMap.mp hmember
        rcases mem_insertSelection.mp hitem with rfl | hold
        · exact List.mem_append_right _ hin
        · exact List.mem_append_left _ (List.mem_flatMap.mpr ⟨item, hold, hin⟩)
      intro first hfirst second hsecond
      exact hall first (hincluded first hfirst) second (hincluded second hsecond)
    · intro other hother
      have hne : ¬ other = name := by
        rintro rfl
        exact hopen hother
      show findSelection (insertSelection name selection session.selections) other = none
      rw [findSelection_insertSelection hundecided, if_neg hne]
      exact hsession.undecided other hother
  | cancelled name hundecided =>
    constructor
    · exact hsession.compatible
    · intro other hother
      show findSelection session.selections other = none
      rcases mem_cancelDependency.mp hother with rfl | hold
      · exact hundecided
      · exact hsession.undecided other hold

theorem extends_of_decision (h : Decision session outcome) : Extends session outcome.2 := by
  cases h with
  | kept result => exact ⟨fun _ _ hfound => hfound, fun _ hmem => hmem⟩
  | recorded name selection hundecided hopen hcompatible hconflict =>
    refine ⟨?_, fun _ hmem => hmem⟩
    intro other stored hstored
    have hne : ¬ other = name := by
      rintro rfl
      rw [hundecided] at hstored
      cases hstored
    show findSelection (insertSelection name selection session.selections) other = some stored
    rw [findSelection_insertSelection hundecided, if_neg hne]
    exact hstored
  | cancelled name hundecided =>
    refine ⟨fun _ _ hfound => hfound, ?_⟩
    intro other hother
    exact mem_cancelDependency.mpr (Or.inr hother)

theorem runSession_consistent :
    ∀ {operations : List SessionOperation} {session : ProviderSelectionSession},
      Consistent session → Consistent (runSession session operations) := by
  intro operations
  induction operations with
  | nil => intro session h; exact h
  | cons operation rest ih =>
    intro session h
    exact ih (consistent_of_decision (runOperation_decision session operation) h)

theorem runSession_extends :
    ∀ {operations : List SessionOperation} {session : ProviderSelectionSession},
      Extends session (runSession session operations) := by
  intro operations
  induction operations with
  | nil => intro session; exact ⟨fun _ _ hfound => hfound, fun _ hmem => hmem⟩
  | cons operation rest ih =>
    intro session
    have hstep := extends_of_decision (runOperation_decision session operation)
    have hrest : Extends (runOperation session operation).2
        (runSession session (operation :: rest)) := ih
    constructor
    · intro name selection hfound
      exact hrest.decided name selection (hstep.decided name selection hfound)
    · intro name hmem
      exact hrest.cancelled name (hstep.cancelled name hmem)

theorem newSession_consistent (isInteractive : Bool) : Consistent (newSession isInteractive) := by
  constructor
  · intro first hfirst
    cases hfirst
  · intro name hname
    cases hname

/-! ## Reuse -/

/-- A selection found again: members are offered candidates, in their order,
and have the recorded identities, each once. -/
structure Rebuilt (candidates : List ProvidedDependency)
    (stored reused : ProviderSelectionSet) : Prop where
  offered : reused.members.Sublist candidates
  distinct : Distinct reused.members
  recorded : ∀ member ∈ reused.members,
    ∃ previous ∈ stored.members, sameProviderIdentity member previous = true
  complete : ∀ previous ∈ stored.members,
    ∃ member ∈ reused.members, sameProviderIdentity member previous = true

theorem currentIndex_ok {previous : ProvidedDependency}
    (h : currentIndex dependencyName candidates previous = .ok index) :
    ∃ position candidate, index = position + 1 ∧ candidates[position]? = some candidate ∧
      sameProviderIdentity candidate previous = true := by
  unfold currentIndex at h
  split at h
  · rename_i position hposition
    injection h with h
    rw [List.findIdx?_eq_some_iff_getElem] at hposition
    obtain ⟨hlt, hsame, _⟩ := hposition
    exact ⟨position, candidates[position], h.symm, List.getElem?_eq_getElem hlt, hsame⟩
  · cases h

theorem reuseProviderSelection_rebuilt {reused : ProviderSelectionSet}
    (h : reuseProviderSelection session dependency candidates = .ok (some reused)) :
    ∃ stored, findSelection session.selections (dependencyPackageName dependency) =
        some stored ∧ Rebuilt candidates stored reused := by
  unfold reuseProviderSelection at h
  dsimp only at h
  split at h
  · cases h
  · split at h
    · cases h
    · rename_i stored hstored
      simp only [bind_eq_ok] at h
      obtain ⟨indices, hindices, rebuilt, hrebuilt, h⟩ := h
      injection h with h
      injection h with h
      rw [h] at hrebuilt
      obtain ⟨_, hdistinct, hsublist, hcomplete⟩ := fromCandidateIndices_collected hrebuilt
      refine ⟨stored, hstored, hsublist, hdistinct, ?_, ?_⟩
      · intro member hmember
        obtain ⟨position, hat, hindex⟩ := fromCandidateIndices_mem hrebuilt member hmember
        obtain ⟨previous, hprevious, hcurrent⟩ := mapM_ok_mem hindices _ hindex
        obtain ⟨position', candidate, heq, hat', hsame⟩ := currentIndex_ok hcurrent
        have hposition : position' = position := by omega
        rw [hposition, hat] at hat'
        injection hat' with hcandidate
        rw [← hcandidate] at hsame
        exact ⟨previous, hprevious, hsame⟩
      · intro previous hprevious
        obtain ⟨index, hindex, hcurrent⟩ := mapM_ok_image hindices previous hprevious
        obtain ⟨position, candidate, heq, hat, hsame⟩ := currentIndex_ok hcurrent
        rw [heq] at hindex
        obtain ⟨member, hmember, hidentity⟩ := hcomplete position candidate hat hindex
        exact ⟨member, hmember, sameProviderIdentity_trans hidentity hsame⟩

/-- What a session holds after any operations. The members selected anywhere
have one identity for each package. A name that is decided keeps its selection
and is never cancelled, and one that is cancelled stays so and undecided,
whatever follows. A selection found again is the recorded one. A throw leaves
the session alone. -/
theorem runSession_keeps_decisions (isInteractive : Bool)
    (operations : List SessionOperation) :
    let session := runSession (newSession isInteractive) operations
    (∀ first ∈ selectedMembers session, ∀ second ∈ selectedMembers session,
      first.packageName = second.packageName → sameProviderIdentity first second = true) ∧
    (∀ later name,
      (∀ selection, findSelection session.selections name = some selection →
        findSelection (runSession session later).selections name = some selection ∧
          name ∉ (runSession session later).cancelledDependencies) ∧
      (name ∈ session.cancelledDependencies →
        name ∈ (runSession session later).cancelledDependencies ∧
          findSelection (runSession session later).selections name = none)) ∧
    (∀ dependency candidates reused,
      reuseProviderSelection session dependency candidates = .ok (some reused) →
      ∃ stored, findSelection session.selections (dependencyPackageName dependency) =
          some stored ∧ Rebuilt candidates stored reused) ∧
    (∀ operation thrown, (runOperation session operation).1 = .error thrown →
      (runOperation session operation).2 = session) := by
  intro session
  have hsession : Consistent session :=
    runSession_consistent (newSession_consistent isInteractive)
  refine ⟨hsession.compatible, ?_, ?_, ?_⟩
  · intro later name
    have hlater : Consistent (runSession session later) := runSession_consistent hsession
    have hextends : Extends session (runSession session later) := runSession_extends
    constructor
    · intro selection hfound
      have hkept := hextends.decided name selection hfound
      refine ⟨hkept, ?_⟩
      intro hcancelled
      rw [hlater.undecided name hcancelled] at hkept
      cases hkept
    · intro hcancelled
      have hkept := hextends.cancelled name hcancelled
      exact ⟨hkept, hlater.undecided name hkept⟩
  · intro dependency candidates reused hreused
    exact reuseProviderSelection_rebuilt hreused
  · intro operation thrown hthrown
    have hdecision := runOperation_decision session operation
    generalize runOperation session operation = outcome at hdecision hthrown
    cases hdecision with
    | kept result => rfl
    | recorded name selection hundecided hopen hcompatible hconflict => cases hthrown
    | cancelled name hundecided => cases hthrown

end Moguet.Plan.ProviderSession
