import Moguet.Verified.Upsert
import Moguet.Plan.Constraint
import Moguet.Plan.NumberedAtoms

/-!
# Selecting root packages

`root_package_selection.cpp`: the line typed at the prompt of a package search.
Words that start with `@` name groups of repository packages; they are blanked
out of the line, and what is left is a numeric selection expression. The group
members count as included indices, and the selected candidates are collected in
display order, each identity once. Two sources of one package are a conflict.
-/

namespace Moguet.Plan.RootSelection

open Verified.ByteString Verified.Pieces Verified.Upsert
open Plan.Constraint (isValidPackageName isValidPackageName_bytes isIdentifierByte)
open NumberedSelection

variable {token : Bytes}

inductive RootPackageIdentity
  | repository (repositoryName packageName : Bytes)
  | aur (packageName packageBase : Bytes)
  deriving DecidableEq

variable {identity : RootPackageIdentity}

inductive RootPackageSourceKind
  | repository
  | aur
  deriving DecidableEq

def rootPackageSourceKind : RootPackageIdentity → RootPackageSourceKind
  | .repository _ _ => .repository
  | .aur _ _ => .aur

def rootPackageName : RootPackageIdentity → Bytes
  | .repository _ packageName => packageName
  | .aur packageName _ => packageName

structure RootPackageSearchCandidate where
  identity : RootPackageIdentity
  selectableGroupNames : List Bytes := []

structure RootPackageSearchSnapshot where
  candidates : List RootPackageSearchCandidate

inductive RootPackageSelectionCancellationReason
  | emptyInput
  | cancelToken
  | endOfInput
  deriving DecidableEq

inductive RootPackageSelectionIssue
  | malformedToken (token : Bytes)
  | indexOutOfRange (token : Bytes) (candidateCount : Nat)
  | descendingRange (token : Bytes)
  | emptyCommaField
  | emptyResult
  | unknownGroup (groupName : Bytes)
  | mixedCancellationToken (token : Bytes)
  | conflictingAlternatives (packageName : Bytes) (identities : List RootPackageIdentity)
  deriving DecidableEq

inductive RootPackageSelectionExpressionResult
  | selection (targets : List RootPackageIdentity)
  | cancelled (reason : RootPackageSelectionCancellationReason)
  | invalid (issues : List RootPackageSelectionIssue)
  deriving DecidableEq

def trimAsciiWhitespace (value : Bytes) : Bytes :=
  (value.dropWhile isAsciiWhitespace).rdropWhile isAsciiWhitespace

def asciiLower (value : Bytes) : Bytes :=
  value.map fun b => if isAsciiUpper b then b + 32 else b

def isCancelToken (value : Bytes) : Bool :=
  let lowered := asciiLower value
  lowered = ascii "q" || lowered = ascii "quit" || lowered = ascii "cancel"

/-- Whether the candidate is a repository package of the group. -/
def isGroupMember (groupName : Bytes) (candidate : RootPackageSearchCandidate) : Bool :=
  rootPackageSourceKind candidate.identity = .repository &&
    groupName ∈ candidate.selectableGroupNames

/-- `select_group_members`: the indices of the members, or what is wrong. -/
def selectGroupMembers (token : Bytes) (snapshot : RootPackageSearchSnapshot) :
    Except RootPackageSelectionIssue (List Nat) :=
  let groupName := token.drop 1
  if isValidPackageName groupName then
    let indices := (snapshot.candidates.zipIdx 1).filterMap fun item =>
      if isGroupMember groupName item.1 then some item.2 else none
    if indices = [] then .error (.unknownGroup groupName) else .ok indices
  else .error (.malformedToken token)

def projectNumericIssue (issue : SelectionExpressionIssue) (candidateCount : Nat) :
    RootPackageSelectionIssue :=
  match issue.kind with
  | .malformedToken =>
    if isCancelToken issue.token then .mixedCancellationToken issue.token
    else .malformedToken issue.token
  | .emptyCommaField => .emptyCommaField
  | .indexOutOfRange => .indexOutOfRange issue.token candidateCount
  | .descendingRange => .descendingRange issue.token
  | .emptyResultAfterExclusion => .emptyResult

/-- What the words read so far leave: the line with its group words blanked, the
issues with their offsets, and the indices of the group members. -/
structure GroupScan where
  numericInput : Bytes := []
  orderedIssues : List (Nat × RootPackageSelectionIssue) := []
  groupIndices : List Nat := []

def isGroupWord (token : Bytes) : Bool := token.head? = some (byte '@')

def scanGroupWord (snapshot : RootPackageSearchSnapshot) (start : Nat) (token : Bytes)
    (state : GroupScan) : GroupScan :=
  if isGroupWord token then
    let blanked := state.numericInput ++ List.replicate token.length (byte ' ')
    match selectGroupMembers token snapshot with
    | .error issue =>
      { state with
        numericInput := blanked
        orderedIssues := state.orderedIssues ++ [(start, issue)] }
    | .ok indices =>
      { state with
        numericInput := blanked
        groupIndices := state.groupIndices ++ indices }
  else { state with numericInput := state.numericInput ++ token }

/-- The loop over the line, word by word. A round takes at least one byte, so the
length of the line is enough rounds. -/
def scanGroupWords (snapshot : RootPackageSearchSnapshot) :
    Nat → Nat → Bytes → GroupScan → GroupScan
  | 0, _, _, state => state
  | _ + 1, _, [], state => state
  | rounds + 1, offset, b :: rest, state =>
    if isAsciiWhitespace b then
      scanGroupWords snapshot rounds (offset + 1) rest
        { state with numericInput := state.numericInput ++ [b] }
    else
      let token := (b :: rest).takeWhile fun c => !isAsciiWhitespace c
      scanGroupWords snapshot rounds (offset + token.length)
        ((b :: rest).drop token.length) (scanGroupWord snapshot offset token state)

structure SelectedPackageIdentitySet where
  packageName : Bytes
  identities : List RootPackageIdentity

structure Targets where
  selected : List RootPackageIdentity := []
  identitiesByPackage : List SelectedPackageIdentitySet := []

/-- One selected candidate; a second one of the same identity adds nothing. -/
def chooseTarget (state : Targets) (identity : RootPackageIdentity) : Targets :=
  if identity ∈ state.selected then state
  else {
    selected := state.selected ++ [identity]
    identitiesByPackage :=
      upsert (fun entry => entry.packageName = rootPackageName identity)
        (fun entry => { entry with identities := entry.identities ++ [identity] })
        ⟨rootPackageName identity, [identity]⟩ state.identitiesByPackage }

def conflicts (state : Targets) : List RootPackageSelectionIssue :=
  (state.identitiesByPackage.filter fun entry => 1 < entry.identities.length).map fun entry =>
    .conflictingAlternatives entry.packageName entry.identities

/-- The identities of the candidates under one-origin indices. -/
def identitiesAt (snapshot : RootPackageSearchSnapshot) (indices : List Nat) :
    List RootPackageIdentity :=
  indices.filterMap fun index =>
    (snapshot.candidates[index - 1]?).map RootPackageSearchCandidate.identity

/-- The issues of the groups and of the numeric expression, by their offsets. -/
def lineIssues (scanned : GroupScan) (parsed : SelectionExpressionParseResult)
    (candidateCount : Nat) : List RootPackageSelectionIssue :=
  ((scanned.orderedIssues ++ parsed.issues.map fun issue =>
    (issue.offset, projectNumericIssue issue candidateCount)).insertionSort
      fun left right => left.1 ≤ right.1).map Prod.snd

/-- The selected candidates, once the line has no issue. -/
def selectIndices (snapshot : RootPackageSearchSnapshot) (indices : List Nat) :
    RootPackageSelectionExpressionResult :=
  let targets := (identitiesAt snapshot indices).foldl chooseTarget {}
  if conflicts targets = [] then .selection targets.selected else .invalid (conflicts targets)

def parseRootPackageSelection (input : Bytes) (snapshot : RootPackageSearchSnapshot) :
    RootPackageSelectionExpressionResult :=
  let trimmed := trimAsciiWhitespace input
  if trimmed = [] then .cancelled .emptyInput
  else if isCancelToken trimmed then .cancelled .cancelToken
  else
    let candidateCount := snapshot.candidates.length
    let scanned := scanGroupWords snapshot input.length 0 input {}
    let parsed := parseSelectionExpression scanned.numericInput candidateCount
    let issues := lineIssues scanned parsed candidateCount
    if issues ≠ [] then .invalid issues
    else
      let expression := { parsed.expression with
        includeIndices := parsed.expression.includeIndices ++ scanned.groupIndices }
      match normalizeSelectionExpression expression candidateCount with
      | .error issue => .invalid [projectNumericIssue issue candidateCount]
      | .ok indices => selectIndices snapshot indices

/-- The indices of the members of a group that is known. -/
def memberIndices (snapshot : RootPackageSearchSnapshot) (token : Bytes) : List Nat :=
  ((selectGroupMembers token snapshot).toOption).getD []

/-- What the scan of a text leaves in place of it. -/
structure ScannedWords (snapshot : RootPackageSearchSnapshot) (text masked : Bytes)
    (before after : GroupScan) : Prop where
  numeric : after.numericInput = before.numericInput ++ masked
  start : text.head?.all isAsciiWhitespace = true → masked.head?.all isAsciiWhitespace = true
  words : pieces isAsciiWhitespace masked =
    (pieces isAsciiWhitespace text).filter fun token => !isGroupWord token
  indices : after.groupIndices = before.groupIndices ++
    ((pieces isAsciiWhitespace text).filter isGroupWord).flatMap (memberIndices snapshot)
  issues : ∀ issue, (∃ offset, (offset, issue) ∈ after.orderedIssues) ↔
    (∃ offset, (offset, issue) ∈ before.orderedIssues) ∨
      ∃ token ∈ pieces isAsciiWhitespace text, isGroupWord token = true ∧
        selectGroupMembers token snapshot = .error issue
  masks : (∀ token ∈ pieces isAsciiWhitespace text, isGroupWord token = true →
      byte ',' ∉ token) → Masked (byte ',') isAsciiWhitespace text masked

/-- The first word of a text and what follows it. -/
theorem splitWord (b : UInt8) (rest : Bytes) (hb : isAsciiWhitespace b = false) :
    ∃ token after, (b :: rest).takeWhile (fun c => !isAsciiWhitespace c) = token ∧
      (b :: rest).drop token.length = after ∧ b :: rest = token ++ after ∧ token ≠ [] ∧
      (∀ c ∈ token, isAsciiWhitespace c = false) ∧
      after.head?.all isAsciiWhitespace = true := by
  have hwhole : (b :: rest).takeWhile (fun c => !isAsciiWhitespace c) ++
      (b :: rest).dropWhile (fun c => !isAsciiWhitespace c) = b :: rest :=
    List.takeWhile_append_dropWhile
  refine ⟨_, (b :: rest).dropWhile fun c => !isAsciiWhitespace c, rfl, ?_, hwhole.symm, ?_, ?_, ?_⟩
  · exact (congrArg (List.drop _) hwhole.symm).trans List.drop_left
  · rw [List.takeWhile_cons_of_pos (by rw [hb]; rfl)]
    exact List.cons_ne_nil _ _
  · intro c hc
    simpa using List.mem_takeWhile_imp hc
  · have hhead := List.head?_dropWhile_not (fun c => !isAsciiWhitespace c) (b :: rest)
    cases hafter : ((b :: rest).dropWhile fun c => !isAsciiWhitespace c).head? with
    | none => rfl
    | some c =>
      rw [hafter] at hhead
      simpa using hhead

theorem masked_refl (token : Bytes) : Masked (byte ',') isAsciiWhitespace token token := by
  unfold Masked
  rw [List.forall₂_same]
  exact fun b _ => .inl rfl

theorem masked_blanks (h : byte ',' ∉ token) :
    Masked (byte ',') isAsciiWhitespace token (List.replicate token.length (byte ' ')) := by
  induction token with
  | nil => exact .nil
  | cons b token ih =>
    rw [List.mem_cons, not_or] at h
    exact .cons (.inr ⟨by decide, by decide, fun hsame => h.1 hsame.symm⟩) (ih h.2)

/-- One word, whichever way it is taken. -/
theorem scanGroupWord_scanned {snapshot : RootPackageSearchSnapshot} {offset : Nat}
    {after masked : Bytes} {before last : GroupScan} (hne : token ≠ [])
    (hclean : ∀ c ∈ token, isAsciiWhitespace c = false)
    (hafter : after.head?.all isAsciiWhitespace = true)
    (h : ScannedWords snapshot after masked (scanGroupWord snapshot offset token before) last) :
    ∃ maskedToken, ScannedWords snapshot (token ++ after) (maskedToken ++ masked) before last := by
  have hwords := pieces_word hne hclean hafter
  have hfirst : ¬ (token ++ after).head?.all isAsciiWhitespace = true := by
    cases token with
    | nil => exact absurd rfl hne
    | cons b token =>
      intro hblank
      have hb : isAsciiWhitespace b = true := hblank
      rw [hclean b List.mem_cons_self] at hb
      cases hb
  have hmasks := fun hcommas : ∀ word ∈ pieces isAsciiWhitespace (token ++ after),
      isGroupWord word = true → byte ',' ∉ word =>
    h.masks fun word hword => hcommas word (hwords ▸ List.mem_cons_of_mem token hword)
  have hhead : token ∈ pieces isAsciiWhitespace (token ++ after) :=
    hwords ▸ List.mem_cons_self
  have hnumeric := h.numeric
  have hindices := h.indices
  have hissues := h.issues
  unfold scanGroupWord at hnumeric hindices hissues
  by_cases hgroup : isGroupWord token = true
  · rw [if_pos hgroup] at hnumeric hindices hissues
    have hblanks : pieces isAsciiWhitespace
        (List.replicate token.length (byte ' ') ++ masked) = pieces isAsciiWhitespace masked := by
      apply pieces_separators
      intro c hc
      rw [List.eq_of_mem_replicate hc]
      rfl
    refine ⟨List.replicate token.length (byte ' '), ?_, fun hblank => absurd hblank hfirst, ?_,
      ?_, ?_, ?_⟩
    · rw [hnumeric]
      split <;> exact List.append_assoc _ _ _
    · rw [hblanks, h.words, hwords, List.filter_cons_of_neg (by rw [hgroup]; decide)]
    · rw [hindices, hwords, List.filter_cons_of_pos hgroup, List.flatMap_cons]
      unfold memberIndices
      cases selectGroupMembers token snapshot with
      | error issue => simp [Except.toOption]
      | ok indices => simp [Except.toOption]
    · intro issue
      rw [hissues issue, hwords]
      cases hmembers : selectGroupMembers token snapshot with
      | error found =>
        simp only [List.mem_append, Prod.mk.injEq, List.mem_cons]
        grind
      | ok indices =>
        simp only [List.mem_cons]
        grind
    · intro hcommas
      exact List.rel_append (masked_blanks (hcommas token hhead hgroup)) (hmasks hcommas)
  · rw [if_neg hgroup] at hnumeric hindices hissues
    refine ⟨token, ?_, fun hblank => absurd hblank hfirst, ?_, ?_, ?_, ?_⟩
    · rw [hnumeric]
      exact List.append_assoc _ _ _
    · rw [pieces_word hne hclean (h.start hafter), h.words, hwords,
        List.filter_cons_of_pos (by rw [Bool.eq_false_iff.mpr hgroup]; rfl)]
    · rw [hindices, hwords, List.filter_cons_of_neg hgroup]
    · intro issue
      rw [hissues issue, hwords]
      simp only [List.mem_cons]
      grind
    · intro hcommas
      exact List.rel_append (masked_refl token) (hmasks hcommas)

/-- The scan of a line. The induction is on the rounds. -/
theorem scanGroupWords_spec (snapshot : RootPackageSearchSnapshot) :
    ∀ (rounds offset : Nat) (text : Bytes) (before : GroupScan), text.length ≤ rounds →
      ∃ masked, ScannedWords snapshot text masked before
        (scanGroupWords snapshot rounds offset text before) := by
  have hnil : ∀ before : GroupScan, ScannedWords snapshot [] [] before before := by
    intro before
    refine ⟨by simp, fun h => h, rfl, ?_, ?_, fun _ => .nil⟩
    · exact (List.append_nil _).symm
    · intro issue
      simp [pieces, piecesFrom, closeRun]
  intro rounds
  induction rounds with
  | zero =>
    intro offset text before hlength
    rw [List.eq_nil_of_length_eq_zero (Nat.le_zero.mp hlength)]
    exact ⟨[], hnil before⟩
  | succ rounds ih =>
    intro offset text before hlength
    cases text with
    | nil => exact ⟨[], hnil before⟩
    | cons b rest =>
      rw [List.length_cons] at hlength
      unfold scanGroupWords
      by_cases hb : isAsciiWhitespace b = true
      · rw [if_pos hb]
        obtain ⟨masked, h⟩ := ih (offset + 1) rest
          { before with numericInput := before.numericInput ++ [b] } (by omega)
        have hwords := pieces_separator_cons hb rest
        refine ⟨b :: masked, ?_, fun _ => hb, ?_, ?_, ?_, ?_⟩
        · rw [h.numeric]
          simp
        · rw [pieces_separator_cons hb, h.words, hwords]
        · rw [h.indices, hwords]
        · intro issue
          rw [h.issues issue, hwords]
        · intro hcommas
          exact .cons (.inl rfl) (h.masks (hwords ▸ hcommas))
      · obtain ⟨token, after, htoken, hdrop, hwhole, hne, hclean, hafter⟩ :=
          splitWord b rest (Bool.eq_false_iff.mpr hb)
        rw [if_neg hb]
        dsimp only
        rw [htoken, hdrop, hwhole]
        have hpos := List.length_pos_iff.mpr hne
        have hshorter := congrArg List.length hwhole
        rw [List.length_cons, List.length_append] at hshorter
        obtain ⟨masked, h⟩ := ih (offset + token.length) after
          (scanGroupWord snapshot offset token before) (by omega)
        obtain ⟨maskedToken, hword⟩ := scanGroupWord_scanned hne hclean hafter h
        exact ⟨maskedToken ++ masked, hword⟩

/-- The sets of identities are the targets by package name. -/
structure Grouped (state : Targets) : Prop where
  sets : ∀ entry ∈ state.identitiesByPackage, entry.identities =
    state.selected.filter fun identity => rootPackageName identity = entry.packageName
  names : state.identitiesByPackage.map SelectedPackageIdentitySet.packageName =
    (state.selected.map rootPackageName).foldl insertNew []

theorem chooseTarget_selected (state : Targets) (identity : RootPackageIdentity) :
    (chooseTarget state identity).selected = insertNew state.selected identity := by
  unfold chooseTarget insertNew
  split <;> rfl

/-- A further target goes to the set of its name only. -/
theorem filter_append_target {selected : List RootPackageIdentity} {packageName : Bytes}
    (h : rootPackageName identity ≠ packageName) :
    (selected ++ [identity]).filter (fun target => rootPackageName target = packageName) =
      selected.filter fun target => rootPackageName target = packageName := by
  rw [List.filter_append]
  simp [h]

theorem chooseTarget_grouped {state : Targets} (h : Grouped state) :
    Grouped (chooseTarget state identity) := by
  unfold chooseTarget
  by_cases hknown : identity ∈ state.selected
  · rw [if_pos hknown]
    exact h
  · rw [if_neg hknown]
    have hnames : ∀ entries : List SelectedPackageIdentitySet,
        (upsert (fun entry => entry.packageName = rootPackageName identity)
          (fun entry => { entry with identities := entry.identities ++ [identity] })
          ⟨rootPackageName identity, [identity]⟩ entries).map
            SelectedPackageIdentitySet.packageName =
          insertNew (entries.map SelectedPackageIdentitySet.packageName)
            (rootPackageName identity) :=
      map_upsert (fun _ => rfl) rfl
    have hunique : (state.identitiesByPackage.map
        SelectedPackageIdentitySet.packageName).Nodup := by
      rw [h.names]
      exact nodup_foldl_insertNew _ List.nodup_nil
    refine ⟨?_, ?_⟩
    · dsimp only
      rcases upsert_cases (fun entry => entry.packageName = rootPackageName identity)
        (fun entry => { entry with identities := entry.identities ++ [identity] })
        ⟨rootPackageName identity, [identity]⟩ state.identitiesByPackage with
        ⟨hnone, hfresh⟩ | ⟨before, found, after, hitems, hfound, hchanged⟩
      · rw [hfresh]
        intro entry hentry
        rcases List.mem_append.mp hentry with hentry | hentry
        · have hname := of_decide_eq_false (hnone entry hentry)
          rw [filter_append_target (fun hsame => hname hsame.symm)]
          exact h.sets entry hentry
        · rw [List.mem_singleton.mp hentry]
          have hfirst : state.selected.filter
              (fun target => rootPackageName target = rootPackageName identity) = [] := by
            rw [List.filter_eq_nil_iff]
            intro target htarget hname
            have hlisted : rootPackageName target ∈ state.identitiesByPackage.map
                SelectedPackageIdentitySet.packageName := by
              rw [h.names, mem_foldl_insertNew]
              exact .inr (List.mem_map_of_mem htarget)
            obtain ⟨entry, hentry, hsame⟩ := List.mem_map.mp hlisted
            have hother := of_decide_eq_false (hnone entry hentry)
            exact hother (hsame.trans (of_decide_eq_true hname))
          rw [List.filter_append, hfirst]
          simp
      · rw [hchanged]
        have hname : found.packageName = rootPackageName identity := of_decide_eq_true hfound
        rw [hitems, List.map_append, List.map_cons, List.nodup_append] at hunique
        intro entry hentry
        have hkept : entry ∈ before ∨ entry ∈ after →
            entry.identities = (state.selected ++ [identity]).filter
              fun target => rootPackageName target = entry.packageName := by
          intro hplace
          have hother : rootPackageName identity ≠ entry.packageName := by
            rw [← hname]
            rcases hplace with hplace | hplace
            · intro hsame
              exact hunique.2.2 _ (List.mem_map_of_mem hplace) _ List.mem_cons_self hsame.symm
            · intro hsame
              apply (List.nodup_cons.mp hunique.2.1).1
              rw [hsame]
              exact List.mem_map_of_mem hplace
          rw [filter_append_target hother]
          apply h.sets
          rw [hitems]
          rcases hplace with hplace | hplace
          · exact List.mem_append_left _ hplace
          · exact List.mem_append_right _ (List.mem_cons_of_mem _ hplace)
        rcases List.mem_append.mp hentry with hentry | hentry
        · exact hkept (.inl hentry)
        · rcases List.mem_cons.mp hentry with hentry | hentry
          · rw [hentry]
            dsimp only
            rw [h.sets found (by rw [hitems]; exact List.mem_append_right _ List.mem_cons_self),
              List.filter_append, hname]
            simp
          · exact hkept (.inr hentry)
    · dsimp only
      rw [hnames, h.names, List.map_append, List.foldl_append]
      rfl

/-- The targets of a row of candidates: each identity once, in order, and without
a conflict one for each package name. -/
theorem chooseTargets_spec (identities : List RootPackageIdentity) :
    (identities.foldl chooseTarget {}).selected = identities.foldl insertNew [] ∧
      (conflicts (identities.foldl chooseTarget {}) = [] →
        ∀ first ∈ identities.foldl insertNew [], ∀ second ∈ identities.foldl insertNew [],
          rootPackageName first = rootPackageName second → first = second) := by
  have hrun : ∀ (rest : List RootPackageIdentity) (state : Targets), Grouped state →
      (rest.foldl chooseTarget state).selected = rest.foldl insertNew state.selected ∧
        Grouped (rest.foldl chooseTarget state) := by
    intro rest
    induction rest with
    | nil => exact fun state h => ⟨rfl, h⟩
    | cons identity rest ih =>
      intro state h
      rw [List.foldl_cons, List.foldl_cons, ← chooseTarget_selected]
      exact ih _ (chooseTarget_grouped h)
  obtain ⟨hselected, hgrouped⟩ := hrun identities {} ⟨List.forall_mem_nil _, rfl⟩
  refine ⟨hselected, fun hconflicts first hfirst second hsecond hname => ?_⟩
  rw [← hselected] at hfirst hsecond
  have hlisted : rootPackageName first ∈ (identities.foldl chooseTarget
      {}).identitiesByPackage.map SelectedPackageIdentitySet.packageName := by
    rw [hgrouped.names, mem_foldl_insertNew]
    exact .inr (List.mem_map_of_mem hfirst)
  obtain ⟨entry, hentry, hsame⟩ := List.mem_map.mp hlisted
  unfold conflicts at hconflicts
  rw [List.map_eq_nil_iff, List.filter_eq_nil_iff] at hconflicts
  have hone : entry.identities.length ≤ 1 := by
    have hsmall := hconflicts entry hentry
    rw [decide_eq_true_eq] at hsmall
    omega
  have hfirstIn : first ∈ entry.identities := by
    rw [hgrouped.sets entry hentry, List.mem_filter]
    exact ⟨hfirst, decide_eq_true hsame.symm⟩
  have hsecondIn : second ∈ entry.identities := by
    rw [hgrouped.sets entry hentry, List.mem_filter]
    exact ⟨hsecond, decide_eq_true (hname.symm.trans hsame.symm)⟩
  obtain ⟨only, honly⟩ := List.length_eq_one_iff.mp
    (Nat.le_antisymm hone (List.length_pos_of_mem hfirstIn))
  rw [honly, List.mem_singleton] at hfirstIn hsecondIn
  rw [hfirstIn, hsecondIn]

end Moguet.Plan.RootSelection
