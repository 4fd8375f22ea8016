import Mathlib.Data.List.Perm.Basic
import Mathlib.Data.Option.Basic
import Moguet.Verified.ByteString

/-!
# Command line arguments

`cli_parser.cpp`: one pass over the arguments gives every one a role. The first
that is not an option of the program itself is the operation; behind it an option
of pacman may take the next argument as its value, and `--` ends the options. The
views of the result are filled side by side, and `cli_routing.cpp` reads the
options back from one of them.
-/

namespace Moguet.Cli.Arguments

open Verified.ByteString

/-! ## Options of the program -/

inductive GlobalOptionId
  | edit
  | noEdit
  | diff
  | noDiff
  | noConfirm
  | dryRun
  | buildMode
  | rebuild
  | cleanBuild
  | rmDeps
  | select
  | aur
  | repo
  | details
  | devel
  | noDevel
  deriving DecidableEq

structure GlobalOptionSpec where
  id : GlobalOptionId
  token : Bytes
  acceptsAttachedValue : Bool := false

def buildModeToken : Bytes := ascii "--build-mode"

def moguetGlobalOptions : List GlobalOptionSpec :=
  [⟨.edit, ascii "--edit", false⟩, ⟨.noEdit, ascii "--noedit", false⟩,
    ⟨.diff, ascii "--diff", false⟩, ⟨.noDiff, ascii "--nodiff", false⟩,
    ⟨.noConfirm, ascii "--noconfirm", false⟩, ⟨.dryRun, ascii "--dry-run", false⟩,
    ⟨.buildMode, buildModeToken, true⟩, ⟨.rebuild, ascii "--rebuild", false⟩,
    ⟨.cleanBuild, ascii "--cleanbuild", false⟩, ⟨.rmDeps, ascii "--rmdeps", false⟩,
    ⟨.select, ascii "--select", false⟩, ⟨.aur, ascii "--aur", false⟩,
    ⟨.repo, ascii "--repo", false⟩, ⟨.details, ascii "--details", false⟩,
    ⟨.devel, ascii "--devel", false⟩, ⟨.noDevel, ascii "--no-devel", false⟩]

def GlobalOptionSpec.matches (spec : GlobalOptionSpec) (argument : Bytes) : Bool :=
  argument = spec.token ||
    spec.acceptsAttachedValue && (spec.token ++ [byte '=']).isPrefixOf argument

/-- `find_moguet_global_option`. -/
def moguetGlobalOptionKind (argument : Bytes) : Option GlobalOptionId :=
  (moguetGlobalOptions.find? fun spec => spec.matches argument).map GlobalOptionSpec.id

def isMoguetGlobalOption (argument : Bytes) : Bool := (moguetGlobalOptionKind argument).isSome

/-- What stands before the first `=`. -/
def optionName (argument : Bytes) : Bytes := argument.takeWhile fun b => b ≠ byte '='

def isDevelUpdateOptionSpelling (argument : Bytes) : Bool :=
  optionName argument = ascii "--devel" || optionName argument = ascii "--no-devel"

def pacmanValueOptions : List Bytes :=
  [ascii "--arch", ascii "--assume-installed", ascii "--cachedir", ascii "--color",
    ascii "--config", ascii "--dbpath", ascii "--gpgdir", ascii "--hookdir", ascii "--ignore",
    ascii "--ignoregroup", ascii "--logfile", ascii "--overwrite", ascii "--print-format",
    ascii "--root", ascii "--sysroot", ascii "-b", ascii "-r"]

/-- `pacman_option_needs_following_value`. -/
def pacmanOptionTakesValue (argument : Bytes) : Bool :=
  byte '=' ∉ argument && argument ∈ pacmanValueOptions

def endOfOptionsToken : Bytes := ascii "--"

/-! ## The result -/

inductive ReviewPolicy
  | prompt
  | skip
  deriving DecidableEq

inductive BuildMode
  | normal
  | rebuild
  | clean
  deriving DecidableEq

inductive PresentationDetail
  | normal
  | detailed
  deriving DecidableEq

inductive PackageSourceSelection
  | auto
  | aurOnly
  | repoOnly
  deriving DecidableEq

inductive CliTokenRole
  | moguetGlobalOption
  | operation
  | pacmanOption
  | pacmanOptionValue
  | endOfOptions
  | target
  | opaqueOperand
  deriving DecidableEq

variable {role : CliTokenRole}

structure ParsedCliToken where
  value : Bytes
  argvIndex : Nat
  role : CliTokenRole

structure CliOverrides where
  reviewPkgbuild : Option ReviewPolicy := none
  reviewDiff : Option ReviewPolicy := none
  buildMode : Option BuildMode := none
  devel : Option Bool := none
  noConfirm : Bool := false
  dryRun : Bool := false
  rmDeps : Bool := false
  presentationDetail : PresentationDetail := .normal

/-- What the options of the program set. -/
structure GlobalSettings where
  rootPackageSelectionRequested : Bool := false
  sourceSelection : PackageSourceSelection := .auto
  cliOverrides : CliOverrides := {}

structure ParsedCliArguments where
  operation : Bytes := []
  tokens : List ParsedCliToken := []
  orderedPacmanArgs : List Bytes := []
  consumedGlobalOptions : List Bytes := []
  flags : List Bytes := []
  targets : List Bytes := []
  targetTokenIndices : List Nat := []
  pendingOption : Option Bytes := none
  endOfOptions : Bool := false
  settings : GlobalSettings := {}

/-! ## One option of the program -/

def applyFinalValueOverride {α : Type} [DecidableEq α] (current : Option α) (requested : α) :
    Option (Option α) :=
  match current with
  | none => some (some requested)
  | some value => if value = requested then some current else none

def buildModeOf (value : Bytes) : Option BuildMode :=
  if value = ascii "normal" then some .normal
  else if value = ascii "rebuild" then some .rebuild
  else if value = ascii "clean" then some .clean
  else none

def requestBuildMode (settings : GlobalSettings) (mode : BuildMode) : Option GlobalSettings :=
  (applyFinalValueOverride settings.cliOverrides.buildMode mode).map fun value =>
    { settings with cliOverrides := { settings.cliOverrides with buildMode := value } }

/-- The option without a value is refused, and so is a value of its own. -/
def applyBuildModeOption (settings : GlobalSettings) (argument : Bytes) :
    Option GlobalSettings :=
  if argument = buildModeToken then none
  else (buildModeOf (argument.drop (buildModeToken.length + 1))).bind (requestBuildMode settings)

def requestReview (settings : GlobalSettings) (policy : ReviewPolicy) : Option GlobalSettings :=
  (applyFinalValueOverride settings.cliOverrides.reviewPkgbuild policy).map fun value =>
    { settings with cliOverrides := { settings.cliOverrides with reviewPkgbuild := value } }

def requestDiff (settings : GlobalSettings) (policy : ReviewPolicy) : Option GlobalSettings :=
  (applyFinalValueOverride settings.cliOverrides.reviewDiff policy).map fun value =>
    { settings with cliOverrides := { settings.cliOverrides with reviewDiff := value } }

def requestDevel (settings : GlobalSettings) (devel : Bool) : Option GlobalSettings :=
  (applyFinalValueOverride settings.cliOverrides.devel devel).map fun value =>
    { settings with cliOverrides := { settings.cliOverrides with devel := value } }

/-- A source that was not excluded by the other option. -/
def requestSource (settings : GlobalSettings) (excluded requested : PackageSourceSelection) :
    Option GlobalSettings :=
  if settings.sourceSelection = excluded then none
  else some { settings with sourceSelection := requested }

def applyMoguetGlobalOption (settings : GlobalSettings) (argument : Bytes) :
    Option GlobalSettings :=
  match moguetGlobalOptionKind argument with
  | none => none
  | some .edit => requestReview settings .prompt
  | some .noEdit => requestReview settings .skip
  | some .diff => requestDiff settings .prompt
  | some .noDiff => requestDiff settings .skip
  | some .noConfirm =>
    some { settings with cliOverrides := { settings.cliOverrides with noConfirm := true } }
  | some .dryRun =>
    some { settings with cliOverrides := { settings.cliOverrides with dryRun := true } }
  | some .buildMode => applyBuildModeOption settings argument
  | some .rebuild => applyBuildModeOption settings (ascii "--build-mode=rebuild")
  | some .cleanBuild => applyBuildModeOption settings (ascii "--build-mode=clean")
  | some .rmDeps =>
    some { settings with cliOverrides := { settings.cliOverrides with rmDeps := true } }
  | some .select => some { settings with rootPackageSelectionRequested := true }
  | some .aur => requestSource settings .repoOnly .aurOnly
  | some .repo => requestSource settings .aurOnly .repoOnly
  | some .details =>
    some { settings with
      cliOverrides := { settings.cliOverrides with presentationDetail := .detailed } }
  | some .devel => requestDevel settings true
  | some .noDevel => requestDevel settings false

/-! ## The pass -/

def pushToken (parsed : ParsedCliArguments) (argument : Bytes) (argvIndex : Nat)
    (role : CliTokenRole) : ParsedCliArguments :=
  { parsed with tokens := parsed.tokens ++ [⟨argument, argvIndex, role⟩] }

def takeGlobalOption (parsed : ParsedCliArguments) (argument : Bytes) (argvIndex : Nat) :
    Option ParsedCliArguments :=
  (applyMoguetGlobalOption parsed.settings argument).map fun settings =>
    { pushToken parsed argument argvIndex .moguetGlobalOption with
      consumedGlobalOptions := parsed.consumedGlobalOptions ++ [argument]
      settings := settings }

/-- An argument that pacman is given as an option or the value of one. -/
def takeFlag (parsed : ParsedCliArguments) (argument : Bytes) (argvIndex : Nat)
    (role : CliTokenRole) : ParsedCliArguments :=
  { pushToken parsed argument argvIndex role with
    orderedPacmanArgs := parsed.orderedPacmanArgs ++ [argument]
    flags := parsed.flags ++ [argument] }

def takeTarget (parsed : ParsedCliArguments) (argument : Bytes) (argvIndex : Nat)
    (role : CliTokenRole) : ParsedCliArguments :=
  { pushToken parsed argument argvIndex role with
    orderedPacmanArgs := parsed.orderedPacmanArgs ++ [argument]
    targets := parsed.targets ++ [argument]
    targetTokenIndices := parsed.targetTokenIndices ++ [parsed.tokens.length] }

/-- One argument; the flag says whether the operation was seen. -/
def takeArgument (state : ParsedCliArguments × Bool) (item : Bytes × Nat) :
    Option (ParsedCliArguments × Bool) :=
  let parsed := state.1
  let argument := item.1
  if argument = [] then none
  else if parsed.pendingOption = none ∧ parsed.endOfOptions = false ∧
      isDevelUpdateOptionSpelling argument ∧ byte '=' ∈ argument then none
  else if state.2 = false then
    if isMoguetGlobalOption argument then
      (takeGlobalOption parsed argument item.2).map fun parsed => (parsed, false)
    else some ({ takeFlag parsed argument item.2 .operation with operation := argument }, true)
  else if parsed.pendingOption ≠ none then
    some ({ takeFlag parsed argument item.2 .pacmanOptionValue with pendingOption := none }, true)
  else if parsed.endOfOptions then
    some (takeTarget parsed argument item.2 .opaqueOperand, true)
  else if argument = endOfOptionsToken then
    some ({ takeFlag parsed argument item.2 .endOfOptions with endOfOptions := true }, true)
  else if isMoguetGlobalOption argument then
    (takeGlobalOption parsed argument item.2).map fun parsed => (parsed, true)
  else if argument.head? = some (byte '-') then
    some ({ takeFlag parsed argument item.2 .pacmanOption with
      pendingOption := if pacmanOptionTakesValue argument then some argument else none }, true)
  else some (takeTarget parsed argument item.2 .target, true)

/-- The arguments after the program name. -/
def parseCliArguments (arguments : List Bytes) : Option ParsedCliArguments := do
  let state ← (arguments.zipIdx 1).foldlM takeArgument ({}, false)
  guard (state.1.pendingOption = none)
  some state.1

def isTargetRole (role : CliTokenRole) : Bool := role = .target || role = .opaqueOperand

def orderedPacmanArgsExcludingTargets (parsed : ParsedCliArguments)
    (excludedTargetTokenIndices : List Nat) : List Bytes :=
  (parsed.tokens.zipIdx.filter fun item =>
    item.1.role ≠ .moguetGlobalOption &&
      !(isTargetRole item.1.role && item.2 ∈ excludedTargetTokenIndices)).map
    fun item => item.1.value

def shortOptionRequestsRefresh (option : Bytes) : Bool :=
  match option with
  | dash :: second :: rest =>
    dash = byte '-' && second ≠ byte '-' && byte 'y' ∈ second :: rest
  | _ => false

/-- The flags behind the operation, with the value of an option skipped. -/
def flagsRequestRefresh : Bool → List Bytes → Bool
  | _, [] => false
  | true, _ :: rest => flagsRequestRefresh false rest
  | false, flag :: rest =>
    if flag = endOfOptionsToken then false
    else if flag = ascii "--refresh" || shortOptionRequestsRefresh flag then true
    else flagsRequestRefresh (pacmanOptionTakesValue flag) rest

def pacmanOperationRequestsRefresh (operation : Bytes) (flags : List Bytes) : Bool :=
  shortOptionRequestsRefresh operation || flagsRequestRefresh false (flags.drop 1)

/-! ## Labels -/

/-- What the pass knows of the arguments behind it: no operation yet, options are
read, an option waits for its value, or the options have ended. -/
inductive Scan
  | start
  | options (operation : Bytes)
  | value (operation option : Bytes)
  | operands (operation : Bytes)

variable {next : Scan}

def Scan.operation : Scan → Option Bytes
  | .start => none
  | .options operation | .value operation _ | .operands operation => some operation

def Scan.pending : Scan → Option Bytes
  | .value _ option => some option
  | _ => none

def Scan.endOfOptions : Scan → Bool
  | .operands _ => true
  | _ => false

/-- The role of an argument, and what is known behind it. -/
def label (scan : Scan) (argument : Bytes) : CliTokenRole × Scan :=
  match scan with
  | .start =>
    if isMoguetGlobalOption argument then (.moguetGlobalOption, .start)
    else (.operation, .options argument)
  | .options operation =>
    if argument = endOfOptionsToken then (.endOfOptions, .operands operation)
    else if isMoguetGlobalOption argument then (.moguetGlobalOption, .options operation)
    else if argument.head? = some (byte '-') then
      (.pacmanOption,
        if pacmanOptionTakesValue argument then .value operation argument
        else .options operation)
    else (.target, .options operation)
  | .value operation _ => (.pacmanOptionValue, .options operation)
  | .operands operation => (.opaqueOperand, .operands operation)

def labels : Scan → List Bytes → List (Bytes × CliTokenRole)
  | _, [] => []
  | scan, argument :: rest =>
    (argument, (label scan argument).1) :: labels (label scan argument).2 rest

def scanAfter (scan : Scan) (arguments : List Bytes) : Scan :=
  arguments.foldl (fun scan argument => (label scan argument).2) scan

/-- What the pass asks of every argument. -/
def acceptable (item : Bytes × CliTokenRole) : Bool :=
  item.1 ≠ [] && (item.2 = .pacmanOptionValue || item.2 = .opaqueOperand ||
    !isDevelUpdateOptionSpelling item.1 || byte '=' ∉ item.1)

def valuesOf (p : CliTokenRole → Bool) (items : List (Bytes × CliTokenRole)) : List Bytes :=
  (items.filter fun item => p item.2).map Prod.fst

def isGlobalRole (role : CliTokenRole) : Bool := role = .moguetGlobalOption

def isFlagRole (role : CliTokenRole) : Bool := !isGlobalRole role && !isTargetRole role

def applyAll (settings : Option GlobalSettings) (options : List Bytes) : Option GlobalSettings :=
  options.foldl (fun settings option => settings.bind (applyMoguetGlobalOption · option)) settings

/-- The result of labelled arguments. -/
def build (items : List (Bytes × CliTokenRole)) (settings : GlobalSettings) (scan : Scan) :
    ParsedCliArguments where
  operation := scan.operation.getD []
  tokens := (items.zipIdx 1).map fun item => ⟨item.1.1, item.2, item.1.2⟩
  orderedPacmanArgs := valuesOf (fun role => !isGlobalRole role) items
  consumedGlobalOptions := valuesOf isGlobalRole items
  flags := valuesOf isFlagRole items
  targets := valuesOf isTargetRole items
  targetTokenIndices := (items.zipIdx.filter fun item => isTargetRole item.1.2).map Prod.snd
  pendingOption := scan.pending
  endOfOptions := scan.endOfOptions
  settings := settings

@[simp] theorem valuesOf_append (p : CliTokenRole → Bool)
    (front rest : List (Bytes × CliTokenRole)) :
    valuesOf p (front ++ rest) = valuesOf p front ++ valuesOf p rest := by
  simp [valuesOf]

section

variable {items : List (Bytes × CliTokenRole)} {settings : GlobalSettings} {scan : Scan}

@[simp] theorem build_pendingOption : (build items settings scan).pendingOption = scan.pending :=
  rfl

@[simp] theorem build_endOfOptions :
    (build items settings scan).endOfOptions = scan.endOfOptions := rfl

end

section

variable {items : List (Bytes × CliTokenRole)} {settings : GlobalSettings} {scan : Scan}
  {argument : Bytes}

/-- A role that is no target and no option of the program is a flag. -/
theorem takeFlag_build (hrole : isFlagRole role = true) :
    { takeFlag (build items settings scan) argument (items.length + 1) role with
      operation := next.operation.getD []
      pendingOption := next.pending
      endOfOptions := next.endOfOptions } =
      build (items ++ [(argument, role)]) settings next := by
  unfold isFlagRole at hrole
  rw [Bool.and_eq_true, Bool.not_eq_true', Bool.not_eq_true'] at hrole
  simp [takeFlag, pushToken, build, valuesOf, isFlagRole, hrole.1, hrole.2, List.zipIdx_append,
    Nat.add_comm]

theorem takeTarget_build (hrole : isTargetRole role = true) (hglobal : isGlobalRole role = false) :
    takeTarget (build items settings scan) argument (items.length + 1) role =
      build (items ++ [(argument, role)]) settings scan := by
  simp [takeTarget, pushToken, build, valuesOf, isFlagRole, hrole, hglobal, List.zipIdx_append,
    Nat.add_comm]

theorem takeGlobalOption_build :
    takeGlobalOption (build items settings scan) argument (items.length + 1) =
      (applyMoguetGlobalOption settings argument).map fun settings =>
        build (items ++ [(argument, .moguetGlobalOption)]) settings scan := by
  unfold takeGlobalOption
  congr 1
  funext settings
  simp [pushToken, build, valuesOf, isFlagRole, isGlobalRole, isTargetRole, List.zipIdx_append,
    Nat.add_comm]

/-- What an argument adds to the result, by its label. -/
def taken (items : List (Bytes × CliTokenRole)) (settings : GlobalSettings)
    (item : Bytes × CliTokenRole) (next : Scan) : Option (ParsedCliArguments × Bool) :=
  if acceptable item then
    (applyAll (some settings) (valuesOf isGlobalRole [item])).map fun settings =>
      (build (items ++ [item]) settings next, next.operation.isSome)
  else none

/-- A wrong spelling is refused wherever options are read. -/
theorem taken_refused
    (h : argument = [] ∨ isDevelUpdateOptionSpelling argument = true ∧ byte '=' ∈ argument ∧
      role ≠ .pacmanOptionValue ∧ role ≠ .opaqueOperand) :
    taken items settings (argument, role) next = none := by
  unfold taken acceptable
  rw [if_neg]
  rcases h with h | ⟨hdevel, hvalue, hrole, hoperand⟩
  · simp [h]
  · simp [hdevel, hvalue, hrole, hoperand]

theorem taken_plain (hglobal : isGlobalRole role = false) (h : acceptable (argument, role) = true) :
    taken items settings (argument, role) next =
      some (build (items ++ [(argument, role)]) settings next, next.operation.isSome) := by
  unfold taken
  rw [if_pos h]
  simp [valuesOf, hglobal, applyAll]

theorem taken_global (h : acceptable (argument, .moguetGlobalOption) = true) :
    taken items settings (argument, .moguetGlobalOption) next =
      (takeGlobalOption (build items settings next) argument (items.length + 1)).map fun parsed =>
        (parsed, next.operation.isSome) := by
  unfold taken
  rw [if_pos h, takeGlobalOption_build, Option.map_map]
  simp [valuesOf, isGlobalRole, applyAll]
  rfl

/-- One argument adds its label, and its settings when it is an option of the
program. -/
theorem takeArgument_build : takeArgument (build items settings scan, scan.operation.isSome)
        (argument, items.length + 1) =
      taken items settings (argument, (label scan argument).1) (label scan argument).2 := by
  by_cases hempty : argument = []
  · rw [taken_refused (.inl hempty)]
    simp [takeArgument, hempty]
  cases scan with
  | value operation option =>
    have hfine : acceptable (argument, .pacmanOptionValue) = true := by
      simp [acceptable, hempty]
    have hread : takeArgument (build items settings (.value operation option), true)
        (argument, items.length + 1) =
        some ({ takeFlag (build items settings (.value operation option)) argument
          (items.length + 1) .pacmanOptionValue with pendingOption := none }, true) := by
      simp [takeArgument, Scan.pending, hempty]
    show takeArgument (build items settings (.value operation option), true) _ =
      taken items settings (argument, .pacmanOptionValue) (.options operation)
    rw [hread, taken_plain rfl hfine, ← takeFlag_build rfl]
    rfl
  | operands operation =>
    have hfine : acceptable (argument, .opaqueOperand) = true := by
      simp [acceptable, hempty]
    show _ = taken items settings (argument, .opaqueOperand) (.operands operation)
    rw [taken_plain rfl hfine, ← takeTarget_build rfl rfl]
    simp [takeArgument, Scan.pending, Scan.endOfOptions, Scan.operation, hempty]
  | start =>
    by_cases hwrong : isDevelUpdateOptionSpelling argument = true ∧ byte '=' ∈ argument
    · rw [taken_refused (.inr ⟨hwrong.1, hwrong.2, ?_⟩)]
      · simp [takeArgument, Scan.pending, Scan.endOfOptions, hempty, hwrong]
      · unfold label
        grind
    · have hfine : ∀ role, acceptable (argument, role) = true := by
        intro role
        unfold acceptable
        grind
      have hread : takeArgument (build items settings .start, false) (argument, items.length + 1) =
          if isMoguetGlobalOption argument then
            (takeGlobalOption (build items settings .start) argument
              (items.length + 1)).map fun parsed => (parsed, false)
          else some ({ takeFlag (build items settings .start) argument (items.length + 1)
            .operation with operation := argument }, true) := by
        simp [takeArgument, Scan.pending, Scan.endOfOptions, hempty, hwrong]
      show takeArgument (build items settings .start, false) _ = _
      rw [hread]
      unfold label
      dsimp only
      split
      · rw [taken_global (hfine _)]
        rfl
      · rw [taken_plain rfl (hfine _), ← takeFlag_build rfl]
        rfl
  | options operation =>
    by_cases hwrong : isDevelUpdateOptionSpelling argument = true ∧ byte '=' ∈ argument
    · rw [taken_refused (.inr ⟨hwrong.1, hwrong.2, ?_⟩)]
      · simp [takeArgument, Scan.pending, Scan.endOfOptions, hempty, hwrong]
      · unfold label
        grind
    · have hfine : ∀ role, acceptable (argument, role) = true := by
        intro role
        unfold acceptable
        grind
      have hread : takeArgument (build items settings (.options operation), true)
          (argument, items.length + 1) =
          if argument = endOfOptionsToken then
            some ({ takeFlag (build items settings (.options operation)) argument
              (items.length + 1) .endOfOptions with endOfOptions := true }, true)
          else if isMoguetGlobalOption argument then
            (takeGlobalOption (build items settings (.options operation)) argument
              (items.length + 1)).map fun parsed => (parsed, true)
          else if argument.head? = some (byte '-') then
            some ({ takeFlag (build items settings (.options operation)) argument
              (items.length + 1) .pacmanOption with
              pendingOption :=
                if pacmanOptionTakesValue argument then some argument else none }, true)
          else some (takeTarget (build items settings (.options operation)) argument
            (items.length + 1) .target, true) := by
        simp [takeArgument, Scan.pending, Scan.endOfOptions, hempty, hwrong]
      show takeArgument (build items settings (.options operation), true) _ = _
      rw [hread]
      unfold label
      dsimp only
      split
      · rw [taken_plain rfl (hfine _), ← takeFlag_build rfl]
        rfl
      · split
        · rw [taken_global (hfine _)]
          rfl
        · split
          · rw [taken_plain rfl (hfine _), ← takeFlag_build rfl]
            split <;> rfl
          · rw [taken_plain rfl (hfine _), ← takeTarget_build rfl rfl]
            rfl

theorem applyAll_none : ∀ options : List Bytes, applyAll none options = none := by
  intro options
  induction options with
  | nil => rfl
  | cons option options ih => exact ih

/-- The pass over the arguments that are left. The induction is on them. -/
theorem takeArguments_build :
    ∀ (arguments : List Bytes) (items : List (Bytes × CliTokenRole)) (settings : GlobalSettings)
      (scan : Scan),
      (arguments.zipIdx (items.length + 1)).foldlM takeArgument
          (build items settings scan, scan.operation.isSome) =
        if (labels scan arguments).all acceptable then
          (applyAll (some settings) (valuesOf isGlobalRole (labels scan arguments))).map
            fun settings => (build (items ++ labels scan arguments) settings
              (scanAfter scan arguments), (scanAfter scan arguments).operation.isSome)
        else none := by
  intro arguments
  induction arguments with
  | nil =>
    intro items settings scan
    simp [labels, scanAfter, valuesOf, applyAll]
  | cons argument rest ih =>
    intro items settings scan
    have hlabels : labels scan (argument :: rest) =
        (argument, (label scan argument).1) :: labels (label scan argument).2 rest := rfl
    have hscan : scanAfter scan (argument :: rest) = scanAfter (label scan argument).2 rest :=
      rfl
    rw [List.zipIdx_cons, List.foldlM_cons, takeArgument_build, hlabels, hscan, List.all_cons]
    generalize (argument, (label scan argument).1) = item
    generalize (label scan argument).2 = next
    have hvalues : valuesOf isGlobalRole (item :: labels next rest) =
        valuesOf isGlobalRole [item] ++ valuesOf isGlobalRole (labels next rest) :=
      valuesOf_append _ [item] _
    have happly : ∀ settings, applyAll settings (valuesOf isGlobalRole [item] ++
        valuesOf isGlobalRole (labels next rest)) =
        applyAll (applyAll settings (valuesOf isGlobalRole [item]))
          (valuesOf isGlobalRole (labels next rest)) :=
      fun settings => List.foldl_append
    rw [hvalues, happly]
    unfold taken
    by_cases hitem : acceptable item = true
    · rw [if_pos hitem, hitem, Bool.true_and]
      cases applyAll (some settings) (valuesOf isGlobalRole [item]) with
      | none =>
        rw [applyAll_none]
        split <;> rfl
      | some applied =>
        have hrest := ih (items ++ [item]) applied next
        rw [List.length_append, List.length_singleton] at hrest
        simp only [Option.map_some, Option.bind_eq_bind, Option.bind_some]
        rw [hrest, List.append_assoc, List.singleton_append]
    · rw [if_neg hitem, Bool.eq_false_iff.mpr hitem, Bool.false_and]
      rfl

end

/-- Whether there is a result, and what it is, as told by the labels. -/
theorem parseCliArguments_eq (arguments : List Bytes) : parseCliArguments arguments =
      if (labels .start arguments).all acceptable ∧ (scanAfter .start arguments).pending = none then
        (applyAll (some {}) (valuesOf isGlobalRole (labels .start arguments))).map
          fun settings => build (labels .start arguments) settings (scanAfter .start arguments)
      else none := by
  have hrun := takeArguments_build arguments [] {} .start
  rw [List.nil_append] at hrun
  have hstart : (({}, false) : ParsedCliArguments × Bool) =
      (build [] {} .start, Scan.start.operation.isSome) := rfl
  unfold parseCliArguments
  rw [hstart, show 1 = ([] : List (Bytes × CliTokenRole)).length + 1 from rfl, hrun]
  by_cases hall : (labels .start arguments).all acceptable = true
  · rw [if_pos hall]
    cases applyAll (some {}) (valuesOf isGlobalRole (labels .start arguments)) with
    | none => simp
    | some settings =>
      by_cases hpending : (scanAfter .start arguments).pending = none
      · simp [hall, hpending]
      · simp [hpending, guard]
  · rw [if_neg hall, if_neg (fun h => hall h.1)]
    rfl

end Moguet.Cli.Arguments
