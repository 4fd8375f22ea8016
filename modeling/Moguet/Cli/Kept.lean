import Moguet.Cli.Arguments

/-!
# No argument is lost or taken for another

What the views of a parsed command line say about its tokens, and what stays when
options of the program are moved. An option of the program gives one setting its
final value, so the order of the options does not matter; and it leaves the roles
of the other arguments alone wherever it is recognised.
-/

namespace Moguet.Cli.Kept

open Verified.ByteString Arguments

variable {first second : GlobalSettings → Option GlobalSettings} {value requested : Nat} {α : Type}
  {others : List Bytes} {number : α → Nat}

/-! ## Options of the program commute -/

/-- The settings an option of the program can make. -/
inductive Setting
  | review
  | diff
  | mode
  | devel
  | source
  | root
  | confirm
  | dryRun
  | rmDeps
  | detail
  deriving DecidableEq

variable {setting : Setting}

def policyNumber : ReviewPolicy → Nat
  | .prompt => 0
  | .skip => 1

def modeNumber : BuildMode → Nat
  | .normal => 0
  | .rebuild => 1
  | .clean => 2

def flagNumber (flag : Bool) : Option Nat := if flag then some 0 else none

/-- What was set, as a number. -/
def settingsAt (settings : GlobalSettings) : Setting → Option Nat
  | .review => settings.cliOverrides.reviewPkgbuild.map policyNumber
  | .diff => settings.cliOverrides.reviewDiff.map policyNumber
  | .mode => settings.cliOverrides.buildMode.map modeNumber
  | .devel => settings.cliOverrides.devel.map Bool.toNat
  | .source =>
    match settings.sourceSelection with
    | .auto => none
    | .aurOnly => some 0
    | .repoOnly => some 1
  | .root => flagNumber settings.rootPackageSelectionRequested
  | .confirm => flagNumber settings.cliOverrides.noConfirm
  | .dryRun => flagNumber settings.cliOverrides.dryRun
  | .rmDeps => flagNumber settings.cliOverrides.rmDeps
  | .detail => flagNumber (settings.cliOverrides.presentationDetail = .detailed)

theorem policyNumber_injective : Function.Injective policyNumber := by
  intro first second
  cases first <;> cases second <;> decide

theorem modeNumber_injective : Function.Injective modeNumber := by
  intro first second
  cases first <;> cases second <;> decide

theorem toNat_injective : Function.Injective Bool.toNat := by
  intro first second
  cases first <;> cases second <;> decide

theorem flagNumber_injective : Function.Injective flagNumber := by
  intro first second
  cases first <;> cases second <;> decide

theorem settingsAt_injective : Function.Injective settingsAt := by
  intro first second h
  obtain ⟨root, source, review, diff, mode, devel, confirm, dryRun, rmDeps, detail⟩ := first
  obtain ⟨root', source', review', diff', mode', devel', confirm', dryRun', rmDeps', detail'⟩ :=
    second
  have hreview : review = review' :=
    Option.map_injective policyNumber_injective (congrFun h .review)
  have hdiff : diff = diff' := Option.map_injective policyNumber_injective (congrFun h .diff)
  have hmode : mode = mode' := Option.map_injective modeNumber_injective (congrFun h .mode)
  have hdevel : devel = devel' := Option.map_injective toNat_injective (congrFun h .devel)
  have hroot : root = root' := flagNumber_injective (congrFun h .root)
  have hconfirm : confirm = confirm' := flagNumber_injective (congrFun h .confirm)
  have hdryRun : dryRun = dryRun' := flagNumber_injective (congrFun h .dryRun)
  have hrmDeps : rmDeps = rmDeps' := flagNumber_injective (congrFun h .rmDeps)
  have hsource : source = source' := by
    have hnumber := congrFun h .source
    cases source <;> cases source' <;> simp_all [settingsAt]
  have hdetail : detail = detail' := by
    have hnumber := flagNumber_injective (congrFun h .detail)
    cases detail <;> cases detail' <;> simp_all
  rw [hreview, hdiff, hmode, hdevel, hroot, hconfirm, hdryRun, hrmDeps, hsource, hdetail]

/-- A step gives one setting its final value, and is refused when it has another. -/
structure Sets (step : GlobalSettings → Option GlobalSettings) (setting : Setting)
    (value : Nat) : Prop where
  taken : ∀ settings, settingsAt settings setting = none ∨
      settingsAt settings setting = some value →
    ∃ next, step settings = some next ∧
      settingsAt next = Function.update (settingsAt settings) setting (some value)
  refused : ∀ settings, ¬ (settingsAt settings setting = none ∨
      settingsAt settings setting = some value) → step settings = none

/-- Two steps to one value are the same. -/
theorem Sets.unique (hfirst : Sets first setting value) (hsecond : Sets second setting value)
    (settings : GlobalSettings) : first settings = second settings := by
  by_cases htaken : settingsAt settings setting = none ∨ settingsAt settings setting = some value
  · obtain ⟨next, hnext, hat⟩ := hfirst.taken settings htaken
    obtain ⟨other, hother, hotherAt⟩ := hsecond.taken settings htaken
    rw [hnext, hother, settingsAt_injective (hat.trans hotherAt.symm)]
  · rw [hfirst.refused settings htaken, hsecond.refused settings htaken]

/-- A second value for one setting is refused. -/
theorem Sets.conflict (hfirst : Sets first setting value) (hsecond : Sets second setting requested)
    (hne : value ≠ requested) (settings : GlobalSettings) :
    (first settings).bind second = none := by
  by_cases htaken : settingsAt settings setting = none ∨ settingsAt settings setting = some value
  · obtain ⟨next, hnext, hat⟩ := hfirst.taken settings htaken
    rw [hnext]
    refine hsecond.refused next ?_
    rw [hat, Function.update_self]
    simp [hne]
  · rw [hfirst.refused settings htaken]
    rfl

theorem Sets.comm {other : Setting} (hfirst : Sets first setting value)
    (hsecond : Sets second other requested) (settings : GlobalSettings) :
    (first settings).bind second = (second settings).bind first := by
  by_cases hsame : setting = other
  · rw [← hsame] at hsecond
    by_cases hvalue : value = requested
    · rw [← hvalue] at hsecond
      rw [show first = second from funext (hfirst.unique hsecond)]
    · rw [hfirst.conflict hsecond hvalue, hsecond.conflict hfirst (fun h => hvalue h.symm)]
  · have hfree : ∀ {s t : GlobalSettings} {kept changed : Setting} {v : Nat}, kept ≠ changed →
        settingsAt t = Function.update (settingsAt s) changed (some v) →
          settingsAt t kept = settingsAt s kept := by
      intro s t kept changed v hne ht
      rw [ht, Function.update_of_ne hne]
    by_cases htaken : settingsAt settings setting = none ∨ settingsAt settings setting = some value
    · obtain ⟨next, hnext, hat⟩ := hfirst.taken settings htaken
      by_cases hother : settingsAt settings other = none ∨
        settingsAt settings other = some requested
      · obtain ⟨after, hafter, hafterAt⟩ := hsecond.taken settings hother
        obtain ⟨last, hlast, hlastAt⟩ := hsecond.taken next (by
          rw [hfree (fun h => hsame h.symm) hat]
          exact hother)
        obtain ⟨final, hfinal, hfinalAt⟩ := hfirst.taken after (by
          rw [hfree hsame hafterAt]
          exact htaken)
        rw [hnext, hafter, Option.bind_some, Option.bind_some, hlast, hfinal]
        congr 1
        apply settingsAt_injective
        rw [hlastAt, hfinalAt, hat, hafterAt, Function.update_comm hsame]
      · rw [hsecond.refused settings hother, hnext]
        refine hsecond.refused next ?_
        rw [hfree (fun h => hsame h.symm) hat]
        exact hother
    · rw [hfirst.refused settings htaken, Option.bind_none]
      cases hafter : second settings with
      | none => rfl
      | some after =>
        have hother : settingsAt settings other = none ∨
            settingsAt settings other = some requested := by
          by_contra hother
          rw [hsecond.refused settings hother] at hafter
          cases hafter
        obtain ⟨found, hfound, hfoundAt⟩ := hsecond.taken settings hother
        rw [hafter] at hfound
        injection hfound with hfound
        refine (hfirst.refused after ?_).symm
        rw [hfound, hfree hsame hfoundAt]
        exact htaken

theorem sets_of {step : GlobalSettings → Option GlobalSettings} {setting : Setting}
    {value : Nat} {set : GlobalSettings → GlobalSettings}
    (hset : ∀ settings, settingsAt (set settings) =
      Function.update (settingsAt settings) setting (some value))
    (hstep : ∀ settings, step settings =
      if settingsAt settings setting = none ∨ settingsAt settings setting = some value then
        some (set settings)
      else none) : Sets step setting value := by
  refine ⟨fun settings htaken => ⟨set settings, ?_, hset settings⟩, fun settings hrefused => ?_⟩
  · rw [hstep, if_pos htaken]
  · rw [hstep, if_neg hrefused]

/-- An override of one setting. -/
theorem applyFinalValueOverride_eq [DecidableEq α] (hnumber : Function.Injective number)
    (current : Option α) (requested : α) :
    applyFinalValueOverride current requested =
      if current.map number = none ∨ current.map number = some (number requested) then
        some (some requested)
      else none := by
  unfold applyFinalValueOverride
  cases current with
  | none => rfl
  | some value =>
    by_cases hvalue : value = requested
    · simp [hvalue]
    · simp [hvalue, hnumber.ne hvalue]

theorem sets_override [DecidableEq α] (hnumber : Function.Injective number)
    {get : GlobalSettings → Option α} {set : GlobalSettings → Option α → GlobalSettings}
    (hget : ∀ settings, settingsAt settings setting = (get settings).map number)
    (hset : ∀ settings value, settingsAt (set settings (some value)) =
      Function.update (settingsAt settings) setting (some (number value))) (requested : α) :
    Sets (fun settings => (applyFinalValueOverride (get settings) requested).map (set settings))
      setting (number requested) := by
  refine sets_of (fun settings => hset settings requested) fun settings => ?_
  rw [applyFinalValueOverride_eq hnumber, hget]
  split <;> rfl

/-- A flag can always be raised. -/
theorem sets_flag {set : GlobalSettings → GlobalSettings} {flag : GlobalSettings → Bool}
    (hflag : ∀ settings, settingsAt settings setting = flagNumber (flag settings))
    (hset : ∀ settings, settingsAt (set settings) =
      Function.update (settingsAt settings) setting (some 0)) :
    Sets (fun settings => some (set settings)) setting 0 := by
  refine sets_of hset fun settings => ?_
  rw [hflag, if_pos]
  unfold flagNumber
  cases flag settings <;> simp

theorem sets_source (aur : Bool) :
    Sets (fun settings => if aur then requestSource settings .repoOnly .aurOnly
      else requestSource settings .aurOnly .repoOnly) .source (if aur then 0 else 1) := by
  refine @sets_of _ _ _ (fun settings => { settings with
    sourceSelection := if aur then .aurOnly else .repoOnly }) (fun settings => ?_)
    fun settings => ?_
  · funext setting
    cases setting <;> cases aur <;> rfl
  · obtain ⟨root, source, overrides⟩ := settings
    cases source <;> cases aur <;> rfl

/-- An option of the program gives one setting its value, or is never taken. -/
theorem sets_or_refused (option : Bytes) :
    (∀ settings, applyMoguetGlobalOption settings option = none) ∨
      ∃ setting value, Sets (applyMoguetGlobalOption · option) setting value := by
  unfold applyMoguetGlobalOption
  have hreview : ∀ policy, Sets (requestReview · policy) .review (policyNumber policy) :=
    sets_override policyNumber_injective (fun _ => rfl)
      (fun _ _ => funext fun setting => by cases setting <;> rfl)
  have hdiff : ∀ policy, Sets (requestDiff · policy) .diff (policyNumber policy) :=
    sets_override policyNumber_injective (fun _ => rfl)
      (fun _ _ => funext fun setting => by cases setting <;> rfl)
  have hmode : ∀ mode, Sets (requestBuildMode · mode) .mode (modeNumber mode) :=
    sets_override modeNumber_injective (fun _ => rfl)
      (fun _ _ => funext fun setting => by cases setting <;> rfl)
  have hdevel : ∀ value, Sets (requestDevel · value) .devel value.toNat :=
    sets_override toNat_injective (fun _ => rfl)
      (fun _ _ => funext fun setting => by cases setting <;> rfl)
  have hbuild : ∀ argument, (∀ settings, applyBuildModeOption settings argument = none) ∨
      ∃ setting value, Sets (applyBuildModeOption · argument) setting value := by
    intro argument
    unfold applyBuildModeOption
    by_cases hbare : argument = buildModeToken
    · exact .inl fun _ => if_pos hbare
    · simp only [if_neg hbare]
      cases buildModeOf (argument.drop (buildModeToken.length + 1)) with
      | none => exact .inl fun _ => rfl
      | some mode => exact .inr ⟨_, _, hmode mode⟩
  cases moguetGlobalOptionKind option with
  | none => exact .inl fun _ => rfl
  | some kind =>
    cases kind with
    | edit => exact .inr ⟨_, _, hreview .prompt⟩
    | noEdit => exact .inr ⟨_, _, hreview .skip⟩
    | diff => exact .inr ⟨_, _, hdiff .prompt⟩
    | noDiff => exact .inr ⟨_, _, hdiff .skip⟩
    | buildMode => exact hbuild option
    | rebuild => exact hbuild _
    | cleanBuild => exact hbuild _
    | aur => exact .inr ⟨_, _, sets_source true⟩
    | repo => exact .inr ⟨_, _, sets_source false⟩
    | devel => exact .inr ⟨_, _, hdevel true⟩
    | noDevel => exact .inr ⟨_, _, hdevel false⟩
    | noConfirm =>
      exact .inr ⟨.confirm, 0, sets_flag (fun _ => rfl)
        fun _ => funext fun setting => by cases setting <;> rfl⟩
    | dryRun =>
      exact .inr ⟨.dryRun, 0, sets_flag (fun _ => rfl)
        fun _ => funext fun setting => by cases setting <;> rfl⟩
    | rmDeps =>
      exact .inr ⟨.rmDeps, 0, sets_flag (fun _ => rfl)
        fun _ => funext fun setting => by cases setting <;> rfl⟩
    | select =>
      exact .inr ⟨.root, 0, sets_flag (fun _ => rfl)
        fun _ => funext fun setting => by cases setting <;> rfl⟩
    | details =>
      exact .inr ⟨.detail, 0, sets_flag (fun _ => rfl)
        fun _ => funext fun setting => by cases setting <;> rfl⟩

theorem applyMoguetGlobalOption_comm (settings : GlobalSettings) (first second : Bytes) :
    (applyMoguetGlobalOption settings first).bind (applyMoguetGlobalOption · second) =
      (applyMoguetGlobalOption settings second).bind (applyMoguetGlobalOption · first) := by
  have hnone : ∀ found : Option GlobalSettings, (found.bind fun _ => none) =
      (none : Option GlobalSettings) := fun found => by cases found <;> rfl
  rcases sets_or_refused first with hfirst | ⟨setting, value, hfirst⟩
  · simp only [hfirst, Option.bind_none, hnone]
  · rcases sets_or_refused second with hsecond | ⟨other, requested, hsecond⟩
    · simp only [hsecond, Option.bind_none, hnone]
    · exact hfirst.comm hsecond settings

/-- The order of the options does not matter. -/
theorem applyAll_perm {options : List Bytes} (h : options.Perm others)
    (settings : Option GlobalSettings) : applyAll settings options = applyAll settings others := by
  have hcomm : RightCommutative fun (settings : Option GlobalSettings) option =>
      settings.bind (applyMoguetGlobalOption · option) := by
    refine ⟨fun settings first second => ?_⟩
    cases settings with
    | none => rfl
    | some settings => exact applyMoguetGlobalOption_comm settings first second
  exact h.foldl_eq settings

/-! ## Views -/

def requestsRefresh (argument : Bytes) : Bool :=
  argument = ascii "--refresh" || shortOptionRequestsRefresh argument

/-- Whether a token asks for a refresh, as an operation or an option. -/
def tokenRequestsRefresh (item : Bytes × CliTokenRole) : Bool :=
  item.2 = .operation && shortOptionRequestsRefresh item.1 ||
    item.2 = .pacmanOption && requestsRefresh item.1

/-- The tokens of labelled arguments, numbered from an index on. -/
def tokensFrom (index : Nat) (items : List (Bytes × CliTokenRole)) : List ParsedCliToken :=
  (items.zipIdx index).map fun item => ⟨item.1.1, item.2, item.1.2⟩

theorem values_tokensFrom (p : CliTokenRole → Bool) :
    ∀ (items : List (Bytes × CliTokenRole)) (index : Nat),
      ((tokensFrom index items).filter fun token => p token.role).map ParsedCliToken.value =
        valuesOf p items := by
  intro items
  induction items with
  | nil => exact fun index => rfl
  | cons item items ih =>
    intro index
    have hrest := ih (index + 1)
    unfold tokensFrom valuesOf at hrest
    cases hp : p item.2 <;> simp [tokensFrom, valuesOf, hp, hrest]

theorem indices_tokensFrom (p : CliTokenRole → Bool) :
    ∀ (items : List (Bytes × CliTokenRole)) (index start : Nat),
      (((tokensFrom index items).zipIdx start).filter fun item => p item.1.role).map Prod.snd =
        ((items.zipIdx start).filter fun item => p item.1.2).map Prod.snd := by
  intro items
  induction items with
  | nil => exact fun index start => rfl
  | cons item items ih =>
    intro index start
    have hrest := ih (index + 1) (start + 1)
    unfold tokensFrom at hrest
    cases hp : p item.2 <;> simp [tokensFrom, hp, hrest]

theorem any_tokensFrom (items : List (Bytes × CliTokenRole)) (index : Nat) :
    ((tokensFrom index items).any fun token => tokenRequestsRefresh (token.value, token.role)) =
      items.any tokenRequestsRefresh := by
  have hmap : (tokensFrom index items).map (fun token => (token.value, token.role)) = items := by
    unfold tokensFrom
    rw [List.map_map]
    exact List.zipIdx_map_fst index items
  conv_rhs => rw [← hmap, List.any_map]
  rfl

/-- Filtering numbered items by what they are. -/
theorem map_filter_zipIdx {β : Type} (p : α → Bool) (f : α → β) : ∀ (items : List α) (start : Nat),
      ((items.zipIdx start).filter fun item => p item.1).map (fun item => f item.1) =
        (items.filter p).map f := by
  intro items
  induction items with
  | nil => exact fun start => rfl
  | cons item items ih =>
    intro start
    cases hp : p item <;> simp [hp, ih]

theorem values_labels : ∀ (arguments : List Bytes) (scan : Scan),
    (labels scan arguments).map Prod.fst = arguments := by
  intro arguments
  induction arguments with
  | nil => exact fun scan => rfl
  | cons argument rest ih =>
    intro scan
    show argument :: (labels _ rest).map Prod.fst = _
    rw [ih]

/-! ## The flags read again -/

theorem labels_operands (operation : Bytes) (arguments : List Bytes) :
    labels (.operands operation) arguments =
      arguments.map fun argument => (argument, CliTokenRole.opaqueOperand) := by
  induction arguments with
  | nil => rfl
  | cons argument rest ih =>
    show _ :: labels (.operands operation) rest = _
    rw [ih]
    rfl

/-- The flags behind the operation are read as they were labelled: a value is
skipped where one was expected, and nothing follows the end of the options. -/
theorem flagsRequestRefresh_labels :
    ∀ (arguments : List Bytes) (scan : Scan), scan.operation.isSome = true →
      flagsRequestRefresh scan.pending.isSome (valuesOf isFlagRole (labels scan arguments)) =
        (labels scan arguments).any tokenRequestsRefresh := by
  intro arguments
  induction arguments with
  | nil =>
    intro scan _
    cases scan.pending <;> rfl
  | cons argument rest ih =>
    intro scan hoperation
    cases scan with
    | start => cases hoperation
    | value operation option =>
      have hrest := ih (.options operation) rfl
      simpa [labels, label, valuesOf, isFlagRole, isGlobalRole, isTargetRole, Scan.pending,
        flagsRequestRefresh, tokenRequestsRefresh] using hrest
    | operands operation =>
      rw [labels_operands]
      simp [valuesOf, isFlagRole, isGlobalRole, isTargetRole, Scan.pending,
        flagsRequestRefresh, tokenRequestsRefresh, List.filter_map, Function.comp_def]
    | options operation =>
      by_cases hend : argument = endOfOptionsToken
      · simp [labels, label, hend, labels_operands, valuesOf, isFlagRole, isGlobalRole,
          isTargetRole, Scan.pending, flagsRequestRefresh, tokenRequestsRefresh]
      · by_cases hglobal : isMoguetGlobalOption argument = true
        · have hrest := ih (.options operation) rfl
          simpa [labels, label, hend, hglobal, valuesOf, isFlagRole, isGlobalRole,
            isTargetRole, Scan.pending, tokenRequestsRefresh] using hrest
        · by_cases hdash : argument.head? = some (byte '-')
          · have hrest := ih (if pacmanOptionTakesValue argument then
              .value operation argument else .options operation) (by split <;> rfl)
            have hpending : (if pacmanOptionTakesValue argument then
                Scan.value operation argument else .options operation).pending.isSome =
                pacmanOptionTakesValue argument := by
              cases pacmanOptionTakesValue argument <;> rfl
            rw [hpending] at hrest
            by_cases hrefresh : requestsRefresh argument = true
            · have hfound := hrefresh
              unfold requestsRefresh at hfound
              simp [labels, label, hend, hglobal, hdash, valuesOf, isFlagRole, isGlobalRole,
                isTargetRole, Scan.pending, flagsRequestRefresh, tokenRequestsRefresh,
                hrefresh, hfound]
            · have hfound := hrefresh
              unfold requestsRefresh at hfound
              unfold valuesOf at hrest
              simp [labels, label, hend, hglobal, hdash, valuesOf, isFlagRole, isGlobalRole,
                isTargetRole, Scan.pending, flagsRequestRefresh, tokenRequestsRefresh,
                hrefresh, hfound]
              simpa [isFlagRole, isGlobalRole, isTargetRole] using hrest
          · have hrest := ih (.options operation) rfl
            simpa [labels, label, hend, hglobal, hdash, valuesOf, isFlagRole, isGlobalRole,
              isTargetRole, Scan.pending, tokenRequestsRefresh] using hrest

/-- The operation and the flags of a whole line. -/
theorem pacmanOperationRequestsRefresh_labels : ∀ arguments : List Bytes,
      pacmanOperationRequestsRefresh ((scanAfter .start arguments).operation.getD [])
        (valuesOf isFlagRole (labels .start arguments)) =
          (labels .start arguments).any tokenRequestsRefresh := by
  have hkept : ∀ (rest : List Bytes) (scan : Scan), scan.operation.isSome = true →
      (scanAfter scan rest).operation = scan.operation := by
    intro rest
    induction rest with
    | nil => exact fun scan _ => rfl
    | cons argument rest ih =>
      intro scan hoperation
      have hlabel : (label scan argument).2.operation = scan.operation := by
        cases scan with
        | start => cases hoperation
        | value operation option => rfl
        | operands operation => rfl
        | options operation =>
          unfold label
          grind [Scan.operation]
      show (scanAfter (label scan argument).2 rest).operation = _
      rw [ih _ (hlabel ▸ hoperation), hlabel]
  intro arguments
  induction arguments with
  | nil => rfl
  | cons argument rest ih =>
    by_cases hglobal : isMoguetGlobalOption argument = true
    · simpa [labels, label, hglobal, scanAfter, valuesOf, isFlagRole, isGlobalRole,
        isTargetRole, tokenRequestsRefresh] using ih
    · have hrest := flagsRequestRefresh_labels rest (.options argument) rfl
      have hoperation := hkept rest (.options argument) rfl
      have hafter : scanAfter .start (argument :: rest) = scanAfter (.options argument) rest := by
        simp [scanAfter, label, hglobal]
      rw [hafter, hoperation]
      have hlabels : labels .start (argument :: rest) =
          (argument, .operation) :: labels (.options argument) rest := by
        simp [labels, label, hglobal]
      have hvalues : valuesOf isFlagRole (labels .start (argument :: rest)) =
          argument :: valuesOf isFlagRole (labels (.options argument) rest) := by
        rw [hlabels]
        rfl
      have hany : (labels .start (argument :: rest)).any tokenRequestsRefresh =
          (shortOptionRequestsRefresh argument ||
            (labels (.options argument) rest).any tokenRequestsRefresh) := by
        rw [hlabels, List.any_cons]
        simp [tokenRequestsRefresh]
      rw [hvalues, hany, ← hrest]
      rfl

/-! ## Moving options -/

theorem labels_append : ∀ (front rest : List Bytes) (scan : Scan),
    labels scan (front ++ rest) = labels scan front ++ labels (scanAfter scan front) rest := by
  intro front
  induction front with
  | nil => exact fun rest scan => rfl
  | cons argument front ih =>
    intro rest scan
    show _ :: labels _ (front ++ rest) = _
    rw [ih]
    rfl

theorem scanAfter_append (front rest : List Bytes) (scan : Scan) :
    scanAfter scan (front ++ rest) = scanAfter (scanAfter scan front) rest :=
  List.foldl_append

/-- Behind these arguments options of the program are recognised: the options have
not ended, and the last argument is no option that takes a value. -/
def Recognised (front : List Bytes) : Prop :=
  (∀ item ∈ labels .start front, item.2 ≠ .endOfOptions) ∧
    ∀ option, (labels .start front).getLast? = some (option, .pacmanOption) →
      pacmanOptionTakesValue option = false

/-- Where an option that takes a value, or the end of the options, was labelled. -/
theorem scanAfter_labels (front : List Bytes) :
    (∀ operation, scanAfter .start front = .operands operation →
      ∃ item ∈ labels .start front, item.2 = .endOfOptions) ∧
    (∀ operation option, scanAfter .start front = .value operation option →
      (labels .start front).getLast? = some (option, .pacmanOption) ∧
        pacmanOptionTakesValue option = true) := by
  induction front using List.reverseRecOn with
  | nil => exact ⟨nofun, nofun⟩
  | append_singleton front argument ih =>
    rw [scanAfter_append, labels_append]
    have hlast : labels (scanAfter .start front) [argument] =
        [(argument, (label (scanAfter .start front) argument).1)] := rfl
    have hafter : scanAfter (scanAfter .start front) [argument] =
        (label (scanAfter .start front) argument).2 := rfl
    rw [hlast, hafter, List.getLast?_append_of_ne_nil _ (List.cons_ne_nil _ _)]
    generalize scanAfter .start front = scan at ih
    unfold label
    cases scan with
    | start => grind
    | value operation option => grind
    | operands operation =>
      obtain ⟨item, hitem, hrole⟩ := ih.1 operation rfl
      exact ⟨fun _ _ => ⟨item, List.mem_append_left _ hitem, hrole⟩, nofun⟩
    | options operation =>
      dsimp only
      by_cases hend : argument = endOfOptionsToken
      · rw [if_pos hend]
        exact ⟨fun _ _ => ⟨_, List.mem_append_right _ (List.mem_singleton_self _), rfl⟩, nofun⟩
      · rw [if_neg hend]
        by_cases hglobal : isMoguetGlobalOption argument = true
        · rw [if_pos hglobal]
          exact ⟨nofun, nofun⟩
        · rw [if_neg hglobal]
          by_cases hdash : argument.head? = some (byte '-')
          · rw [if_pos hdash]
            by_cases htakes : pacmanOptionTakesValue argument = true
            · rw [if_pos htakes]
              refine ⟨nofun, fun found option h => ?_⟩
              injection h with _ hoption
              rw [← hoption]
              exact ⟨rfl, htakes⟩
            · rw [if_neg htakes]
              exact ⟨nofun, nofun⟩
          · rw [if_neg hdash]
            exact ⟨nofun, nofun⟩

theorem label_recognised {front : List Bytes} (h : Recognised front) {option : Bytes}
    (hoption : isMoguetGlobalOption option = true) :
    label (scanAfter .start front) option = (.moguetGlobalOption, scanAfter .start front) := by
  obtain ⟨hoperands, hvalue⟩ := scanAfter_labels front
  cases hscan : scanAfter .start front with
  | start => exact if_pos hoption
  | options operation =>
    have hend : option ≠ endOfOptionsToken := by
      intro hend
      rw [hend] at hoption
      exact absurd hoption (by decide)
    unfold label
    dsimp only
    rw [if_neg hend, if_pos hoption]
  | value operation option =>
    obtain ⟨hlast, htakes⟩ := hvalue operation option hscan
    rw [h.2 option hlast] at htakes
    cases htakes
  | operands operation =>
    obtain ⟨item, hitem, hrole⟩ := hoperands operation hscan
    exact absurd hrole (h.1 item hitem)

/-- An option of the program stands at another place where it is recognised. -/
inductive Moved : List Bytes → List Bytes → Prop
  | later (front block back : List Bytes) (option : Bytes)
      (hoption : isMoguetGlobalOption option = true) (hfrom : Recognised front)
      (hto : Recognised (front ++ block)) :
      Moved (front ++ option :: (block ++ back)) (front ++ (block ++ option :: back))

/-- What the rest of the program reads of a command line. -/
def outcome (arguments : List Bytes) :
    Option (Bytes × List Bytes × List Bytes × GlobalSettings) :=
  (parseCliArguments arguments).map fun parsed =>
    (parsed.operation, parsed.targets, parsed.orderedPacmanArgs, parsed.settings)

theorem outcome_moved {arguments : List Bytes} (h : Moved arguments others) :
    outcome arguments = outcome others := by
  obtain ⟨front, block, back, option, hoption, hfrom, hto⟩ := h
  have hfirst := label_recognised hfrom hoption
  have hsecond := label_recognised hto hoption
  rw [scanAfter_append] at hsecond
  have hscan : scanAfter .start (front ++ option :: (block ++ back)) =
      scanAfter .start (front ++ (block ++ option :: back)) := by
    rw [scanAfter_append, scanAfter_append]
    show scanAfter (label (scanAfter .start front) option).2 (block ++ back) = _
    rw [hfirst, scanAfter_append, scanAfter_append]
    show _ = scanAfter (label (scanAfter (scanAfter .start front) block) option).2 back
    rw [hsecond]
  have hlabels : labels .start (front ++ option :: (block ++ back)) =
      labels .start front ++ (option, .moguetGlobalOption) ::
        (labels (scanAfter .start front) block ++
          labels (scanAfter (scanAfter .start front) block) back) := by
    rw [labels_append]
    show _ ++ (option, _) :: labels _ (block ++ back) = _
    rw [hfirst, labels_append]
  have hothers : labels .start (front ++ (block ++ option :: back)) =
      labels .start front ++ (labels (scanAfter .start front) block ++
        (option, .moguetGlobalOption) ::
          labels (scanAfter (scanAfter .start front) block) back) := by
    rw [labels_append, labels_append]
    show _ ++ (_ ++ (option, _) :: labels _ back) = _
    rw [hsecond]
  have hperm : (labels .start (front ++ option :: (block ++ back))).Perm
      (labels .start (front ++ (block ++ option :: back))) := by
    rw [hlabels, hothers]
    exact List.Perm.append_left _ List.perm_middle.symm
  have hvalues : ∀ p : CliTokenRole → Bool, p .moguetGlobalOption = false →
      valuesOf p (labels .start (front ++ option :: (block ++ back))) =
        valuesOf p (labels .start (front ++ (block ++ option :: back))) := by
    intro p hp
    rw [hlabels, hothers]
    simp [valuesOf, hp]
  have hall : (labels .start (front ++ option :: (block ++ back))).all acceptable =
      (labels .start (front ++ (block ++ option :: back))).all acceptable := by
    rw [Bool.eq_iff_iff, List.all_eq_true, List.all_eq_true]
    exact forall_congr' fun item => by rw [hperm.mem_iff]
  have hglobals := applyAll_perm
    ((hperm.filter fun item => isGlobalRole item.2).map Prod.fst) (some {})
  unfold outcome
  rw [parseCliArguments_eq, parseCliArguments_eq, hall, hscan]
  unfold valuesOf
  rw [hglobals]
  split
  · rw [Option.map_map, Option.map_map]
    congr 1
    funext settings
    have htargets := hvalues isTargetRole rfl
    have hpacman := hvalues (fun role => !isGlobalRole role) rfl
    simp only [Function.comp_apply, build, htargets, hpacman]
  · rfl

/-- Every argument keeps its value and its place: the views of an accepted line
are those of its tokens, the flags are read as they were labelled, and options of
the program can stand wherever they are recognised. -/
theorem arguments_kept (arguments : List Bytes) :
    (∀ parsed, parseCliArguments arguments = some parsed →
      parsed.tokens.map ParsedCliToken.value = arguments ∧
      parsed.orderedPacmanArgs = (parsed.tokens.filter
        fun token => token.role ≠ .moguetGlobalOption).map ParsedCliToken.value ∧
      orderedPacmanArgsExcludingTargets parsed [] = parsed.orderedPacmanArgs ∧
      parsed.targets = (parsed.tokens.filter
        fun token => isTargetRole token.role).map ParsedCliToken.value ∧
      parsed.targetTokenIndices = (parsed.tokens.zipIdx.filter
        fun item => isTargetRole item.1.role).map Prod.snd ∧
      (pacmanOperationRequestsRefresh parsed.operation parsed.flags = true ↔
        ∃ token ∈ parsed.tokens,
          token.role = .operation ∧ shortOptionRequestsRefresh token.value = true ∨
            token.role = .pacmanOption ∧ requestsRefresh token.value = true)) ∧
    ∀ others, Relation.EqvGen Moved arguments others → outcome arguments = outcome others := by
  constructor
  · intro parsed hparsed
    rw [parseCliArguments_eq] at hparsed
    split at hparsed
    · obtain ⟨settings, -, hbuild⟩ := Option.map_eq_some_iff.mp hparsed
      have htokens : parsed.tokens = tokensFrom 1 (labels .start arguments) := by
        rw [← hbuild]
        rfl
      have hpacman : parsed.orderedPacmanArgs = (parsed.tokens.filter
          fun token => token.role ≠ .moguetGlobalOption).map ParsedCliToken.value := by
        have hvalues := values_tokensFrom (fun role => !isGlobalRole role)
          (labels .start arguments) 1
        rw [htokens, ← hbuild]
        refine hvalues.symm.trans ?_
        congr 2
        funext token
        simp [isGlobalRole]
      refine ⟨?_, hpacman, ?_, ?_, ?_, ?_⟩
      · have hvalues := values_tokensFrom (fun _ => true) (labels .start arguments) 1
        rw [List.filter_true] at hvalues
        rw [htokens, hvalues]
        unfold valuesOf
        rw [List.filter_true]
        exact values_labels arguments .start
      · rw [hpacman]
        have hfilter := map_filter_zipIdx (fun token : ParsedCliToken =>
          decide (token.role ≠ .moguetGlobalOption)) ParsedCliToken.value parsed.tokens 0
        rw [← hfilter]
        unfold orderedPacmanArgsExcludingTargets
        simp
      · rw [htokens, ← hbuild]
        exact (values_tokensFrom isTargetRole (labels .start arguments) 1).symm
      · rw [htokens, ← hbuild]
        exact (indices_tokensFrom isTargetRole (labels .start arguments) 1 0).symm
      · have hrefresh := pacmanOperationRequestsRefresh_labels arguments
        have hread : pacmanOperationRequestsRefresh parsed.operation parsed.flags =
            (labels .start arguments).any tokenRequestsRefresh := by
          rw [← hrefresh, ← hbuild]
          rfl
        have hany := any_tokensFrom (labels .start arguments) 1
        rw [hread, htokens, ← hany, List.any_eq_true]
        simp [tokenRequestsRefresh, requestsRefresh]
    · cases hparsed
  · intro others h
    induction h with
    | rel first second h => exact outcome_moved h
    | refl first => rfl
    | symm first second _ ih => exact ih.symm
    | trans first second third _ _ ih ih' => exact ih.trans ih'

/-- An option of the program before the operation and before a target. -/
theorem arguments_kept_sample :
    (∃ parsed, parseCliArguments [ascii "--aur", ascii "-Sy", ascii "--config", ascii "x",
        ascii "vim"] = some parsed ∧ parsed.targets = [ascii "vim"] ∧
      ∃ token ∈ parsed.tokens, token.role = .operation ∧
          shortOptionRequestsRefresh token.value = true ∨
        token.role = .pacmanOption ∧ requestsRefresh token.value = true) ∧
    outcome [ascii "--aur", ascii "-Sy", ascii "--config", ascii "x", ascii "vim"] =
      outcome [ascii "-Sy", ascii "--config", ascii "x", ascii "--aur", ascii "vim"] := by
  have hkept := arguments_kept
    [ascii "--aur", ascii "-Sy", ascii "--config", ascii "x", ascii "vim"]
  refine ⟨⟨_, rfl, by decide +kernel, ?_⟩, hkept.2 _ (.rel _ _ ?_)⟩
  · exact (hkept.1 _ rfl).2.2.2.2.2.mp (by decide +kernel)
  · exact .later [] [ascii "-Sy", ascii "--config", ascii "x"] [ascii "vim"] (ascii "--aur")
      (by decide +kernel) ⟨by decide, by intro option h; cases h⟩
      ⟨by decide +kernel, by intro option h; injection h with h; injection h with _ h; cases h⟩

end Moguet.Cli.Kept
