import Mathlib.Logic.Function.Basic
import Moguet.Store.Commit

/-!
# Publications among other writers

Any number of publications on one unit directory, and other writers that add,
replace or rewrite entries between any two of their steps. The directory is the
list of its moments, and an answer tells the truth about a moment since the
last step of the call that asks. A scan is not atomic: it sees every name that
is there all the while, and no name that is never there. The bytes of a read
may be torn, so nothing is said about them, and nothing is said of failures.

The lock is left out: calls that ignore each other's locks have all the
interleavings of calls that hold them.
-/

namespace Moguet.Store.Interleaving

open Verified.ByteString Verified.Dialogue Verified.Dialogue.Program Record Chain Publish Commit

variable {index since other : Nat} {leaf : Bytes} {note : PublicationProgress} {request : Request}
  {record : ObservedRecord} {answer : Answer request}

/-! ## The directory over time -/

structure Entry where
  status : FileStatus
  contents : Bytes

abbrev Entries : Type := Bytes → Option Entry

/-- Who made a change. -/
inductive Cause
  | initial
  | others
  | link (call : Nat)

structure Moment where
  entries : Entries
  cause : Cause

variable {moments : List Moment} {last moment : Moment}

/-- The name is there at a moment. -/
def PresentAt (moments : List Moment) (index : Nat) (leaf : Bytes) : Prop :=
  ∃ moment, moments[index]? = some moment ∧ (moment.entries leaf).isSome = true

/-- What an inspection of a name may answer. -/
def SeenSince (moments : List Moment) (since : Nat) (leaf : Bytes)
    (status : Option FileStatus) : Prop :=
  ∃ index moment, since ≤ index ∧ moments[index]? = some moment ∧
    (moment.entries leaf).map Entry.status = status

/-- What a scan may see. -/
structure ScannedSince (moments : List Moment) (since : Nat) (directory : UnitDirectory) :
    Prop where
  lists_lasting : ∀ leaf,
    (∀ index, since ≤ index → index < moments.length → PresentAt moments index leaf) →
      leaf ∈ directory.names
  lists_present : ∀ leaf ∈ directory.names,
    ∃ index, since ≤ index ∧ PresentAt moments index leaf
  inspects : ∀ leaf status, directory.inspectNamedEntry leaf = .ok status →
    SeenSince moments since leaf status

/-- The answers that other steps than a link can get. -/
def Allowed (moments : List Moment) (since : Nat) : (request : Request) → Answer request → Prop
  | .observeHistory, answer => ∀ observation : Observation,
      (show Except StoreFailure Observation from answer) = .ok observation →
        ScannedSince moments since observation.directory
  | .inspectNamedEntry leaf, answer => ∀ status,
      (show Except StoreFailure (Option FileStatus) from answer) = .ok status →
        SeenSince moments since leaf status
  | _, _ => True

/-! ## Calls -/

/-- An answered request, with the moments it lies between. -/
structure TimedEvent where
  event : StoreEvent
  since : Nat
  upTo : Nat

abbrev PublishProgram : Type := Program Request Answer PublicationProgress PublishResult

variable {next : Answer request → PublishProgram}

structure Call where
  configuration : StoreConfiguration
  publication : Bytes
  expected : Option ObservedRecord
  point : PublishProgram
  events : List TimedEvent
  since : Nat

variable {call call' : Call}

def Call.start (configuration : StoreConfiguration) (publication : Bytes)
    (expected : Option ObservedRecord) (since : Nat) : Call where
  configuration
  publication
  expected
  point := publishGenerationStore configuration publication expected
  events := []
  since

/-- A call after an answer. -/
def Call.answered (call : Call) (request : Request) (answer : Answer request)
    (point : PublishProgram) (now : Nat) : Call :=
  { call with
    point
    events := call.events ++ [⟨⟨request, answer⟩, call.since, now⟩]
    since := now }

/-- A call that an exception has ended. -/
def Call.thrown (call : Call) (note : PublicationProgress) (kind : StoreFailureKind) : Call :=
  { call with point := .done (publicationException note kind) }

/-! ## Steps -/

structure World where
  moments : List Moment
  calls : List Call

variable {world : World}

def World.now (world : World) : Nat := world.moments.length - 1

variable {now : Nat}

inductive Step : World → World → Prop
  /-- Others may do anything but take a name away. -/
  | others {world : World} {last : Moment} {entries : Entries}
      (hlast : world.moments.getLast? = some last)
      (hkept : ∀ leaf, (last.entries leaf).isSome = true → (entries leaf).isSome = true) :
      Step world { world with moments := world.moments ++ [⟨entries, .others⟩] }
  | start {world : World} (configuration : StoreConfiguration) (publication : Bytes)
      (expected : Option ObservedRecord) :
      Step world { world with
        calls := world.calls ++ [.start configuration publication expected world.now] }
  | answer {world : World} {index : Nat} {call : Call} {note : PublicationProgress}
      {request : Request} {next : Answer request → PublishProgram} {answer : Answer request}
      (hcall : world.calls[index]? = some call) (hpoint : call.point = .ask note request next)
      (hanswer : Allowed world.moments call.since request answer)
      (hlink : isLink ⟨request, answer⟩ = false) :
      Step world { world with
        calls := world.calls.set index
          (call.answered request answer (next answer) world.now) }
  /-- A link needs a free name. -/
  | link {world : World} {index : Nat} {call : Call} {note : PublicationProgress}
      {leaf : Bytes} {next : Answer (.linkRecord leaf) → PublishProgram} {last : Moment}
      {entry : Entry} (hcall : world.calls[index]? = some call)
      (hpoint : call.point = .ask note (.linkRecord leaf) next)
      (hlast : world.moments.getLast? = some last) (hfree : last.entries leaf = none)
      (hentry : entry.contents = call.publication) :
      Step world {
        moments := world.moments ++
          [⟨Function.update last.entries leaf (some entry), .link index⟩]
        calls := world.calls.set index
          (call.answered (.linkRecord leaf) LinkAnswer.linked (next LinkAnswer.linked)
            world.moments.length) }
  | throw {world : World} {index : Nat} {call : Call} {note : PublicationProgress}
      {request : Request} {next : Answer request → PublishProgram} {kind : StoreFailureKind}
      (hcall : world.calls[index]? = some call) (hpoint : call.point = .ask note request next)
      (hkind : kind = .resourceFailure ∨ kind = .internalFailure) :
      Step world { world with calls := world.calls.set index (call.thrown note kind) }

/-- A directory as it was, without calls. -/
def World.initial (entries : Entries) : World := ⟨[⟨entries, .initial⟩], []⟩

inductive Reachable : World → Prop
  | initial (entries : Entries) : Reachable (.initial entries)
  | step {world world' : World} (hreachable : Reachable world) (hstep : Step world world') :
      Reachable world'

/-- A call has named a record. -/
def World.LinkedBy (world : World) (index : Nat) : Prop :=
  ∃ moment ∈ world.moments, moment.cause = .link index

/-! ## Names stay -/

def Grows (older newer : Moment) : Prop :=
  ∀ leaf, (older.entries leaf).isSome = true → (newer.entries leaf).isSome = true

theorem presentAt_append {more : List Moment} (h : index < moments.length) :
    PresentAt (moments ++ more) index leaf ↔ PresentAt moments index leaf := by
  unfold PresentAt
  rw [List.getElem?_append_left h]

theorem PresentAt.lt (h : PresentAt moments index leaf) : index < moments.length := by
  obtain ⟨moment, hmoment, _⟩ := h
  exact (List.getElem?_eq_some_iff.mp hmoment).1

theorem PresentAt.later (hgrows : moments.IsChain Grows) {early late : Nat}
    (h : PresentAt moments early leaf) (hle : early ≤ late) (hlt : late < moments.length) :
    PresentAt moments late leaf := by
  induction late, hle using Nat.le_induction with
  | base => exact h
  | succ late hle ih =>
    obtain ⟨moment, hmoment, hpresent⟩ := ih (by omega)
    obtain ⟨hlate, rfl⟩ := List.getElem?_eq_some_iff.mp hmoment
    refine ⟨moments[late + 1], List.getElem?_eq_getElem hlt, ?_⟩
    exact List.isChain_iff_getElem.mp hgrows late hlt leaf hpresent

theorem grows_concat (hgrows : moments.IsChain Grows) (hlast : moments.getLast? = some last)
    (hmoment : Grows last moment) : (moments ++ [moment]).IsChain Grows := by
  rw [List.isChain_append]
  refine ⟨hgrows, List.isChain_singleton _, ?_⟩
  intro other hother newer hnewer
  rw [hlast, Option.mem_some_iff] at hother
  simp only [List.head?_cons, Option.mem_some_iff] at hnewer
  rw [← hother, ← hnewer]
  exact hmoment

/-! ## What holds of a call -/

def Call.dialogue (call : Call) : List StoreEvent := call.events.map TimedEvent.event

def Call.program (call : Call) : PublishProgram :=
  publishGenerationStore call.configuration call.publication call.expected

/-- A call is where its answers have led it, or was thrown out of there. -/
inductive Call.AtPoint (call : Call) : Prop
  | running (h : Reaches call.program call.dialogue call.point)
  | thrown {note : PublicationProgress} {request : Request}
      {next : Answer request → PublishProgram} {kind : StoreFailureKind}
      (h : Reaches call.program call.dialogue (.ask note request next))
      (hpoint : call.point = .done (publicationException note kind))

structure CallInvariant (moments : List Moment) (call : Call) : Prop where
  at_point : call.AtPoint
  since_lt : call.since < moments.length
  windows : ∀ timed ∈ call.events, timed.since ≤ timed.upTo ∧ timed.upTo ≤ call.since
  ordered : call.events.Pairwise fun earlier later => earlier.upTo ≤ later.since
  truthful : ∀ timed ∈ call.events, isLink timed.event = false →
    Allowed (moments.take (timed.upTo + 1)) timed.since timed.event.request timed.event.answer

theorem callInvariant_start (h : since < moments.length) (configuration : StoreConfiguration)
    (publication : Bytes) (expected : Option ObservedRecord) :
    CallInvariant moments (.start configuration publication expected since) where
  at_point := .running (Reaches.refl _)
  since_lt := h
  windows := by
    intro timed hmem
    cases hmem
  ordered := List.Pairwise.nil
  truthful := by
    intro timed hmem
    cases hmem

theorem CallInvariant.append (h : CallInvariant moments call) (more : List Moment) :
    CallInvariant (moments ++ more) call where
  at_point := h.at_point
  since_lt := by
    rw [List.length_append]
    exact Nat.lt_add_right _ h.since_lt
  windows := h.windows
  ordered := h.ordered
  truthful := by
    intro timed hmem hlink
    have hlt := h.since_lt
    have hwindow := h.windows timed hmem
    rw [List.take_append_of_le_length (by omega)]
    exact h.truthful timed hmem hlink

theorem reaches_of_ask (h : call.AtPoint) (hpoint : call.point = .ask note request next) :
    Reaches call.program call.dialogue (.ask note request next) := by
  cases h with
  | running h =>
    rw [← hpoint]
    exact h
  | thrown _ hthrown =>
    rw [hpoint] at hthrown
    cases hthrown

theorem CallInvariant.answered (h : CallInvariant moments call)
    (hpoint : call.point = .ask note request next) (hsince : call.since ≤ now)
    (hnow : now < moments.length) (hanswer : isLink ⟨request, answer⟩ = false →
      Allowed (moments.take (now + 1)) call.since request answer) :
    CallInvariant moments (call.answered request answer (next answer) now) where
  at_point := by
    have hreaches := reaches_concat (reaches_of_ask h.at_point hpoint) answer
    refine .running ?_
    show Reaches call.program ((call.events ++ [_]).map TimedEvent.event) (next answer)
    rw [List.map_append]
    exact hreaches
  since_lt := hnow
  windows := by
    intro timed hmem
    rcases List.mem_append.mp hmem with hmem | hmem
    · have hwindow := h.windows timed hmem
      exact ⟨hwindow.1, hwindow.2.trans hsince⟩
    · rw [List.mem_singleton.mp hmem]
      exact ⟨hsince, le_rfl⟩
  ordered := by
    refine List.pairwise_append.mpr ⟨h.ordered, List.pairwise_singleton _ _, ?_⟩
    intro earlier hearlier later hlater
    rw [List.mem_singleton.mp hlater]
    exact (h.windows earlier hearlier).2
  truthful := by
    intro timed hmem hlink
    rcases List.mem_append.mp hmem with hmem | hmem
    · exact h.truthful timed hmem hlink
    · rw [List.mem_singleton.mp hmem] at hlink ⊢
      exact hanswer hlink

theorem CallInvariant.thrown {moments : List Moment} {call : Call}
    {note : PublicationProgress} {request : Request} {next : Answer request → PublishProgram}
    (h : CallInvariant moments call) (hpoint : call.point = .ask note request next)
    (kind : StoreFailureKind) : CallInvariant moments (call.thrown note kind) where
  at_point := by
    have hreaches := reaches_of_ask h.at_point hpoint
    exact Call.AtPoint.thrown hreaches rfl
  since_lt := h.since_lt
  windows := h.windows
  ordered := h.ordered
  truthful := h.truthful

/-! ## What holds of the world -/

structure WorldInvariant (world : World) : Prop where
  nonempty : world.moments ≠ []
  grows : world.moments.IsChain Grows
  calls : ∀ call ∈ world.calls, CallInvariant world.moments call
  linked : ∀ index call, world.calls[index]? = some call →
    (Linked call.dialogue ↔ world.LinkedBy index)
  claimed : ∀ (index at' : Nat) (moment : Moment), world.moments[at']? = some moment →
    moment.cause = .link index → ∃ call, world.calls[index]? = some call ∧
      (∀ early < at', ¬ PresentAt world.moments early (expectedLeaf call.expected)) ∧
      PresentAt world.moments at' (expectedLeaf call.expected)

theorem worldInvariant_initial (entries : Entries) : WorldInvariant (.initial entries) where
  nonempty := List.cons_ne_nil _ _
  grows := List.isChain_singleton _
  calls := by
    intro call hmem
    cases hmem
  linked := by
    intro index call hcall
    cases hcall
  claimed := by
    intro index at' moment hmoment hcause
    have hmem := List.mem_of_getElem? hmoment
    rw [List.mem_singleton.mp hmem] at hcause
    cases hcause

theorem World.now_lt (h : WorldInvariant world) : world.now < world.moments.length := by
  have hpos := List.length_pos_of_ne_nil h.nonempty
  unfold World.now
  omega

theorem getElem?_set_expected {calls : List Call} {found : Call} (hcall : calls[index]? = some call)
    (hexpected : call'.expected = call.expected) (hfound : calls[other]? = some found) :
    ∃ found', (calls.set index call')[other]? = some found' ∧ found'.expected = found.expected := by
  by_cases hother : index = other
  · subst hother
    rw [hcall] at hfound
    injection hfound with hfound
    refine ⟨call', ?_, by rw [hexpected, hfound]⟩
    exact List.getElem?_set_self (List.getElem?_eq_some_iff.mp hcall).1
  · exact ⟨found, by rw [List.getElem?_set_ne hother, hfound], rfl⟩

/-- One call moves on and the directory stays. -/
theorem WorldInvariant.set (h : WorldInvariant world) (hcall : world.calls[index]? = some call)
    (hexpected : call'.expected = call.expected) (hinvariant : CallInvariant world.moments call')
    (hlinked : Linked call'.dialogue ↔ Linked call.dialogue) :
    WorldInvariant { world with calls := world.calls.set index call' } where
  nonempty := h.nonempty
  grows := h.grows
  calls := by
    intro other hmem
    rcases List.mem_or_eq_of_mem_set hmem with hmem | rfl
    · exact h.calls other hmem
    · exact hinvariant
  linked := by
    intro other found hfound
    by_cases hother : index = other
    · subst hother
      replace hfound : (world.calls.set index call')[index]? = some found := hfound
      rw [List.getElem?_set_self (List.getElem?_eq_some_iff.mp hcall).1] at hfound
      injection hfound with hfound
      rw [← hfound, hlinked]
      exact h.linked index call hcall
    · replace hfound : (world.calls.set index call')[other]? = some found := hfound
      rw [List.getElem?_set_ne hother] at hfound
      exact h.linked other found hfound
  claimed := by
    intro other at' moment hmoment hcause
    obtain ⟨found, hfound, habsent, hpresent⟩ := h.claimed other at' moment hmoment hcause
    obtain ⟨found', hfound', hsame⟩ := getElem?_set_expected hcall hexpected hfound
    refine ⟨found', hfound', ?_, ?_⟩
    · rw [hsame]
      exact habsent
    · rw [hsame]
      exact hpresent

/-- The directory moves on and the calls stay. -/
theorem WorldInvariant.grow {entries : Entries} {cause : Cause} (h : WorldInvariant world)
    (hlast : world.moments.getLast? = some last)
    (hkept : ∀ leaf, (last.entries leaf).isSome = true → (entries leaf).isSome = true)
    (hcause : ∀ index, cause ≠ .link index) :
    WorldInvariant { world with moments := world.moments ++ [⟨entries, cause⟩] } where
  nonempty := List.append_ne_nil_of_right_ne_nil _ (List.cons_ne_nil _ _)
  grows := grows_concat h.grows hlast hkept
  calls := fun call hmem => (h.calls call hmem).append _
  linked := by
    intro index call hcall
    rw [h.linked index call hcall]
    constructor
    · rintro ⟨moment, hmem, hmoment⟩
      exact ⟨moment, List.mem_append_left _ hmem, hmoment⟩
    · rintro ⟨moment, hmem, hmoment⟩
      rcases List.mem_append.mp hmem with hmem | hmem
      · exact ⟨moment, hmem, hmoment⟩
      · rw [List.mem_singleton.mp hmem] at hmoment
        exact absurd hmoment (hcause index)
  claimed := by
    intro index at' moment hmoment hlink
    have hlt : at' < world.moments.length := by
      by_contra hge
      have hmem := hmoment
      rw [List.getElem?_append_right (Nat.le_of_not_lt hge)] at hmem
      have hsingle := List.mem_singleton.mp (List.mem_of_getElem? hmem)
      rw [hsingle] at hlink
      exact hcause index hlink
    replace hmoment : (world.moments ++ [_])[at']? = some moment := hmoment
    rw [List.getElem?_append_left hlt] at hmoment
    obtain ⟨call, hcall, habsent, hpresent⟩ := h.claimed index at' moment hmoment hlink
    refine ⟨call, hcall, ?_, (presentAt_append hlt).mpr hpresent⟩
    intro early hearly hthere
    exact habsent early hearly ((presentAt_append (hearly.trans hlt)).mp hthere)

theorem linked_answered {point : PublishProgram} :
    Linked (call.answered request answer point now).dialogue ↔
      Linked call.dialogue ∨ isLink ⟨request, answer⟩ = true := by
  unfold Linked Call.dialogue Call.answered
  simp

theorem WorldInvariant.start (h : WorldInvariant world) (configuration : StoreConfiguration)
    (publication : Bytes) (expected : Option ObservedRecord) :
    WorldInvariant { world with
      calls := world.calls ++ [.start configuration publication expected world.now] } where
  nonempty := h.nonempty
  grows := h.grows
  calls := by
    intro call hmem
    rcases List.mem_append.mp hmem with hmem | hmem
    · exact h.calls call hmem
    · rw [List.mem_singleton.mp hmem]
      exact callInvariant_start (World.now_lt h) _ _ _
  linked := by
    intro index call hcall
    replace hcall : (world.calls ++ [_])[index]? = some call := hcall
    by_cases hlt : index < world.calls.length
    · rw [List.getElem?_append_left hlt] at hcall
      exact h.linked index call hcall
    · -- a call that has just begun has not linked, and nobody has in its name
      rw [List.getElem?_append_right (Nat.le_of_not_lt hlt)] at hcall
      rw [List.mem_singleton.mp (List.mem_of_getElem? hcall)]
      constructor
      · rintro ⟨event, hmem, _⟩
        cases hmem
      · rintro ⟨moment, hmem, hcause⟩
        obtain ⟨at', hat, hmoment⟩ := List.getElem_of_mem hmem
        obtain ⟨other, hother, _⟩ := h.claimed index at' moment
          (by rw [List.getElem?_eq_getElem hat, hmoment]) hcause
        exact absurd (List.getElem?_eq_some_iff.mp hother).1 hlt
  claimed := by
    intro index at' moment hmoment hcause
    obtain ⟨call, hcall, hrest⟩ := h.claimed index at' moment hmoment hcause
    refine ⟨call, ?_, hrest⟩
    show (world.calls ++ [_])[index]? = some call
    rw [List.getElem?_append_left (List.getElem?_eq_some_iff.mp hcall).1, hcall]

theorem absent_before (hgrows : moments.IsChain Grows) (hlast : moments.getLast? = some last)
    (hfree : last.entries leaf = none) (early : Nat) : ¬ PresentAt moments early leaf := by
  intro hearly
  have hlt := hearly.lt
  obtain ⟨moment, hmoment, hpresent⟩ :=
    hearly.later hgrows (Nat.le_sub_one_of_lt hlt) (by omega)
  rw [← List.getLast?_eq_getElem?, hlast] at hmoment
  injection hmoment with hmoment
  rw [← hmoment, hfree] at hpresent
  cases hpresent

/-- A call links a name that was free at every moment before. -/
theorem WorldInvariant.link {world : World} {index : Nat} {call : Call}
    {note : PublicationProgress} {leaf : Bytes}
    {next : Answer (.linkRecord leaf) → PublishProgram} {last : Moment} {entry : Entry}
    (h : WorldInvariant world) (hcall : world.calls[index]? = some call)
    (hpoint : call.point = .ask note (.linkRecord leaf) next)
    (hlast : world.moments.getLast? = some last) (hfree : last.entries leaf = none) :
    WorldInvariant {
      moments := world.moments ++
        [⟨Function.update last.entries leaf (some entry), .link index⟩]
      calls := world.calls.set index
        (call.answered (.linkRecord leaf) LinkAnswer.linked (next LinkAnswer.linked)
          world.moments.length) } where
  nonempty := List.append_ne_nil_of_right_ne_nil _ (List.cons_ne_nil _ _)
  grows := by
    apply grows_concat h.grows hlast
    intro other hother
    by_cases hsame : other = leaf
    · rw [hsame] at hother
      rw [hfree] at hother
      cases hother
    · show (Function.update last.entries leaf (some entry) other).isSome = true
      rw [Function.update_of_ne hsame]
      exact hother
  calls := by
    intro other hmem
    rcases List.mem_or_eq_of_mem_set hmem with hmem | rfl
    · exact (h.calls other hmem).append _
    · have hbefore := (h.calls call (List.mem_of_getElem? hcall)).append
        [⟨Function.update last.entries leaf (some entry), .link index⟩]
      have hsince := (h.calls call (List.mem_of_getElem? hcall)).since_lt
      apply hbefore.answered hpoint hsince.le
      · simp
      · intro hlink
        cases hlink
  linked := by
    intro other found hfound
    by_cases hother : index = other
    · subst hother
      replace hfound : (world.calls.set index _)[index]? = some found := hfound
      rw [List.getElem?_set_self (List.getElem?_eq_some_iff.mp hcall).1] at hfound
      injection hfound with hfound
      rw [← hfound]
      constructor
      · intro _
        exact ⟨_, List.mem_append_right _ List.mem_cons_self, rfl⟩
      · intro _
        exact linked_answered.mpr (Or.inr rfl)
    · replace hfound : (world.calls.set index _)[other]? = some found := hfound
      rw [List.getElem?_set_ne hother] at hfound
      rw [h.linked other found hfound]
      constructor
      · rintro ⟨moment, hmem, hmoment⟩
        exact ⟨moment, List.mem_append_left _ hmem, hmoment⟩
      · rintro ⟨moment, hmem, hmoment⟩
        rcases List.mem_append.mp hmem with hmem | hmem
        · exact ⟨moment, hmem, hmoment⟩
        · rw [List.mem_singleton.mp hmem] at hmoment
          injection hmoment with hmoment
          exact absurd hmoment hother
  claimed := by
    intro other at' moment hmoment hcause
    have hexpected : (call.answered (.linkRecord leaf) LinkAnswer.linked
        (next LinkAnswer.linked) world.moments.length).expected = call.expected := rfl
    by_cases hlt : at' < world.moments.length
    · replace hmoment : (world.moments ++ [_])[at']? = some moment := hmoment
      rw [List.getElem?_append_left hlt] at hmoment
      obtain ⟨found, hfound, habsent, hpresent⟩ := h.claimed other at' moment hmoment hcause
      obtain ⟨found', hfound', hsame⟩ := getElem?_set_expected hcall hexpected hfound
      refine ⟨found', hfound', ?_, ?_⟩
      · rw [hsame]
        intro early hearly hthere
        exact habsent early hearly ((presentAt_append (hearly.trans hlt)).mp hthere)
      · rw [hsame]
        exact (presentAt_append hlt).mpr hpresent
    · -- the moment of this link
      have hat : at' = world.moments.length := by
        have hbound := (List.getElem?_eq_some_iff.mp hmoment).1
        simp only [List.length_append, List.length_singleton] at hbound
        omega
      subst hat
      replace hmoment : (world.moments ++ [_])[world.moments.length]? = some moment := hmoment
      rw [List.getElem?_append_right le_rfl, Nat.sub_self] at hmoment
      injection hmoment with hmoment
      rw [← hmoment] at hcause
      injection hcause with hcause
      subst hcause
      have hleaf : leaf = expectedLeaf call.expected :=
        publish_links (reaches_of_ask (h.calls call (List.mem_of_getElem? hcall)).at_point hpoint)
      refine ⟨_, List.getElem?_set_self (List.getElem?_eq_some_iff.mp hcall).1, ?_, ?_⟩
      · rw [hexpected, ← hleaf]
        intro early hearly hthere
        exact absent_before h.grows hlast hfree early ((presentAt_append hearly).mp hthere)
      · rw [hexpected, ← hleaf]
        refine ⟨⟨Function.update last.entries leaf (some entry), .link index⟩, ?_, ?_⟩
        · show (world.moments ++ [_])[world.moments.length]? = some _
          rw [List.getElem?_append_right le_rfl, Nat.sub_self]
          rfl
        show (Function.update last.entries leaf (some entry) leaf).isSome = true
        rw [Function.update_self]
        rfl

theorem worldInvariant_step {world' : World} (h : WorldInvariant world) (hstep : Step world world')
    : WorldInvariant world' := by
  cases hstep with
  | others hlast hkept => exact h.grow hlast hkept (by intro index hcause; cases hcause)
  | start configuration publication expected => exact h.start _ _ _
  | answer hcall hpoint hanswer hlink =>
    have hinvariant := h.calls _ (List.mem_of_getElem? hcall)
    have hnow := World.now_lt h
    have hsince : _ ≤ world.now := Nat.le_sub_one_of_lt hinvariant.since_lt
    refine h.set hcall rfl (hinvariant.answered hpoint hsince hnow ?_) ?_
    · intro _
      have htake : world.moments.take (world.now + 1) = world.moments :=
        List.take_of_length_le (by unfold World.now; omega)
      rw [htake]
      exact hanswer
    · rw [linked_answered, hlink]
      simp
  | link hcall hpoint hlast hfree _ => exact h.link hcall hpoint hlast hfree
  | throw hcall hpoint _ =>
    exact h.set hcall rfl ((h.calls _ (List.mem_of_getElem? hcall)).thrown hpoint _) Iff.rfl

theorem worldInvariant_of_reachable (h : Reachable world) : WorldInvariant world := by
  induction h with
  | initial entries => exact worldInvariant_initial entries
  | step _ hstep ih => exact worldInvariant_step ih hstep

/-! ## Results -/

theorem publicationException_preCommit (kind : StoreFailureKind) (h : note.phase = .preCommit) :
    (publicationException note kind).isPublication = false := by
  unfold publicationException
  rw [h]
  rfl

theorem publicationException_committed (kind : StoreFailureKind) (h : note.phase = .committed) :
    LeftUncertain (publicationException note kind) := by
  unfold publicationException
  rw [h]
  exact trivial

/-- A call that has ended says whether it has named a record. -/
theorem isPublication_iff {result : PublishResult} (h : CallInvariant moments call)
    (hdone : call.point = .done result) : result.isPublication = true ↔ Linked call.dialogue := by
  cases h.at_point with
  | running hreaches =>
    rw [hdone] at hreaches
    rcases publish_reaches hreaches with ⟨hno, hunlinked⟩ | ⟨hyes, hnamed⟩
    · cases hunlinked with
      | stopped hresult =>
        rw [hresult]
        exact iff_of_false Bool.false_ne_true hno
    · cases hnamed with
      | finished hresult => exact iff_of_true hresult hyes
  | thrown hreaches hpoint =>
    rw [hdone] at hpoint
    injection hpoint with hpoint
    rcases publish_reaches hreaches with ⟨hno, hunlinked⟩ | ⟨hyes, hnamed⟩
    · cases hunlinked with
      | asking hphase =>
        rw [hpoint, publicationException_preCommit _ hphase]
        exact iff_of_false Bool.false_ne_true hno
    · cases hnamed with
      | asking hphase _ =>
        rw [hpoint]
        exact iff_of_true (publicationException_committed _ hphase).wasPublished hyes

/-- At the last proof of a published call the managed names and records were
those proven before its link and the record it has published. The names are
framed by the moments at which the proof began and ended. -/
def PublishedAsProven (moments : List Moment) (call : Call) (record : ObservedRecord) : Prop :=
  ∃ (proof : Reproof call.configuration record call.dialogue) (link reproof : TimedEvent),
    link ∈ call.events ∧ isLink link.event = true ∧ reproof ∈ call.events ∧
    reproof.event = ⟨.observeHistory, .ok proof.last⟩ ∧ link.upTo ≤ reproof.since ∧
    (∀ leaf, isInternalTempLeaf leaf call.configuration.temporaryLeafPrefix = false →
      (PresentAt moments reproof.since leaf →
        leaf ∈ proof.proven.token.managedLeaves ∨ leaf = record.leafName) ∧
      (leaf ∈ proof.proven.token.managedLeaves ∨ leaf = record.leafName →
        PresentAt moments reproof.upTo leaf)) ∧
    ∀ known ∈ proof.proven.token.records ++
        [⟨record.leafName, record.identity, contentDigestHex record.rawContents⟩],
      ∃ index moment entry, reproof.since ≤ index ∧ index ≤ reproof.upTo ∧
        moments[index]? = some moment ∧ moment.entries known.leaf = some entry ∧
        recordIdentityFromStatus entry.status = known.identity

theorem getElem?_of_take {count : Nat} (h : (moments.take count)[index]? = some moment) :
    index < count ∧ moments[index]? = some moment := by
  have hlt := (List.getElem?_eq_some_iff.mp h).1
  have hcount : index < count := hlt.trans_le (List.length_take_le _ _)
  rw [List.getElem?_take_of_lt hcount] at h
  exact ⟨hcount, h⟩

/-- A scan lists what was there when it began, and what it lists is there when
it has ended. -/
theorem ScannedSince.framed (hgrows : moments.IsChain Grows) {upTo : Nat}
    {directory : UnitDirectory} (hlt : upTo < moments.length)
    (h : ScannedSince (moments.take (upTo + 1)) since directory) (leaf : Bytes) :
    (PresentAt moments since leaf → leaf ∈ directory.names) ∧
      (leaf ∈ directory.names → PresentAt moments upTo leaf) := by
  refine ⟨?_, ?_⟩
  · intro hpresent
    apply h.lists_lasting
    intro index hsince hindex
    have hcount : index < upTo + 1 := hindex.trans_le (List.length_take_le _ _)
    obtain ⟨moment, hmoment, hthere⟩ := hpresent.later hgrows hsince (by omega)
    exact ⟨moment, by rw [List.getElem?_take_of_lt hcount, hmoment], hthere⟩
  · intro hmem
    obtain ⟨index, _, moment, hmoment, hthere⟩ := h.lists_present leaf hmem
    obtain ⟨hcount, hmoment⟩ := getElem?_of_take hmoment
    exact PresentAt.later hgrows ⟨moment, hmoment, hthere⟩ (by omega) hlt

theorem mem_extendProofToken {token : ChainProofToken} {published : Bytes}
    {identity : RecordIdentity} {contents : Bytes} :
    leaf ∈ (extendProofToken token published identity contents).managedLeaves ↔
      leaf ∈ token.managedLeaves ∨ leaf = published := by
  unfold extendProofToken
  simp

theorem reaches_of_published (h : call.AtPoint) (hdone : call.point = .done (.published record)) :
    Reaches call.program call.dialogue (.done (.published record)) := by
  cases h with
  | running hreaches =>
    rw [← hdone]
    exact hreaches
  | @thrown note request next kind hreaches hpoint =>
    -- an exception before the end of the checks is never `Published`
    rw [hdone] at hpoint
    injection hpoint with hpoint
    rcases publish_reaches hreaches with ⟨_, hunlinked⟩ | ⟨_, hnamed⟩
    · cases hunlinked with
      | asking hphase =>
        have hresult := publicationException_preCommit kind hphase
        rw [← hpoint] at hresult
        cases hresult
    · cases hnamed with
      | asking hphase _ =>
        have hresult := publicationException_committed kind hphase
        rw [← hpoint] at hresult
        cases hresult

theorem publishedAsProven (hgrows : moments.IsChain Grows) (h : CallInvariant moments call)
    (hdone : call.point = .done (.published record)) : PublishedAsProven moments call record := by
  obtain ⟨proof⟩ := publish_published (reaches_of_published h.at_point hdone)
  have hevents : call.events.map TimedEvent.event = _ := proof.events_eq
  obtain ⟨before, _, hsplit, _, hrest⟩ := List.map_eq_append_iff.mp hevents
  obtain ⟨link, _, rfl, hlink, hrest⟩ := List.map_eq_cons_iff.mp hrest
  obtain ⟨middle, _, rfl, _, hrest⟩ := List.map_eq_append_iff.mp hrest
  obtain ⟨reproof, after, rfl, hreproof, _⟩ := List.map_eq_cons_iff.mp hrest
  have hlinkmem : link ∈ call.events := by rw [hsplit]; simp
  have hmem : reproof ∈ call.events := by rw [hsplit]; simp
  have horder : link.upTo ≤ reproof.since := by
    have hordered := h.ordered
    rw [hsplit] at hordered
    have hlater := (List.pairwise_append.mp hordered).2.1
    exact (List.pairwise_cons.mp hlater).1 reproof (by simp)
  have hlt : reproof.upTo < moments.length :=
    (h.windows reproof hmem).2.trans_lt h.since_lt
  have hscan : ScannedSince (moments.take (reproof.upTo + 1)) reproof.since
      proof.last.directory := by
    have htrue := h.truthful reproof hmem (by rw [hreproof]; rfl)
    rw [hreproof] at htrue
    exact htrue proof.last rfl
  obtain ⟨hnames, hrecords⟩ := proveHistory_seen proof.proves_last
  rw [proof.extends_first] at hnames hrecords
  refine ⟨proof, link, reproof, hlinkmem, by rw [hlink]; exact proof.linked, hmem, hreproof,
    horder, ?_, ?_⟩
  · intro leaf hmanaged
    have hlisted := hnames leaf
    rw [mem_extendProofToken] at hlisted
    have hframed := hscan.framed hgrows hlt leaf
    exact ⟨fun hpresent => hlisted.mpr ⟨hframed.1 hpresent, hmanaged⟩,
      fun hknown => hframed.2 (hlisted.mp hknown).1⟩
  · intro known hknown
    obtain ⟨status, hinspect, hidentity⟩ := hrecords known hknown
    obtain ⟨index, moment, hsince, hmoment, hstatus⟩ := hscan.inspects _ _ hinspect
    obtain ⟨hcount, hmoment⟩ := getElem?_of_take hmoment
    obtain ⟨entry, hentry, hstatus⟩ := Option.map_eq_some_iff.mp hstatus
    exact ⟨index, moment, entry, hsince, by omega, hmoment, hentry, by rw [hstatus, hidentity]⟩

/-- Two links for the successor of one observed record are one link. -/
theorem WorldInvariant.link_unique (h : WorldInvariant world)
    (hcall : world.calls[index]? = some call) (hcall' : world.calls[other]? = some call')
    (hexpected : call.expected = call'.expected) (hlinked : world.LinkedBy index)
    (hlinked' : world.LinkedBy other) : index = other := by
  obtain ⟨moment, hmem, hcause⟩ := hlinked
  obtain ⟨moment', hmem', hcause'⟩ := hlinked'
  obtain ⟨early, hearly⟩ := List.mem_iff_getElem?.mp hmem
  obtain ⟨late, hlate⟩ := List.mem_iff_getElem?.mp hmem'
  obtain ⟨found, hfound, habsent, hpresent⟩ := h.claimed index early moment hearly hcause
  obtain ⟨found', hfound', habsent', hpresent'⟩ := h.claimed other late moment' hlate hcause'
  rw [hcall] at hfound
  rw [hcall'] at hfound'
  injection hfound with hfound
  injection hfound' with hfound'
  subst hfound hfound'
  rw [← hexpected] at habsent' hpresent'
  rcases Nat.lt_trichotomy early late with hlt | rfl | hlt
  · exact absurd hpresent (habsent' early hlt)
  · rw [hearly] at hlate
    injection hlate with hlate
    rw [← hlate, hcause] at hcause'
    injection hcause'
  · exact absurd hpresent' (habsent late hlt)

/-- A call that an exception ends before its first step. -/
def sampleCall : Call := .start sampleConfiguration (ascii "v1") none 0

def sampleWorld : World :=
  ⟨[⟨fun _ => none, .initial⟩], [sampleCall.thrown {} .resourceFailure]⟩

theorem sampleWorld_reachable : Reachable sampleWorld := by
  have hstart : Reachable ⟨[⟨fun _ => none, .initial⟩], [sampleCall]⟩ :=
    Reachable.step (.initial fun _ => none) (Step.start sampleConfiguration (ascii "v1") none)
  have hfirst : sampleCall.point = .ask {} (.perform .prepareDirectory) _ := rfl
  have hthrow : Step ⟨[⟨fun _ => none, .initial⟩], [sampleCall]⟩
      ⟨[⟨fun _ => none, .initial⟩], [sampleCall].set 0 (sampleCall.thrown {} .resourceFailure)⟩ :=
    Step.throw rfl hfirst (Or.inl rfl)
  exact Reachable.step hstart hthrow

end Moguet.Store.Interleaving
