import Mathlib.Data.List.Chain
import Mathlib.Logic.Function.Basic
import Moguet.Verified.Dialogue

/-!
# Programs that share a state

A program asks; each request has an effect on a state that others see as well.
`Ensures` is what holds of a program whatever the answers are: an obligation at
every request, which is also where a crash may leave the state, and a
postcondition. The same notion serves two states: the shared one, and a small
automaton of the program's own that says how far it has come.
-/

namespace Moguet.Verified.Processes

open Dialogue

variable {T : Type}

variable {Request ρ σ S : Type} {Answer : Request → Type} {finish : S → ρ → Prop} {last : S}
  {events : List (Program.Event Request Answer)} {outcome : Option ρ} {Fair : S → S → Prop}
variable {state : S}

variable {point' : S → Request → Prop} {finish' : S → ρ → Prop}

/-- The program of a process; nothing is noted at its requests. -/
abbrev Process (Request : Type) (Answer : Request → Type) (ρ : Type) : Type :=
  Program Request Answer Unit ρ

variable {program : Process Request Answer ρ} {MayStart : Process Request Answer ρ → Prop}

/-- What a request may do: the answer, and the state after. -/
abbrev Effect (S : Type) (Request : Type) (Answer : Request → Type) : Type :=
  S → (request : Request) → Answer request → S → Prop

variable {effect : Effect S Request Answer}

section Ensures

variable (effect : Effect S Request Answer) (point : S → Request → Prop)

def Ensures (finish : S → ρ → Prop) : Process Request Answer ρ → S → Prop
  | .done result, state => finish state result
  | .ask _ request next, state => point state request ∧
      ∀ answer state', effect state request answer state' →
        Ensures finish (next answer) state'

variable {effect point}

theorem Ensures.bind {middle : S → ρ → Prop} {finish : S → σ → Prop}
    {next : ρ → Process Request Answer σ}
    (hnext : ∀ state value, middle state value → Ensures effect point finish (next value) state) :
    ∀ {program : Process Request Answer ρ} {state : S}, Ensures effect point middle program state →
        Ensures effect point finish (program.bind next) state := by
  intro program
  induction program with
  | done value =>
    intro state h
    exact hnext state value h
  | ask note request answered ih =>
    intro state h
    refine ⟨h.1, ?_⟩
    intro answer state' heffect
    exact ih answer (h.2 answer state' heffect)

theorem Ensures.weaken (hpoint : ∀ state request, point state request → point' state request)
    (hfinish : ∀ state result, finish state result → finish' state result) :
    ∀ {program : Process Request Answer ρ} {state : S},
      Ensures effect point finish program state → Ensures effect point' finish' program state := by
  intro program
  induction program with
  | done value =>
    intro state h
    exact hfinish state value h
  | ask note request answered ih =>
    intro state h
    refine ⟨hpoint state request h.1, ?_⟩
    intro answer state' heffect
    exact ih answer (h.2 answer state' heffect)

theorem Ensures.mono (hfinish : ∀ state result, finish state result → finish' state result)
    (h : Ensures effect point finish program state) : Ensures effect point finish' program state :=
  h.weaken (fun _ _ hpoint => hpoint) hfinish

theorem Ensures.mono_point (hpoint : ∀ state request, point state request → point' state request)
    (h : Ensures effect point finish program state) : Ensures effect point' finish program state :=
  h.weaken hpoint fun _ _ hfinish => hfinish

/-- A program over some of the requests, in the vocabulary of all of them. -/
theorem Ensures.embed {Wide : Type} {WideAnswer : Wide → Type} {widen : Request → Wide}
    {narrow : (request : Request) → WideAnswer (widen request) → Answer request} {W : Type}
    {wideEffect : Effect W Wide WideAnswer} {widePoint : W → Wide → Prop} (Related : W → S → Prop)
    {wideFinish : W → ρ → Prop}
    (hpoint : ∀ {wide state request}, Related wide state → point state request →
      widePoint wide (widen request)) (heffect : ∀ {wide wide' : W} {state : S} {request : Request}
      {answer : WideAnswer (widen request)}, Related wide state →
        wideEffect wide (widen request) answer wide' →
        ∃ state', effect state request (narrow request answer) state' ∧ Related wide' state')
    (hfinish : ∀ {wide state result}, Related wide state → finish state result →
      wideFinish wide result) :
    ∀ {program : Process Request Answer ρ} {wide : W} {state : S}, Related wide state →
      Ensures effect point finish program state →
      Ensures wideEffect widePoint wideFinish (program.embed widen narrow) wide := by
  intro program
  induction program with
  | done value =>
    intro wide state hrelated h
    exact hfinish hrelated h
  | ask note request answered ih =>
    intro wide state hrelated h
    refine ⟨hpoint hrelated h.1, ?_⟩
    intro answer wide' hwide
    obtain ⟨state', hstate', hrelated'⟩ := heffect hrelated hwide
    exact ih _ hrelated' (h.2 _ state' hstate')

end Ensures

section Stages

variable {ε α β : Type} (effect : Effect S Request Answer) (point : S → Request → Prop)

/-- The obligation of a stage: on its requests, on the state and the exception it
leaves with, and on the state and the value it comes to. -/
def StageEnsures (left : S → ε → Prop) (post : S → α → Prop)
    (stage : Stage Request Answer Unit ε α) (state : S) : Prop :=
  Ensures effect point (fun last result =>
    match result with
    | .error failure => left last failure
    | .ok value => post last value) stage state

variable {effect point} {left : S → ε → Prop} {state : S}

theorem StageEnsures.bind {stage : Stage Request Answer Unit ε α}
    {next : α → Stage Request Answer Unit ε β} {middle : S → α → Prop} {post : S → β → Prop}
    (hstage : StageEnsures effect point left middle stage state)
    (hnext : ∀ state value, middle state value →
      StageEnsures effect point left post (next value) state) :
    StageEnsures effect point left post (stage >>= next) state := by
  apply Ensures.bind _ hstage
  intro state result hresult
  cases result with
  | error failure => exact hresult
  | ok value => exact hnext state value hresult

theorem StageEnsures.pure {value : α} {post : S → α → Prop} (h : post state value) :
    StageEnsures effect point left post (Stage.pure value) state := h

theorem StageEnsures.leave {failure : ε} {post : S → α → Prop} (h : left state failure) :
    StageEnsures effect point left post (Stage.leave failure) state := h

theorem StageEnsures.query {note : Unit} {request : Request} {post : S → Answer request → Prop}
    (hpoint : point state request)
    (hpost : ∀ answer state', effect state request answer state' → post state' answer) :
    StageEnsures effect point left post (Stage.query note request) state :=
  ⟨hpoint, hpost⟩

theorem StageEnsures.require {condition : Bool} {otherwise : ε}
    (h : condition = false → left state otherwise) :
    StageEnsures effect point left (fun last _ => last = state ∧ condition = true)
      (Stage.require condition otherwise) state := by
  cases condition with
  | true => exact ⟨rfl, rfl⟩
  | false => exact h rfl

theorem StageEnsures.mono {left' : S → ε → Prop} {post post' : S → α → Prop}
    {stage : Stage Request Answer Unit ε α}
    (h : StageEnsures effect point left post stage state)
    (hleft : ∀ state failure, left state failure → left' state failure)
    (hpost : ∀ state value, post state value → post' state value) :
    StageEnsures effect point left' post' stage state := by
  apply Ensures.mono _ h
  intro state result hresult
  cases result with
  | error failure => exact hleft state failure hresult
  | ok value => exact hpost state value hresult

end Stages

/-- What a stage is proved against: what the requests do, what must hold where
they are asked, and what must hold where an exception leaves. -/
structure Setting (S : Type) (Request : Type) (Answer : Request → Type) where
  effect : Effect S Request Answer
  point : S → Request → Prop
  left : S → Prop

namespace Setting

variable {ε α β : Type} (setting : Setting S Request Answer)

def Spec (post : S → α → Prop) (stage : Stage Request Answer Unit ε α) (state : S) : Prop :=
  StageEnsures setting.effect setting.point (fun last _ => setting.left last) post stage state

variable {setting} {state : S}

theorem Spec.bind {stage : Stage Request Answer Unit ε α}
    {next : α → Stage Request Answer Unit ε β} {middle : S → α → Prop} {post : S → β → Prop}
    (hstage : setting.Spec middle stage state)
    (hnext : ∀ state value, middle state value → setting.Spec post (next value) state) :
    setting.Spec post (stage >>= next) state :=
  StageEnsures.bind hstage hnext

theorem Spec.pure {value : α} {post : S → α → Prop} (h : post state value) :
    setting.Spec post (Stage.pure value : Stage Request Answer Unit ε α) state := h

theorem Spec.mono {stage : Stage Request Answer Unit ε α} {post post' : S → α → Prop}
    (h : setting.Spec post stage state) (hpost : ∀ state value, post state value →
      post' state value) : setting.Spec post' stage state :=
  StageEnsures.mono h (fun _ _ hleft => hleft) hpost

end Setting

section Counted

variable {T : Type} (effect : Effect S Request Answer)
  (count : (request : Request) → Answer request → T → T)

/-- The effect, with a count of what has been answered. -/
def counted : Effect (S × T) Request Answer := fun state request answer after =>
  effect state.1 request answer after.1 ∧ after.2 = count request answer state.2

/-- The count over the events of a run. -/
def countEvents (total : T) (events : List (Program.Event Request Answer)) : T :=
  events.foldl (fun total event => count event.request event.answer total) total

end Counted

/-- A run with its events; without a result it was cut off. -/
inductive Performs (effect : Effect S Request Answer) :
    S → Process Request Answer ρ → List (Program.Event Request Answer) → Option ρ → S → Prop
  | finished (state : S) (result : ρ) : Performs effect state (.done result) [] (some result) state
  | crashed (state : S) (program : Process Request Answer ρ) :
      Performs effect state program [] none state
  | step {state state' last : S} {note : Unit} {request : Request}
      {next : Answer request → Process Request Answer ρ} {answer : Answer request}
      {events : List (Program.Event Request Answer)} {outcome : Option ρ}
      (heffect : effect state request answer state')
      (hrest : Performs effect state' (next answer) events outcome last) :
      Performs effect state (.ask note request next) (⟨request, answer⟩ :: events) outcome last

/-- What a program ensures holds at its end, and where it is cut off. -/
theorem Performs.ensures {point : S → Request → Prop}
    (hperforms : Performs effect state program events outcome last)
    (hensures : Ensures effect point finish program state) :
    (∀ result, outcome = some result → finish last result) ∧
      ((∃ request, point last request) ∨ ∃ result, finish last result) := by
  induction hperforms with
  | finished state result =>
    refine ⟨?_, Or.inr ⟨result, hensures⟩⟩
    intro other hother
    rw [← Option.some.inj hother]
    exact hensures
  | crashed state program =>
    constructor
    · intro result h
      cases h
    · cases program with
      | done result => exact Or.inr ⟨result, hensures⟩
      | ask note request next => exact Or.inl ⟨request, hensures.1⟩
  | step heffect _ ih => exact ih (hensures.2 _ _ heffect)

/-- A run is a run of the counted effect, and its count is that of its events. -/
theorem Performs.counted {count : (request : Request) → Answer request → T → T}
    (h : Performs effect state program events outcome last) :
    ∀ total : T, Performs (counted effect count) (state, total) program events outcome
      (last, countEvents count total events) := by
  induction h with
  | finished state result =>
    intro total
    exact Performs.finished _ result
  | crashed state program =>
    intro total
    exact Performs.crashed _ program
  | step heffect _ ih =>
    intro total
    exact Performs.step ⟨heffect, rfl⟩ (ih _)

/-- A program whose requests can be answered wherever it asks them has a run to
its end. -/
theorem Ensures.performs : ∀ {program : Process Request Answer ρ} {state : S},
      Ensures effect (fun state request => ∃ answer after, effect state request answer after)
        finish program state →
      ∃ events result last, Performs effect state program events (some result) last := by
  intro program
  induction program with
  | done value =>
    intro state _
    exact ⟨[], value, state, Performs.finished state value⟩
  | ask note request next ih =>
    intro state h
    obtain ⟨answer, after, heffect⟩ := h.1
    obtain ⟨events, result, last, hrest⟩ := ih answer (h.2 answer after heffect)
    exact ⟨_, result, last, Performs.step heffect hrest⟩

/-- The count can be forgotten. -/
theorem Performs.uncounted {count : (request : Request) → Answer request → T → T}
    {pair last : S × T}
    (h : Performs (Processes.counted effect count) pair program events outcome last) :
    Performs effect pair.1 program events outcome last.1 := by
  induction h with
  | finished pair result => exact Performs.finished pair.1 result
  | crashed pair program => exact Performs.crashed pair.1 program
  | step heffect _ ih => exact Performs.step heffect.1 ih

section Machine

variable (respond : S → (request : Request) → Answer request × S)

/-- What a program does when a machine answers it. -/
def perform : Process Request Answer ρ → S → List (Program.Event Request Answer) × ρ × S
  | .done result, state => ([], result, state)
  | .ask _ request next, state =>
    let answered := respond state request
    let rest := perform (next answered.1) answered.2
    (⟨request, answered.1⟩ :: rest.1, rest.2)

/-- A machine that keeps to the effect performs the program. -/
theorem performs_perform {respond : S → (request : Request) → Answer request × S}
    (hrespond : ∀ state request,
      effect state request (respond state request).1 (respond state request).2) :
    ∀ (program : Process Request Answer ρ) (state : S),
      Performs effect state program (perform respond program state).1
        (some (perform respond program state).2.1) (perform respond program state).2.2 := by
  intro program
  induction program with
  | done result =>
    intro state
    exact Performs.finished state result
  | ask note request next ih =>
    intro state
    exact Performs.step (hrespond state request) (ih _ _)

end Machine

structure World (S : Type) (Request : Type) (Answer : Request → Type) (ρ : Type) : Type where
  state : S
  processes : List (Process Request Answer ρ)

variable {world : World S Request Answer ρ}

/-- A process is started, or one of them asks its next request. A process that
has crashed never asks again. -/
inductive Step (effect : Effect S Request Answer) (MayStart : Process Request Answer ρ → Prop) :
    World S Request Answer ρ → World S Request Answer ρ → Prop
  | start {world : World S Request Answer ρ} {program : Process Request Answer ρ}
      (hprogram : MayStart program) :
      Step effect MayStart world
        { world with processes := world.processes ++ [program] }
  | act {world : World S Request Answer ρ} {index : Nat} {note : Unit} {request : Request}
      {next : Answer request → Process Request Answer ρ} {answer : Answer request} {state' : S}
      (hprocess : world.processes[index]? = some (.ask note request next))
      (heffect : effect world.state request answer state') :
      Step effect MayStart world ⟨state', world.processes.set index (next answer)⟩

/-- A run: the worlds it goes through. -/
def Run (effect : Effect S Request Answer) (MayStart : Process Request Answer ρ → Prop)
    (worlds : List (World S Request Answer ρ)) : Prop :=
  worlds.IsChain (Step effect MayStart)

section Trace

variable (respond : S → (request : Request) → Answer request × S)

/-- The process of an index asks, if it is not finished, and the machine
answers. -/
def World.act (world : World S Request Answer ρ) (index : Nat) :
    Option (World S Request Answer ρ) :=
  match world.processes[index]? with
  | some (.ask _ request next) =>
    some ⟨(respond world.state request).2,
      world.processes.set index (next (respond world.state request).1)⟩
  | _ => none

/-- The worlds after the first when the processes take the turns of a schedule;
the turn of a finished process is skipped. -/
def World.trace (world : World S Request Answer ρ) : List Nat → List (World S Request Answer ρ)
  | [] => []
  | index :: rest =>
    match world.act respond index with
    | some next => next :: next.trace rest
    | none => world.trace rest

variable {respond}

theorem World.act_step (hrespond : ∀ state request,
      effect state request (respond state request).1 (respond state request).2)
    {next : World S Request Answer ρ} {index : Nat} (h : world.act respond index = some next) :
    Step effect MayStart world next := by
  unfold World.act at h
  split at h
  · rename_i note request answered hprocess
    rw [← Option.some.inj h]
    exact Step.act hprocess (hrespond world.state request)
  · cases h

/-- A trace of a machine that keeps to the effect is a run. -/
theorem World.run_trace (hrespond : ∀ state request,
      effect state request (respond state request).1 (respond state request).2)
    (schedule : List Nat) (world : World S Request Answer ρ) :
    Run effect MayStart (world :: world.trace respond schedule) := by
  induction schedule generalizing world with
  | nil => exact List.isChain_singleton world
  | cons index rest ih =>
    unfold World.trace
    split
    · rename_i next hnext
      exact List.isChain_cons_cons.mpr ⟨World.act_step hrespond hnext, ih next⟩
    · exact ih world

end Trace

section Tracked

variable {M : Type} (move : Effect M Request Answer) (may : M → Request → Prop) (first : M)
  (Joint : S → (Nat → M) → Prop)

/-- Every process is as far as its automaton says, and the automata and the
shared state fit together. -/
def Tracked (world : World S Request Answer ρ) : Prop :=
  ∃ modes : Nat → M,
    (∀ index program, world.processes[index]? = some program →
      Ensures move may (fun _ _ => True) program (modes index)) ∧
    (∀ index, world.processes.length ≤ index → modes index = first) ∧
    Joint world.state modes

variable {move may first Joint}

/-- It is kept when each request moves the automaton of its process along with
the state. -/
theorem Tracked.step (hstart : ∀ program, MayStart program →
      Ensures move may (fun _ _ => True) program first)
    (hact : ∀ {state state' : S} {modes : Nat → M} {index : Nat} {request : Request}
      {answer : Answer request}, Joint state modes → may (modes index) request →
        effect state request answer state' → Fair state state' →
        ∃ mode, move (modes index) request answer mode ∧
          Joint state' (Function.update modes index mode)) {world' : World S Request Answer ρ}
    (h : Tracked move may first Joint world) (hstep : Step effect MayStart world world')
    (hfair : Fair world.state world'.state) : Tracked move may first Joint world' := by
  obtain ⟨modes, hprocesses, hbeyond, hjoint⟩ := h
  cases hstep with
  | start hprogram =>
    refine ⟨modes, ?_, ?_, hjoint⟩
    · intro index program hindex
      rcases Nat.lt_or_ge index world.processes.length with hold | hnew
      · rw [List.getElem?_append_left hold] at hindex
        exact hprocesses index program hindex
      · rw [List.getElem?_append_right hnew] at hindex
        have hlast : program = _ := (List.mem_singleton.mp (List.mem_of_getElem? hindex))
        rw [hlast, hbeyond index hnew]
        exact hstart _ hprogram
    · intro index hindex
      rw [List.length_append] at hindex
      exact hbeyond index (by omega)
  | @act acting note request next answer state' hprocess heffect =>
    have hensures := hprocesses acting _ hprocess
    obtain ⟨mode, hmove, hjoint'⟩ := hact hjoint hensures.1 heffect hfair
    have hlt : acting < world.processes.length := (List.getElem?_eq_some_iff.mp hprocess).1
    refine ⟨Function.update modes acting mode, ?_, ?_, hjoint'⟩
    · intro index program hindex
      by_cases hsame : index = acting
      · rw [hsame, List.getElem?_set_self hlt] at hindex
        rw [hsame, Function.update_self, ← Option.some.inj hindex]
        exact hensures.2 answer mode hmove
      · rw [List.getElem?_set_ne (Ne.symm hsame)] at hindex
        rw [Function.update_of_ne hsame]
        exact hprocesses index program hindex
    · intro index hindex
      rw [List.length_set] at hindex
      rw [Function.update_of_ne (by omega)]
      exact hbeyond index hindex

/-- Along a run whose steps are fair, every world is tracked if the first one
is. -/
theorem Tracked.run
    (hkept : ∀ {world world' : World S Request Answer ρ}, Tracked move may first Joint world →
      Step effect MayStart world world' → Fair world.state world'.state →
        Tracked move may first Joint world') {worlds : List (World S Request Answer ρ)}
    (hrun : Run effect MayStart worlds)
    (hfair : worlds.IsChain fun before after => Fair before.state after.state)
    (hfirst : ∀ world, worlds.head? = some world → Tracked move may first Joint world) :
    ∀ world ∈ worlds, Tracked move may first Joint world := by
  induction worlds with
  | nil =>
    intro world hworld
    cases hworld
  | cons head tail ih =>
    have hhead := hfirst head rfl
    have htail : ∀ world, tail.head? = some world → Tracked move may first Joint world := by
      intro world hworld
      cases tail with
      | nil => cases hworld
      | cons second rest =>
        rw [← Option.some.inj hworld]
        exact hkept hhead (List.isChain_cons_cons.mp hrun).1 (List.isChain_cons_cons.mp hfair).1
    intro world hworld
    rcases List.mem_cons.mp hworld with rfl | hlater
    · exact hhead
    · exact ih (List.IsChain.tail hrun) (List.IsChain.tail hfair) htail world hlater

end Tracked

end Moguet.Verified.Processes
