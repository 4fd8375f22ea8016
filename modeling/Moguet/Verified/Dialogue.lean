import Mathlib.Data.List.Basic

/-!
# Programs in dialogue with an environment

A function that makes system calls is a tree: it asks, the environment answers,
and the answer decides how it goes on. The environment may do anything between
two questions, so a property of the tree is a property of every interleaving.
A `note` at each question says how far the program has come, for the use of an
exception that is thrown there.

`Stage` is a program that may leave early, as a chain of checks with
`return failure` does.
-/

namespace Moguet.Verified.Dialogue

variable {condition : Bool}

universe u

/-- A program that asks requests, each with its own type of answers. -/
inductive Program (Request : Type) (Answer : Request → Type u) (Note : Type)
    (ρ : Type u) : Type u
  | done (result : ρ)
  | ask (note : Note) (request : Request) (next : Answer request → Program Request Answer Note ρ)

variable {Request Note : Type} {Answer : Request → Type u} {note : Note} {request : Request}
  {ρ σ α β : Type u} {program last : Program Request Answer Note ρ}
  {next : ρ → Program Request Answer Note σ} {finish : ρ → Prop} {value : α} {post : α → Prop}

namespace Program

def bind : Program Request Answer Note ρ → (ρ → Program Request Answer Note σ) →
    Program Request Answer Note σ
  | .done result, next => next result
  | .ask note request answered, next =>
    .ask note request fun answer => bind (answered answer) next

/-- One question and its answer. -/
structure Event (Request : Type) (Answer : Request → Type u) : Type u where
  request : Request
  answer : Answer request

/-- The program that is left after some questions and their answers. -/
inductive Reaches : Program Request Answer Note ρ → List (Event Request Answer) →
    Program Request Answer Note ρ → Prop
  | refl (program : Program Request Answer Note ρ) : Reaches program [] program
  | step {note : Note} {request : Request}
      {next : Answer request → Program Request Answer Note ρ} (answer : Answer request)
      {events : List (Event Request Answer)} {last : Program Request Answer Note ρ}
      (h : Reaches (next answer) events last) :
      Reaches (.ask note request next) (⟨request, answer⟩ :: events) last

theorem reaches_concat {events : List (Event Request Answer)}
    {next : Answer request → Program Request Answer Note ρ}
    (h : Reaches program events (.ask note request next)) (answer : Answer request) :
    Reaches program (events ++ [⟨request, answer⟩]) (next answer) := by
  generalize hlast : Program.ask note request next = last at h
  induction h with
  | refl program =>
    rw [← hlast]
    exact Reaches.step answer (Reaches.refl _)
  | step first h ih => exact Reaches.step first (ih hlast)

theorem reaches_done {result : ρ} {events : List (Event Request Answer)}
    (h : Reaches (.done result) events last) : events = [] ∧ last = .done result := by
  cases h with
  | refl => exact ⟨rfl, rfl⟩

/-- A finished sequence is a finished first part and a finished second part. -/
theorem reaches_bind_done :
    ∀ {program : Program Request Answer Note ρ} {events : List (Event Request Answer)}
      {result : σ}, Reaches (program.bind next) events (.done result) →
      ∃ front value back, events = front ++ back ∧ Reaches program front (.done value) ∧
        Reaches (next value) back (.done result) := by
  intro program
  induction program with
  | done value =>
    intro events result h
    exact ⟨[], value, events, rfl, Reaches.refl _, h⟩
  | ask note request answered ih =>
    intro events result h
    cases h with
    | step answer h =>
      obtain ⟨front, value, back, hevents, hfront, hback⟩ := ih answer h
      refine ⟨⟨request, answer⟩ :: front, value, back, ?_, Reaches.step answer hfront, hback⟩
      rw [hevents, List.cons_append]

/-- A sequence that is under way is in its first part, or in its second after
the first has finished. -/
theorem reaches_bind :
    ∀ {program : Program Request Answer Note ρ} {events : List (Event Request Answer)}
      {last : Program Request Answer Note σ}, Reaches (program.bind next) events last →
      (∃ rest, last = rest.bind next ∧ Reaches program events rest) ∨
      ∃ front value back, events = front ++ back ∧ Reaches program front (.done value) ∧
        Reaches (next value) back last := by
  intro program
  induction program with
  | done value =>
    intro events last h
    exact Or.inr ⟨[], value, events, rfl, Reaches.refl _, h⟩
  | ask note request answered ih =>
    intro events last h
    cases h with
    | refl => exact Or.inl ⟨.ask note request answered, rfl, Reaches.refl _⟩
    | step answer h =>
      rcases ih answer h with ⟨rest, hlast, hrest⟩ | ⟨front, value, back, hevents, hfront, hback⟩
      · exact Or.inl ⟨rest, hlast, Reaches.step answer hrest⟩
      · refine Or.inr ⟨⟨request, answer⟩ :: front, value, back, ?_,
          Reaches.step answer hfront, hback⟩
        rw [hevents, List.cons_append]

theorem bind_bind {τ : Type u} (program : Program Request Answer Note ρ)
    (first : ρ → Program Request Answer Note σ) (second : σ → Program Request Answer Note τ) :
    (program.bind first).bind second = program.bind fun value => (first value).bind second := by
  induction program with
  | done value => rfl
  | ask note request next ih =>
    show Program.ask note request _ = Program.ask note request _
    congr 1
    funext answer
    exact ih answer

section Embed

variable {Wide : Type} {WideAnswer : Wide → Type u} (widen : Request → Wide)
  (narrow : (request : Request) → WideAnswer (widen request) → Answer request)

/-- A program whose requests are some of those that others ask. -/
def embed : Program Request Answer Note ρ → Program Wide WideAnswer Note ρ
  | .done result => .done result
  | .ask note request next =>
    .ask note (widen request) fun answer => embed (next (narrow request answer))

end Embed

/-- Every question meets `node`, and every result meets `finish`, whatever the
answers are. -/
def Holds (node : Note → Request → Prop) (finish : ρ → Prop) :
    Program Request Answer Note ρ → Prop
  | .done result => finish result
  | .ask note request next => node note request ∧ ∀ answer, Holds node finish (next answer)

theorem Holds.bind {node : Note → Request → Prop} {middle : ρ → Prop} {finish : σ → Prop}
    (hnext : ∀ value, middle value → Holds node finish (next value)) :
    ∀ {program : Program Request Answer Note ρ}, Holds node middle program →
      Holds node finish (program.bind next) := by
  intro program
  induction program with
  | done value => intro h; exact hnext value h
  | ask note request answered ih => intro h; exact ⟨h.1, fun answer => ih answer (h.2 answer)⟩

theorem Holds.mono {node node' : Note → Request → Prop} {finish' : ρ → Prop}
    (hnode : ∀ note request, node note request → node' note request)
    (hfinish : ∀ result, finish result → finish' result) :
    ∀ {program : Program Request Answer Note ρ}, Holds node finish program →
      Holds node' finish' program := by
  intro program
  induction program with
  | done result => intro h; exact hfinish result h
  | ask note request next ih =>
    intro h
    exact ⟨hnode note request h.1, fun answer => ih answer (h.2 answer)⟩

/-- The obligation of what is left, and of what has been asked. -/
theorem Holds.reaches {node : Note → Request → Prop} {events : List (Event Request Answer)}
    (hreaches : Reaches program events last) (h : Holds node finish program) :
    Holds node finish last ∧ ∀ event ∈ events, ∃ note, node note event.request := by
  induction hreaches with
  | refl program =>
    refine ⟨h, ?_⟩
    intro event hevent
    cases hevent
  | step answer _ ih =>
    obtain ⟨hlast, hevents⟩ := ih (h.2 answer)
    refine ⟨hlast, ?_⟩
    intro event hevent
    rcases List.mem_cons.mp hevent with rfl | hlater
    · exact ⟨_, h.1⟩
    · exact hevents event hlater

/-- A run against an environment that answers from a state of its own. -/
def run {S : Type u} (respond : S → (request : Request) → Answer request × S) :
    S → Program Request Answer Note ρ → ρ × S
  | state, .done result => (result, state)
  | state, .ask _ request next =>
    let answered := respond state request
    run respond answered.2 (next answered.1)

theorem run_bind {S : Type u} {respond : S → (request : Request) → Answer request × S} :
    ∀ (program : Program Request Answer Note ρ) (state : S), run respond state (program.bind next) =
        run respond (run respond state program).2 (next (run respond state program).1) := by
  intro program
  induction program with
  | done value => intro state; rfl
  | ask note request answered ih =>
    intro state
    exact ih _ _

/-- What a machine answers is a dialogue. -/
theorem reaches_run {S : Type u} (respond : S → (request : Request) → Answer request × S) :
    ∀ (program : Program Request Answer Note ρ) (state : S),
      ∃ events, Reaches program events (.done (run respond state program).1) := by
  intro program
  induction program with
  | done result => intro state; exact ⟨[], Reaches.refl _⟩
  | ask note request next ih =>
    intro state
    obtain ⟨events, h⟩ := ih (respond state request).1 (respond state request).2
    exact ⟨_, Reaches.step _ h⟩

end Program

/-- A program that may leave with a result of type `ε` before it has its value. -/
def Stage (Request : Type) (Answer : Request → Type u) (Note : Type) (ε α : Type u) : Type u :=
  Program Request Answer Note (Except ε α)

variable {ε : Type u} {stage : Stage Request Answer Note ε α} {result otherwise : ε}

namespace Stage

open Program

def pure (value : α) : Stage Request Answer Note ε α := .done (.ok value)

/-- `return` from the middle of a function. -/
def leave (result : ε) : Stage Request Answer Note ε α := .done (.error result)

/-- What follows a stage, unless it was left. -/
def andThen (next : α → Stage Request Answer Note ε β) :
    Except ε α → Program Request Answer Note (Except ε β)
  | .error result => .done (.error result)
  | .ok value => next value

def bind (stage : Stage Request Answer Note ε α) (next : α → Stage Request Answer Note ε β) :
    Stage Request Answer Note ε β :=
  Program.bind stage (andThen next)

instance : Monad (Stage Request Answer Note ε) where
  pure := Stage.pure
  bind := Stage.bind

/-- Ask one request and hand its answer on. -/
def query (note : Note) (request : Request) : Stage Request Answer Note ε (Answer request) :=
  .ask note request fun answer => .done (.ok answer)

/-- Go on only if the condition holds. -/
def require (condition : Bool) (otherwise : ε) : Stage Request Answer Note ε PUnit :=
  match condition with
  | true => pure ⟨⟩
  | false => leave otherwise

/-- The obligation of a stage: on its questions, on what it is left with, and on
its value. -/
def Keeps (node : Note → Request → Prop) (left : ε → Prop) (post : α → Prop)
    (stage : Stage Request Answer Note ε α) : Prop :=
  Holds node (fun
    | .error result => left result
    | .ok value => post value) stage

section Keeps

variable {node : Note → Request → Prop} {left : ε → Prop}

theorem keeps_bind {next : α → Stage Request Answer Note ε β} {middle : α → Prop} {post : β → Prop}
    (hstage : Keeps node left middle stage)
    (hnext : ∀ value, middle value → Keeps node left post (next value)) :
    Keeps node left post (stage >>= next) := by
  apply Holds.bind _ hstage
  intro result hresult
  cases result with
  | error result => exact hresult
  | ok value => exact hnext value hresult

theorem keeps_pure (h : post value) :
    Keeps node left post (pure value : Stage Request Answer Note ε α) := h

theorem keeps_leave (h : left result) :
    Keeps node left post (leave result : Stage Request Answer Note ε α) := h

theorem keeps_query {post : Answer request → Prop} (hnode : node note request)
    (hpost : ∀ answer, post answer) : Keeps node left post (query note request) :=
  ⟨hnode, hpost⟩

theorem keeps_require (h : left otherwise) : Keeps node left (fun _ => condition = true)
      (require condition otherwise : Stage Request Answer Note ε PUnit) := by
  cases condition with
  | true => exact keeps_pure rfl
  | false => exact keeps_leave h

end Keeps

/-- A stage that comes to its value over some events. -/
def Yields (stage : Stage Request Answer Note ε α) (events : List (Event Request Answer))
    (value : α) : Prop :=
  Reaches stage events (.done (.ok value))

theorem yields_bind {next : α → Stage Request Answer Note ε β}
    {events : List (Event Request Answer)} {value : β} (h : Yields (stage >>= next) events value) :
    ∃ front first back, events = front ++ back ∧ Yields stage front first ∧
      Yields (next first) back value := by
  obtain ⟨front, result, back, hevents, hfront, hback⟩ := reaches_bind_done h
  cases result with
  | error left =>
    have hdone := (reaches_done hback).2
    cases hdone
  | ok first => exact ⟨front, first, back, hevents, hfront, hback⟩

theorem yields_pure {first : α} {events : List (Event Request Answer)}
    (h : Yields (pure first : Stage Request Answer Note ε α) events value) :
    events = [] ∧ value = first := by
  obtain ⟨hevents, hvalue⟩ := reaches_done h
  injection hvalue with hvalue
  injection hvalue with hvalue
  exact ⟨hevents, hvalue⟩

theorem not_yields_leave {events : List (Event Request Answer)} :
    ¬ Yields (leave result : Stage Request Answer Note ε α) events value := by
  intro h
  have hdone := (reaches_done h).2
  cases hdone

theorem yields_query {answer : Answer request} {events : List (Event Request Answer)}
    (h : Yields (query note request : Stage Request Answer Note ε (Answer request)) events
      answer) : events = [⟨request, answer⟩] := by
  cases h with
  | step first h =>
    obtain ⟨hevents, hvalue⟩ := reaches_done h
    injection hvalue with hvalue
    injection hvalue with hvalue
    rw [hevents, hvalue]

theorem yields_require {value : PUnit} {events : List (Event Request Answer)}
    (h : Yields (require condition otherwise : Stage Request Answer Note ε PUnit) events value) :
    events = [] ∧ condition = true := by
  cases condition with
  | true => exact ⟨(reaches_done h).1, rfl⟩
  | false => exact absurd h not_yields_leave

section Run

variable {S : Type u} {respond : S → (request : Request) → Answer request × S} {state state' : S}

theorem run_bind {next : α → Stage Request Answer Note ε β} {result : Except ε α}
    (h : Program.run respond state stage = (result, state')) :
    Program.run respond state (stage >>= next : Stage Request Answer Note ε β) =
      Program.run respond state' (andThen next result) := by
  have hbind : Program.run respond state (Program.bind stage (andThen next)) = _ :=
    Program.run_bind stage state
  rw [h] at hbind
  exact hbind

theorem run_bind_ok {next : α → Stage Request Answer Note ε β}
    (h : Program.run respond state stage = (.ok value, state')) :
    Program.run respond state (stage >>= next : Stage Request Answer Note ε β) =
      Program.run respond state' (next value) :=
  run_bind h

theorem run_bind_error {next : α → Stage Request Answer Note ε β} {left : ε}
    (h : Program.run respond state stage = (.error left, state')) :
    Program.run respond state (stage >>= next : Stage Request Answer Note ε β) =
      (.error left, state') :=
  run_bind h

theorem run_require (h : condition = true) : Program.run respond state
      (require condition otherwise : Stage Request Answer Note ε PUnit) = (.ok ⟨⟩, state) := by
  rw [h]
  rfl

end Run

end Stage

end Moguet.Verified.Dialogue
