import Moguet.Verified.ByteString

/-!
# The words of a shell command

How a POSIX shell splits a simple command into words, for the part of its
grammar that needs no environment: blanks separate words, single quotes keep
every byte up to the next single quote, and a backslash keeps the byte after
it. Any other unquoted byte with a meaning of its own, an operator, an
expansion, a pattern, a comment or a double quote, makes the result undefined,
so a text that is split has no such byte left.

The command reaches the shell as a C string, which ends at the first NUL.
-/

namespace Moguet.Verified.ShellWords

open ByteString

/-- Where the reader stands: between two words, in a word, within single
quotes, or after a backslash. -/
inductive Mode
  | between
  | word (text : Bytes)
  | single (text : Bytes)
  | escape (text : Option Bytes)

structure Reader where
  words : List Bytes := []
  mode : Mode := .between

def isWordBlank (b : UInt8) : Bool := b = byte ' ' || b = byte '\t'

def isQuoteMark (b : UInt8) : Bool := b = byte '\''

def isBackslash (b : UInt8) : Bool := b = byte '\\'

/-- The bytes that mean something to the shell when they are not quoted. -/
def specialBytes : Bytes := ascii "|&;<>()$`\"*?[]#~=%!\x7b\x7d^\n\r"

def isSpecial (b : UInt8) : Bool := b ∈ specialBytes

/-- One byte; `none` for an unquoted special byte. -/
def step (reader : Reader) (b : UInt8) : Option Reader :=
  match reader.mode with
  | .between =>
    if isWordBlank b then some reader
    else if isQuoteMark b then some ⟨reader.words, .single []⟩
    else if isBackslash b then some ⟨reader.words, .escape none⟩
    else if isSpecial b then none
    else some ⟨reader.words, .word [b]⟩
  | .word text =>
    if isWordBlank b then some ⟨reader.words ++ [text], .between⟩
    else if isQuoteMark b then some ⟨reader.words, .single text⟩
    else if isBackslash b then some ⟨reader.words, .escape (some text)⟩
    else if isSpecial b then none
    else some ⟨reader.words, .word (text ++ [b])⟩
  | .single text =>
    if isQuoteMark b then some ⟨reader.words, .word text⟩
    else some ⟨reader.words, .single (text ++ [b])⟩
  | .escape text =>
    -- A backslash before a newline joins two lines.
    if b = byte '\n' then some ⟨reader.words, text.elim .between .word⟩
    else some ⟨reader.words, .word (text.getD [] ++ [b])⟩

/-- The words at the end of the text. An open quote or a last backslash is no
command. -/
def finish (reader : Reader) : Option (List Bytes) :=
  match reader.mode with
  | .between => some reader.words
  | .word text => some (reader.words ++ [text])
  | .single _ | .escape _ => none

def run (reader : Reader) (text : Bytes) : Option Reader := text.foldlM step reader

def splitWords (text : Bytes) : Option (List Bytes) := (run {} text).bind finish

/-- A string without its bytes from the first NUL on. -/
def cString (text : Bytes) : Bytes := text.takeWhile (· ≠ 0)

/-- The words of a command given to the shell. -/
def shellWords (command : Bytes) : Option (List Bytes) := splitWords (cString command)

theorem run_cons (reader : Reader) (b : UInt8) (rest : Bytes) :
    run reader (b :: rest) = (step reader b).bind fun next => run next rest := by
  unfold run
  rw [List.foldlM_cons]
  rfl

/-- Within single quotes every byte but the quote stands for itself. -/
theorem step_single (words : List Bytes) (text : Bytes) {b : UInt8} (h : isQuoteMark b = false) :
    step ⟨words, .single text⟩ b = some ⟨words, .single (text ++ [b])⟩ := by
  simp [step, h]

/-- The quote opens in front of a word and within one, and closes. -/
theorem step_open (words : List Bytes) :
    step ⟨words, .between⟩ (byte '\'') = some ⟨words, .single []⟩ := rfl

/-- Close, an escaped quote, open again: one quote of the word. -/
theorem run_escapedQuote (words : List Bytes) (text rest : Bytes) :
    run ⟨words, .single text⟩ (ascii "'\\''" ++ rest) =
      run ⟨words, .single (text ++ [byte '\''])⟩ rest := rfl

/-- Quoted bytes are taken as they stand. -/
theorem run_single (words : List Bytes) (rest : Bytes) : ∀ (value text : Bytes),
    (∀ b ∈ value, isQuoteMark b = false) →
      run ⟨words, .single text⟩ (value ++ rest) = run ⟨words, .single (text ++ value)⟩ rest := by
  intro value
  induction value with
  | nil =>
    intro text _
    rw [List.nil_append, List.append_nil]
  | cons b value ih =>
    intro text hvalue
    have hb := hvalue b List.mem_cons_self
    have hrest := ih (text ++ [b]) fun other hother =>
      hvalue other (List.mem_cons_of_mem _ hother)
    rw [List.cons_append, run_cons, step_single words text hb]
    show run ⟨words, .single (text ++ [b])⟩ (value ++ rest) = _
    rw [hrest, List.append_assoc]
    rfl

/-- A blank ends a word. -/
theorem run_blank (words : List Bytes) (text rest : Bytes) :
    run ⟨words, .word text⟩ (ascii " " ++ rest) = run ⟨words ++ [text], .between⟩ rest := rfl

/-- A text without a NUL reaches the shell as it is. -/
theorem cString_eq_self {text : Bytes} (h : (0 : UInt8) ∉ text) : cString text = text := by
  unfold cString
  rw [List.takeWhile_eq_self_iff]
  intro b hb
  have hne : b ≠ 0 := by
    rintro rfl
    exact h hb
  simpa using hne

end Moguet.Verified.ShellWords
