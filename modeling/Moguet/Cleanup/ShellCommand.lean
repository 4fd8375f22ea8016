import Moguet.Cleanup.Execution
import Moguet.Verified.ShellWords

/-!
# The command of a removal

Package operations run through a shell, so their arguments are quoted into one
text (`shell_words.cpp`). The shell has to read exactly the arguments back,
whatever bytes they hold: what it reads is executed with `sudo`.
-/

namespace Moguet.Cleanup.ShellCommand

open Verified.ByteString Verified.ShellWords Plan.Constraint Execution

/-- The escaped bytes of a value within single quotes. -/
def escapedBytes (value : Bytes) : Bytes :=
  value.flatMap fun b => if b = byte '\'' then ascii "'\\''" else [b]

theorem quoteShellWord_eq (value : Bytes) :
    quoteShellWord value = byte '\'' :: (escapedBytes value ++ ascii "'") := rfl

/-- Within the quotes the reader collects the value: the induction is on the
value, and the reader is back within quotes after every byte of it. -/
theorem run_escapedBytes (words : List Bytes) (rest : Bytes) : ∀ (value text : Bytes),
    run ⟨words, .single text⟩ (escapedBytes value ++ rest) =
      run ⟨words, .single (text ++ value)⟩ rest := by
  intro value
  induction value with
  | nil =>
    intro text
    rw [List.append_nil]
    rfl
  | cons b value ih =>
    intro text
    have hsplit : escapedBytes (b :: value) =
        (if b = byte '\'' then ascii "'\\''" else [b]) ++ escapedBytes value :=
      List.flatMap_cons
    have hcollect : text ++ b :: value = text ++ [b] ++ value := by simp
    rw [hsplit, List.append_assoc, hcollect]
    by_cases hquote : b = byte '\''
    · rw [if_pos hquote, run_escapedQuote, ih, hquote]
    · have hplain : isQuoteMark b = false := by simpa [isQuoteMark] using hquote
      rw [if_neg hquote, run_single _ _ [b] text (by simpa using hplain), ih]

/-- A quoted value is one word, the empty value too. -/
theorem run_quoteShellWord (words : List Bytes) (value rest : Bytes) :
    run ⟨words, .between⟩ (quoteShellWord value ++ rest) = run ⟨words, .word value⟩ rest := by
  have hopened : run ⟨words, .between⟩ (quoteShellWord value ++ rest) =
      run ⟨words, .single []⟩ (escapedBytes value ++ (ascii "'" ++ rest)) := by
    rw [quoteShellWord_eq, List.cons_append, run_cons, step_open, List.append_assoc]
    rfl
  rw [hopened, run_escapedBytes, List.nil_append]
  rfl

theorem nul_not_mem_quoteShellWord {value : Bytes} (h : (0 : UInt8) ∉ value) :
    (0 : UInt8) ∉ quoteShellWord value := by
  unfold quoteShellWord
  rw [List.mem_append, List.mem_append, not_or, not_or]
  refine ⟨⟨by decide, ?_⟩, by decide⟩
  rw [List.mem_flatMap]
  rintro ⟨b, hb, hmem⟩
  by_cases hquote : b = byte '\''
  · rw [if_pos hquote] at hmem
    exact absurd hmem (by decide)
  · rw [if_neg hquote, List.mem_singleton] at hmem
    exact h (hmem ▸ hb)

theorem joinShellWords_cons_cons (first second : Bytes) (rest : List Bytes) :
    joinShellWords (first :: second :: rest) =
      quoteShellWord first ++ (ascii " " ++ joinShellWords (second :: rest)) := by
  unfold joinShellWords
  rw [List.map_cons, List.map_cons, List.intercalate_cons_cons]
  rw [List.append_assoc]

/-- Words are read off one after another: the induction is on the arguments,
and the reader is between two words before each of them. -/
theorem run_joinShellWords : ∀ (first : Bytes) (rest words : List Bytes),
    (run ⟨words, .between⟩ (joinShellWords (first :: rest))).bind finish =
      some (words ++ first :: rest) := by
  intro first rest
  induction rest generalizing first with
  | nil =>
    intro words
    have hone : joinShellWords [first] = quoteShellWord first ++ [] := by
      simp [joinShellWords]
    rw [hone, run_quoteShellWord]
    rfl
  | cons second rest ih =>
    intro words
    rw [joinShellWords_cons_cons, run_quoteShellWord, run_blank, ih second (words ++ [first])]
    rw [List.append_assoc]
    rfl

theorem splitWords_joinShellWords (arguments : List Bytes) :
    splitWords (joinShellWords arguments) = some arguments := by
  cases arguments with
  | nil => rfl
  | cons first rest => exact run_joinShellWords first rest []

theorem nul_not_mem_joinShellWords {arguments : List Bytes}
    (h : ∀ argument ∈ arguments, (0 : UInt8) ∉ argument) :
    (0 : UInt8) ∉ joinShellWords arguments := by
  induction arguments with
  | nil => decide
  | cons first rest ih =>
    have hfirst := nul_not_mem_quoteShellWord (h first List.mem_cons_self)
    have hrest := ih fun argument hmem => h argument (List.mem_cons_of_mem _ hmem)
    cases rest with
    | nil => simpa [joinShellWords] using hfirst
    | cons second rest =>
      rw [joinShellWords_cons_cons, List.mem_append, List.mem_append, not_or, not_or]
      exact ⟨hfirst, by decide, hrest⟩

/-- The shell reads exactly the words that were quoted. -/
theorem shellWords_joinShellWords {arguments : List Bytes}
    (h : ∀ argument ∈ arguments, (0 : UInt8) ∉ argument) :
    shellWords (joinShellWords arguments) = some arguments := by
  unfold shellWords
  rw [cString_eq_self (nul_not_mem_joinShellWords h)]
  exact splitWords_joinShellWords arguments

example : joinShellWords [ascii "a'b", [], ascii "$c\\"] = ascii "'a'\\''b' '' '$c\\'" := by
  decide

section

variable {Failure : Type}

theorem nul_not_mem_of_isValidPackageName {name : Bytes} (h : isValidPackageName name = true) :
    (0 : UInt8) ∉ name := by
  intro hmem
  have hbyte := (isValidPackageName_bytes h).2 0 hmem
  exact absurd hbyte (by decide)

/-- A removal that is run names the ready candidates, each a package name. -/
theorem commands_cases (execute : Bytes → Option Int)
    (revalidation : RevalidationResult Failure) {command : Bytes}
    (h : command ∈ (removeRevalidatedCandidates execute revalidation).commands) :
    command = joinShellWords (removalArguments ++
        (revalidation.candidates.filter (·.isReady)).map (·.approved.package.packageName)) ∧
      ∀ candidate ∈ revalidation.candidates, candidate.isReady = true →
        isValidPackageName candidate.approved.package.packageName = true := by
  unfold removeRevalidatedCandidates at h
  dsimp only at h
  split at h
  · cases h
  · cases h
  split at h
  · cases h
  rename_i hexact
  split at h
  · cases h
  refine ⟨List.mem_singleton.mp h, ?_⟩
  intro candidate hmem hready
  have hall : (revalidation.candidates.filter (·.isReady)).all isExactCandidate = true :=
    Bool.eq_true_of_not_eq_false hexact
  have hcandidate := List.all_eq_true.mp hall candidate (List.mem_filter.mpr ⟨hmem, hready⟩)
  unfold isExactCandidate at hcandidate
  rw [Bool.and_eq_true] at hcandidate
  exact hcandidate.1

/-- Quoting is exact: the shell splits the joined text into the words it was
joined from, and the command of a removal into the intended arguments. -/
theorem shell_reads_quoted_arguments :
    (∀ arguments : List Bytes, (∀ argument ∈ arguments, (0 : UInt8) ∉ argument) →
      shellWords (joinShellWords arguments) = some arguments) ∧
    ∀ (execute : Bytes → Option Int) (revalidation : RevalidationResult Failure),
      ∀ command ∈ (removeRevalidatedCandidates execute revalidation).commands,
        shellWords command = some (removalArguments ++
          (revalidation.candidates.filter (·.isReady)).map
            (·.approved.package.packageName)) := by
  constructor
  · intro arguments h
    exact shellWords_joinShellWords h
  · intro execute revalidation command hcommand
    obtain ⟨hjoined, hvalid⟩ := commands_cases execute revalidation hcommand
    rw [hjoined]
    apply shellWords_joinShellWords
    intro argument hargument
    rcases List.mem_append.mp hargument with hfixed | hname
    · have hall : ∀ fixed ∈ removalArguments, (0 : UInt8) ∉ fixed := by decide
      exact hall argument hfixed
    · obtain ⟨candidate, hcandidate, rfl⟩ := List.mem_map.mp hname
      obtain ⟨hmem, hready⟩ := List.mem_filter.mp hcandidate
      exact nul_not_mem_of_isValidPackageName (hvalid candidate hmem hready)

/-- A quote, an empty word, a line break and a dollar sign pass the shell. -/
theorem shell_reads_quoted_arguments_sample :
    shellWords (joinShellWords [ascii "it's", [], ascii "a\n\\", ascii "$HOME"]) =
      some [ascii "it's", [], ascii "a\n\\", ascii "$HOME"] :=
  (@shell_reads_quoted_arguments Unit).1 [ascii "it's", [], ascii "a\n\\", ascii "$HOME"] (by decide)

end

end Moguet.Cleanup.ShellCommand
