import Mathlib.Data.List.Basic

/-!
# Pieces and fields of a text

A text is cut at separators in two ways. Its *pieces* are the longest runs
without a separator, none of them empty; its *fields* are what stands between
two separators, empty or not. Both carry the run that is being read, so that a
scanner which remembers where a run began is followed step by step.
-/

namespace Moguet.Verified.Pieces

variable {α : Type} {b : α} {coarse fine blank : α → Bool}
variable {run text : List α} {separator : α}

/-- The run in front of a separator, when there is one. -/
def closeRun : List α → List (List α)
  | [] => []
  | b :: run => [b :: run]

def piecesFrom (separator : α → Bool) (current : List α) : List α → List (List α)
  | [] => closeRun current
  | b :: rest =>
    if separator b then closeRun current ++ piecesFrom separator [] rest
    else piecesFrom separator (current ++ [b]) rest

def pieces (separator : α → Bool) (text : List α) : List (List α) :=
  piecesFrom separator [] text

theorem closeRun_of_ne_nil (h : run ≠ []) : closeRun run = [run] := by
  cases run with
  | nil => exact absurd rfl h
  | cons b run => rfl

section

variable {separator : α → Bool}

theorem piecesFrom_clean :
    ∀ {run : List α} (current rest : List α), (∀ b ∈ run, separator b = false) →
      piecesFrom separator current (run ++ rest) = piecesFrom separator (current ++ run) rest := by
  intro run
  induction run with
  | nil =>
    intro current rest _
    rw [List.append_nil, List.nil_append]
  | cons b run ih =>
    intro current rest h
    have hb := h b List.mem_cons_self
    have hrun := fun c hc => h c (List.mem_cons_of_mem b hc)
    have hlonger := ih (current ++ [b]) rest hrun
    simp [piecesFrom, hb, hlonger]

theorem piecesFrom_separator (hb : separator b = true) (rest : List α) :
    ∀ front current : List α, piecesFrom separator current (front ++ b :: rest) =
      piecesFrom separator current front ++ pieces separator rest := by
  intro front
  induction front with
  | nil =>
    intro current
    show (if separator b = true then _ else _) = _
    rw [if_pos hb]
    rfl
  | cons c front ih =>
    intro current
    by_cases hc : separator c = true
    · have hrest := ih []
      simp [piecesFrom, hc, hrest]
    · have hlonger := ih (current ++ [c])
      simp [piecesFrom, hc, hlonger]

/-- A separator in front of a text adds no piece. -/
theorem pieces_separator_cons (hb : separator b = true) (rest : List α) :
    pieces separator (b :: rest) = pieces separator rest :=
  piecesFrom_separator hb rest [] []

/-- A run in front of a separator, or of the end, is the first piece. -/
theorem pieces_word {rest : List α} (hne : run ≠ []) (h : ∀ b ∈ run, separator b = false)
    (hrest : rest.head?.all separator = true) :
    pieces separator (run ++ rest) = run :: pieces separator rest := by
  have hrun : pieces separator (run ++ rest) = piecesFrom separator run rest :=
    piecesFrom_clean [] rest h
  rw [hrun]
  cases rest with
  | nil => exact closeRun_of_ne_nil hne
  | cons b rest =>
    have hb : separator b = true := hrest
    have hcut := piecesFrom_separator hb rest [] run
    have hclosed : piecesFrom separator run [] = [run] := closeRun_of_ne_nil hne
    rw [List.nil_append, hclosed] at hcut
    rw [hcut, pieces_separator_cons hb]
    rfl

/-- Separators in front of a text add no piece. -/
theorem pieces_separators {front : List α} (rest : List α) (h : ∀ b ∈ front, separator b = true) :
    pieces separator (front ++ rest) = pieces separator rest := by
  induction front with
  | nil => rfl
  | cons b front ih =>
    rw [List.cons_append, pieces_separator_cons (h b List.mem_cons_self)]
    exact ih fun c hc => h c (List.mem_cons_of_mem b hc)

/-- A byte that separates nothing is in a piece. -/
theorem pieces_ne_nil (hmem : b ∈ text) (hb : separator b = false) :
    pieces separator text ≠ [] := by
  have hfrom : ∀ rest current : List α, b ∈ rest ∨ current ≠ [] →
      piecesFrom separator current rest ≠ [] := by
    intro rest
    induction rest with
    | nil =>
      intro current h
      have hne := h.resolve_left List.not_mem_nil
      show closeRun current ≠ []
      rw [closeRun_of_ne_nil hne]
      exact List.cons_ne_nil _ _
    | cons c rest ih =>
      intro current h
      unfold piecesFrom
      by_cases hc : separator c = true
      · rw [if_pos hc]
        rcases h with h | h
        · rcases List.mem_cons.mp h with h | h
          · rw [h, hc] at hb
            cases hb
          · exact List.append_ne_nil_of_right_ne_nil _ (ih [] (.inl h))
        · rw [closeRun_of_ne_nil h]
          exact List.cons_ne_nil _ _
      · rw [if_neg hc]
        exact ih _ (.inr (List.append_ne_nil_of_right_ne_nil _ (List.cons_ne_nil _ _)))
  exact hfrom text [] (.inl hmem)

end

/-- Cutting at more separators cuts every piece further. -/
theorem piecesFrom_refine (h : ∀ b, coarse b = true → fine b = true) :
    ∀ text current : List α, pieces fine (current ++ text) =
      (piecesFrom coarse current text).flatMap (pieces fine) := by
  intro text
  induction text with
  | nil =>
    intro current
    cases current with
    | nil => rfl
    | cons c current => simp [piecesFrom, closeRun]
  | cons b rest ih =>
    intro current
    unfold piecesFrom
    by_cases hb : coarse b = true
    · rw [if_pos hb, List.flatMap_append]
      have hcut : pieces fine (current ++ b :: rest) = pieces fine current ++ pieces fine rest :=
        piecesFrom_separator (h b hb) rest current []
      have hrest := ih []
      rw [List.nil_append] at hrest
      rw [hcut, hrest]
      cases current with
      | nil => rfl
      | cons c current => simp [closeRun]
    · rw [if_neg hb, ← ih (current ++ [b]), List.append_assoc]
      rfl

theorem pieces_refine (h : ∀ b, coarse b = true → fine b = true) (text : List α) :
    pieces fine text = (pieces coarse text).flatMap (pieces fine) :=
  piecesFrom_refine h text []

def fieldsFrom [DecidableEq α] (separator : α) (current : List α) : List α → List (List α)
  | [] => [current]
  | b :: rest =>
    if b = separator then current :: fieldsFrom separator [] rest
    else fieldsFrom separator (current ++ [b]) rest

def fields [DecidableEq α] (separator : α) (text : List α) : List (List α) := fieldsFrom separator [] text

theorem fieldsFrom_ne_nil [DecidableEq α] (separator : α) :
    ∀ text current : List α, fieldsFrom separator current text ≠ [] := by
  intro text
  induction text with
  | nil => exact fun current => List.cons_ne_nil _ _
  | cons b text ih =>
    intro current
    unfold fieldsFrom
    split
    · exact List.cons_ne_nil _ _
    · exact ih _

/-- A field is a part of the text, without the separator. -/
theorem mem_field [DecidableEq α] : ∀ {text current field : List α}, separator ∉ current →
      field ∈ fieldsFrom separator current text →
        ∀ b ∈ field, b ∈ current ++ text ∧ b ≠ separator := by
  intro text
  induction text with
  | nil =>
    intro current field hcurrent hfield b hb
    rw [List.mem_singleton.mp hfield] at hb
    exact ⟨List.mem_append_left _ hb, fun hsame => hcurrent (hsame ▸ hb)⟩
  | cons c text ih =>
    intro current field hcurrent hfield b hb
    unfold fieldsFrom at hfield
    by_cases hcut : c = separator
    · rw [if_pos hcut] at hfield
      rcases List.mem_cons.mp hfield with hfield | hfield
      · rw [hfield] at hb
        exact ⟨List.mem_append_left _ hb, fun hsame => hcurrent (hsame ▸ hb)⟩
      · have hrest := ih List.not_mem_nil hfield b hb
        exact ⟨List.mem_append_right _ (List.mem_cons_of_mem c hrest.1), hrest.2⟩
    · rw [if_neg hcut] at hfield
      have hlonger : separator ∉ current ++ [c] := by
        rw [List.mem_append, List.mem_singleton, not_or]
        exact ⟨hcurrent, fun hsame => hcut hsame.symm⟩
      have hrest := ih hlonger hfield b hb
      rw [List.append_assoc, List.singleton_append] at hrest
      exact hrest

/-- A field with something else than blanks in it. -/
def Filled (blank : α → Bool) (field : List α) : Prop := ∃ b ∈ field, blank b = false

theorem Filled.append {field : List α} (h : Filled blank field) (rest : List α) :
    Filled blank (field ++ rest) := by
  obtain ⟨b, hb, hblank⟩ := h
  exact ⟨b, List.mem_append_left rest hb, hblank⟩

/-- The second text is the first with some bytes that separate nothing blanked. -/
def Masked (separator : α) (blank : α → Bool) : List α → List α → Prop :=
  List.Forall₂ fun b masked => masked = b ∨ blank masked = true ∧ masked ≠ separator ∧
    b ≠ separator

theorem fieldsFilled_of_masked [DecidableEq α] {masked : List α}
    (hmasked : Masked separator blank text masked) :
    ∀ {current other : List α}, (Filled blank other → Filled blank current) →
      (∀ field ∈ fieldsFrom separator other masked, Filled blank field) →
        ∀ field ∈ fieldsFrom separator current text, Filled blank field := by
  induction hmasked with
  | nil =>
    intro current other hkept hfilled field hfield
    rw [List.mem_singleton.mp hfield]
    exact hkept (hfilled other List.mem_cons_self)
  | @cons b m text masked hb _ ih =>
    intro current other hkept hfilled field hfield
    unfold fieldsFrom at hfilled hfield
    have hseparator : b = separator ↔ m = separator := by
      rcases hb with hb | ⟨-, hm, hb⟩
      · rw [hb]
      · exact ⟨fun h => absurd h hb, fun h => absurd h hm⟩
    by_cases hcut : b = separator
    · rw [if_pos (hseparator.mp hcut)] at hfilled
      rw [if_pos hcut] at hfield
      rcases List.mem_cons.mp hfield with hfield | hfield
      · rw [hfield]
        exact hkept (hfilled other List.mem_cons_self)
      · exact ih (fun h => h)
          (fun field hfield => hfilled field (List.mem_cons_of_mem _ hfield)) field hfield
    · rw [if_neg (fun h => hcut (hseparator.mpr h))] at hfilled
      rw [if_neg hcut] at hfield
      refine ih ?_ hfilled field hfield
      rintro ⟨c, hc, hblank⟩
      rcases List.mem_append.mp hc with hc | hc
      · exact (hkept ⟨c, hc, hblank⟩).append [b]
      · rw [List.mem_singleton.mp hc] at hblank
        rcases hb with hb | ⟨hm, -, -⟩
        · exact ⟨b, List.mem_append_right _ List.mem_cons_self, hb ▸ hblank⟩
        · rw [hm] at hblank
          cases hblank

end Moguet.Verified.Pieces
