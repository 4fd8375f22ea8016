import Mathlib.Data.List.DropRight

/-!
# Byte strings

`std::string` and `std::string_view` are sequences of bytes, so every text
of the development is a list of `UInt8`: nothing depends on an encoding,
and the comparisons of the source (`==`, `<`, `find`, `substr`) are list
operations. `ascii` writes a literal of the source.

This module is the bottom of the package and names nothing of the program
above it.
-/

namespace Moguet.Verified.ByteString

variable {p : UInt8 → Bool} {b first : UInt8}

/-- A `std::string`: a sequence of bytes. -/
abbrev Bytes := List UInt8

variable {s rest front wanted : Bytes}

/-- The bytes of an ASCII literal of the source. -/
def ascii (s : String) : Bytes := s.toList.map fun c => UInt8.ofNat c.toNat

/-- The byte of an ASCII character literal of the source. -/
def byte (c : Char) : UInt8 := UInt8.ofNat c.toNat

/-! ## Deciding along a text

Bytes are finitely many, so a search over all of them is found before the one
over the text unless these stand here. Texts are compared byte by byte. -/

instance lawfulBEqText : LawfulBEq Bytes := List.instLawfulBEq

instance decidableForallByte {p : UInt8 → Prop} [DecidablePred p] (text : Bytes) :
    Decidable (∀ b ∈ text, p b) :=
  List.decidableBAll p text

instance decidableExistsByte {p : UInt8 → Prop} [DecidablePred p] (text : Bytes) :
    Decidable (∃ b ∈ text, p b) :=
  List.decidableBEx p text

def isAsciiLower (b : UInt8) : Bool := byte 'a' ≤ b && b ≤ byte 'z'

def isAsciiUpper (b : UInt8) : Bool := byte 'A' ≤ b && b ≤ byte 'Z'

def isAsciiDigit (b : UInt8) : Bool := byte '0' ≤ b && b ≤ byte '9'

def isAsciiAlphanumeric (b : UInt8) : Bool :=
  isAsciiLower b || isAsciiUpper b || isAsciiDigit b

def isLowerHex (b : UInt8) : Bool :=
  isAsciiDigit b || (byte 'a' ≤ b && b ≤ byte 'f')

/-- The four blanks of `find_first_not_of(" \t\n\r")`. -/
def isBlank (b : UInt8) : Bool := b = 32 || b = 9 || b = 10 || b = 13

/-- The text between the first and the last byte that is not blank, empty
when there is none. -/
def trim (s : Bytes) : Bytes := (s.dropWhile isBlank).rdropWhile isBlank

@[simp] theorem trim_nil : trim [] = [] := rfl

/-- A text whose bytes are all visible is its own trimming. -/
theorem trim_eq_self {s : Bytes} (h : ∀ b ∈ s, isBlank b = false) : trim s = s := by
  have hfront : s.dropWhile isBlank = s := by
    cases s with
    | nil => rfl
    | cons b s =>
      have hb : isBlank b = false := h b List.mem_cons_self
      simp [List.dropWhile, hb]
  unfold trim
  rw [hfront, List.rdropWhile_eq_self_iff]
  intro hne hlast
  have hmem : s.getLast hne ∈ s := List.getLast_mem hne
  rw [h _ hmem] at hlast
  exact Bool.false_ne_true hlast

/-- The first byte of a trimmed text is not blank. -/
private theorem head_dropWhile_not :
    ∀ {s t : Bytes} {b : UInt8}, s.dropWhile p = b :: t → p b = false := by
  intro s
  induction s with
  | nil => intro t b h; simp at h
  | cons c s ih =>
    intro t b h
    by_cases hc : p c
    · simp only [List.dropWhile, hc] at h
      exact ih h
    · simp only [List.dropWhile, hc] at h
      injection h with hcb _
      rw [← hcb]
      simpa using hc

/-- A text with a visible byte stays a text. -/
theorem trim_ne_nil (hmem : b ∈ s) (hb : isBlank b = false) : trim s ≠ [] := by
  intro hnil
  unfold trim at hnil
  rw [List.rdropWhile_eq_nil_iff] at hnil
  have hdrop : b ∈ s.dropWhile isBlank := by
    rcases List.mem_append.mp
        ((List.takeWhile_append_dropWhile (p := isBlank) (l := s)).symm ▸ hmem)
      with htake | hdrop
    · have hblank := List.mem_takeWhile_imp htake
      rw [hb] at hblank
      cases hblank
    · exact hdrop
  have hblank := hnil b hdrop
  rw [hb] at hblank
  cases hblank

/-- Trimming twice is trimming once. -/
theorem trim_trim (s : Bytes) : trim (trim s) = trim s := by
  have hfront : (trim s).dropWhile isBlank = trim s := by
    cases ht : trim s with
    | nil => rfl
    | cons b t =>
      -- The trimmed text is a front part of the text without its leading
      -- blanks, so it starts with the same visible byte.
      have hpre : trim s <+: s.dropWhile isBlank :=
        List.rdropWhile_prefix isBlank _
      obtain ⟨u, hu⟩ := hpre
      rw [ht] at hu
      have hb : isBlank b = false := head_dropWhile_not hu.symm
      simp [List.dropWhile, hb]
  show ((trim s).dropWhile isBlank).rdropWhile isBlank = trim s
  rw [hfront]
  exact List.rdropWhile_idempotent isBlank (s.dropWhile isBlank)

/-- Blanks around a text without blanks are what trimming removes. -/
theorem trim_surround {front text back : Bytes} (hfront : ∀ b ∈ front, isBlank b = true)
    (htext : ∀ b ∈ text, isBlank b = false) (hback : ∀ b ∈ back, isBlank b = true) :
    trim (front ++ (text ++ back)) = text := by
  unfold trim
  rw [List.dropWhile_append_of_pos hfront]
  cases text with
  | nil =>
    have hdrop : back.dropWhile isBlank = [] := List.dropWhile_eq_nil_iff.mpr hback
    rw [List.nil_append, hdrop]
    rfl
  | cons b rest =>
    have hb : isBlank b = false := htext b List.mem_cons_self
    have hkept : (b :: rest ++ back).dropWhile isBlank = b :: rest ++ back := by
      rw [List.cons_append, List.dropWhile_cons, hb]
      rfl
    have hend : ((b :: rest).reverse).dropWhile isBlank = (b :: rest).reverse := by
      cases hrev : (b :: rest).reverse with
      | nil => rfl
      | cons c tail =>
        have hc : isBlank c = false := by
          apply htext
          rw [← List.mem_reverse, hrev]
          exact List.mem_cons_self
        rw [List.dropWhile_cons, hc]
        rfl
    have hback' : ∀ c ∈ back.reverse, isBlank c = true :=
      fun c hc => hback c (List.mem_reverse.mp hc)
    rw [hkept, List.rdropWhile, List.reverse_append,
      List.dropWhile_append_of_pos hback', hend, List.reverse_reverse]
/-- A text is its trimming between two rows of blanks. -/
theorem trim_parts (s : Bytes) :
    ∃ front back, (∀ b ∈ front, isBlank b = true) ∧ (∀ b ∈ back, isBlank b = true) ∧
      s = front ++ (trim s ++ back) := by
  refine ⟨s.takeWhile isBlank, (s.dropWhile isBlank).rtakeWhile isBlank, ?_, ?_, ?_⟩
  · intro b hb
    exact List.mem_takeWhile_imp hb
  · intro b hb
    exact List.mem_rtakeWhile_imp hb
  · have hback : trim s ++ (s.dropWhile isBlank).rtakeWhile isBlank = s.dropWhile isBlank :=
      List.rdropWhile_append_rtakeWhile
    rw [hback]
    exact List.takeWhile_append_dropWhile.symm

theorem trim_length_le (s : Bytes) : (trim s).length ≤ s.length := by
  obtain ⟨front, back, -, -, hs⟩ := trim_parts s
  have hlength := congrArg List.length hs
  rw [List.length_append, List.length_append] at hlength
  omega

/-- No row of blanks is at an end of a trimmed text. -/
theorem trimmed_front (h : trim (front ++ rest) = front ++ rest)
    (hfront : ∀ b ∈ front, isBlank b = true) : front = [] := by
  have hrest : trim (front ++ rest) = trim rest := by
    unfold trim
    rw [List.dropWhile_append_of_pos hfront]
  have hle := trim_length_le rest
  rw [← hrest, h, List.length_append] at hle
  apply List.eq_nil_of_length_eq_zero
  omega

theorem trimmed_back {back : Bytes} (h : trim (front ++ back) = front ++ back)
    (hback : ∀ b ∈ back, isBlank b = true) : back = [] := by
  have hkept : trim (front ++ back) = trim front := by
    have hinner : ∀ text : Bytes, (text ++ back).rdropWhile isBlank = text.rdropWhile isBlank := by
      intro text
      have hreverse : ∀ b ∈ back.reverse, isBlank b = true :=
        fun b hb => hback b (List.mem_reverse.mp hb)
      unfold List.rdropWhile
      rw [List.reverse_append, List.dropWhile_append_of_pos hreverse]
    unfold trim
    by_cases hall : front.dropWhile isBlank = []
    · rw [List.dropWhile_append, hall]
      have hdrop : back.dropWhile isBlank = [] := List.dropWhile_eq_nil_iff.mpr hback
      simp [hdrop]
    · rw [List.dropWhile_append, if_neg (by simpa using hall), hinner]
  have hle := trim_length_le front
  rw [← hkept, h, List.length_append] at hle
  apply List.eq_nil_of_length_eq_zero
  omega

/-- `find_first_of`: the part before the first byte of the class and the
rest from that byte on, nothing when the class does not occur. -/
def splitAtFirst (p : UInt8 → Bool) (s : Bytes) : Option (Bytes × Bytes) :=
  match s.dropWhile (fun b => !p b) with
  | [] => none
  | b :: rest => some (s.takeWhile (fun b => !p b), b :: rest)

theorem splitAtFirst_append {before : Bytes} (h : splitAtFirst p s = some (before, rest)) :
    before ++ rest = s := by
  unfold splitAtFirst at h
  split at h
  · cases h
  · rename_i b tail hdrop
    injection h with h
    injection h with hbefore hrest
    rw [← hbefore, ← hrest, ← hdrop]
    exact List.takeWhile_append_dropWhile

/-- A text is split at the first byte of the class, and nowhere without one. -/
theorem splitAtFirst_none {s : Bytes} : splitAtFirst p s = none ↔ ∀ b ∈ s, p b = false := by
  unfold splitAtFirst
  constructor
  · intro h b hb
    split at h
    · rename_i hdrop
      have hnot := List.dropWhile_eq_nil_iff.mp hdrop b hb
      simpa using hnot
    · cases h
  · intro h
    have hdrop : s.dropWhile (fun b => !p b) = [] := by
      rw [List.dropWhile_eq_nil_iff]
      intro b hb
      rw [h b hb]
      rfl
    rw [hdrop]

theorem splitAtFirst_some (h : splitAtFirst p s = some (front, rest)) :
    ∃ b tail, rest = b :: tail ∧ p b = true ∧ (∀ c ∈ front, p c = false) ∧
      s = front ++ b :: tail := by
  have hwhole := splitAtFirst_append h
  unfold splitAtFirst at h
  split at h
  · cases h
  · rename_i b tail hdrop
    injection h with h
    injection h with hfront hrest
    refine ⟨b, tail, hrest.symm, ?_, ?_, ?_⟩
    · have hhead := List.head?_dropWhile_not (fun b => !p b) s
      rw [hdrop] at hhead
      simpa using hhead
    · intro c hc
      rw [← hfront] at hc
      simpa using List.mem_takeWhile_imp hc
    · rw [hrest, hwhole]

theorem splitAtFirst_of_append {front : Bytes} (tail : Bytes) (hb : p b = true) :
    (∀ c ∈ front, p c = false) → splitAtFirst p (front ++ b :: tail) = some (front, b :: tail) := by
  intro hfront
  have hnot : ∀ c ∈ front, (!p c) = true := by
    intro c hc
    rw [hfront c hc]
    rfl
  unfold splitAtFirst
  rw [List.dropWhile_append_of_pos hnot, List.takeWhile_append_of_pos hnot]
  simp [hb]

/-- A text is split only at a byte it contains. -/
theorem mem_of_splitAtFirst (h : splitAtFirst p s = some (front, rest)) : ∃ b ∈ s, p b = true := by
  obtain ⟨b, tail, -, hb, -, rfl⟩ := splitAtFirst_some h
  exact ⟨b, List.mem_append_right _ List.mem_cons_self, hb⟩

/-- `find` of a text: the part before its first occurrence and the part after
it, nothing when it does not occur. -/
def splitAtText (wanted : Bytes) : Bytes → Option (Bytes × Bytes)
  | [] => if wanted = [] then some ([], []) else none
  | b :: rest =>
    if wanted.isPrefixOf (b :: rest) then some ([], (b :: rest).drop wanted.length)
    else (splitAtText wanted rest).map fun split => (b :: split.1, split.2)

theorem isPrefixOf_append (front rest : Bytes) : front.isPrefixOf (front ++ rest) = true := by
  rw [List.isPrefixOf_iff_prefix]
  exact List.prefix_append front rest

/-- A text is found where it stands when its second byte does not occur before
and its first byte does not stand right before it. -/
theorem splitAtText_append {second : UInt8} (rest : Bytes) :
    ∀ {front : Bytes}, second ∉ front → front.getLast? ≠ some first →
      splitAtText (first :: second :: wanted)
        (front ++ (first :: second :: wanted ++ rest)) = some (front, rest) := by
  intro front
  induction front with
  | nil =>
    intro _ _
    have hfound : (first :: second :: wanted).isPrefixOf
        (first :: (second :: wanted ++ rest)) = true :=
      isPrefixOf_append (first :: second :: wanted) rest
    show splitAtText _ (first :: (second :: wanted ++ rest)) = _
    unfold splitAtText
    rw [if_pos hfound]
    simp
  | cons b front ih =>
    intro hsecond hlast
    have hnot : (first :: second :: wanted).isPrefixOf
        (b :: (front ++ (first :: second :: wanted ++ rest))) = false := by
      cases front with
      | nil =>
        have hb : first ≠ b := by
          intro hb
          rw [hb] at hlast
          exact hlast rfl
        simp [List.isPrefixOf, hb]
      | cons c front =>
        have hc : second ≠ c := by
          intro hc
          rw [hc] at hsecond
          exact hsecond (by simp)
        simp [List.isPrefixOf, hc]
    have hrest : front.getLast? ≠ some first := by
      cases front with
      | nil => simp
      | cons c front => simpa [List.getLast?_cons_cons] using hlast
    have hfound := ih (fun hmem => hsecond (List.mem_cons_of_mem _ hmem)) hrest
    show splitAtText _ (b :: (front ++ _)) = _
    unfold splitAtText
    rw [if_neg (by rw [hnot]; exact Bool.false_ne_true), hfound]
    rfl

/-- A text is not found where its first byte does not occur. -/
theorem splitAtText_none : ∀ {s : Bytes}, first ∉ s → splitAtText (first :: wanted) s = none := by
  intro s
  induction s with
  | nil =>
    intro _
    rfl
  | cons b s ih =>
    intro h
    rw [List.mem_cons, not_or] at h
    have hnot : (first :: wanted).isPrefixOf (b :: s) = false := by
      simp [List.isPrefixOf, h.1]
    unfold splitAtText
    rw [if_neg (by rw [hnot]; exact Bool.false_ne_true), ih h.2]
    rfl

/-- A text that is found stands between the two parts. -/
theorem splitAtText_some : ∀ {s front rest : Bytes}, splitAtText wanted s = some (front, rest) →
      s = front ++ (wanted ++ rest) := by
  intro s
  induction s with
  | nil =>
    intro front rest h
    unfold splitAtText at h
    split at h
    · rename_i hwanted
      injection h with h
      injection h with hfront hrest
      rw [← hfront, ← hrest, hwanted]
      rfl
    · cases h
  | cons b s ih =>
    intro front rest h
    unfold splitAtText at h
    split at h
    · rename_i hfound
      obtain ⟨tail, htail⟩ := List.isPrefixOf_iff_prefix.mp hfound
      injection h with h
      injection h with hfront hrest
      rw [← hfront, ← hrest, ← htail, List.drop_left]
      rfl
    · obtain ⟨⟨before, after⟩, hsplit, hparts⟩ := Option.map_eq_some_iff.mp h
      injection hparts with hfront hrest
      rw [← hfront, ← hrest, ih hsplit]
      rfl

/-- `find` of a byte: the position of its first occurrence. -/
def findByte (b : UInt8) (s : Bytes) : Option Nat := s.findIdx? fun c => c = b

theorem findByte_none : findByte b s = none ↔ b ∉ s := by
  unfold findByte
  rw [List.findIdx?_eq_none_iff]
  constructor
  · intro h hmem
    exact absurd (h b hmem) (by simp)
  · intro h c hc
    rw [decide_eq_false_iff_not]
    rintro rfl
    exact h hc

/-- The byte does not occur before the position and stands at it. -/
theorem findByte_some {position : Nat} (h : findByte b s = some position) :
    position < s.length ∧ b ∉ s.take position ∧
      s = s.take position ++ b :: s.drop (position + 1) := by
  unfold findByte at h
  obtain ⟨hlength, hfound, hbefore⟩ := List.findIdx?_eq_some_iff_getElem.mp h
  have hb : s[position] = b := of_decide_eq_true hfound
  refine ⟨hlength, ?_, ?_⟩
  · intro hmem
    obtain ⟨index, hindex, hget⟩ := List.mem_iff_getElem.mp hmem
    rw [List.length_take] at hindex
    rw [List.getElem_take] at hget
    have hnot := hbefore index (by omega)
    rw [hget] at hnot
    simp at hnot
  · conv_lhs => rw [← List.take_append_drop position s, List.drop_eq_getElem_cons hlength, hb]

end Moguet.Verified.ByteString
