import Mathlib.Algebra.Ring.Nat
import Moguet.Verified.ByteString
import Moguet.Verified.Checked

/-!
# Separated fields

The readers of machine output take one field after the other from the front
of a text: the bytes up to a separator, which is consumed with them.
-/

namespace Moguet.Verified.Fields

open ByteString Checked

variable {α : Type}

variable {text front : Bytes} {separator : UInt8} {limit : Nat}

/-- The bytes before the first separator and the rest after it, nothing when
there is no separator. -/
def takeField (separator : UInt8) : Bytes → Option (Bytes × Bytes)
  | [] => none
  | b :: rest =>
    if b = separator then some ([], rest)
    else (takeField separator rest).map fun taken => (b :: taken.1, taken.2)

/-- A text as a row of records, read from the front. The first record that
cannot be read fails with its index. A record takes at least one byte, so the
length of the text is enough fuel. -/
def readRecords {ε α : Type} (failure : Nat → ε) (read : Bytes → Option (α × Bytes)) :
    Nat → Nat → Bytes → Except ε (List α)
  | _, _, [] => .ok []
  | 0, index, _ :: _ => .error (failure index)
  | fuel + 1, index, b :: text =>
    match read (b :: text) with
    | none => .error (failure index)
    | some (record, rest) => do
        let records ← readRecords failure read fuel (index + 1) rest
        .ok (record :: records)

/-- Every record of a text was read somewhere in it. -/
theorem readRecords_mem {ε : Type} {failure : Nat → ε} {read : Bytes → Option (α × Bytes)} :
    ∀ {fuel index : Nat} {text : Bytes} {records : List α},
      readRecords failure read fuel index text = .ok records →
      ∀ record ∈ records, ∃ front rest, read front = some (record, rest) := by
  intro fuel
  induction fuel with
  | zero =>
    intro index text records h record hmem
    cases text with
    | nil =>
      injection h with h
      rw [← h] at hmem
      cases hmem
    | cons b text => cases h
  | succ fuel ih =>
    intro index text records h record hmem
    cases text with
    | nil =>
      injection h with h
      rw [← h] at hmem
      cases hmem
    | cons b text =>
      dsimp only [readRecords] at h
      split at h
      · cases h
      · rename_i first rest hread
        rw [bind_eq_ok] at h
        obtain ⟨others, hothers, h⟩ := h
        injection h with h
        rw [← h] at hmem
        rcases List.mem_cons.mp hmem with rfl | hmem
        · exact ⟨_, rest, hread⟩
        · exact ih hothers record hmem

/-- A reader that accepts more reads the same where it accepts. -/
theorem readRecords_mono {ε : Type} {failure : Nat → ε} {read wider : Bytes → Option (α × Bytes)}
    (hread : ∀ {text record rest}, read text = some (record, rest) →
      wider text = some (record, rest)) :
    ∀ {fuel index : Nat} {text : Bytes} {records : List α},
      readRecords failure read fuel index text = .ok records →
      readRecords failure wider fuel index text = .ok records := by
  intro fuel
  induction fuel with
  | zero =>
    intro index text records h
    cases text with
    | nil => exact h
    | cons b text => cases h
  | succ fuel ih =>
    intro index text records h
    cases text with
    | nil => exact h
    | cons b text =>
      unfold readRecords at h ⊢
      split at h
      · cases h
      · rename_i record rest hfirst
        rw [hread hfirst]
        rw [bind_eq_ok] at h
        obtain ⟨others, hothers, h⟩ := h
        dsimp only
        rw [ih hothers]
        exact h

/-- Records that are read off the text they stand in front of are read back, all of them. -/
theorem readRecords_written {ε : Type} {failure : Nat → ε} {read : Bytes → Option (α × Bytes)}
    {write : α → Bytes} :
    ∀ records : List α,
      (∀ record ∈ records, ∀ rest, read (write record ++ rest) = some (record, rest)) →
      (∀ record ∈ records, write record ≠ []) → ∀ fuel index : Nat,
      (records.flatMap write).length ≤ fuel →
      readRecords failure read fuel index (records.flatMap write) = .ok records := by
  intro records
  induction records with
  | nil =>
    intro _ _ fuel index _
    cases fuel <;> rfl
  | cons record records ih =>
    intro hread hwrite fuel index hfuel
    have hfirst := hread record List.mem_cons_self (records.flatMap write)
    have hne := hwrite record List.mem_cons_self
    have hpos := List.length_pos_iff.mpr hne
    rw [List.flatMap_cons, List.length_append] at hfuel
    rw [List.flatMap_cons]
    cases fuel with
    | zero => omega
    | succ fuel =>
      generalize htext : write record ++ records.flatMap write = text at hfirst ⊢
      cases text with
      | nil => exact absurd (List.append_eq_nil_iff.mp htext).1 hne
      | cons b text =>
        have hothers := ih (fun other hother => hread other (List.mem_cons_of_mem _ hother))
          (fun other hother => hwrite other (List.mem_cons_of_mem _ hother)) fuel
          (index + 1) (by omega)
        unfold readRecords
        rw [hfirst]
        dsimp only
        rw [hothers]
        rfl

/-- Where a record is read off its own text and nothing else, a text is read as the records
it is made of. -/
theorem readRecords_eq_ok_iff {ε : Type} {failure : Nat → ε} {read : Bytes → Option (α × Bytes)}
    {write : α → Bytes} {Good : α → Prop} (hread : ∀ {text : Bytes} {record : α} {rest : Bytes},
      read text = some (record, rest) ↔ text = write record ++ rest ∧ Good record)
    (hwrite : ∀ {record : α}, Good record → write record ≠ []) :
    ∀ {fuel index : Nat} {text : Bytes} {records : List α}, text.length ≤ fuel →
      (readRecords failure read fuel index text = .ok records ↔
        text = records.flatMap write ∧ ∀ record ∈ records, Good record) := by
  have hshort : ∀ {text : Bytes} {record : α} {rest : Bytes},
      read text = some (record, rest) → rest.length < text.length := by
    intro text record rest h
    obtain ⟨htext, hgood⟩ := hread.mp h
    have hlength := List.length_pos_of_ne_nil (hwrite hgood)
    rw [htext, List.length_append]
    omega
  have hnil : ∀ {records : List α}, (Except.ok [] : Except ε (List α)) = .ok records ↔
        [] = records.flatMap write ∧ ∀ record ∈ records, Good record := by
    intro records
    constructor
    · intro h
      injection h with h
      rw [← h]
      exact ⟨rfl, List.forall_mem_nil _⟩
    · rintro ⟨htext, hgood⟩
      cases records with
      | nil => rfl
      | cons record records =>
        rw [List.flatMap_cons] at htext
        have hempty := (List.append_eq_nil_iff.mp htext.symm).1
        exact absurd hempty (hwrite (hgood record List.mem_cons_self))
  intro fuel
  induction fuel with
  | zero =>
    intro index text records hfuel
    rw [List.length_eq_zero_iff.mp (Nat.le_zero.mp hfuel)]
    exact hnil
  | succ fuel ih =>
    intro index text records hfuel
    cases text with
    | nil => exact hnil
    | cons b text =>
      dsimp only [readRecords]
      constructor
      · intro h
        split at h
        · cases h
        · rename_i first rest hfirst
          have hlength := hshort hfirst
          obtain ⟨others, hothers, h⟩ := bind_eq_ok.mp h
          injection h with h
          obtain ⟨htext, hgood⟩ := hread.mp hfirst
          obtain ⟨hrest, hall⟩ := (ih (by omega)).mp hothers
          rw [← h, htext, hrest]
          exact ⟨rfl, List.forall_mem_cons.mpr ⟨hgood, hall⟩⟩
      · rintro ⟨htext, hgood⟩
        cases records with
        | nil => cases htext
        | cons record records =>
          rw [List.flatMap_cons] at htext
          obtain ⟨hfirst, hothers⟩ := List.forall_mem_cons.mp hgood
          have htaken := hread.mpr ⟨htext, hfirst⟩
          have hlength := hshort htaken
          have hrest := (@ih (index + 1) _ records (by omega)).mpr ⟨rfl, hothers⟩
          rw [htaken]
          dsimp only
          rw [bind_of_ok hrest]

/-- A field is what stands before the first separator. -/
theorem takeField_eq_some_iff {rest : Bytes} : takeField separator text = some (front, rest) ↔
      separator ∉ front ∧ text = front ++ separator :: rest := by
  induction text generalizing front with
  | nil => simp [takeField]
  | cons b text ih =>
    unfold takeField
    by_cases hseparator : b = separator
    · rw [if_pos hseparator]
      cases front with
      | nil => simp [hseparator]
      | cons c front =>
        constructor
        · intro h
          injection h with h
          injection h with h
          cases h
        · rintro ⟨hnot, htext⟩
          injection htext with hb
          rw [← hb, hseparator] at hnot
          exact absurd List.mem_cons_self hnot
    · rw [if_neg hseparator]
      cases front with
      | nil =>
        constructor
        · intro h
          obtain ⟨taken, _, htaken⟩ := Option.map_eq_some_iff.mp h
          cases htaken
        · rintro ⟨_, htext⟩
          injection htext with hb
          exact absurd hb hseparator
      | cons c front =>
        constructor
        · intro h
          obtain ⟨taken, htaken, hpair⟩ := Option.map_eq_some_iff.mp h
          injection hpair with hfront hrest
          injection hfront with hb hfront
          have hread : takeField separator text = some (front, rest) := by
            rw [htaken, ← hfront, ← hrest]
          have hsplit := ih.mp hread
          rw [hb] at hseparator
          refine ⟨?_, ?_⟩
          · intro hmem
            rcases List.mem_cons.mp hmem with hsame | hmem
            · exact hseparator hsame.symm
            · exact hsplit.1 hmem
          · rw [hb, hsplit.2]
            rfl
        · rintro ⟨hnot, htext⟩
          injection htext with hb htext
          have htaken := ih.mpr ⟨fun hmem => hnot (List.mem_cons_of_mem _ hmem), htext⟩
          rw [htaken, hb]
          rfl

theorem takeField_append (h : separator ∉ front) (rest : Bytes) :
    takeField separator (front ++ separator :: rest) = some (front, rest) :=
  takeField_eq_some_iff.mpr ⟨h, rfl⟩

/-- Each line with its terminator. -/
def terminated (separator : UInt8) (lines : List Bytes) : Bytes :=
  lines.flatMap fun line => line ++ [separator]

@[simp] theorem terminated_nil (separator : UInt8) : terminated separator [] = [] := rfl

@[simp] theorem terminated_cons (separator : UInt8) (line : Bytes) (lines : List Bytes) :
    terminated separator (line :: lines) = line ++ separator :: terminated separator lines := by
  simp [terminated]

theorem terminated_append (separator : UInt8) (front back : List Bytes) :
    terminated separator (front ++ back) =
      terminated separator front ++ terminated separator back := by
  simp [terminated]

theorem terminated_length (separator : UInt8) (lines : List Bytes) :
    (terminated separator lines).length = (lines.map fun line => line.length + 1).sum := by
  induction lines with
  | nil => rfl
  | cons line lines ih =>
    rw [terminated_cons, List.length_append, List.length_cons, ih, List.map_cons, List.sum_cons]
    omega

/-- The lines of a text, at most `limit` of them after those already read. -/
def takeLines {ε : Type} (separator : UInt8) (truncated tooMany : ε) (limit : Nat) :
    Nat → List Bytes → Bytes → Except ε (List Bytes)
  | _, lines, [] => .ok lines
  | 0, _, _ :: _ => .error truncated
  | fuel + 1, lines, b :: text =>
    match takeField separator (b :: text) with
    | none => .error truncated
    | some (line, rest) =>
      if limit < (lines ++ [line]).length then .error tooMany
      else takeLines separator truncated tooMany limit fuel (lines ++ [line]) rest

/-- What is read is terminated lines, and the limit bounds them. -/
theorem takeLines_ok {ε : Type} {truncated tooMany : ε} :
    ∀ {fuel : Nat} {lines read : List Bytes} {text : Bytes},
      takeLines separator truncated tooMany limit fuel lines text = .ok read →
      ∃ more, read = lines ++ more ∧ text = terminated separator more ∧
        (∀ line ∈ more, separator ∉ line) ∧ (lines.length ≤ limit → read.length ≤ limit) := by
  intro fuel
  induction fuel with
  | zero =>
    intro lines read text h
    cases text with
    | nil =>
      injection h with h
      exact ⟨[], by rw [← h, List.append_nil], rfl, List.forall_mem_nil _, by rw [h]; exact id⟩
    | cons b text => cases h
  | succ fuel ih =>
    intro lines read text h
    cases text with
    | nil =>
      injection h with h
      exact ⟨[], by rw [← h, List.append_nil], rfl, List.forall_mem_nil _, by rw [h]; exact id⟩
    | cons b text =>
      dsimp only [takeLines] at h
      split at h
      · cases h
      · rename_i line rest htake
        split at h
        · cases h
        · rename_i hlimit
          obtain ⟨hclean, htext⟩ := takeField_eq_some_iff.mp htake
          obtain ⟨more, hread, hrest, hmore, hcount⟩ := ih h
          refine ⟨line :: more, ?_, ?_, List.forall_mem_cons.mpr ⟨hclean, hmore⟩,
            fun _ => hcount (Nat.not_lt.mp hlimit)⟩
          · rw [hread, List.append_assoc]
            rfl
          · rw [htext, hrest, terminated_cons]

theorem terminated_length_le (separator : UInt8) {width : Nat} :
    ∀ {lines : List Bytes}, (∀ line ∈ lines, line.length < width) →
      (terminated separator lines).length ≤ lines.length * width := by
  intro lines
  induction lines with
  | nil =>
    intro _
    simp
  | cons line lines ih =>
    intro h
    have hline := h line List.mem_cons_self
    have hrest := ih fun other hmem => h other (List.mem_cons_of_mem _ hmem)
    rw [terminated_cons, List.length_append, List.length_cons, List.length_cons, Nat.succ_mul]
    omega

/-- Enough fuel reads back every row of lines within the limit. -/
theorem takeLines_terminated {ε : Type} {truncated tooMany : ε} :
    ∀ {more lines : List Bytes} {fuel : Nat},
      (∀ line ∈ more, separator ∉ line) → (lines ++ more).length ≤ limit →
      (terminated separator more).length ≤ fuel →
      takeLines separator truncated tooMany limit fuel lines (terminated separator more) =
        .ok (lines ++ more) := by
  intro more
  induction more with
  | nil =>
    intro lines fuel _ _ _
    rw [terminated_nil, List.append_nil]
    cases fuel with
    | zero => rfl
    | succ fuel => rfl
  | cons line more ih =>
    intro lines fuel hclean hlimit hfuel
    have htake := takeField_append (hclean line List.mem_cons_self) (terminated separator more)
    rw [terminated_cons] at hfuel ⊢
    rw [List.length_append, List.length_cons] at hfuel
    cases fuel with
    | zero => omega
    | succ fuel =>
      obtain ⟨b, text, htext⟩ := List.exists_cons_of_ne_nil
        (List.append_ne_nil_of_right_ne_nil line (List.cons_ne_nil separator
          (terminated separator more)))
      rw [htext] at htake ⊢
      dsimp only [takeLines]
      rw [htake]
      dsimp only
      have hfits : ¬ limit < (lines ++ [line]).length := by
        simp only [List.length_append, List.length_cons, List.length_nil] at hlimit ⊢
        omega
      have hrest : (lines ++ [line] ++ more).length ≤ limit := by
        simpa [List.append_assoc] using hlimit
      rw [if_neg hfits, ih (fun other hmem =>
        hclean other (List.mem_cons_of_mem _ hmem)) hrest (by omega)]
      simp

theorem getLast?_terminated {lines : List Bytes} (h : lines ≠ []) :
    (terminated separator lines).getLast? = some separator := by
  obtain ⟨front, last, rfl⟩ := (List.eq_nil_or_concat lines).resolve_left h
  rw [List.concat_eq_append, terminated_append, terminated_cons, terminated_nil,
    List.getLast?_append, List.getLast?_concat]
  rfl

theorem not_mem_terminated {b : UInt8} {lines : List Bytes} (hb : b ≠ separator)
    (h : ∀ line ∈ lines, b ∉ line) : b ∉ terminated separator lines := by
  intro hmem
  obtain ⟨line, hline, hmem⟩ := List.mem_flatMap.mp hmem
  rcases List.mem_append.mp hmem with hmem | hmem
  · exact h line hline hmem
  · exact hb (List.mem_singleton.mp hmem)

section Message

variable {ε : Type} {tooLarge unended truncated tooMany : ε} {size : Nat} {lines : List Bytes}

/-- A message of lines within both limits is read back. -/
theorem message_terminated (hne : lines ≠ []) (hclean : ∀ line ∈ lines, separator ∉ line)
    (hcount : lines.length ≤ limit) (hsize : (terminated separator lines).length ≤ size) :
    (if size < (terminated separator lines).length then .error tooLarge
      else if terminated separator lines = [] ∨
          (terminated separator lines).getLast? ≠ some separator then .error unended
      else takeLines separator truncated tooMany limit (terminated separator lines).length []
        (terminated separator lines)) = Except.ok lines := by
  have hlast : (terminated separator lines).getLast? = some separator := getLast?_terminated hne
  have hends : ¬ (terminated separator lines = [] ∨
      (terminated separator lines).getLast? ≠ some separator) := by
    rintro (hnil | hother)
    · rw [hnil] at hlast
      cases hlast
    · exact hother hlast
  rw [if_neg (Nat.not_lt.mpr hsize), if_neg hends]
  exact takeLines_terminated hclean (show ([] ++ lines).length ≤ limit from hcount) le_rfl

theorem message_ok (h : (if size < text.length then .error tooLarge
      else if text = [] ∨ text.getLast? ≠ some separator then .error unended
      else takeLines separator truncated tooMany limit text.length [] text) = Except.ok lines) :
    text = terminated separator lines ∧ text.length ≤ size ∧ lines.length ≤ limit := by
  split at h
  · cases h
  · rename_i hsize
    split at h
    · cases h
    · obtain ⟨_, rfl, htext, -, hcount⟩ := takeLines_ok h
      exact ⟨htext, Nat.not_lt.mp hsize, hcount (Nat.zero_le _)⟩

end Message

end Moguet.Verified.Fields
