import Moguet.Verified.ByteString

/-!
# Code points of a text

UTF-8 as it is decoded one code point after the other: overlong forms,
surrogates and code points beyond the last are refused at their second byte. A
text is scanned by a check of its code points, which every byte of it is part
of, so the length of the text bounds the rounds of the scan. The encoder it is
compared with is the one of the `String` type, where a `Char` is a scalar value.
-/

namespace Moguet.Verified.Utf8

open ByteString

variable {value : Bytes}

def isContinuationByte (b : UInt8) : Bool := 0x80 ≤ b && b ≤ 0xbf

/-- The six low bits of a continuation byte. -/
def continuationBits (b : UInt8) : Nat := b.toNat % 64

/-- Overlong forms and surrogates are cut off at the second byte. -/
def isSecondOfThree (first second : UInt8) : Bool :=
  if first = 0xe0 then 0xa0 ≤ second && second ≤ 0xbf
  else if first = 0xed then 0x80 ≤ second && second ≤ 0x9f
  else isContinuationByte second

def isSecondOfFour (first second : UInt8) : Bool :=
  if first = 0xf0 then 0x90 ≤ second && second ≤ 0xbf
  else if first = 0xf4 then 0x80 ≤ second && second ≤ 0x8f
  else isContinuationByte second

/-- The first code point of a text and its length. -/
def decodeUtf8CodePoint : Bytes → Option (Nat × Nat)
  | [] => none
  | first :: rest =>
    if first ≤ 0x7f then some (first.toNat, 1)
    else if 0xc2 ≤ first ∧ first ≤ 0xdf then
      match rest with
      | second :: _ =>
        if !isContinuationByte second then none
        else some (first.toNat % 32 * 64 + continuationBits second, 2)
      | _ => none
    else if 0xe0 ≤ first ∧ first ≤ 0xef then
      match rest with
      | second :: third :: _ =>
        if !isSecondOfThree first second || !isContinuationByte third then none
        else
          some (first.toNat % 16 * 4096 + continuationBits second * 64 +
            continuationBits third, 3)
      | _ => none
    else if 0xf0 ≤ first ∧ first ≤ 0xf4 then
      match rest with
      | second :: third :: fourth :: _ =>
        if !isSecondOfFour first second || !isContinuationByte third ||
            !isContinuationByte fourth then none
        else
          some (first.toNat % 8 * 262144 + continuationBits second * 4096 +
            continuationBits third * 64 + continuationBits fourth, 4)
      | _ => none
    else none

/-- How a scan ended. -/
inductive TextStatus
  | valid
  | invalidUtf8
  | refusedCodePoint
  deriving DecidableEq

/-- The first malformed or refused code point decides. -/
def scanCodePoints (admits : Nat → Bool) : Nat → Bytes → TextStatus
  | _, [] => .valid
  | 0, _ :: _ => .invalidUtf8
  | rounds + 1, b :: rest =>
    match decodeUtf8CodePoint (b :: rest) with
    | none => .invalidUtf8
    | some (codePoint, length) =>
      if !admits codePoint then .refusedCodePoint
      else scanCodePoints admits rounds ((b :: rest).drop length)

/-- A byte after the first one. -/
def Tail (b : UInt8) : Prop := 0x80 ≤ b.toNat ∧ b.toNat ≤ 0xbf

/-- The forms of a code point at the head of a text. -/
inductive Coded : Bytes → Nat → Nat → Prop
  | one (a : UInt8) (rest : Bytes) (ha : a.toNat ≤ 0x7f) : Coded (a :: rest) a.toNat 1
  | two (a b : UInt8) (rest : Bytes) {codePoint : Nat} (ha : 0xc2 ≤ a.toNat ∧ a.toNat ≤ 0xdf)
      (hb : Tail b) (hpoint : codePoint = a.toNat % 32 * 64 + b.toNat % 64) :
      Coded (a :: b :: rest) codePoint 2
  | three (a b c : UInt8) (rest : Bytes) {codePoint : Nat}
      (ha : 0xe0 ≤ a.toNat ∧ a.toNat ≤ 0xef) (hb : Tail b)
      (hlow : a.toNat = 0xe0 → 0xa0 ≤ b.toNat) (hhigh : a.toNat = 0xed → b.toNat ≤ 0x9f)
      (hc : Tail c)
      (hpoint : codePoint = a.toNat % 16 * 4096 + b.toNat % 64 * 64 + c.toNat % 64) :
      Coded (a :: b :: c :: rest) codePoint 3
  | four (a b c d : UInt8) (rest : Bytes) {codePoint : Nat}
      (ha : 0xf0 ≤ a.toNat ∧ a.toNat ≤ 0xf4) (hb : Tail b)
      (hlow : a.toNat = 0xf0 → 0x90 ≤ b.toNat) (hhigh : a.toNat = 0xf4 → b.toNat ≤ 0x8f)
      (hc : Tail c) (hd : Tail d)
      (hpoint : codePoint =
        a.toNat % 8 * 262144 + b.toNat % 64 * 4096 + c.toNat % 64 * 64 + d.toNat % 64) :
      Coded (a :: b :: c :: d :: rest) codePoint 4

theorem isContinuationByte_iff (b : UInt8) : isContinuationByte b = true ↔ Tail b := by
  simp [isContinuationByte, Tail, UInt8.le_iff_toNat_le]

theorem isSecondOfThree_iff (a b : UInt8) :
    isSecondOfThree a b = true ↔ Tail b ∧ (a.toNat = 0xe0 → 0xa0 ≤ b.toNat) ∧
      (a.toNat = 0xed → b.toNat ≤ 0x9f) := by
  simp only [isSecondOfThree, isContinuationByte, Tail, ← UInt8.toNat_inj, UInt8.le_iff_toNat_le]
  split
  · simp_all
    omega
  · split
    · simp_all
      omega
    · simp_all

theorem isSecondOfFour_iff (a b : UInt8) :
    isSecondOfFour a b = true ↔ Tail b ∧ (a.toNat = 0xf0 → 0x90 ≤ b.toNat) ∧
      (a.toNat = 0xf4 → b.toNat ≤ 0x8f) := by
  simp only [isSecondOfFour, isContinuationByte, Tail, ← UInt8.toNat_inj, UInt8.le_iff_toNat_le]
  split
  · simp_all
    omega
  · split
    · simp_all
      omega
    · simp_all

theorem decodeUtf8CodePoint_eq_some_iff (text : Bytes) (codePoint length : Nat) :
    decodeUtf8CodePoint text = some (codePoint, length) ↔ Coded text codePoint length := by
  constructor
  · fun_cases decodeUtf8CodePoint text <;> intro h <;> cases h
    · rename_i first rest hone
      exact .one first rest hone
    · rename_i first _ htwo second rest hsecond
      rw [Bool.not_eq_true', Bool.not_eq_false, isContinuationByte_iff] at hsecond
      exact .two first second rest htwo hsecond rfl
    · rename_i first _ _ hthree second third rest hrefused
      rw [Bool.or_eq_true, Bool.not_eq_true', Bool.not_eq_true', not_or, Bool.not_eq_false,
        Bool.not_eq_false, isSecondOfThree_iff, isContinuationByte_iff] at hrefused
      obtain ⟨⟨hsecond, hlow, hhigh⟩, hthird⟩ := hrefused
      exact .three first second third rest hthree hsecond hlow hhigh hthird rfl
    · rename_i first _ _ _ hfour second third fourth rest hrefused
      rw [Bool.or_eq_true, Bool.or_eq_true, Bool.not_eq_true', Bool.not_eq_true',
        Bool.not_eq_true', not_or, not_or, Bool.not_eq_false, Bool.not_eq_false,
        Bool.not_eq_false, isSecondOfFour_iff, isContinuationByte_iff,
        isContinuationByte_iff] at hrefused
      obtain ⟨⟨⟨hsecond, hlow, hhigh⟩, hthird⟩, hfourth⟩ := hrefused
      exact .four first second third fourth rest hfour hsecond hlow hhigh hthird hfourth rfl
  · intro h
    cases h with
    | one a rest ha => exact if_pos ha
    | two a b rest ha hb hpoint =>
      unfold decodeUtf8CodePoint
      simp only [UInt8.le_iff_toNat_le]
      rw [if_neg (by simp; omega), if_pos (by exact ha)]
      rw [(isContinuationByte_iff b).mpr hb, hpoint]
      rfl
    | three a b c rest ha hb hlow hhigh hc hpoint =>
      unfold decodeUtf8CodePoint
      simp only [UInt8.le_iff_toNat_le]
      rw [if_neg (by simp; omega), if_neg (by simp; omega), if_pos (by exact ha)]
      rw [(isSecondOfThree_iff a b).mpr ⟨hb, hlow, hhigh⟩, (isContinuationByte_iff c).mpr hc, hpoint]
      rfl
    | four a b c d rest ha hb hlow hhigh hc hd hpoint =>
      unfold decodeUtf8CodePoint
      simp only [UInt8.le_iff_toNat_le]
      rw [if_neg (by simp; omega), if_neg (by simp; omega), if_neg (by simp; omega), if_pos (by exact ha)]
      rw [(isSecondOfFour_iff a b).mpr ⟨hb, hlow, hhigh⟩, (isContinuationByte_iff c).mpr hc,
        (isContinuationByte_iff d).mpr hd, hpoint]
      rfl

/-- A scalar value by its number. -/
theorem exists_char {n : Nat} (h : n < 0xd800 ∨ 0xdfff < n ∧ n < 0x110000) :
    ∃ c : Char, c.toNat = n := by
  refine ⟨Char.ofNatAux n h, ?_⟩
  show (UInt32.ofNatLT n _).toNat = n
  simp

theorem encode_eq (c : Char) : String.utf8EncodeChar c =
      if c.toNat ≤ 0x7f then [UInt8.ofNat c.toNat]
      else if c.toNat ≤ 0x7ff then
        [UInt8.ofNat (c.toNat / 64 % 0x20 + 0xc0), UInt8.ofNat (c.toNat % 0x40 + 0x80)]
      else if c.toNat ≤ 0xffff then
        [UInt8.ofNat (c.toNat / 4096 % 0x10 + 0xe0), UInt8.ofNat (c.toNat / 64 % 0x40 + 0x80),
          UInt8.ofNat (c.toNat % 0x40 + 0x80)]
      else
        [UInt8.ofNat (c.toNat / 262144 % 0x08 + 0xf0), UInt8.ofNat (c.toNat / 4096 % 0x40 + 0x80),
          UInt8.ofNat (c.toNat / 64 % 0x40 + 0x80), UInt8.ofNat (c.toNat % 0x40 + 0x80)] :=
  rfl

theorem coded_iff (text : Bytes) (codePoint length : Nat) :
    Coded text codePoint length ↔ ∃ (c : Char) (rest : Bytes),
      text = String.utf8EncodeChar c ++ rest ∧ codePoint = c.toNat ∧
        length = (String.utf8EncodeChar c).length := by
  constructor
  · intro h
    cases h with
    | one a rest ha =>
      obtain ⟨c, hc⟩ := exists_char (n := a.toNat) (Or.inl (by omega))
      have hbytes : String.utf8EncodeChar c = [a] := by
        rw [encode_eq, hc, if_pos ha]
        simp
      exact ⟨c, rest, by rw [hbytes]; rfl, hc.symm, by rw [hbytes]; rfl⟩
    | two a b rest ha hb hpoint =>
      unfold Tail at hb
      obtain ⟨c, hc⟩ := exists_char (n := codePoint) (Or.inl (by omega))
      have hbytes : String.utf8EncodeChar c = [a, b] := by
        rw [encode_eq, hc, if_neg (by omega), if_pos (by omega)]
        simp only [List.cons.injEq, ← UInt8.toNat_inj, UInt8.toNat_ofNat', and_true]
        omega
      exact ⟨c, rest, by rw [hbytes]; rfl, hc.symm, by rw [hbytes]; rfl⟩
    | three a b c rest ha hb hlow hhigh hc hpoint =>
      unfold Tail at hb hc
      obtain ⟨char, hchar⟩ := exists_char (n := codePoint) (by omega)
      have hbytes : String.utf8EncodeChar char = [a, b, c] := by
        rw [encode_eq, hchar, if_neg (by omega), if_neg (by omega), if_pos (by omega)]
        simp only [List.cons.injEq, ← UInt8.toNat_inj, UInt8.toNat_ofNat', and_true]
        omega
      exact ⟨char, rest, by rw [hbytes]; rfl, hchar.symm, by rw [hbytes]; rfl⟩
    | four a b c d rest ha hb hlow hhigh hc hd hpoint =>
      unfold Tail at hb hc hd
      obtain ⟨char, hchar⟩ := exists_char (n := codePoint) (by omega)
      have hbytes : String.utf8EncodeChar char = [a, b, c, d] := by
        rw [encode_eq, hchar, if_neg (by omega), if_neg (by omega), if_neg (by omega)]
        simp only [List.cons.injEq, ← UInt8.toNat_inj, UInt8.toNat_ofNat', and_true]
        omega
      exact ⟨char, rest, by rw [hbytes]; rfl, hchar.symm, by rw [hbytes]; rfl⟩
  · rintro ⟨c, rest, rfl, rfl, rfl⟩
    have hvalid : c.toNat < 0xd800 ∨ 0xdfff < c.toNat ∧ c.toNat < 0x110000 := c.valid
    rw [encode_eq]
    by_cases hone : c.toNat ≤ 0x7f
    · rw [if_pos hone]
      have hbyte : (UInt8.ofNat c.toNat).toNat = c.toNat := by
        rw [UInt8.toNat_ofNat']
        omega
      have hcoded := Coded.one (UInt8.ofNat c.toNat) rest (by omega)
      rw [hbyte] at hcoded
      exact hcoded
    · rw [if_neg hone]
      by_cases htwo : c.toNat ≤ 0x7ff
      · rw [if_pos htwo]
        apply Coded.two <;> simp only [Tail, UInt8.toNat_ofNat'] <;> omega
      · rw [if_neg htwo]
        by_cases hthree : c.toNat ≤ 0xffff
        · rw [if_pos hthree]
          apply Coded.three <;> simp only [Tail, UInt8.toNat_ofNat'] <;> omega
        · rw [if_neg hthree]
          apply Coded.four <;> simp only [Tail, UInt8.toNat_ofNat'] <;> omega

/-- `decode_utf8_code_point`, with its reads: `none` where one would be at or past the
end of the text. -/
def decodeAt (value : Bytes) (offset : Nat) : Option (Option (Nat × Nat)) := do
  let first ← value[offset]?
  if first ≤ 0x7f then some (some (first.toNat, 1))
  else if 0xc2 ≤ first ∧ first ≤ 0xdf then
    if value.length ≤ offset + 1 then some none
    else do
      let second ← value[offset + 1]?
      if !isContinuationByte second then some none
      else some (some (first.toNat % 32 * 64 + continuationBits second, 2))
  else if 0xe0 ≤ first ∧ first ≤ 0xef then
    if value.length ≤ offset + 2 then some none
    else do
      let second ← value[offset + 1]?
      let third ← value[offset + 2]?
      if !isSecondOfThree first second || !isContinuationByte third then some none
      else
        some (some (first.toNat % 16 * 4096 + continuationBits second * 64 +
          continuationBits third, 3))
  else if 0xf0 ≤ first ∧ first ≤ 0xf4 then
    if value.length ≤ offset + 3 then some none
    else do
      let second ← value[offset + 1]?
      let third ← value[offset + 2]?
      let fourth ← value[offset + 3]?
      if !isSecondOfFour first second || !isContinuationByte third ||
          !isContinuationByte fourth then some none
      else
        some (some (first.toNat % 8 * 262144 + continuationBits second * 4096 +
          continuationBits third * 64 + continuationBits fourth, 4))
  else some none

/-- The loop of the three validators, with the code points decoded so far: `none` where
a read would be past the end, or where the rounds do not suffice. -/
def scanLoop (value : Bytes) (admits : Nat → Bool) :
    Nat → Nat → List Nat → Option (TextStatus × List Nat)
  | 0, offset, decoded => if value.length ≤ offset then some (.valid, decoded) else none
  | rounds + 1, offset, decoded =>
    if value.length ≤ offset then some (.valid, decoded)
    else do
      match ← decodeAt value offset with
      | none => some (.invalidUtf8, decoded)
      | some (codePoint, length) =>
        if !admits codePoint then some (.refusedCodePoint, decoded)
        else scanLoop value admits rounds (offset + length) (decoded ++ [codePoint])

/-- No read is past the end. -/
theorem decodeAt_eq {offset : Nat} (h : offset < value.length) :
    decodeAt value offset = some (decodeUtf8CodePoint (value.drop offset)) := by
  have hread : ∀ index, value[offset + index]? = (value.drop offset)[index]? := by
    intro index
    rw [List.getElem?_drop]
  have hlength : value.length = offset + (value.drop offset).length := by
    rw [List.length_drop]
    omega
  have hfirst : value[offset]? = (value.drop offset)[0]? := hread 0
  unfold decodeAt
  rw [hread 1, hread 2, hread 3, hfirst, hlength]
  generalize value.drop offset = text at hlength
  match text with
  | [] =>
    simp only [List.length_nil] at hlength
    omega
  | [a] => simp [decodeUtf8CodePoint, apply_ite some]
  | [a, b] => simp [decodeUtf8CodePoint, apply_ite some]
  | [a, b, c] => simp [decodeUtf8CodePoint, apply_ite some]
  | a :: b :: c :: d :: rest =>
    have hlong : ¬ rest.length + 1 + 1 + 1 < 3 := by omega
    simp [decodeUtf8CodePoint, apply_ite some, hlong]

/-- The text is the encoding of the scalar values. -/
def Encodes (value : Bytes) (chars : List Char) : Prop :=
  value = chars.flatMap String.utf8EncodeChar

/-- The head of an encoding is decoded. -/
theorem decode_encoding {c : Char} {chars : List Char} (h : Encodes value (c :: chars)) :
    decodeUtf8CodePoint value = some (c.toNat, (String.utf8EncodeChar c).length) := by
  rw [decodeUtf8CodePoint_eq_some_iff, coded_iff]
  exact ⟨c, _, h, rfl, rfl⟩

/-- The code point at the head of an encoding is the only one. -/
theorem encodes_head {c : Char} {rest : Bytes} (h : value = String.utf8EncodeChar c ++ rest)
    {chars : List Char} (hchars : Encodes value chars) :
    ∃ tail, chars = c :: tail ∧ Encodes rest tail := by
  have hdecoded : decodeUtf8CodePoint value = some (c.toNat, (String.utf8EncodeChar c).length) := by
    rw [decodeUtf8CodePoint_eq_some_iff, coded_iff]
    exact ⟨c, rest, h, rfl, rfl⟩
  cases chars with
  | nil =>
    rw [hchars] at hdecoded
    cases hdecoded
  | cons first tail =>
    have hsame := Option.some.inj ((decode_encoding hchars).symm.trans hdecoded)
    obtain rfl : first = c := Char.toNat_inj.mp (congrArg Prod.fst hsame)
    exact ⟨tail, rfl, List.append_cancel_left (h.symm.trans hchars)⟩

theorem scanCodePoints_succ (admits : Nat → Bool) (rounds : Nat) {text : Bytes} (h : text ≠ []) :
    scanCodePoints admits (rounds + 1) text =
      match decodeUtf8CodePoint text with
      | none => .invalidUtf8
      | some (codePoint, length) =>
        if !admits codePoint then .refusedCodePoint
        else scanCodePoints admits rounds (text.drop length) := by
  cases text with
  | nil => exact absurd rfl h
  | cons b rest => rfl

theorem encode_length_pos (c : Char) : 0 < (String.utf8EncodeChar c).length := by
  rw [encode_eq]
  repeat' split
  all_goals exact Nat.succ_pos _

/-- What a scan by the admitted code points comes to: the status, and the sequence decoded
on the way. -/
structure Scanned (admits : Nat → Bool) (text : Bytes) (status : TextStatus) (chars : List Char) :
    Prop where
  sound : status = .valid → Encodes text chars ∧ ∀ c ∈ chars, admits c.toNat = true
  complete : ∀ others, Encodes text others → (∀ c ∈ others, admits c.toNat = true) →
    status = .valid ∧ others = chars

section

variable {admits : Nat → Bool} {text rest : Bytes} {c : Char} {status : TextStatus}
  {chars : List Char}

theorem Scanned.nil : Scanned admits [] .valid [] where
  sound _ := ⟨rfl, List.forall_mem_nil _⟩
  complete others hothers _ := by
    refine ⟨rfl, ?_⟩
    cases others with
    | nil => rfl
    | cons c tail => cases decode_encoding hothers

theorem Scanned.malformed (hne : text ≠ []) (h : decodeUtf8CodePoint text = none) :
    Scanned admits text .invalidUtf8 [] where
  sound hvalid := by cases hvalid
  complete others hothers _ := by
    cases others with
    | nil => exact absurd hothers hne
    | cons c tail => cases h.symm.trans (decode_encoding hothers)

theorem Scanned.refused (h : text = String.utf8EncodeChar c ++ rest)
    (hadmits : admits c.toNat = false) : Scanned admits text .refusedCodePoint [] where
  sound hvalid := by cases hvalid
  complete others hothers hall := by
    obtain ⟨tail, rfl, -⟩ := encodes_head h hothers
    cases hadmits.symm.trans (hall c List.mem_cons_self)

theorem Scanned.cons (h : text = String.utf8EncodeChar c ++ rest) (hadmits : admits c.toNat = true)
    (hrest : Scanned admits rest status chars) : Scanned admits text status (c :: chars) where
  sound hvalid := by
    obtain ⟨hencodes, hall⟩ := hrest.sound hvalid
    refine ⟨?_, List.forall_mem_cons.mpr ⟨hadmits, hall⟩⟩
    unfold Encodes at hencodes ⊢
    rw [h, List.flatMap_cons, ← hencodes]
  complete others hothers hall := by
    obtain ⟨tail, rfl, htail⟩ := encodes_head h hothers
    obtain ⟨hvalid, rfl⟩ := hrest.complete tail htail (List.forall_mem_cons.mp hall).2
    exact ⟨hvalid, rfl⟩

end

/-- The scan from an offset on, with a round for each byte left: no read is past the end,
and the status is the one of the text left. -/
theorem scanLoop_spec (value : Bytes) (admits : Nat → Bool) :
    ∀ (rounds offset : Nat) (decoded : List Nat), value.length - offset ≤ rounds →
      ∃ chars : List Char, scanLoop value admits rounds offset decoded =
          some (scanCodePoints admits rounds (value.drop offset), decoded ++ chars.map Char.toNat) ∧
        Scanned admits (value.drop offset)
          (scanCodePoints admits rounds (value.drop offset)) chars := by
  intro rounds
  induction rounds with
  | zero =>
    intro offset decoded hrounds
    have hend : value.length ≤ offset := by omega
    rw [List.drop_eq_nil_of_le hend]
    refine ⟨[], ?_, .nil⟩
    rw [List.map_nil, List.append_nil]
    exact if_pos hend
  | succ rounds ih =>
    intro offset decoded hrounds
    by_cases hend : value.length ≤ offset
    · rw [List.drop_eq_nil_of_le hend]
      refine ⟨[], ?_, .nil⟩
      rw [List.map_nil, List.append_nil]
      exact if_pos hend
    · have hne : value.drop offset ≠ [] := by
        rw [Ne, List.drop_eq_nil_iff]
        exact hend
      rw [scanCodePoints_succ admits rounds hne, scanLoop, if_neg hend,
        decodeAt_eq (Nat.lt_of_not_le hend)]
      cases hdecode : decodeUtf8CodePoint (value.drop offset) with
      | none => exact ⟨[], by rw [List.map_nil, List.append_nil]; rfl, .malformed hne hdecode⟩
      | some head =>
        obtain ⟨codePoint, length⟩ := head
        obtain ⟨c, rest, htext, rfl, rfl⟩ :=
          (coded_iff _ _ _).mp ((decodeUtf8CodePoint_eq_some_iff _ _ _).mp hdecode)
        have hpositive := encode_length_pos c
        have hdrop : (value.drop offset).drop (String.utf8EncodeChar c).length = rest := by
          rw [htext, List.drop_left]
        dsimp only [Option.bind_eq_bind, Option.bind_some]
        cases hadmits : admits c.toNat with
        | false =>
          exact ⟨[], by rw [List.map_nil, List.append_nil]; rfl, .refused htext hadmits⟩
        | true =>
          obtain ⟨chars, hloop, hscanned⟩ :=
            ih (offset + (String.utf8EncodeChar c).length) (decoded ++ [c.toNat]) (by omega)
          rw [← List.drop_drop, hdrop] at hloop hscanned
          refine ⟨c :: chars, ?_, ?_⟩
          · rw [hdrop]
            refine hloop.trans ?_
            rw [List.append_assoc]
            rfl
          · rw [hdrop]
            exact .cons htext hadmits hscanned

end Moguet.Verified.Utf8
