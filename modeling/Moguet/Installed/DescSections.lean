import Moguet.Installed.RecordRoundTrip

/-!
# Sections of a desc file

The record of an installed package is a text of sections: a key, its values and an
empty line. Where a line stands decides what it is, so a value may look like a key.
The reader takes every such text, with empty lines around the sections, and no
other.
-/

namespace Moguet.Installed.DescSections

open Verified.ByteString Verified.Fields Plan.Constraint Install.PreparedRoundTrip Record
open Observation RecordRoundTrip

variable {key value : Bytes} {result : DescState} {issue : Issue}

structure DescEntry where
  key : Bytes
  values : List Bytes

/-- A section as it is printed, line by line. -/
def DescEntry.lines (own : DescEntry) : List Bytes := own.key :: own.values ++ [[]]

/-- A key is `%...%`, and no value is empty. -/
structure DescEntry.Formed (own : DescEntry) : Prop where
  length : 3 ≤ own.key.length
  head : own.key.head? = some (byte '%')
  last : own.key.getLast? = some (byte '%')
  values : [] ∉ own.values

/-- Sections that can be printed. -/
structure SectionList where
  entries : List DescEntry
  distinct : (entries.map (·.key)).Nodup
  formed : ∀ own ∈ entries, own.Formed
  clean : ∀ own ∈ entries, ∀ line ∈ own.lines, CleanLine line

def SectionList.print (sections : SectionList) : Bytes :=
  terminated (byte '\n') (sections.entries.flatMap DescEntry.lines)

/-- The lines of the sections, with empty lines before and after them. -/
inductive Spaced : List DescEntry → List Bytes → Prop
  | done : Spaced [] []
  | blank {entries : List DescEntry} {lines : List Bytes} (h : Spaced entries lines) :
      Spaced entries ([] :: lines)
  | entry (own : DescEntry) {entries : List DescEntry} {lines : List Bytes}
      (h : Spaced entries lines) : Spaced (own :: entries) (own.lines ++ lines)

/-- The four keys with their values. -/
def coreValues (core : PackageCore) : List (Bytes × Bytes) :=
  [(ascii "%NAME%", core.packageName), (ascii "%BASE%", core.packageBase),
    (ascii "%VERSION%", core.fullVersion), (ascii "%ARCH%", core.architecture)]

/-- Every value of the section has an equals sign where its key asks for one. -/
def DescEntry.Extended (own : DescEntry) : Prop :=
  own.key = ascii "%XDATA%" → ∀ value ∈ own.values, byte '=' ∈ value

/-- The sections give the core: each of the four keys has its value and no other one. -/
structure Provides (entries : List DescEntry) (core : PackageCore) : Prop where
  values : ∀ item ∈ coreValues core, ⟨item.1, [item.2]⟩ ∈ entries ∧ fieldValid item.2 = true
  names : isValidPackageName core.packageName = true ∧ isValidPackageName core.packageBase = true
  extended : ∀ own ∈ entries, own.Extended

variable {own : DescEntry} {entries : List DescEntry} {lines : List Bytes} {state : DescState}
  {core : PackageCore} {raw : Bytes}

/-- A section that is not refused. -/
structure Good (own : DescEntry) : Prop where
  single : isCoreKey own.key = true → ∃ value, own.values = [value] ∧ fieldValid value = true
  extended : own.Extended

/-- The state after a section. -/
def afterSection (state : DescState) (own : DescEntry) : DescState where
  seen := state.seen ++ [own.key]
  core := state.core.set own.key (own.values.getLast?.getD [])

theorem set_eq_self (h : isCoreKey key = false) (core : PackageCore) (value : Bytes) :
    core.set key value = core := by
  simp only [isCoreKey, Bool.or_eq_false_iff, decide_eq_false_iff_not] at h
  obtain ⟨⟨⟨hname, hbase⟩, hversion⟩, harchitecture⟩ := h
  rw [PackageCore.set, if_neg hname, if_neg hbase, if_neg hversion, if_neg harchitecture]

/-- The values of a section, up to the empty line. -/
theorem readDesc_values {values : List Bytes} (rest : List Bytes) :
    ∀ own : DescSection, [] ∉ values → readDesc (some own) state (values ++ rest) =
        if own.key = ascii "%XDATA%" ∧ ∃ value ∈ values, byte '=' ∉ value then
          .error .malformedMetadata
        else
          readDesc (some ⟨own.key, values.getLast?.getD own.value, own.values + values.length⟩)
            state rest := by
  induction values with
  | nil =>
    intro own _
    exact (if_neg fun h => h.2.elim fun _ h => List.not_mem_nil h.1).symm
  | cons value values ih =>
    intro own hne
    obtain ⟨hvalue, hvalues⟩ := not_or.mp (List.mem_cons.not.mp hne)
    have hlast : (value :: values).getLast?.getD own.value = values.getLast?.getD value := by
      cases values <;> rfl
    rw [List.cons_append, readDesc, if_neg (Ne.symm hvalue), ih _ hvalues, hlast,
      List.length_cons, Nat.add_comm values.length, ← Nat.add_assoc]
    by_cases hkey : own.key = ascii "%XDATA%"
    · by_cases hfirst : byte '=' ∈ value <;> simp [hkey, hfirst]
    · simp [hkey]

/-- A section is read as a whole. -/
theorem readDesc_section (rest : List Bytes) (hformed : own.Formed)
    (hfresh : own.key ∉ state.seen) :
    (Good own → readDesc none state (own.lines ++ rest) =
        readDesc none (afterSection state own) rest) ∧
      (¬ Good own → readDesc none state (own.lines ++ rest) = .error .malformedMetadata) := by
  obtain ⟨hlength, hhead, hlast, hvalues⟩ := hformed
  have hlines : own.lines ++ rest = own.key :: (own.values ++ [] :: rest) := by
    simp [DescEntry.lines]
  have hnonempty : own.key ≠ [] := List.ne_nil_of_length_pos (by omega)
  rw [hlines, readDesc, if_neg hnonempty, if_neg (by simp [hhead, hlast, hfresh]; omega),
    readDesc_values _ _ hvalues]
  by_cases hextended : own.Extended
  · rw [if_neg fun h => h.2.elim fun value hvalue => hvalue.2 (hextended h.1 value hvalue.1),
      readDesc, if_pos rfl]
    dsimp only [afterSection]
    cases hcore : isCoreKey own.key with
    | false =>
      rw [set_eq_self hcore]
      refine ⟨fun _ => rfl, fun h => absurd ⟨fun hkey => ?_, hextended⟩ h⟩
      cases hcore.symm.trans hkey
    | true =>
      rw [if_pos rfl, Nat.zero_add]
      by_cases hsingle : ∃ value, own.values = [value] ∧ fieldValid value = true
      · obtain ⟨value, hvalue, hvalid⟩ := hsingle
        rw [hvalue, if_neg (by simp [hvalid])]
        exact ⟨fun _ => rfl, fun h => absurd ⟨fun _ => ⟨value, hvalue, hvalid⟩, hextended⟩ h⟩
      · refine ⟨fun h => absurd (h.single hcore) hsingle, fun _ => if_pos ?_⟩
        match hvalues : own.values with
        | [value] => exact .inr (Bool.eq_false_iff.mpr fun hvalid => hsingle ⟨_, hvalues, hvalid⟩)
        | [] => exact .inl (by simp)
        | _ :: _ :: _ => exact .inl (by simp)
  · rw [if_pos (by simpa [DescEntry.Extended] using hextended)]
    exact ⟨fun h => absurd h.extended hextended, fun _ => rfl⟩

/-- Sections are read where none is refused. -/
theorem readDesc_spaced (h : Spaced entries lines) :
    ∀ {state : DescState}, (state.seen ++ entries.map (·.key)).Nodup →
      (∀ own ∈ entries, own.Formed) →
      (readDesc none state lines = .ok result ↔
        (∀ own ∈ entries, Good own) ∧ entries.foldl afterSection state = result) := by
  induction h with
  | done =>
    intro state _ _
    exact ⟨fun h => ⟨List.forall_mem_nil _, Except.ok.inj h⟩, fun h => congrArg Except.ok h.2⟩
  | blank _ ih =>
    intro state hdistinct hformed
    rw [readDesc, if_pos rfl, ih hdistinct hformed]
  | entry own _ ih =>
    intro state hdistinct hformed
    obtain ⟨hown, hformed⟩ := List.forall_mem_cons.mp hformed
    have hfresh : own.key ∉ state.seen := fun hmem =>
      (List.nodup_append.mp hdistinct).2.2 _ hmem _ List.mem_cons_self rfl
    obtain ⟨hgood, hbad⟩ := readDesc_section _ hown hfresh
    rw [List.forall_mem_cons, List.foldl_cons]
    by_cases hread : Good own
    · rw [hgood hread, ih (by rwa [afterSection, List.append_assoc]) hformed, and_iff_right hread]
    · rw [hbad hread]
      exact ⟨nofun, fun h => absurd h.1.1 hread⟩

/-- A section that is read ends with an empty line. -/
theorem values_of_readDesc : ∀ {own : DescSection}, readDesc (some own) state lines = .ok result →
      ∃ values rest, lines = values ++ [] :: rest ∧ [] ∉ values := by
  induction lines with
  | nil => exact nofun
  | cons line lines ih =>
    intro own h
    by_cases hline : line = []
    · exact ⟨[], lines, by rw [hline]; rfl, List.not_mem_nil⟩
    · rw [readDesc, if_neg hline] at h
      split at h
      · cases h
      · obtain ⟨values, rest, hlines, hvalues⟩ := ih h
        exact ⟨line :: values, rest, by rw [hlines]; rfl,
          List.not_mem_cons_of_ne_of_not_mem (Ne.symm hline) hvalues⟩

/-- What is read is made of sections. -/
theorem spaced_of_readDesc (hseen : state.seen.Nodup) (h : readDesc none state lines = .ok result) :
    ∃ entries, Spaced entries lines ∧ (state.seen ++ entries.map (·.key)).Nodup ∧
      ∀ own ∈ entries, own.Formed := by
  induction hlength : lines.length using Nat.strong_induction_on generalizing lines state
  rename_i ih
  subst hlength
  cases lines with
  | nil => exact ⟨[], .done, by rwa [List.map_nil, List.append_nil], List.forall_mem_nil _⟩
  | cons line lines =>
    by_cases hline : line = []
    · rw [readDesc, if_pos hline] at h
      obtain ⟨entries, hspaced, hentries⟩ := ih _ (Nat.lt_succ_self _) hseen h rfl
      exact ⟨entries, hline ▸ .blank hspaced, hentries⟩
    · have hall := h
      rw [readDesc, if_neg hline] at h
      split at h
      · cases h
      · rename_i hkey
        simp only [not_or, not_not, Nat.not_lt] at hkey
        obtain ⟨hlength, hhead, hlast, hfresh⟩ := hkey
        obtain ⟨values, rest, rfl, hvalues⟩ := values_of_readDesc h
        have hformed : DescEntry.Formed ⟨line, values⟩ := ⟨hlength, hhead, hlast, hvalues⟩
        obtain ⟨hgood, hbad⟩ := readDesc_section rest hformed hfresh
        have hlines : line :: (values ++ [] :: rest) = DescEntry.lines ⟨line, values⟩ ++ rest := by
          simp [DescEntry.lines]
        rw [hlines] at hall
        by_cases hown : Good ⟨line, values⟩
        · rw [hgood hown] at hall
          have hnext : (afterSection state ⟨line, values⟩).seen.Nodup :=
            List.nodup_append.mpr ⟨hseen, List.nodup_singleton _, by grind⟩
          have hshorter : rest.length < (line :: (values ++ [] :: rest)).length := by
            simp
            omega
          obtain ⟨entries, hspaced, hdistinct, hentries⟩ := ih _ hshorter hnext hall rfl
          rw [afterSection, List.append_assoc] at hdistinct
          exact ⟨⟨line, values⟩ :: entries, hlines ▸ .entry _ hspaced, hdistinct,
            List.forall_mem_cons.mpr ⟨hformed, hentries⟩⟩
        · rw [hbad hown] at hall
          cases hall

/-- What `desc_core` requires in the end. -/
def Complete (core : PackageCore) : Prop :=
  (∀ item ∈ coreValues core, item.2 ≠ []) ∧ isValidPackageName core.packageName = true ∧
    isValidPackageName core.packageBase = true

theorem isCoreKey_iff (core : PackageCore) (key : Bytes) :
    isCoreKey key = true ↔ ∃ value, (key, value) ∈ coreValues core := by
  simp [isCoreKey, coreValues, or_assoc, exists_or]

theorem mem_coreValues_set {own found : Bytes} (h : (key, found) ∈ coreValues (core.set own value))
    : own = key ∧ found = value ∨ own ≠ key ∧ (key, found) ∈ coreValues core := by
  have hkeys : [ascii "%NAME%", ascii "%BASE%", ascii "%VERSION%", ascii "%ARCH%"].Nodup := by
    decide
  simp only [List.nodup_cons, List.mem_cons, List.not_mem_nil, or_false, not_or] at hkeys
  simp only [coreValues, List.mem_cons, Prod.mk.injEq, List.not_mem_nil, or_false] at h ⊢
  unfold PackageCore.set at h
  generalize ascii "%NAME%" = name, ascii "%BASE%" = base, ascii "%VERSION%" = version,
    ascii "%ARCH%" = architecture at h hkeys ⊢
  rcases h with h | h | h | h <;> grind

/-- A core value is the one of a section with its key, or of the start. -/
theorem mem_coreValues_foldl :
    ∀ {state : DescState}, (key, value) ∈ coreValues (entries.foldl afterSection state).core →
      (∃ own ∈ entries, own.key = key ∧ value = own.values.getLast?.getD []) ∨
        (∀ own ∈ entries, own.key ≠ key) ∧ (key, value) ∈ coreValues state.core := by
  induction entries with
  | nil => exact fun h => .inr ⟨List.forall_mem_nil _, h⟩
  | cons own entries ih =>
    intro state h
    rcases ih h with ⟨other, hother, hvalue⟩ | ⟨hothers, h⟩
    · exact .inl ⟨other, List.mem_cons_of_mem _ hother, hvalue⟩
    · rcases mem_coreValues_set h with ⟨hkey, hvalue⟩ | ⟨hkey, h⟩
      · exact .inl ⟨own, List.mem_cons_self, hkey, hvalue⟩
      · exact .inr ⟨List.forall_mem_cons.mpr ⟨hkey, hothers⟩, h⟩

theorem provides_iff (hdistinct : (entries.map (·.key)).Nodup)
    (hformed : ∀ own ∈ entries, own.Formed) :
    Provides entries core ↔
      (∀ own ∈ entries, Good own) ∧ (entries.foldl afterSection {}).core = core ∧
        Complete core := by
  have hinj := List.inj_on_of_nodup_map hdistinct
  constructor
  · intro hprovides
    have hsame : ∀ {key value found : Bytes}, (key, value) ∈ coreValues core →
        (key, found) ∈ coreValues (entries.foldl afterSection {}).core → found = value := by
      intro key value found hvalue hfound
      have hmem := (hprovides.values _ hvalue).1
      rcases mem_coreValues_foldl hfound with ⟨own, hown, hkey, hlast⟩ | ⟨hnone, -⟩
      · rw [hlast, hinj hown hmem hkey]
        rfl
      · exact absurd rfl (hnone _ hmem)
    refine ⟨fun own hown => ⟨fun hkey => ?_, hprovides.extended own hown⟩, ?_, ?_, hprovides.names⟩
    · obtain ⟨value, hvalue⟩ := (isCoreKey_iff core own.key).mp hkey
      obtain ⟨hmem, hvalid⟩ := hprovides.values _ hvalue
      exact ⟨value, congrArg DescEntry.values (hinj hown hmem rfl), hvalid⟩
    · have hname := hsame (.head _) (.head _)
      have hbase := hsame (.tail _ (.head _)) (.tail _ (.head _))
      have hversion := hsame (.tail _ (.tail _ (.head _))) (.tail _ (.tail _ (.head _)))
      have harchitecture := hsame (.tail _ (.tail _ (.tail _ (.head _))))
        (.tail _ (.tail _ (.tail _ (.head _))))
      generalize (entries.foldl afterSection {}).core = read at *
      cases read
      cases core
      exact PackageCore.mk.injEq .. ▸ ⟨hname, hbase, hversion, harchitecture⟩
    · intro item hitem hnil
      refine (hformed _ (hprovides.values item hitem).1).values ?_
      rw [hnil]
      exact List.mem_cons_self
  · rintro ⟨hgood, rfl, hvalues, hnames⟩
    refine ⟨?_, hnames, fun own hown => (hgood own hown).extended⟩
    rintro ⟨key, value⟩ hitem
    rcases mem_coreValues_foldl hitem with ⟨own, hown, rfl, rfl⟩ | ⟨-, hstart⟩
    · obtain ⟨value, hvalue, hvalid⟩ :=
        (hgood own hown).single ((isCoreKey_iff _ _).mpr ⟨_, hitem⟩)
      obtain ⟨key, values⟩ := own
      obtain rfl : values = [value] := hvalue
      exact ⟨hown, hvalid⟩
    · refine absurd ?_ (hvalues _ hitem)
      simp only [coreValues, List.mem_cons, Prod.mk.injEq, List.not_mem_nil, or_false] at hstart
      tauto

theorem splitOn_terminated (h : ∀ line ∈ lines, CleanLine line) :
    (terminated (byte '\n') lines).splitOn (byte '\n') = lines ++ [[]] := by
  induction lines with
  | nil => rfl
  | cons line lines ih =>
    obtain ⟨hline, hlines⟩ := List.forall_mem_cons.mp h
    rw [terminated_cons, List.splitOn_append_cons_self_of_not_mem hline.1, ih hlines]
    rfl

theorem exists_terminated {text : Bytes} (h : text.getLast? = some (byte '\n')) :
    ∃ lines, text = terminated (byte '\n') lines ∧ ∀ line ∈ lines, byte '\n' ∉ line := by
  induction text with
  | nil => cases h
  | cons b text ih =>
    by_cases htext : text = []
    · rw [htext] at h ⊢
      exact ⟨[[]], congrArg ([·]) (Option.some.inj h), by simp⟩
    · rw [List.getLast?_cons_of_ne_nil htext] at h
      obtain ⟨lines, hlines, hclean⟩ := ih h
      by_cases hb : b = byte '\n'
      · exact ⟨[] :: lines, by rw [hlines, hb]; rfl,
          List.forall_mem_cons.mpr ⟨List.not_mem_nil, hclean⟩⟩
      · cases lines with
        | nil => exact absurd hlines htext
        | cons line lines =>
          obtain ⟨hline, hclean⟩ := List.forall_mem_cons.mp hclean
          exact ⟨(b :: line) :: lines, by rw [hlines]; rfl, List.forall_mem_cons.mpr
            ⟨List.not_mem_cons_of_ne_of_not_mem (Ne.symm hb) hline, hclean⟩⟩

/-- A text that is accepted is one of clean lines. -/
theorem lines_of_descCore (h : descCore raw = .ok core) :
    ∃ lines, raw = terminated (byte '\n') lines ∧ ∀ line ∈ lines, CleanLine line := by
  unfold descCore at h
  split at h
  · cases h
  · rename_i htext
    simp only [not_or, not_not] at htext
    obtain ⟨lines, rfl, hclean⟩ := exists_terminated htext.2.1
    refine ⟨lines, rfl, fun line hline => ⟨hclean line hline, fun hzero => htext.2.2 ?_⟩⟩
    exact List.mem_flatMap.mpr ⟨line, hline, List.mem_append_left _ hzero⟩

/-- What `desc_core` makes of clean lines. -/
theorem descCore_eq_ok_iff (h : ∀ line ∈ lines, CleanLine line) :
    descCore (terminated (byte '\n') lines) = .ok core ↔
      ∃ state, readDesc none {} lines = .ok state ∧ state.core = core ∧ Complete core := by
  have hzero : 0 ∉ terminated (byte '\n') lines :=
    not_mem_terminated (by decide) fun line hline => (h line hline).2
  unfold descCore
  by_cases hne : lines = []
  · rw [hne]
    refine ⟨nofun, ?_⟩
    rintro ⟨state, hstate, rfl, hcomplete⟩
    cases hstate
    exact absurd rfl (hcomplete.1 _ List.mem_cons_self)
  · have hlast : (terminated (byte '\n') lines).getLast? = some (byte '\n') :=
      getLast?_terminated hne
    have hnonempty : terminated (byte '\n') lines ≠ [] := by
      intro hnil
      rw [hnil] at hlast
      cases hlast
    rw [if_neg (by simp [hnonempty, hlast, hzero]), splitOn_terminated h, List.dropLast_concat]
    cases readDesc none {} lines with
    | error issue => exact ⟨nofun, nofun⟩
    | ok state =>
      simp [Complete, coreValues]
      grind

theorem readDesc_malformed {mode : Option DescSection} :
    readDesc mode state lines = .error issue → issue = .malformedMetadata := by
  fun_induction readDesc mode state lines <;> grind

theorem descCore_malformed (h : descCore raw = .error issue) : issue = .malformedMetadata := by
  unfold descCore at h
  split at h
  · cases h
    rfl
  · split at h
    · rename_i hread
      cases h
      exact readDesc_malformed hread
    · dsimp only at h
      split at h
      · cases h
        rfl
      · cases h

theorem Spaced.clean (h : Spaced entries lines) (hclean : ∀ line ∈ lines, CleanLine line) :
    ∀ own ∈ entries, ∀ line ∈ own.lines, CleanLine line := by
  induction h with
  | done => exact List.forall_mem_nil _
  | blank _ ih => exact ih (List.forall_mem_cons.mp hclean).2
  | entry own _ ih =>
    rw [List.forall_mem_append] at hclean
    exact List.forall_mem_cons.mpr ⟨hclean.1, ih hclean.2⟩

theorem spaced_print (entries : List DescEntry) :
    Spaced entries (entries.flatMap DescEntry.lines) := by
  induction entries with
  | nil => exact .done
  | cons own entries ih => exact .entry own ih

theorem descCore_spaced (sections : SectionList) (h : Spaced sections.entries lines)
    (hclean : ∀ line ∈ lines, CleanLine line) (core : PackageCore) :
    descCore (terminated (byte '\n') lines) = .ok core ↔ Provides sections.entries core := by
  rw [descCore_eq_ok_iff hclean, provides_iff sections.distinct sections.formed]
  have hread : ∀ result, readDesc none {} lines = .ok result ↔ _ := fun result =>
    readDesc_spaced h sections.distinct sections.formed
  grind

theorem descCore_sections (sections : SectionList) (raw : Bytes) (core : PackageCore) :
    (descCore sections.print = .ok core ↔ Provides sections.entries core) ∧
      ((∀ other, ¬ Provides sections.entries other) →
        descCore sections.print = .error .malformedMetadata) ∧
      (descCore raw = .ok core → ∃ (read : SectionList) (lines : List Bytes),
        Spaced read.entries lines ∧ raw = terminated (byte '\n') lines ∧
          Provides read.entries core) := by
  have hspaced := spaced_print sections.entries
  have hclean : ∀ line ∈ sections.entries.flatMap DescEntry.lines, CleanLine line := by
    intro line hline
    obtain ⟨own, hown, hline⟩ := List.mem_flatMap.mp hline
    exact sections.clean own hown line hline
  refine ⟨descCore_spaced sections hspaced hclean core, fun hnone => ?_, fun haccepted => ?_⟩
  · cases hread : descCore sections.print with
    | ok read => exact absurd ((descCore_spaced sections hspaced hclean read).mp hread) (hnone read)
    | error issue => rw [descCore_malformed hread]
  · obtain ⟨lines, rfl, hclean⟩ := lines_of_descCore haccepted
    obtain ⟨state, hstate, -⟩ := (descCore_eq_ok_iff hclean).mp haccepted
    obtain ⟨entries, hspaced, hdistinct, hformed⟩ := spaced_of_readDesc List.nodup_nil hstate
    let read : SectionList := ⟨entries, hdistinct, hformed, hspaced.clean hclean⟩
    exact ⟨read, lines, hspaced, rfl, (descCore_spaced read hspaced hclean core).mp haccepted⟩

end Moguet.Installed.DescSections
