import Moguet.Submodule.Declarations

/-!
# The text of submodule declarations

What a `.gitmodules` text has to be for its reader to accept it: sections, each a
header with a literal name and the lines that assign its path, its URL and, if at
all, the update policy `checkout`. The reader finds the name of a header between two
texts that may overlap: on the line `[submodule "]` the count of the name wraps.
-/

namespace Moguet.Submodule.DeclaredText

open Verified.ByteString Verified.Checked Declarations

variable {line path name key value : Bytes} {lines : List Bytes} {entry : Declaration}
  {state after : DeclarationState} {declared : List Declaration}

/-! ## Sections of a text -/

def headerLine (name : Bytes) : Bytes := headerStart ++ name ++ headerEnd

/-- A name that is read as it is written. -/
structure LiteralName (name : Bytes) : Prop where
  nonempty : name ≠ []
  safe : isSafePath name = true
  noQuote : byte '"' ∉ name
  noBackslash : byte '\\' ∉ name

/-- The keys of a section, with the values they may have. -/
def Permitted (library : UrlLibrary) (assignment : Bytes × Bytes) : Prop :=
  assignment.1 = ascii "path" ∨
    (assignment.1 = ascii "url" ∧
      ∃ locator, canonicalizeHttpsGitRemote library assignment.2 = some locator) ∨
    assignment = (ascii "update", ascii "checkout")

/-- The lines under a header. -/
structure BodyAssigns (library : UrlLibrary) (body : List Bytes)
    (assignments : List (Bytes × Bytes)) : Prop where
  plain : ∀ line ∈ body, isHeader line = false
  assigns : Assigns body assignments
  permitted : ∀ assignment ∈ assignments, Permitted library assignment

/-- A section that declares an entry. -/
structure IsSection (library : UrlLibrary) (block : List Bytes) (entry : Declaration) : Prop where
  name : LiteralName entry.name
  path_safe : isSafePath entry.path = true
  lines : ∃ body assignments url, block = headerLine entry.name :: body ∧
    BodyAssigns library body assignments ∧ (ascii "path", entry.path) ∈ assignments ∧
    (ascii "url", url) ∈ assignments ∧
    canonicalizeHttpsGitRemote library url = some entry.locator

/-- A sequence of sections, with distinct names and distinct paths. -/
structure AreSections (library : UrlLibrary) (lines : List Bytes)
    (declared : List Declaration) : Prop where
  sections : ∃ blocks : List (List Bytes), blocks.flatten = lines ∧
    List.Forall₂ (IsSection library) blocks declared
  names : (declared.map Declaration.name).Nodup
  paths : (declared.map Declaration.path).Nodup

/-- A path that names a directory above another. -/
def IsAbove (above path : Bytes) : Prop := ∃ rest, path = above ++ byte '/' :: rest

/-! ## The count of a name -/

/-- The count `line.size() - PREFIX.size() - 2` is below zero. -/
def nameCountWraps (line : Bytes) : Bool :=
  headerStart.isPrefixOf line && headerEnd.isSuffixOf line &&
    line.length < headerStart.length + headerEnd.length

/-- The line whose two quotes are one byte. -/
def overlappedHeader : Bytes := ascii "[submodule \"]"

/-- The body of the loop once the line is trimmed. -/
def readSignificant (library : UrlLibrary) (state : DeclarationState) (line : Bytes) :
    Declared DeclarationState :=
  if isHeader line then do
    let state ← finish state
    let name ← readHeaderName line
    openSection state name
  else readKey library state line

/-- The reader arrives at a header whose count wraps. -/
def CountWraps (library : UrlLibrary) (bytes : Bytes) : Prop :=
  ∃ front line back state finished,
    significantLines (bytes.splitOn (byte '\n')) = front ++ line :: back ∧
      front.foldlM (readSignificant library) DeclarationState.initial = .ok state ∧
      finish state = .ok finished ∧ nameCountWraps line = true

/-- A text is read as what it says: what is accepted is a sequence of sections whose
paths do not lie above each other, and no count wraps on the way. -/
structure ReadsProperly (library : UrlLibrary) (bytes : Bytes) : Prop where
  sections : ∀ declared, declarations library bytes = .ok declared →
    AreSections library (significantLines (bytes.splitOn (byte '\n'))) declared
  apart : ∀ declared, declarations library bytes = .ok declared →
    ∀ entry ∈ declared, ∀ other ∈ declared, ¬ IsAbove entry.path other.path
  counts : ¬ CountWraps library bytes

theorem overlappedHeader_of_wraps (h : nameCountWraps line = true) : line = overlappedHeader := by
  unfold nameCountWraps at h
  simp only [Bool.and_eq_true, decide_eq_true_eq, List.isPrefixOf_iff_prefix,
    List.isSuffixOf_iff_suffix] at h
  obtain ⟨⟨⟨after, hafter⟩, ⟨before, hbefore⟩⟩, hlength⟩ := h
  have hstart : headerStart.length = 12 := by decide
  have hend : headerEnd.length = 2 := by decide
  have hsize : line.length = 12 + after.length := by
    rw [← hafter, List.length_append, hstart]
  have hsize' : line.length = before.length + 2 := by
    rw [← hbefore, List.length_append, hend]
  have hlast : (line)[11]? = some (byte '"') := by
    rw [← hafter]
    rfl
  by_cases hnone : after = []
  · -- the last byte of the first text is not that of the second
    rw [hnone, List.append_nil] at hafter
    have hbracket : (line)[11]? = some (byte ']') := by
      rw [← hbefore, List.getElem?_append_right (by simp [hnone] at hsize; omega)]
      have hindex : 11 - before.length = 1 := by
        simp [hnone] at hsize
        omega
      rw [hindex]
      rfl
    rw [hbracket] at hlast
    exact absurd (Option.some.inj hlast) (by decide)
  · have hone : after.length = 1 := by
      have hpos := List.length_pos_of_ne_nil hnone
      omega
    obtain ⟨b, hb⟩ := List.length_eq_one_iff.mp hone
    have hbracket : (line)[12]? = some (byte ']') := by
      rw [← hbefore, List.getElem?_append_right (by omega)]
      have hindex : 12 - before.length = 1 := by omega
      rw [hindex]
      rfl
    have hsame : (line)[12]? = some b := by
      rw [← hafter, hb]
      rfl
    rw [hsame] at hbracket
    rw [← hafter, hb, Option.some.inj hbracket]
    decide

theorem wraps_overlappedHeader : nameCountWraps overlappedHeader = true := by decide

/-! ## Names -/

theorem mem_intercalate {parts : List Bytes} {separator b : UInt8}
    (h : b ∈ [separator].intercalate parts) : b = separator ∨ ∃ part ∈ parts, b ∈ part := by
  induction parts with
  | nil => cases h
  | cons part parts ih =>
    cases parts with
    | nil =>
      right
      exact ⟨part, List.mem_cons_self, by simpa using h⟩
    | cons next rest =>
      rw [List.intercalate_cons_cons] at h
      simp only [List.append_assoc, List.mem_append, List.mem_singleton] at h
      rcases h with hpart | hsep | hrest
      · exact Or.inr ⟨part, List.mem_cons_self, hpart⟩
      · exact Or.inl hsep
      · rcases ih hrest with hsep | ⟨found, hfound, hb⟩
        · exact Or.inl hsep
        · exact Or.inr ⟨found, List.mem_cons_of_mem _ hfound, hb⟩

theorem noBackslash_of_isSafePath (h : isSafePath path = true) : byte '\\' ∉ path := by
  unfold isSafePath at h
  simp only [Bool.and_eq_true, List.all_eq_true] at h
  intro hmem
  have hjoin : [byte '/'].intercalate (path.splitOn (byte '/')) = path :=
    List.intercalate_splitOn (byte '/')
  rw [← hjoin] at hmem
  rcases mem_intercalate hmem with hslash | ⟨part, hpart, hb⟩
  · exact absurd hslash (by decide)
  · have hsafe := h.2 part hpart
    unfold isSafePart at hsafe
    simp only [Bool.and_eq_true, List.all_eq_true] at hsafe
    have hbyte := hsafe.2 _ hb
    exact absurd hbyte (by decide)

theorem literalName_of_safe (hsafe : isSafePath name = true) (hquote : byte '"' ∉ name) :
    LiteralName name := by
  refine ⟨?_, hsafe, hquote, noBackslash_of_isSafePath hsafe⟩
  intro hnil
  rw [hnil] at hsafe
  exact absurd hsafe (by decide)

theorem isHeader_headerLine (name : Bytes) : isHeader (headerLine name) = true := rfl

theorem nameCountWraps_headerLine (name : Bytes) : nameCountWraps (headerLine name) = false := by
  unfold nameCountWraps headerLine
  simp

/-- Where the count does not wrap the header is its name between the two texts. -/
theorem readHeaderName_eq_ok_iff (hcount : nameCountWraps line = false) :
    readHeaderName line = .ok name ↔ line = headerLine name ∧ LiteralName name := by
  constructor
  · intro h
    unfold readHeaderName at h
    split at h
    · rename_i htexts
      have hlong : ¬ line.length < headerStart.length + headerEnd.length := by
        unfold nameCountWraps at hcount
        rw [htexts] at hcount
        simpa using hcount
      simp only [if_neg hlong] at h
      split at h
      · cases h
      · rename_i hquote
        obtain ⟨u, hsafe, hok⟩ := bind_eq_ok.mp h
        have hname := Except.ok.inj hok
        have hline : line = headerLine name := by
          simp only [Bool.and_eq_true, List.isPrefixOf_iff_prefix,
            List.isSuffixOf_iff_suffix] at htexts
          obtain ⟨⟨after, hafter⟩, hsuffix⟩ := htexts
          have hafterSuffix : after <:+ line := ⟨headerStart, hafter⟩
          have hlength : line.length = headerStart.length + after.length := by
            rw [← hafter, List.length_append]
          obtain ⟨before, hbefore⟩ :=
            List.suffix_of_suffix_length_le hsuffix hafterSuffix (by omega)
          have hdrop : line.drop headerStart.length = after := by
            rw [← hafter, List.drop_left]
          have hbeforeLength : line.length - headerStart.length - headerEnd.length =
              before.length := by
            rw [hlength, ← hbefore, List.length_append]
            omega
          rw [hdrop, hbeforeLength, ← hbefore, List.take_left] at hname
          rw [← hafter, ← hbefore, hname]
          unfold headerLine
          rw [List.append_assoc]
        refine ⟨hline, ?_⟩
        rw [hname] at hsafe hquote
        apply literalName_of_safe
        · unfold safePath at hsafe
          by_contra hbad
          rw [if_neg hbad] at hsafe
          cases hsafe
        · exact hquote
    · cases h
  · rintro ⟨hline, hliteral⟩
    have hlong : ¬ (headerLine name).length < headerStart.length + headerEnd.length := by
      unfold headerLine
      simp only [List.length_append]
      omega
    have hfront : headerStart.isPrefixOf (headerLine name) = true := by
      rw [List.isPrefixOf_iff_prefix]
      unfold headerLine
      rw [List.append_assoc]
      exact List.prefix_append _ _
    have hsuffix : headerEnd.isSuffixOf (headerLine name) = true := by
      rw [List.isSuffixOf_iff_suffix]
      exact List.suffix_append _ _
    have hname : ((headerLine name).drop headerStart.length).take
        ((headerLine name).length - headerStart.length - headerEnd.length) = name := by
      have hcut : (headerLine name).length - headerStart.length - headerEnd.length =
          name.length := by
        unfold headerLine
        simp only [List.length_append]
        omega
      rw [hcut]
      unfold headerLine
      rw [List.append_assoc, List.drop_left, List.take_left]
    rw [hline]
    unfold readHeaderName
    rw [if_pos (by rw [hfront, hsuffix]; rfl)]
    simp only [if_neg hlong, hname, if_neg hliteral.noQuote, safePath, if_pos hliteral.safe]
    rfl

/-! ## Lines that are read are sections -/

section Reading

variable {library : UrlLibrary}

/-- The lines of the section that is open. -/
def IsOpen (library : UrlLibrary) (lines keys : List Bytes) : Option Declaration → Prop
  | none => lines = []
  | some entry => LiteralName entry.name ∧ ∃ body assignments,
      lines = headerLine entry.name :: body ∧ BodyAssigns library body assignments ∧
        assignments.map Prod.fst = keys ∧ Assigned library entry assignments

/-- The state after some lines. -/
structure SectionsSoFar (library : UrlLibrary) (lines : List Bytes) (state : DeclarationState) :
    Prop where
  sections : ∃ (blocks : List (List Bytes)) (opened : List Bytes),
    blocks.flatten ++ opened = lines ∧
      List.Forall₂ (IsSection library) blocks state.finished ∧
      IsOpen library opened state.keys state.current
  names : state.names =
    state.finished.map Declaration.name ++ state.current.toList.map Declaration.name
  namesDistinct : state.names.Nodup
  paths : state.paths = state.finished.map Declaration.path
  pathsDistinct : state.paths.Nodup

theorem sectionsSoFar_initial : SectionsSoFar library [] DeclarationState.initial where
  sections := ⟨[], [], rfl, List.Forall₂.nil, rfl⟩
  names := rfl
  namesDistinct := List.nodup_nil
  paths := rfl
  pathsDistinct := List.nodup_nil

/-- An open section with a path and a URL is a section. -/
theorem isSection_of_open {keys : List Bytes} (h : IsOpen library lines keys (some entry))
    (hpath : ascii "path" ∈ keys) (hurl : ascii "url" ∈ keys) (hsafe : isSafePath entry.path = true)
    : IsSection library lines entry := by
  obtain ⟨hname, body, assignments, hlines, hbody, hkeys, hassigned⟩ := h
  rw [← hkeys] at hpath hurl
  obtain ⟨⟨key, path⟩, hpathMem, hpathKey⟩ := List.mem_map.mp hpath
  obtain ⟨⟨key', url⟩, hurlMem, hurlKey⟩ := List.mem_map.mp hurl
  dsimp only at hpathKey hurlKey
  rw [hpathKey] at hpathMem
  rw [hurlKey] at hurlMem
  refine ⟨hname, hsafe, body, assignments, url, hlines, hbody, ?_, hurlMem,
    hassigned.url url hurlMem⟩
  rw [hassigned.path path hpathMem]
  exact hpathMem

theorem isSafePath_of_safePath {u : Unit} (h : safePath path = .ok u) : isSafePath path = true := by
  unfold safePath at h
  by_contra hbad
  rw [if_neg hbad] at h
  cases h

theorem sectionsSoFar_finish (h : SectionsSoFar library lines state)
    (hfinish : finish state = .ok after) :
    SectionsSoFar library lines after ∧ after.current = none := by
  obtain ⟨blocks, opened, hlines, hblocks, hopen⟩ := h.sections
  unfold finish at hfinish
  split at hfinish
  · rename_i hnone
    rw [← Except.ok.inj hfinish]
    exact ⟨h, hnone⟩
  · rename_i entry hcurrent
    split at hfinish
    · rename_i hkeys
      obtain ⟨u, hsafe, hfresh⟩ := bind_eq_ok.mp hfinish
      split at hfresh
      · cases hfresh
      · rename_i hnew
        rw [← Except.ok.inj hfresh]
        rw [hcurrent] at hopen
        have hsection := isSection_of_open hopen hkeys.1 hkeys.2 (isSafePath_of_safePath hsafe)
        refine ⟨⟨⟨blocks ++ [opened], [], ?_, ?_, rfl⟩, ?_, h.namesDistinct, ?_, ?_⟩, rfl⟩
        · rw [List.flatten_append, List.flatten_singleton, List.append_nil]
          exact hlines
        · exact List.rel_append hblocks (List.Forall₂.cons hsection List.Forall₂.nil)
        · rw [h.names, hcurrent]
          simp
        · simp [h.paths]
        · apply List.nodup_append.mpr
          refine ⟨h.pathsDistinct, List.nodup_singleton _, ?_⟩
          intro path hpath other hother hsame
          rw [List.mem_singleton.mp hother] at hsame
          rw [hsame] at hpath
          exact hnew hpath
    · cases hfinish

/-- Complete sections, where none is open. -/
theorem areSections_of_finished (h : SectionsSoFar library lines state)
    (hcurrent : state.current = none) : AreSections library lines state.finished := by
  obtain ⟨blocks, opened, hlines, hblocks, hopen⟩ := h.sections
  rw [hcurrent] at hopen
  refine ⟨⟨blocks, ?_, hblocks⟩, ?_, ?_⟩
  · have hnil : opened = [] := hopen
    rw [hnil, List.append_nil] at hlines
    exact hlines
  · have hnames := h.namesDistinct
    rw [h.names, hcurrent] at hnames
    simpa using hnames
  · rw [← h.paths]
    exact h.pathsDistinct

theorem sectionsSoFar_header (h : SectionsSoFar library lines state)
    (hcurrent : state.current = none) (hcount : nameCountWraps line = false)
    (hname : readHeaderName line = .ok name) (hopen : openSection state name = .ok after) :
    SectionsSoFar library (lines ++ [line]) after := by
  obtain ⟨hline, hliteral⟩ := (readHeaderName_eq_ok_iff hcount).mp hname
  obtain ⟨blocks, opened, hlines, hblocks, hnone⟩ := h.sections
  rw [hcurrent] at hnone
  have hnil : opened = [] := hnone
  unfold openSection at hopen
  split at hopen
  · cases hopen
  · rename_i hnew
    rw [← Except.ok.inj hopen]
    refine ⟨⟨blocks, [line], ?_, hblocks, ?_⟩, ?_, ?_, h.paths, h.pathsDistinct⟩
    · rw [← hlines, hnil, List.append_nil]
    · exact ⟨hliteral, [], [], by rw [hline], ⟨nofun, ⟨List.Forall₂.nil, List.nodup_nil⟩, nofun⟩,
        rfl, nofun, nofun⟩
    · rw [h.names, hcurrent]
      simp
    · apply List.nodup_append.mpr
      refine ⟨h.namesDistinct, List.nodup_singleton _, ?_⟩
      intro old hold other hother hsame
      rw [List.mem_singleton.mp hother] at hsame
      rw [hsame] at hold
      exact hnew hold

/-- What is assigned is permitted. -/
theorem permitted_of_assign {changed : Declaration}
    (h : assign library entry key value = .ok changed) : Permitted library (key, value) := by
  unfold assign at h
  split at h
  · rename_i hkey
    exact Or.inl hkey
  · split at h
    · rename_i hkey
      split at h
      · rename_i locator hlocator
        exact Or.inr (Or.inl ⟨hkey, locator, hlocator⟩)
      · cases h
    · split at h
      · rename_i hboth
        exact Or.inr (Or.inr (Prod.ext hboth.1 hboth.2))
      · cases h

theorem sectionsSoFar_key (h : SectionsSoFar library lines state) (hline : isHeader line = false)
    (hread : readKey library state line = .ok after) :
    SectionsSoFar library (lines ++ [line]) after := by
  unfold readKey at hread
  split at hread
  · rename_i entry key equal rest hcurrent hsplit
    dsimp only at hread
    split at hread
    · cases hread
    · rename_i hfresh
      obtain ⟨value, hvalue, hread⟩ := bind_eq_ok.mp hread
      obtain ⟨changed, hassign, hread⟩ := bind_eq_ok.mp hread
      rw [← Except.ok.inj hread]
      obtain ⟨blocks, opened, hlines, hblocks, hopen⟩ := h.sections
      rw [hcurrent] at hopen
      obtain ⟨hliteral, body, assignments, hopened, hbody, hkeys, hassigned⟩ := hopen
      rw [← hkeys] at hfresh
      obtain ⟨hsame, hchanged⟩ := assigned_concat hassigned hfresh hassign
      refine ⟨⟨blocks, opened ++ [line], ?_, hblocks, ?_⟩, ?_, h.namesDistinct, h.paths,
        h.pathsDistinct⟩
      · rw [← hlines, List.append_assoc]
      · refine ⟨by rw [hsame]; exact hliteral, body ++ [line], _, ?_, ⟨?_, ⟨?_, ?_⟩, ?_⟩, ?_,
          hchanged⟩
        · rw [hopened, hsame, List.cons_append]
        · intro other hother
          rcases List.mem_append.mp hother with hold | hnew
          · exact hbody.plain other hold
          · rw [List.mem_singleton.mp hnew]
            exact hline
        · exact List.rel_append hbody.assigns.1
            (List.Forall₂.cons (readAssignment_eq hsplit hvalue) List.Forall₂.nil)
        · rw [List.map_append]
          apply List.nodup_append.mpr
          refine ⟨hbody.assigns.2, List.nodup_singleton _, ?_⟩
          intro old hold new hnew hsame
          rw [List.mem_singleton.mp hnew] at hsame
          rw [hsame] at hold
          exact hfresh hold
        · intro assignment hmem
          rcases List.mem_append.mp hmem with hold | hnew
          · exact hbody.permitted assignment hold
          · rw [List.mem_singleton.mp hnew]
            exact permitted_of_assign hassign
        · rw [List.map_append, hkeys]
          rfl
      · rw [h.names, hcurrent]
        simp [hsame]
  · cases hread

theorem sectionsSoFar_line (h : SectionsSoFar library lines state)
    (hcount : nameCountWraps line = false) (hread : readSignificant library state line = .ok after)
    : SectionsSoFar library (lines ++ [line]) after := by
  unfold readSignificant at hread
  by_cases hheader : isHeader line = true
  · rw [if_pos hheader] at hread
    obtain ⟨finished, hfinish, hread⟩ := bind_eq_ok.mp hread
    obtain ⟨name, hname, hopen⟩ := bind_eq_ok.mp hread
    obtain ⟨hfinished, hcurrent⟩ := sectionsSoFar_finish h hfinish
    exact sectionsSoFar_header hfinished hcurrent hcount hname hopen
  · rw [if_neg hheader] at hread
    exact sectionsSoFar_key h (by simpa using hheader) hread

/-- Lines that are read are sections, where no count wraps. -/
theorem sectionsSoFar_lines : ∀ {lines more : List Bytes} {state after : DeclarationState},
      SectionsSoFar library lines state → (∀ line ∈ more, nameCountWraps line = false) →
      more.foldlM (readSignificant library) state = .ok after →
      SectionsSoFar library (lines ++ more) after := by
  intro lines more
  induction more generalizing lines with
  | nil =>
    intro state after h _ hread
    rw [← Except.ok.inj hread, List.append_nil]
    exact h
  | cons line more ih =>
    intro state after h hcounts hread
    rw [List.foldlM_cons] at hread
    obtain ⟨next, hline, hread⟩ := bind_eq_ok.mp hread
    have hnext := sectionsSoFar_line h (hcounts line List.mem_cons_self) hline
    have hrest := ih hnext (fun l hl => hcounts l (List.mem_cons_of_mem _ hl)) hread
    rw [List.append_assoc] at hrest
    exact hrest

/-- Lines that are read and complete are sections. -/
theorem areSections_of_read (hcounts : ∀ line ∈ lines, nameCountWraps line = false)
    (hread : lines.foldlM (readSignificant library) DeclarationState.initial = .ok state)
    (hfinish : finish state = .ok after) : AreSections library lines after.finished := by
  have hall := sectionsSoFar_lines sectionsSoFar_initial hcounts hread
  obtain ⟨hfinished, hcurrent⟩ := sectionsSoFar_finish hall hfinish
  exact areSections_of_finished hfinished hcurrent

end Reading

/-! ## Sections are read -/

section Accepting

variable {library : UrlLibrary}

/-- A permitted assignment is made. -/
theorem exists_assign (entry : Declaration) (h : Permitted library (key, value)) :
    ∃ changed, assign library entry key value = .ok changed := by
  unfold assign
  by_cases hpath : key = ascii "path"
  · exact ⟨_, if_pos hpath⟩
  · rw [if_neg hpath]
    by_cases hurl : key = ascii "url"
    · rw [if_pos hurl]
      rcases h with h | ⟨-, locator, hlocator⟩ | h
      · exact absurd h hpath
      · exact ⟨{ entry with locator := locator }, by rw [hlocator]⟩
      · injection h with hkey _
        rw [hkey] at hurl
        exact absurd hurl (by decide)
    · rw [if_neg hurl]
      rcases h with h | ⟨h, -⟩ | h
      · exact absurd h hpath
      · exact absurd h hurl
      · injection h with hkey hvalue
        exact ⟨entry, if_pos ⟨hkey, hvalue⟩⟩

/-- What a line assigns is read under the key that it has. -/
theorem readAssignment_parts (h : readAssignment line = .ok (key, value)) :
    ∃ found equal rest, splitAtFirst (fun b => b = byte '=') line = some (found, equal :: rest) ∧
      configValue rest = .ok value ∧ asciiLowercase (trimSpaces found) = key := by
  unfold readAssignment at h
  split at h
  · rename_i found equal rest hsplit
    obtain ⟨read, hread, hok⟩ := bind_eq_ok.mp h
    injection Except.ok.inj hok with hkey hvalue
    exact ⟨found, equal, rest, hsplit, by rw [hread, hvalue], hkey⟩
  · cases h

/-- A line of a body is read into the open section. -/
theorem read_assignment {assignments : List (Bytes × Bytes)} (hcurrent : state.current = some entry)
    (hkeys : state.keys = assignments.map Prod.fst) (hassigned : Assigned library entry assignments)
    (hline : isHeader line = false) (hread : readAssignment line = .ok (key, value))
    (hpermitted : Permitted library (key, value)) (hfresh : key ∉ assignments.map Prod.fst) :
    ∃ changed, changed.name = entry.name ∧
      Assigned library changed (assignments ++ [(key, value)]) ∧
      readSignificant library state line =
        .ok { state with current := some changed, keys := state.keys ++ [key] } := by
  obtain ⟨changed, hassign⟩ := exists_assign entry hpermitted
  obtain ⟨hname, hchanged⟩ := assigned_concat hassigned hfresh hassign
  obtain ⟨found, equal, rest, hsplit, hvalue, hkey⟩ := readAssignment_parts hread
  refine ⟨changed, hname, hchanged, ?_⟩
  unfold readSignificant readKey
  rw [if_neg (by rw [hline]; exact Bool.false_ne_true), hcurrent, hsplit]
  dsimp only
  rw [hkey, hkeys, if_neg hfresh, bind_of_ok hvalue, bind_of_ok hassign]

/-- The lines of a body are read into the open section. -/
theorem read_body {body : List Bytes} {more : List (Bytes × Bytes)} :
    ∀ (state : DeclarationState) (entry : Declaration) (assignments : List (Bytes × Bytes)),
      state.current = some entry → state.keys = assignments.map Prod.fst →
      Assigned library entry assignments → (∀ line ∈ body, isHeader line = false) →
      List.Forall₂ (fun line assignment => readAssignment line = .ok assignment) body more →
      (∀ assignment ∈ more, Permitted library assignment) →
      ((assignments ++ more).map Prod.fst).Nodup →
      ∃ changed, changed.name = entry.name ∧ Assigned library changed (assignments ++ more) ∧
        body.foldlM (readSignificant library) state = .ok { state with
            current := some changed, keys := (assignments ++ more).map Prod.fst } := by
  induction body generalizing more with
  | nil =>
    intro state entry assignments hcurrent hkeys hassigned _ hreads _ _
    cases hreads
    refine ⟨entry, rfl, ?_, ?_⟩
    · rw [List.append_nil]
      exact hassigned
    · rw [List.append_nil, ← hkeys, ← hcurrent]
      rfl
  | cons line body ih =>
    intro state entry assignments hcurrent hkeys hassigned hplain hreads hpermitted hdistinct
    cases hreads with
    | @cons _ assignment _ rest hread hreads =>
    obtain ⟨key, value⟩ := assignment
    have hfresh : key ∉ assignments.map Prod.fst := by
      rw [List.map_append, List.map_cons] at hdistinct
      intro hmem
      exact (List.nodup_append.mp hdistinct).2.2 key hmem key List.mem_cons_self rfl
    obtain ⟨changed, hname, hchanged, hstep⟩ := read_assignment hcurrent hkeys hassigned
      (hplain line List.mem_cons_self) hread (hpermitted _ List.mem_cons_self) hfresh
    have hkeys' : state.keys ++ [key] = (assignments ++ [(key, value)]).map Prod.fst := by
      rw [hkeys, List.map_append]
      rfl
    have hsplit : assignments ++ (key, value) :: rest =
        (assignments ++ [(key, value)]) ++ rest := by
      rw [List.append_assoc]
      rfl
    rw [hsplit] at hdistinct ⊢
    obtain ⟨last, hlast, hassignedLast, hrest⟩ := ih
      { state with current := some changed, keys := state.keys ++ [key] } changed _
      rfl hkeys' hchanged (fun l hl => hplain l (List.mem_cons_of_mem _ hl)) hreads
      (fun a ha => hpermitted a (List.mem_cons_of_mem _ ha)) hdistinct
    refine ⟨last, by rw [hlast, hname], hassignedLast, ?_⟩
    rw [List.foldlM_cons, bind_of_ok hstep, hrest]

/-- A section is read, and its entry is complete. -/
theorem read_section {block : List Bytes} {finished : DeclarationState}
    (hsection : IsSection library block entry) (hfinish : finish state = .ok finished)
    (hname : entry.name ∉ finished.names) (hpath : entry.path ∉ finished.paths) :
    ∃ after complete, block.foldlM (readSignificant library) state = .ok after ∧
      finish after = .ok complete ∧ complete.finished = finished.finished ++ [entry] ∧
      complete.names = finished.names ++ [entry.name] ∧
      complete.paths = finished.paths ++ [entry.path] := by
  obtain ⟨body, assignments, url, hblock, hbody, hpathMem, hurlMem, hlocator⟩ := hsection.lines
  obtain ⟨changed, hchangedName, hassigned, hread⟩ := read_body
    { finished with
      current := some ⟨entry.name, [], []⟩, names := finished.names ++ [entry.name], keys := [] }
    ⟨entry.name, [], []⟩ [] rfl rfl ⟨nofun, nofun⟩ hbody.plain hbody.assigns.1 hbody.permitted
    hbody.assigns.2
  rw [List.nil_append] at hassigned hread
  have hchanged : changed = entry := by
    have hsame : some changed.locator = some entry.locator := by
      rw [← hassigned.url url hurlMem, hlocator]
    have hsamePath : changed.path = entry.path := hassigned.path entry.path hpathMem
    cases changed
    cases entry
    simp_all
  rw [hchanged] at hread
  have hheader : readSignificant library state (headerLine entry.name) = .ok { finished with
        current := some ⟨entry.name, [], []⟩, names := finished.names ++ [entry.name]
        keys := [] } := by
    unfold readSignificant
    rw [if_pos (isHeader_headerLine _), bind_of_ok hfinish,
      bind_of_ok ((readHeaderName_eq_ok_iff (nameCountWraps_headerLine _)).mpr
        ⟨rfl, hsection.name⟩)]
    unfold openSection
    rw [if_neg hname]
  have hkeys : ascii "path" ∈ assignments.map Prod.fst ∧ ascii "url" ∈ assignments.map Prod.fst :=
    ⟨List.mem_map_of_mem (f := Prod.fst) hpathMem, List.mem_map_of_mem (f := Prod.fst) hurlMem⟩
  have hsafe : safePath entry.path = .ok () := by
    unfold safePath
    rw [if_pos hsection.path_safe]
  have hall : block.foldlM (readSignificant library) state = .ok { finished with
      current := some entry
      names := finished.names ++ [entry.name]
      keys := assignments.map Prod.fst } := by
    rw [hblock, List.foldlM_cons, bind_of_ok hheader]
    exact hread
  have hfinished : finish { finished with
      current := some entry
      names := finished.names ++ [entry.name]
      keys := assignments.map Prod.fst } = .ok {
        finished := finished.finished ++ [entry]
        current := none
        names := finished.names ++ [entry.name]
        paths := finished.paths ++ [entry.path]
        keys := assignments.map Prod.fst } := by
    unfold finish
    simp only [if_pos hkeys, bind_of_ok hsafe, if_neg hpath]
  exact ⟨_, _, hall, hfinished, rfl, rfl, rfl⟩

/-- Sections are read from a state that can be completed. -/
theorem read_blocks {blocks : List (List Bytes)}
    (h : List.Forall₂ (IsSection library) blocks declared) :
    ∀ (state finished : DeclarationState), finish state = .ok finished →
      (finished.names ++ declared.map Declaration.name).Nodup →
      (finished.paths ++ declared.map Declaration.path).Nodup →
      ∃ after complete, blocks.flatten.foldlM (readSignificant library) state = .ok after ∧
        finish after = .ok complete ∧ complete.finished = finished.finished ++ declared := by
  induction h with
  | nil =>
    intro state finished hfinish _ _
    exact ⟨state, finished, rfl, hfinish, by rw [List.append_nil]⟩
  | @cons block entry blocks declared hsection _ ih =>
    intro state finished hfinish hnames hpaths
    have hname : entry.name ∉ finished.names := by
      intro hmem
      exact (List.nodup_append.mp hnames).2.2 _ hmem _ List.mem_cons_self rfl
    have hpath : entry.path ∉ finished.paths := by
      intro hmem
      exact (List.nodup_append.mp hpaths).2.2 _ hmem _ List.mem_cons_self rfl
    obtain ⟨middle, next, hread, hnext, hfinished, hnextNames, hnextPaths⟩ :=
      read_section hsection hfinish hname hpath
    obtain ⟨after, complete, hrest, hcomplete, hall⟩ := ih _ _ hnext
      (by rw [hnextNames, List.append_assoc]; exact hnames)
      (by rw [hnextPaths, List.append_assoc]; exact hpaths)
    refine ⟨after, complete, ?_, hcomplete, ?_⟩
    · rw [List.flatten_cons, List.foldlM_append, bind_of_ok hread, hrest]
    · rw [hall, hfinished, List.append_assoc]
      rfl

/-- Sections are read. -/
theorem read_sections (h : AreSections library lines declared) : ∃ after complete,
      lines.foldlM (readSignificant library) DeclarationState.initial = .ok after ∧
        finish after = .ok complete ∧ complete.finished = declared := by
  obtain ⟨blocks, hlines, hblocks⟩ := h.sections
  obtain ⟨after, complete, hread, hfinish, hall⟩ := read_blocks hblocks
    DeclarationState.initial DeclarationState.initial rfl
    (by simpa [DeclarationState.initial] using h.names)
    (by simpa [DeclarationState.initial] using h.paths)
  rw [hlines] at hread
  exact ⟨after, complete, hread, hfinish, by rw [hall]; rfl⟩

end Accepting

/-! ## The reader -/

section Reader

variable {library : UrlLibrary}

theorem foldlM_readLine (lines : List Bytes) (state : DeclarationState) :
    lines.foldlM (readLine library) state =
      (significantLines lines).foldlM (readSignificant library) state := by
  induction lines generalizing state with
  | nil => rfl
  | cons line lines ih =>
    rw [List.foldlM_cons]
    by_cases hignored : isIgnored (trimSpaces line) = true
    · have hstep : readLine library state line = .ok state := by
        unfold readLine
        rw [if_pos hignored]
      have hlines : significantLines (line :: lines) = significantLines lines := by
        unfold significantLines
        rw [List.map_cons, List.filter_cons_of_neg (by simp [hignored])]
      rw [bind_of_ok hstep, hlines, ih]
    · have hstep : readLine library state line =
          readSignificant library state (trimSpaces line) := by
        unfold readLine readSignificant
        rw [if_neg hignored]
      have hlines : significantLines (line :: lines) =
          trimSpaces line :: significantLines lines := by
        unfold significantLines
        rw [List.map_cons, List.filter_cons_of_pos (by simp [hignored])]
      rw [hstep, hlines, List.foldlM_cons]
      congr 1
      funext next
      exact ih next

/-- The reader accepts what it reads to the end, where no path lies below another. -/
theorem declarations_eq_ok {bytes : Bytes} (h : declarations library bytes = .ok declared) :
    ∃ state finished,
      (significantLines (bytes.splitOn (byte '\n'))).foldlM (readSignificant library)
        DeclarationState.initial = .ok state ∧
        finish state = .ok finished ∧ finished.finished = declared ∧
        finished.paths.any (liesBelow finished.paths) = false := by
  unfold declarations at h
  obtain ⟨state, hread, h⟩ := bind_eq_ok.mp h
  obtain ⟨finished, hfinish, h⟩ := bind_eq_ok.mp h
  rw [foldlM_readLine] at hread
  split at h
  · cases h
  · rename_i hapart
    exact ⟨state, finished, hread, hfinish, Except.ok.inj h, by simpa using hapart⟩

theorem liesBelow_of_isAbove {paths : List Bytes} {above : Bytes} (hmem : above ∈ paths)
    (h : IsAbove above path) : liesBelow paths path = true := by
  obtain ⟨rest, hrest⟩ := h
  unfold liesBelow
  rw [List.any_eq_true]
  refine ⟨above.length, ?_, ?_⟩
  · rw [List.mem_range, hrest, List.length_append, List.length_cons]
    omega
  · have htake : path.take above.length = above := by rw [hrest, List.take_left]
    have hslash : path[above.length]? = some (byte '/') := by
      rw [hrest, List.getElem?_append_right (le_refl _), Nat.sub_self]
      rfl
    rw [hslash, htake]
    simpa using hmem

/-- What is read has no header whose count wraps, unless complete sections stand before
such a header. -/
theorem counts_of_read (hnone : ∀ front back declared, lines = front ++ overlappedHeader :: back →
      ¬ AreSections library front declared)
    (hread : lines.foldlM (readSignificant library) DeclarationState.initial = .ok state) :
    ∀ line ∈ lines, nameCountWraps line = false := by
  intro line hline
  by_contra hwraps
  have hsame : line = overlappedHeader := overlappedHeader_of_wraps (by simpa using hwraps)
  rw [hsame] at hline
  obtain ⟨front, back, hlines, hfirst⟩ := List.eq_append_cons_of_mem hline
  have hcounts : ∀ other ∈ front, nameCountWraps other = false := by
    intro other hother
    by_contra hbad
    have hagain : other = overlappedHeader := overlappedHeader_of_wraps (by simpa using hbad)
    rw [hagain] at hother
    exact hfirst hother
  rw [hlines, List.foldlM_append] at hread
  obtain ⟨before, hfront, hread⟩ := bind_eq_ok.mp hread
  rw [List.foldlM_cons] at hread
  obtain ⟨next, hstep, -⟩ := bind_eq_ok.mp hread
  unfold readSignificant at hstep
  rw [if_pos (by decide)] at hstep
  obtain ⟨finished, hfinish, -⟩ := bind_eq_ok.mp hstep
  exact hnone front back _ hlines (areSections_of_read hcounts hfront hfinish)

end Reader

/-- A text is read as what it says exactly when no line `[submodule "]` follows
complete sections. -/
theorem declarations_proper_iff (library : UrlLibrary) (bytes : Bytes) :
    ReadsProperly library bytes ↔
      ¬ ∃ front back declared,
        significantLines (bytes.splitOn (byte '\n')) = front ++ overlappedHeader :: back ∧
          AreSections library front declared := by
  constructor
  · rintro h ⟨front, back, declared, hlines, hfront⟩
    obtain ⟨state, finished, hread, hfinish, -⟩ := read_sections hfront
    exact h.counts ⟨front, overlappedHeader, back, state, finished, hlines, hread, hfinish,
      wraps_overlappedHeader⟩
  · intro hnone
    have hnone' : ∀ front back declared,
        significantLines (bytes.splitOn (byte '\n')) = front ++ overlappedHeader :: back →
          ¬ AreSections library front declared := by
      intro front back declared hlines hfront
      exact hnone ⟨front, back, declared, hlines, hfront⟩
    have haccepted : ∀ declared, declarations library bytes = .ok declared →
        AreSections library (significantLines (bytes.splitOn (byte '\n'))) declared := by
      intro declared hdeclared
      obtain ⟨state, finished, hread, hfinish, hall, -⟩ := declarations_eq_ok hdeclared
      rw [← hall]
      exact areSections_of_read (counts_of_read hnone' hread) hread hfinish
    refine ⟨haccepted, ?_, ?_⟩
    · intro declared hdeclared entry hentry other hother habove
      obtain ⟨state, finished, hread, hfinish, hall, hapart⟩ := declarations_eq_ok hdeclared
      have hsofar := sectionsSoFar_lines sectionsSoFar_initial (counts_of_read hnone' hread) hread
      have hpaths := (sectionsSoFar_finish hsofar hfinish).1.paths
      rw [hall] at hpaths
      rw [hpaths] at hapart
      have hbelow := List.any_eq_true.mpr ⟨other.path, List.mem_map_of_mem hother,
        liesBelow_of_isAbove (List.mem_map_of_mem hentry) habove⟩
      rw [hbelow] at hapart
      cases hapart
    · rintro ⟨front, line, back, state, finished, hlines, hread, hfinish, hwraps⟩
      rw [overlappedHeader_of_wraps hwraps] at hlines
      have hnoneFront : ∀ first rest declared, front = first ++ overlappedHeader :: rest →
          ¬ AreSections library first declared := by
        intro first rest declared hfirst
        apply hnone' first (rest ++ overlappedHeader :: back) declared
        rw [hlines, hfirst, List.append_assoc]
        rfl
      exact hnone' front back _ hlines
        (areSections_of_read (counts_of_read hnoneFront hread) hread hfinish)

/-- A library that reads one URL of a host alone. -/
def plainLibrary : UrlLibrary where
  parse := fun _ => some ⟨ascii "https", ascii "example.org", false⟩
  withHost := fun url _ => some url

/-- `[submodule "]` is read as the header of a submodule of the name `]`. -/
theorem declarations_overlapped :
    ¬ ∀ library bytes, ReadsProperly library bytes := by
  intro h
  have hproper := h plainLibrary
    (ascii "[submodule \"]\npath = a\nurl = https://example.org/a\n")
  have hread : declarations plainLibrary
      (ascii "[submodule \"]\npath = a\nurl = https://example.org/a\n") =
      .ok [⟨ascii "]", ascii "a", ascii "https://example.org/a"⟩] := by decide +kernel
  obtain ⟨blocks, hlines, hblocks⟩ := (hproper.sections _ hread).sections
  cases hblocks with
  | cons hsection hrest =>
    cases hrest
    obtain ⟨body, assignments, url, hblock, -⟩ := hsection.lines
    rw [hblock] at hlines
    have hhead : some (headerLine (ascii "]")) = (significantLines
        ((ascii "[submodule \"]\npath = a\nurl = https://example.org/a\n").splitOn
          (byte '\n'))).head? := congrArg List.head? hlines
    exact absurd hhead (by decide +kernel)

end Moguet.Submodule.DeclaredText
