import Moguet.Source.Entry
import Moguet.Verified.Checked

/-!
# Source entries written back

What is accepted as a source entry is split without loss: the parts are written
back to the entry, byte for byte. The location ends where the version control
system lets a component start, and a selector at its equality signs.
-/

namespace Moguet.Source.EntryText

open Verified.ByteString Verified.Checked Entry

variable {components : VcsComponents}

variable {kind : ParsedSourceVcsKind} {source identifier value : Bytes} {first second : UInt8}
  {position : Nat} {entry parsed : ParsedSourceEntry}

def writeFragment (selector : Option ParsedSourceSelector) : Bytes :=
  match selector with
  | some selector => byte '#' :: selector.rawFragment
  | none => []

def writeQuery (query : Option ParsedSourceQuery) : Bytes :=
  match query with
  | some query => byte '?' :: query.rawQuery
  | none => []

/-- The components in the order they were declared in. -/
def writeComponents (order : ParsedSourceVcsComponentOrder)
    (selector : Option ParsedSourceSelector) (query : Option ParsedSourceQuery) : Bytes :=
  match order with
  | .none => []
  | .queryOnly => writeQuery query
  | .fragmentOnly => writeFragment selector
  | .queryThenFragment => writeQuery query ++ writeFragment selector
  | .fragmentThenQuery => writeFragment selector ++ writeQuery query

/-- What stands before the location: a native scheme is part of it. -/
def writeDeclaration (declarationKind : ParsedSourceVcsDeclarationKind) (identifier : Bytes) :
    Bytes :=
  match declarationKind with
  | .explicitPrefix => identifier ++ ascii "+"
  | .nativeScheme => []

def writeSource (entry : ParsedSourceEntry) : Bytes :=
  match entry.vcs with
  | some vcs =>
    writeDeclaration vcs.declarationKind vcs.rawIdentifier ++ entry.sourceLocation ++
      writeComponents vcs.componentOrder vcs.selector vcs.query
  | none => entry.sourceLocation

def writeDestination (destinationName : Option Bytes) : Bytes :=
  match destinationName with
  | some destination => destination ++ ascii "::"
  | none => []

def writeSourceEntry (entry : ParsedSourceEntry) : Bytes :=
  writeDestination entry.destinationName ++ writeSource entry

/-- The key ends at the first equality sign, the value starts after the last
one, for Bzr after the first. -/
structure SelectorSplit (kind : ParsedSourceVcsKind) (selector : ParsedSourceSelector) :
    Prop where
  key_nonempty : selector.key ≠ []
  value_nonempty : selector.value ≠ []
  key_end : byte '=' ∉ selector.key ∧
    ∃ rest, selector.rawFragment = selector.key ++ byte '=' :: rest ∧
      (kind = .bzr → selector.value = rest)
  value_start : kind ≠ .bzr → byte '=' ∉ selector.value ∧
    ∃ front, selector.rawFragment = front ++ byte '=' :: selector.value

/-- The last equality sign is right before the text after it. -/
theorem afterLastEqual_split {fragment : Bytes} (h : byte '=' ∈ fragment) :
    byte '=' ∉ afterLastEqual fragment ∧
      ∃ front, fragment = front ++ byte '=' :: afterLastEqual fragment := by
  have hwhole : fragment.rdropWhile (· ≠ byte '=') ++ afterLastEqual fragment = fragment :=
    List.rdropWhile_append_rtakeWhile
  have hnot : byte '=' ∉ afterLastEqual fragment := by
    intro hmem
    have hkept := List.mem_rtakeWhile_imp hmem
    simp at hkept
  refine ⟨hnot, ?_⟩
  have hne : fragment.rdropWhile (· ≠ byte '=') ≠ [] := by
    intro hnil
    rw [hnil, List.nil_append] at hwhole
    rw [hwhole] at hnot
    exact hnot h
  have hlast := List.rdropWhile_last_not _ _ hne
  have hequal : (fragment.rdropWhile (· ≠ byte '=')).getLast hne = byte '=' := by
    simpa using hlast
  refine ⟨(fragment.rdropWhile (· ≠ byte '=')).dropLast, ?_⟩
  have hsplit := List.dropLast_append_getLast hne
  rw [hequal] at hsplit
  calc fragment = fragment.rdropWhile (· ≠ byte '=') ++ afterLastEqual fragment := hwhole.symm
    _ = (fragment.rdropWhile (· ≠ byte '=')).dropLast ++ [byte '='] ++
        afterLastEqual fragment := by rw [hsplit]
    _ = _ := by rw [List.append_assoc]; rfl

theorem parseSelector_split {rawFragment : Bytes} {selector : ParsedSourceSelector}
    (h : parseSelector kind rawFragment = .ok selector) :
    selector.rawFragment = rawFragment ∧ SelectorSplit kind selector := by
  unfold parseSelector at h
  split at h
  · cases h
  · rename_i key rest hsplit
    obtain ⟨b, tail, rfl, hb, hkey, hraw⟩ := splitAtFirst_some hsplit
    have hequal : b = byte '=' := of_decide_eq_true hb
    rw [hequal] at hraw
    dsimp only at h
    split at h
    · cases h
    · rename_i hparts
      rw [not_or] at hparts
      injection h with h
      rw [← h]
      have hkeyEnd : byte '=' ∉ key := by
        intro hmem
        have hnot := hkey _ hmem
        simp at hnot
      refine ⟨rfl, hparts.1, hparts.2, ⟨hkeyEnd, tail, hraw, ?_⟩, ?_⟩
      · rintro rfl
        rfl
      · intro hkind
        have hlast : selectorValue kind rawFragment tail = afterLastEqual rawFragment := by
          unfold selectorValue
          exact if_pos (decide_eq_true hkind)
        show byte '=' ∉ selectorValue kind rawFragment tail ∧
          ∃ front, rawFragment = front ++ byte '=' :: selectorValue kind rawFragment tail
        rw [hlast]
        apply afterLastEqual_split
        rw [hraw]
        exact List.mem_append_right _ List.mem_cons_self

theorem parseQuery_raw {rawQuery : Bytes} {query : ParsedSourceQuery}
    (h : parseQuery kind rawQuery = .ok query) : query.rawQuery = rawQuery := by
  unfold parseQuery at h
  split at h
  · cases h
  · injection h with h
    rw [← h]

/-- A byte cuts a source in two. -/
def CutAt (source : Bytes) (b : UInt8) (position : Nat) : Prop :=
  position < source.length ∧ source = source.take position ++ b :: source.drop (position + 1)

theorem cut_twice {early late : Nat} (hearly : CutAt source first early)
    (hlate : CutAt source second late) (hlt : early < late) :
    source = source.take early ++
      (first :: (source.take late).drop (early + 1) ++ second :: source.drop (late + 1)) := by
  have hrest : source.drop (early + 1) =
      (source.take late).drop (early + 1) ++ second :: source.drop (late + 1) := by
    conv_lhs => rw [hlate.2]
    rw [List.drop_append_of_le_length]
    rw [List.length_take]
    have hlength := hlate.1
    omega
  conv_lhs => rw [hearly.2]
  rw [hrest]
  rfl

theorem componentText_alone (source : Bytes) (position : Nat) :
    componentText source position none = source.drop (position + 1) := by
  unfold componentText
  dsimp only
  rw [List.take_length]

theorem componentText_last {other : Nat} (h : other ≤ position) :
    componentText source position (some other) = source.drop (position + 1) := by
  unfold componentText
  dsimp only
  rw [if_neg (Nat.not_lt.mpr h), List.take_length]

theorem componentText_before {later : Nat} (h : position < later) :
    componentText source position (some later) = (source.take later).drop (position + 1) := by
  unfold componentText
  dsimp only
  rw [if_pos h]

theorem cut_ne (hfirst : CutAt source first position) (hsecond : CutAt source second position)
    (hne : first ≠ second) : False := by
  have hboth := hfirst.2.symm.trans hsecond.2
  rw [List.append_cancel_left_eq] at hboth
  injection hboth with hsame _
  exact hne hsame

/-- What the components of a source are, by their separators. -/
structure ComponentsSpec (source : Bytes) (kind : ParsedSourceVcsKind)
    (components : VcsComponents) : Prop where
  written : components.sourceLocation ++
    writeComponents components.componentOrder components.selector components.query = source
  fragment_free : byte '#' ∉ components.sourceLocation
  query_free : usesMakepkgQueryComponents kind = true → byte '?' ∉ components.sourceLocation
  selector : ∀ selector ∈ components.selector, SelectorSplit kind selector

theorem mapM_some_ok {α β : Type} {f : α → Parsed β} {a : α} {kept : Option β}
    (h : Option.mapM f (some a) = .ok kept) : ∃ b, f a = .ok b ∧ kept = some b := by
  cases hf : f a with
  | error failure =>
    change (f a >>= fun b => pure (some b)) = _ at h
    rw [hf] at h
    cases h
  | ok b =>
    change (f a >>= fun b => pure (some b)) = _ at h
    rw [hf] at h
    injection h with h
    exact ⟨b, rfl, h.symm⟩

theorem componentsAt_written {fragmentPosition queryPosition : Option Nat}
    (hfragment : ∀ position ∈ fragmentPosition, CutAt source (byte '#') position)
    (hquery : ∀ position ∈ queryPosition, CutAt source (byte '?') position)
    (h : componentsAt source kind fragmentPosition queryPosition = .ok components) :
    components.sourceLocation = source.take (min (fragmentPosition.getD source.length)
        (queryPosition.getD source.length)) ∧
      components.sourceLocation ++
        writeComponents components.componentOrder components.selector components.query = source ∧
      ∀ selector ∈ components.selector, SelectorSplit kind selector := by
  unfold componentsAt at h
  dsimp only at h
  split at h
  · cases h
  · rw [bind_eq_ok] at h
    obtain ⟨scheme, -, h⟩ := h
    rw [bind_eq_ok] at h
    obtain ⟨selector, hselector, h⟩ := h
    rw [bind_eq_ok] at h
    obtain ⟨query, hqueried, h⟩ := h
    injection h with h
    rw [← h]
    refine ⟨rfl, ?_⟩
    cases fragmentPosition with
    | none =>
      injection hselector with hselector
      rw [← hselector]
      refine ⟨?_, fun known hknown => by cases hknown⟩
      cases queryPosition with
      | none =>
        show source.take (min source.length source.length) ++ [] = source
        rw [List.append_nil, Nat.min_self, List.take_length]
      | some query' =>
        obtain ⟨hlength, hcut⟩ := hquery query' rfl
        obtain ⟨parsed, hparsed, rfl⟩ := mapM_some_ok hqueried
        show source.take (min source.length query') ++ byte '?' :: parsed.rawQuery = source
        rw [parseQuery_raw hparsed, componentText_alone, Nat.min_eq_right (Nat.le_of_lt hlength)]
        exact hcut.symm
    | some fragment =>
      have hcut := hfragment fragment rfl
      obtain ⟨parsed, hparsed, rfl⟩ := mapM_some_ok hselector
      obtain ⟨hraw, hsplit⟩ := parseSelector_split hparsed
      refine ⟨?_, ?_⟩
      · cases queryPosition with
        | none =>
          injection hqueried with hqueried
          rw [← hqueried]
          show source.take (min fragment source.length) ++ byte '#' :: parsed.rawFragment = source
          rw [hraw, componentText_alone, Nat.min_eq_left (Nat.le_of_lt hcut.1)]
          exact hcut.2.symm
        | some query' =>
          have hcutQuery := hquery query' rfl
          obtain ⟨asked, hasked, rfl⟩ := mapM_some_ok hqueried
          show source.take (min fragment query') ++
            writeComponents (if query' < fragment then .queryThenFragment
              else .fragmentThenQuery) (some parsed) (some asked) = source
          by_cases horder : query' < fragment
          · rw [if_pos horder, Nat.min_eq_right (Nat.le_of_lt horder)]
            show source.take query' ++
              (byte '?' :: asked.rawQuery ++ byte '#' :: parsed.rawFragment) = source
            rw [hraw, parseQuery_raw hasked, componentText_before horder,
              componentText_last (Nat.le_of_lt horder)]
            exact (cut_twice hcutQuery hcut horder).symm
          · have hne : fragment ≠ query' := by
              rintro rfl
              exact cut_ne hcut hcutQuery (by decide)
            have hlt : fragment < query' := by omega
            rw [if_neg horder, Nat.min_eq_left (Nat.le_of_lt hlt)]
            show source.take fragment ++
              (byte '#' :: parsed.rawFragment ++ byte '?' :: asked.rawQuery) = source
            rw [hraw, parseQuery_raw hasked, componentText_before hlt,
              componentText_last (Nat.le_of_lt hlt)]
            exact (cut_twice hcut hcutQuery hlt).symm
      · intro known hknown
        rw [← Option.some.inj hknown]
        exact hsplit

/-- The location ends before the first separator. -/
theorem not_mem_take {b : UInt8} {locationEnd : Nat}
    (h : locationEnd ≤ (findByte b source).getD source.length) : b ∉ source.take locationEnd := by
  intro hmem
  cases hfound : findByte b source with
  | none => exact findByte_none.mp hfound (List.mem_of_mem_take hmem)
  | some position =>
    rw [hfound] at h
    obtain ⟨-, hbefore, -⟩ := findByte_some hfound
    exact hbefore ((List.take_prefix_take_left h).subset hmem)

theorem parseVcsComponents_spec (h : parseVcsComponents source kind = .ok components) :
    ComponentsSpec source kind components := by
  unfold parseVcsComponents at h
  split at h
  · cases h
  · split at h
    · cases h
    · have hcut : ∀ {b : UInt8}, ∀ position ∈ findByte b source, CutAt source b position := by
        intro b position hfound
        obtain ⟨hlength, -, hparts⟩ := findByte_some hfound
        exact ⟨hlength, hparts⟩
      have hquery : ∀ position ∈
          (if usesMakepkgQueryComponents kind then findByte (byte '?') source else none),
          CutAt source (byte '?') position := by
        intro position hfound
        split at hfound
        · exact hcut position hfound
        · cases hfound
      obtain ⟨hlocation, hwritten, hselector⟩ := componentsAt_written hcut hquery h
      refine ⟨hwritten, ?_, ?_, hselector⟩
      · rw [hlocation]
        exact not_mem_take (Nat.min_le_left _ _)
      · intro huses
        rw [hlocation, huses, if_pos rfl]
        exact not_mem_take (Nat.min_le_right _ _)

/-- An entry without a loss: its parts are the source it was read from. -/
structure SourceSpec (source : Bytes) (entry : ParsedSourceEntry) : Prop where
  written : writeSource entry = source
  location : ∀ vcs ∈ entry.vcs, ∀ kind ∈ vcs.recognizedKind,
    byte '#' ∉ entry.sourceLocation ∧
      (kind = .git ∨ kind = .fossil → byte '?' ∉ entry.sourceLocation)
  selector : ∀ vcs ∈ entry.vcs, ∀ kind ∈ vcs.recognizedKind, ∀ selector ∈ vcs.selector,
    SelectorSplit kind selector

theorem parseVcsEntry_spec {declarationKind : ParsedSourceVcsDeclarationKind}
    (h : parseVcsEntry entry identifier source kind declarationKind = .ok parsed) :
    SourceSpec (writeDeclaration declarationKind identifier ++ source) parsed ∧
      parsed.rawValue = entry.rawValue ∧ parsed.destinationName = entry.destinationName := by
  unfold parseVcsEntry at h
  rw [bind_eq_ok] at h
  obtain ⟨components, hcomponents, h⟩ := h
  have hspec := parseVcsComponents_spec hcomponents
  injection h with h
  rw [← h]
  refine ⟨⟨?_, ?_, ?_⟩, rfl, rfl⟩
  · show _ ++ components.sourceLocation ++
      writeComponents components.componentOrder components.selector components.query = _
    rw [List.append_assoc, hspec.written]
  · intro vcs hvcs known hknown
    rw [← Option.some.inj hvcs] at hknown
    rw [← Option.some.inj hknown]
    refine ⟨hspec.fragment_free, ?_⟩
    rintro (rfl | rfl)
    · exact hspec.query_free rfl
    · exact hspec.query_free rfl
  · intro vcs hvcs known hknown selector hselector
    rw [← Option.some.inj hvcs] at hknown hselector
    rw [← Option.some.inj hknown]
    exact hspec.selector selector hselector

theorem parseExplicitVcsPrefix_some {remainder : Bytes}
    (h : parseExplicitVcsPrefix value = some (identifier, remainder)) :
    value = identifier ++ ascii "+" ++ remainder := by
  unfold parseExplicitVcsPrefix at h
  split at h
  · cases h
  · rename_i front rest hsplit
    obtain ⟨b, tail, rfl, hb, -, hvalue⟩ := splitAtFirst_some hsplit
    dsimp only at h
    split at h
    · cases h
    · split at h
      · cases h
      · split at h
        · injection h with h
          injection h with hidentifier hremainder
          rw [← hidentifier, ← hremainder, hvalue, of_decide_eq_true hb, List.append_assoc]
          rfl
        · cases h

theorem parseSourcePayload_spec (hlocation : entry.sourceLocation = entry.sourcePayload)
    (hvcs : entry.vcs = none) (h : parseSourcePayload entry = .ok parsed) :
    SourceSpec entry.sourcePayload parsed ∧ parsed.rawValue = entry.rawValue ∧
      parsed.destinationName = entry.destinationName := by
  -- an entry without a system is its location
  have hplain : ∀ kind scheme, SourceSpec entry.sourcePayload
      { entry with kind := kind, transportScheme := scheme } := by
    intro kind scheme
    refine ⟨?_, ?_, ?_⟩
    · unfold writeSource
      dsimp only
      rw [hvcs]
      exact hlocation
    · intro vcs hsome
      change entry.vcs = some vcs at hsome
      rw [hvcs] at hsome
      cases hsome
    · intro vcs hsome
      change entry.vcs = some vcs at hsome
      rw [hvcs] at hsome
      cases hsome
  unfold parseSourcePayload at h
  split at h
  · rename_i identifier remainder hprefix
    have hsource := parseExplicitVcsPrefix_some hprefix
    split at h
    · cases h
    · split at h
      · unfold parseUnrecognizedVcsEntry at h
        dsimp only at h
        generalize hscheme : parseUriScheme _ = scheme at h
        cases scheme with
        | none => cases h
        | some scheme =>
          injection h with h
          rw [← h]
          refine ⟨⟨?_, ?_, ?_⟩, rfl, rfl⟩
          · show identifier ++ ascii "+" ++ remainder ++ [] = entry.sourcePayload
            rw [List.append_nil, hsource]
          · intro vcs hsome kind hkind
            rw [← Option.some.inj hsome] at hkind
            cases hkind
          · intro vcs hsome kind hkind
            rw [← Option.some.inj hsome] at hkind
            cases hkind
      · obtain ⟨hspec, hraw, hname⟩ := parseVcsEntry_spec h
        rw [hsource]
        exact ⟨hspec, hraw, hname⟩
  · split at h
    · split at h
      · cases h
      · split at h
        · exact parseVcsEntry_spec h
        · injection h with h
          rw [← h]
          exact ⟨hplain _ _, rfl, rfl⟩
    · split at h
      · cases h
      · injection h with h
        rw [← h]
        exact ⟨hplain entry.kind entry.transportScheme, rfl, rfl⟩

theorem splitDestination_parts {destinationName : Option Bytes}
    (h : splitDestination value = .ok (destinationName, source)) :
    writeDestination destinationName ++ source = value := by
  unfold splitDestination at h
  split at h
  · injection h with h
    injection h with hname hsource
    rw [← hname, ← hsource]
    rfl
  · rename_i destination rest hsplit
    split at h
    · cases h
    · split at h
      · cases h
      · split at h
        · cases h
        · split at h
          · cases h
          · injection h with h
            injection h with hname hsource
            rw [← hname, ← hsource, splitAtText_some hsplit]
            exact List.append_assoc _ _ _

/-- Entries are split without loss: what is accepted is what its parts are
written as, a location ends where its system lets a component start, and a
selector is split at its equality signs. -/
theorem source_entry_lossless (value : Bytes) (entry : ParsedSourceEntry)
    (h : parseSourceEntry value = .ok entry) :
    entry.rawValue = value ∧ writeSourceEntry entry = value ∧
    (∀ vcs ∈ entry.vcs, ∀ kind ∈ vcs.recognizedKind,
      byte '#' ∉ entry.sourceLocation ∧
        (kind = .git ∨ kind = .fossil → byte '?' ∉ entry.sourceLocation)) ∧
    ∀ vcs ∈ entry.vcs, ∀ kind ∈ vcs.recognizedKind, ∀ selector ∈ vcs.selector,
      SelectorSplit kind selector := by
  unfold parseSourceEntry at h
  split at h
  · cases h
  · split at h
    · cases h
    · cases h
    · split at h
      · cases h
      · rw [bind_eq_ok] at h
        obtain ⟨⟨destinationName, source⟩, hdestination, h⟩ := h
        obtain ⟨hspec, hraw, hname⟩ := parseSourcePayload_spec rfl rfl h
        refine ⟨hraw, ?_, hspec.location, hspec.selector⟩
        unfold writeSourceEntry
        rw [hname, hspec.written]
        exact splitDestination_parts hdestination

/-- A destination, a prefix, a branch and a query. -/
theorem source_entry_lossless_sample :
    ∃ entry, parseSourceEntry (ascii "a::git+https://x/y?signed#branch=b=c") = .ok entry ∧
      writeSourceEntry entry = ascii "a::git+https://x/y?signed#branch=b=c" := by
  have hview : (parseSourceEntry (ascii "a::git+https://x/y?signed#branch=b=c")).toOption.map
      (·.destinationName) = some (some (ascii "a")) := by decide +kernel
  obtain ⟨entry, h, -⟩ := exists_ok_of_view hview
  exact ⟨entry, h, (source_entry_lossless _ entry h).2.1⟩

end Moguet.Source.EntryText
