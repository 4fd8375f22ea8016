import Moguet.Verified.Utf8

/-!
# Source entries

The parser of `source_entry_parser.cpp`: one entry of a `source` array, in the
syntax of makepkg. An entry may name the file it is stored under, declare a
version control system by a prefix or by its scheme, and select a revision in a
fragment. The same bytes separate components for some systems and belong to the
location for others.
-/

namespace Moguet.Source.Entry

open Verified.ByteString Verified.Utf8

inductive ParsedSourceEntryKind
  | local
  | remote
  | vcs
  | unrecognizedVcs
  deriving DecidableEq

inductive ParsedSourceVcsKind
  | bzr
  | fossil
  | git
  | hg
  | svn
  deriving DecidableEq

inductive ParsedSourceVcsDeclarationKind
  | explicitPrefix
  | nativeScheme
  deriving DecidableEq

inductive ParsedSourceSelectorRole
  | branch
  | commit
  | revision
  | tag
  deriving DecidableEq

inductive ParsedSourceQueryFlag
  | signed
  deriving DecidableEq

inductive ParsedSourceVcsComponentOrder
  | none
  | queryOnly
  | fragmentOnly
  | queryThenFragment
  | fragmentThenQuery
  deriving DecidableEq

structure ParsedSourceSelector where
  rawFragment : Bytes
  key : Bytes
  value : Bytes
  recognizedRole : Option ParsedSourceSelectorRole

structure ParsedSourceQuery where
  rawQuery : Bytes
  recognizedFlag : Option ParsedSourceQueryFlag

structure ParsedSourceVcsSyntax where
  rawIdentifier : Bytes
  recognizedKind : Option ParsedSourceVcsKind
  declarationKind : ParsedSourceVcsDeclarationKind
  selector : Option ParsedSourceSelector
  query : Option ParsedSourceQuery
  componentOrder : ParsedSourceVcsComponentOrder

structure ParsedSourceEntry where
  rawValue : Bytes
  destinationName : Option Bytes
  sourcePayload : Bytes
  kind : ParsedSourceEntryKind
  sourceLocation : Bytes
  transportScheme : Option Bytes
  vcs : Option ParsedSourceVcsSyntax

inductive SourceEntryParseErrorCode
  | emptyValue
  | invalidUtf8
  | controlCharacter
  | whitespace
  | emptyDestination
  | invalidDestination
  | emptySource
  | invalidSourceLocation
  | malformedSelector
  | malformedQuery
  | duplicateSelector
  | duplicateQuery
  deriving DecidableEq

abbrev Parsed := Except SourceEntryParseErrorCode

/-- A tab is the one control character a line may hold. -/
def isSingleLineCodePoint (codePoint : Nat) : Bool :=
  (codePoint = 0x09 || 0x1f < codePoint) && !(0x7f ≤ codePoint && codePoint ≤ 0x9f) &&
    codePoint ≠ 0x2028 && codePoint ≠ 0x2029

def validateSourceSyntaxText (value : Bytes) : TextStatus :=
  scanCodePoints isSingleLineCodePoint value.length value

def isAsciiWhitespace (b : UInt8) : Bool :=
  b = 0x20 || b = 0x09 || b = 0x0a || b = 0x0d || b = 0x0c || b = 0x0b

def containsAsciiWhitespace (value : Bytes) : Bool := value.any isAsciiWhitespace

def hasAsciiEdgeWhitespace (value : Bytes) : Bool :=
  value.head?.any isAsciiWhitespace || value.getLast?.any isAsciiWhitespace

def isUriSchemeCharacter (b : UInt8) : Bool :=
  isAsciiLower b || isAsciiUpper b || isAsciiDigit b || b = byte '+' || b = byte '-' ||
    b = byte '.'

/-- A letter and then characters of a scheme. -/
def isSchemeName (name : Bytes) : Bool :=
  match name with
  | [] => false
  | first :: rest =>
    (isAsciiLower first || isAsciiUpper first) && rest.all isUriSchemeCharacter

def parseUriScheme (value : Bytes) : Option Bytes :=
  match splitAtText (ascii "://") value with
  | none => none
  | some (scheme, rest) => if rest ≠ [] ∧ isSchemeName scheme then some scheme else none

def parseKnownVcsKind (identifier : Bytes) : Option ParsedSourceVcsKind :=
  if identifier = ascii "bzr" then some .bzr
  else if identifier = ascii "fossil" then some .fossil
  else if identifier = ascii "git" then some .git
  else if identifier = ascii "hg" then some .hg
  else if identifier = ascii "svn" then some .svn
  else none

/-- Named as candidates although makepkg has no owner for either. -/
def isCuratedUnrecognizedVcsIdentifier (identifier : Bytes) : Bool :=
  identifier = ascii "cvs" || identifier = ascii "darcs"

/-- The identifier before the first plus sign and the text after it. -/
def parseExplicitVcsPrefix (value : Bytes) : Option (Bytes × Bytes) :=
  match splitAtFirst (· = byte '+') value with
  | none => none
  | some (identifier, rest) =>
    let remainder := rest.tail
    if !isSchemeName identifier then none
    else if parseKnownVcsKind identifier = none ∧
        isCuratedUnrecognizedVcsIdentifier identifier = false then none
    else if (parseUriScheme remainder).isSome ∨
        (identifier = ascii "bzr" ∧ (ascii "lp:").isPrefixOf remainder = true ∧
          3 < remainder.length) then
      some (identifier, remainder)
    else none

/-- Git and Fossil share the helpers of makepkg; the others keep a question
mark in their location. -/
def usesMakepkgQueryComponents (kind : ParsedSourceVcsKind) : Bool :=
  kind = .git || kind = .fossil

/-- Bzr expands `${fragment#*=}`, the others `${fragment##*=}`. -/
def usesLastSelectorValueSeparator (kind : ParsedSourceVcsKind) : Bool := kind ≠ .bzr

def recognizedSelectorRole (kind : ParsedSourceVcsKind) (key : Bytes) :
    Option ParsedSourceSelectorRole :=
  match kind with
  | .git | .fossil =>
    if key = ascii "branch" then some .branch
    else if key = ascii "commit" then some .commit
    else if key = ascii "tag" then some .tag
    else none
  | .hg =>
    if key = ascii "branch" then some .branch
    else if key = ascii "revision" then some .revision
    else if key = ascii "tag" then some .tag
    else none
  | .bzr | .svn => if key = ascii "revision" then some .revision else none

/-- The scheme of a location, `lp:` for Bzr alone. -/
def parseTransportScheme (kind : ParsedSourceVcsKind) (location : Bytes) : Parsed Bytes :=
  if (ascii "lp:").isPrefixOf location then
    if kind ≠ .bzr ∨ location.length = 3 then .error .invalidSourceLocation
    else .ok (ascii "lp")
  else
    match parseUriScheme location with
    | none => .error .invalidSourceLocation
    | some scheme => .ok scheme

/-- The text after the last equality sign. -/
def afterLastEqual (fragment : Bytes) : Bytes := fragment.rtakeWhile (· ≠ byte '=')

def selectorValue (kind : ParsedSourceVcsKind) (rawFragment afterKey : Bytes) : Bytes :=
  if usesLastSelectorValueSeparator kind then afterLastEqual rawFragment else afterKey

def parseSelector (kind : ParsedSourceVcsKind) (rawFragment : Bytes) :
    Parsed ParsedSourceSelector :=
  match splitAtFirst (· = byte '=') rawFragment with
  | none => .error .malformedSelector
  | some (key, rest) =>
    let value := selectorValue kind rawFragment rest.tail
    if key = [] ∨ value = [] then .error .malformedSelector
    else .ok ⟨rawFragment, key, value, recognizedSelectorRole kind key⟩

def parseQuery (kind : ParsedSourceVcsKind) (rawQuery : Bytes) : Parsed ParsedSourceQuery :=
  if rawQuery = [] then .error .malformedQuery
  else
    .ok ⟨rawQuery, if kind = .git ∧ rawQuery = ascii "signed" then some .signed else none⟩

/-- The text of a component: after its own separator, up to the other one where
that comes later. -/
def componentText (source : Bytes) (position : Nat) (other : Option Nat) : Bytes :=
  let componentEnd :=
    match other with
    | some later => if position < later then later else source.length
    | none => source.length
  (source.take componentEnd).drop (position + 1)

def componentOrder (fragmentPosition queryPosition : Option Nat) :
    ParsedSourceVcsComponentOrder :=
  match fragmentPosition, queryPosition with
  | none, none => .none
  | none, some _ => .queryOnly
  | some _, none => .fragmentOnly
  | some fragment, some query =>
    if query < fragment then .queryThenFragment else .fragmentThenQuery

structure VcsComponents where
  sourceLocation : Bytes
  transportScheme : Bytes
  selector : Option ParsedSourceSelector
  query : Option ParsedSourceQuery
  componentOrder : ParsedSourceVcsComponentOrder

/-- The location and the components from the two separators on. -/
def componentsAt (source : Bytes) (kind : ParsedSourceVcsKind)
    (fragmentPosition queryPosition : Option Nat) : Parsed VcsComponents :=
  let locationEnd :=
    min (fragmentPosition.getD source.length) (queryPosition.getD source.length)
  let location := source.take locationEnd
  if location = [] then .error .invalidSourceLocation
  else do
    let transportScheme ← parseTransportScheme kind location
    let selector ←
      fragmentPosition.mapM fun position =>
        parseSelector kind (componentText source position queryPosition)
    let query ←
      queryPosition.mapM fun position =>
        parseQuery kind (componentText source position fragmentPosition)
    .ok ⟨location, transportScheme, selector, query,
      componentOrder fragmentPosition queryPosition⟩

def parseVcsComponents (source : Bytes) (kind : ParsedSourceVcsKind) : Parsed VcsComponents :=
  if 1 < source.count (byte '#') then .error .duplicateSelector
  else if usesMakepkgQueryComponents kind = true ∧ 1 < source.count (byte '?') then
    .error .duplicateQuery
  else
    componentsAt source kind (findByte (byte '#') source)
      (if usesMakepkgQueryComponents kind then findByte (byte '?') source else none)

/-- The name before the first `::` and the source after it. -/
def splitDestination (value : Bytes) : Parsed (Option Bytes × Bytes) :=
  match splitAtText (ascii "::") value with
  | none => .ok (none, value)
  | some (destination, source) =>
    if destination = [] then .error .emptyDestination
    else if hasAsciiEdgeWhitespace destination ∨ destination = ascii "." ∨
        destination = ascii ".." ∨ byte '/' ∈ destination then
      .error .invalidDestination
    else if source = [] then .error .emptySource
    else if hasAsciiEdgeWhitespace source then .error .whitespace
    else .ok (some destination, source)

/-- An entry whose system is known. -/
def parseVcsEntry (entry : ParsedSourceEntry) (identifier source : Bytes)
    (kind : ParsedSourceVcsKind) (declarationKind : ParsedSourceVcsDeclarationKind) :
    Parsed ParsedSourceEntry := do
  let components ← parseVcsComponents source kind
  .ok { entry with
    kind := .vcs
    sourceLocation := components.sourceLocation
    transportScheme := some components.transportScheme
    vcs := some ⟨identifier, some kind, declarationKind, components.selector,
      components.query, components.componentOrder⟩ }

/-- A prefix of a system makepkg has no owner for. -/
def parseUnrecognizedVcsEntry (entry : ParsedSourceEntry) (identifier remainder : Bytes) :
    Parsed ParsedSourceEntry :=
  let location :=
    match splitAtFirst (fun b => b = byte '?' || b = byte '#') remainder with
    | none => remainder
    | some (front, _) => front
  match parseUriScheme location with
  | none => .error .invalidSourceLocation
  | some scheme =>
    .ok { entry with
      kind := .unrecognizedVcs
      sourceLocation := remainder
      transportScheme := some scheme
      vcs := some ⟨identifier, none, .explicitPrefix, none, none, .none⟩ }

def parseSourcePayload (entry : ParsedSourceEntry) : Parsed ParsedSourceEntry :=
  match parseExplicitVcsPrefix entry.sourcePayload with
  | some (identifier, remainder) =>
    if containsAsciiWhitespace entry.sourcePayload then .error .whitespace
    else
      match parseKnownVcsKind identifier with
      | none => parseUnrecognizedVcsEntry entry identifier remainder
      | some kind => parseVcsEntry entry identifier remainder kind .explicitPrefix
  | none =>
    match parseUriScheme entry.sourcePayload with
    | some scheme =>
      if containsAsciiWhitespace entry.sourcePayload then .error .whitespace
      else
        match parseKnownVcsKind scheme with
        | some kind => parseVcsEntry entry scheme entry.sourcePayload kind .nativeScheme
        | none => .ok { entry with kind := .remote, transportScheme := some scheme }
    | none =>
      if (splitAtText (ascii "://") entry.sourcePayload).isSome then
        .error .invalidSourceLocation
      else .ok entry

def parseSourceEntry (value : Bytes) : Parsed ParsedSourceEntry :=
  if value = [] then .error .emptyValue
  else
    match validateSourceSyntaxText value with
    | .invalidUtf8 => .error .invalidUtf8
    | .refusedCodePoint => .error .controlCharacter
    | .valid =>
      if hasAsciiEdgeWhitespace value then .error .whitespace
      else do
        let (destinationName, source) ← splitDestination value
        parseSourcePayload
          ⟨value, destinationName, source, .local, source, none, none⟩

end Moguet.Source.Entry
