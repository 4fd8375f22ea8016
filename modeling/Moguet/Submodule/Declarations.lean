import Mathlib.Data.List.Forall2
import Mathlib.Data.List.Nodup
import Moguet.Verified.ByteString
import Moguet.Verified.Checked

/-!
# Submodule declarations

The `.gitmodules` file of a pinned tree (`pinned_submodule_closure.cpp`): a closed
subset of the Git configuration language with quoted strings and comments, read
line by line. Every section declares one submodule with a path and a URL.
-/

namespace Moguet.Submodule.Declarations

open Verified.ByteString Verified.Checked

variable {key value : Bytes}

inductive PinnedClosureFailureReason
  | invalidSelection
  | unsupportedTransport
  | malformedObservation
  | declarationMismatch
  | malformedDeclaration
  | unsupportedUpdatePolicy
  | unsafePath
  | pinnedObjectUnavailable
  | unexpectedObjectType
  | objectFormatMismatch
  | malformedTree
  | unsafeFilesystem
  | identityChanged
  | malformedRepository
  | resourceLimitExceeded
  | cancelled
  | gitProcessFailed
  | ioFailure
  | creationFailed
  | recursiveCycle
  deriving DecidableEq

/-- Every failure here is one of the declaration stage. -/
abbrev Declared (α : Type) : Type := Except PinnedClosureFailureReason α

def maximumPathBytes : Nat := 4096

def maximumComponentBytes : Nat := 255

def isSafePart (part : Bytes) : Bool :=
  part ≠ [] && part ≠ ascii "." && part ≠ ascii ".." && part ≠ ascii ".git" &&
    part.length ≤ maximumComponentBytes &&
    part.all fun b => !(b < 32 || b = 127 || b = byte '\\')

def isSafePath (path : Bytes) : Bool :=
  path ≠ [] && path.length ≤ maximumPathBytes && (path.splitOn (byte '/')).all isSafePart

/-- `safe_path`. -/
def safePath (path : Bytes) : Declared Unit :=
  if isSafePath path then .ok () else .error .unsafePath

/-- What the URL library reads of a URL: the scheme, the host, and whether there
is a user, a password, options, a query, a fragment or a zone. -/
structure ParsedUrl where
  scheme : Bytes
  host : Bytes
  hasOtherPart : Bool

/-- The URL library: `parse` is `curl_url_set` of the whole URL and the parts of
it, `withHost` the URL without a default port once its host is replaced. -/
structure UrlLibrary where
  parse : Bytes → Option ParsedUrl
  withHost : Bytes → Bytes → Option Bytes

def httpsPrefixLength : Nat := 8

def asciiLowercase (value : Bytes) : Bytes :=
  value.map fun b => if isAsciiUpper b then b + 32 else b

/-- `has_explicit_https_authority`. -/
def hasExplicitHttpsAuthority (value : Bytes) : Bool :=
  httpsPrefixLength < value.length &&
    asciiLowercase (value.take httpsPrefixLength) = ascii "https://" &&
    value[httpsPrefixLength]? ≠ some (byte '/')

def maximumRemoteBytes : Nat := 8 * 1024

/-- `canonicalize_https_git_remote`; an invalid remote throws. -/
def canonicalizeHttpsGitRemote (library : UrlLibrary) (remote : Bytes) : Option Bytes := do
  guard (remote ≠ [] ∧ hasExplicitHttpsAuthority remote = true ∧
    remote.length ≤ maximumRemoteBytes ∧ remote.all (fun b => !(b ≤ 32 || b = 127)) = true ∧
    byte '?' ∉ remote ∧ byte '#' ∉ remote)
  let parts ← library.parse remote
  guard (parts.scheme = ascii "https" ∧ parts.host ≠ [])
  guard (parts.host.all (fun b => b ≤ 127) = true ∧ byte '%' ∉ parts.host)
  guard (parts.hasOtherPart = false)
  let url ← library.withHost remote (asciiLowercase parts.host)
  guard (url ≠ [])
  some url

def isSpace (b : UInt8) : Bool := b = 32 || b = 9

/-- `trim`: blanks and tabs. -/
def trimSpaces (value : Bytes) : Bytes := (value.dropWhile isSpace).rdropWhile isSpace

/-- The loop of `config_value`: whether a string is open, the text so far, and how
much of it is kept. -/
def readConfigValue : Bool → Bytes → Nat → Bytes → Declared Bytes
  | quoted, result, significant, [] =>
    if quoted then .error .malformedDeclaration else .ok (result.take significant)
  | quoted, result, significant, b :: rest =>
    if b = byte '"' then readConfigValue (!quoted) result significant rest
    else if !quoted && (b = byte '#' || b = byte ';') then .ok (result.take significant)
    else if b = byte '\\' then
      match rest with
      | [] => .error .malformedDeclaration
      | escaped :: rest =>
        if escaped = byte '\\' || escaped = byte '"' then
          readConfigValue quoted (result ++ [escaped]) (result.length + 1) rest
        else .error .malformedDeclaration
    else if b < 32 && b ≠ 9 then .error .malformedDeclaration
    else
      readConfigValue quoted (result ++ [b])
        (if quoted || !isSpace b then result.length + 1 else significant) rest

def configValue (value : Bytes) : Declared Bytes :=
  readConfigValue false [] 0 (trimSpaces value)

def headerStart : Bytes := ascii "[submodule \""

def headerEnd : Bytes := ascii "\"]"

/-- The literal name of a section header. Where the two quotes are one byte the
count of `substr` wraps, and the rest of the line is taken. -/
def readHeaderName (line : Bytes) : Declared Bytes :=
  if headerStart.isPrefixOf line && headerEnd.isSuffixOf line then
    let rest := line.drop headerStart.length
    let name :=
      if line.length < headerStart.length + headerEnd.length then rest
      else rest.take (line.length - headerStart.length - headerEnd.length)
    if byte '"' ∈ name then .error .malformedDeclaration
    else do
      safePath name
      .ok name
  else .error .malformedDeclaration

/-- A line `key = value`; keys are read without their case. -/
def readAssignment (line : Bytes) : Declared (Bytes × Bytes) :=
  match splitAtFirst (fun b => b = byte '=') line with
  | some (key, _ :: value) => do
      let value ← configValue value
      .ok (asciiLowercase (trimSpaces key), value)
  | _ => .error .malformedDeclaration

/-- Blank lines and comments. -/
def isIgnored (line : Bytes) : Bool :=
  line.head? = none || line.head? = some (byte '#') || line.head? = some (byte ';')

def isHeader (line : Bytes) : Bool := line.head? = some (byte '[')

structure Declaration where
  name : Bytes
  path : Bytes
  locator : Bytes
  deriving DecidableEq

/-- The sections that are complete, the one that is open, and the sets `names`,
`paths` and `keys`. -/
structure DeclarationState where
  finished : List Declaration
  current : Option Declaration
  names : List Bytes
  paths : List Bytes
  keys : List Bytes

def DeclarationState.initial : DeclarationState := ⟨[], none, [], [], []⟩

/-- `finish`: the open section is complete. -/
def finish (state : DeclarationState) : Declared DeclarationState :=
  match state.current with
  | none => .ok state
  | some entry => do
      if ascii "path" ∈ state.keys ∧ ascii "url" ∈ state.keys then
        safePath entry.path
        if entry.path ∈ state.paths then .error .declarationMismatch
        else .ok { state with
          finished := state.finished ++ [entry]
          current := none
          paths := state.paths ++ [entry.path] }
      else .error .declarationMismatch

def openSection (state : DeclarationState) (name : Bytes) : Declared DeclarationState :=
  if name ∈ state.names then .error .declarationMismatch
  else .ok { state with current := some ⟨name, [], []⟩, names := state.names ++ [name], keys := [] }

/-- What an assignment does to the open section. -/
def assign (library : UrlLibrary) (entry : Declaration) (key value : Bytes) :
    Declared Declaration :=
  if key = ascii "path" then .ok { entry with path := value }
  else if key = ascii "url" then
    match canonicalizeHttpsGitRemote library value with
    | some locator => .ok { entry with locator := locator }
    | none => .error .unsupportedTransport
  else if key = ascii "update" ∧ value = ascii "checkout" then .ok entry
  else .error .unsupportedUpdatePolicy

/-- A key is refused the second time, before its value is read. -/
def readKey (library : UrlLibrary) (state : DeclarationState) (line : Bytes) :
    Declared DeclarationState :=
  match state.current, splitAtFirst (fun b => b = byte '=') line with
  | some entry, some (key, _ :: value) => do
      let key := asciiLowercase (trimSpaces key)
      if key ∈ state.keys then .error .malformedDeclaration
      else
        let value ← configValue value
        let entry ← assign library entry key value
        .ok { state with current := some entry, keys := state.keys ++ [key] }
  | _, _ => .error .malformedDeclaration

def readLine (library : UrlLibrary) (state : DeclarationState) (line : Bytes) :
    Declared DeclarationState :=
  let line := trimSpaces line
  if isIgnored line then .ok state
  else if isHeader line then do
    let state ← finish state
    let name ← readHeaderName line
    openSection state name
  else readKey library state line

/-- A declared path that lies below another. -/
def liesBelow (paths : List Bytes) (path : Bytes) : Bool :=
  (List.range path.length).any fun i =>
    path[i]? = some (byte '/') && path.take i ∈ paths

def declarations (library : UrlLibrary) (bytes : Bytes) : Declared (List Declaration) := do
  let state ← (bytes.splitOn (byte '\n')).foldlM (readLine library) DeclarationState.initial
  let state ← finish state
  if state.paths.any (liesBelow state.paths) then .error .unsafePath
  else .ok state.finished

/-- The lines that say something. -/
def significantLines (lines : List Bytes) : List Bytes :=
  (lines.map trimSpaces).filter fun line => !isIgnored line

/-- The lines of a section assign each key once. -/
def Assigns (body : List Bytes) (assignments : List (Bytes × Bytes)) : Prop :=
  List.Forall₂ (fun line assignment => readAssignment line = .ok assignment) body assignments ∧
    (assignments.map Prod.fst).Nodup

section Reading

variable {library : UrlLibrary}

/-- The fields of an entry are what has been assigned. -/
structure Assigned (library : UrlLibrary) (entry : Declaration)
    (assignments : List (Bytes × Bytes)) : Prop where
  path : ∀ value, (ascii "path", value) ∈ assignments → entry.path = value
  url : ∀ value, (ascii "url", value) ∈ assignments →
    canonicalizeHttpsGitRemote library value = some entry.locator

theorem readAssignment_eq {line : Bytes} {equal : UInt8} {rest : Bytes}
    (hsplit : splitAtFirst (fun b => b = byte '=') line = some (key, equal :: rest))
    (hvalue : configValue rest = .ok value) :
    readAssignment line = .ok (asciiLowercase (trimSpaces key), value) := by
  unfold readAssignment
  rw [hsplit]
  exact bind_eq_ok.mpr ⟨value, hvalue, rfl⟩

/-- What an assignment of a fresh key does to the fields. -/
theorem assigned_concat {entry changed : Declaration} {assignments : List (Bytes × Bytes)}
    (h : Assigned library entry assignments) (hfresh : key ∉ assignments.map Prod.fst)
    (hassign : assign library entry key value = .ok changed) :
    changed.name = entry.name ∧ Assigned library changed (assignments ++ [(key, value)]) := by
  have hother : ∀ found, (key, found) ∉ assignments := by
    intro found hmem
    exact hfresh (List.mem_map_of_mem (f := Prod.fst) hmem)
  unfold assign at hassign
  split at hassign
  · rename_i hkey
    rw [← Except.ok.inj hassign]
    refine ⟨rfl, ?_, ?_⟩
    · intro found hfound
      rcases List.mem_append.mp hfound with hold | hnew
      · rw [← hkey] at hold
        exact absurd hold (hother found)
      · injection List.mem_singleton.mp hnew with _ hvalue
        exact hvalue.symm
    · intro found hfound
      rcases List.mem_append.mp hfound with hold | hnew
      · exact h.url found hold
      · injection List.mem_singleton.mp hnew with hname _
        rw [hkey] at hname
        exact absurd hname (by decide)
  · rename_i hpath
    split at hassign
    · rename_i hkey
      split at hassign
      · rename_i locator hlocator
        rw [← Except.ok.inj hassign]
        refine ⟨rfl, ?_, ?_⟩
        · intro found hfound
          rcases List.mem_append.mp hfound with hold | hnew
          · exact h.path found hold
          · injection List.mem_singleton.mp hnew with hname _
            exact absurd hname.symm hpath
        · intro found hfound
          rcases List.mem_append.mp hfound with hold | hnew
          · rw [← hkey] at hold
            exact absurd hold (hother found)
          · injection List.mem_singleton.mp hnew with _ hvalue
            rw [hvalue]
            exact hlocator
      · cases hassign
    · rename_i hurl
      split at hassign
      · rw [← Except.ok.inj hassign]
        refine ⟨rfl, ?_, ?_⟩
        · intro found hfound
          rcases List.mem_append.mp hfound with hold | hnew
          · exact h.path found hold
          · injection List.mem_singleton.mp hnew with hname _
            exact absurd hname.symm hpath
        · intro found hfound
          rcases List.mem_append.mp hfound with hold | hnew
          · exact h.url found hold
          · injection List.mem_singleton.mp hnew with hname _
            exact absurd hname.symm hurl
      · cases hassign

end Reading

end Moguet.Submodule.Declarations
