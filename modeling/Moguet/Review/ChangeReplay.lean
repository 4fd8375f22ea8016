import Moguet.Review.GitParser

/-!
# Replaying the changes of a review

What a reviewer is shown is the whole difference between the two trees: the
assembled changes, applied one after the other to the baseline inventory, give
the target inventory, and every path that differs is listed exactly once.
-/

namespace Moguet.Review.ChangeReplay

open Verified ByteString Checked KeyedList Fields Projection GitParser

variable {baseline target : ReviewedSourceTreeInventory}

variable {inventory : ReviewedSourceTreeInventory} {entries : List ReviewedSourceFileVersion}
  {version newEntry oldEntry : ReviewedSourceFileVersion} {path output : Bytes}
  {state after : AssemblyState} {status : StatusRecord} {change : ReviewedSourceFileChange}
  {consumed : List Bytes} {detectRenames : Bool} {statuses : List StatusRecord}

/-! ## What a change means -/

def removeVersion (entries : List ReviewedSourceFileVersion)
    (version : ReviewedSourceFileVersion) : Option (List ReviewedSourceFileVersion) :=
  if lookup ReviewedSourceFileVersion.rawPath entries version.rawPath = some version then
    some (without ReviewedSourceFileVersion.rawPath entries version.rawPath)
  else none

def insertVersion (entries : List ReviewedSourceFileVersion)
    (version : ReviewedSourceFileVersion) : Option (List ReviewedSourceFileVersion) :=
  if lookup ReviewedSourceFileVersion.rawPath entries version.rawPath = none then
    some (entries ++ [version])
  else none

/-- A change applies only where its old version is, exactly as recorded, and
never over another entry. -/
def applyChange (entries : List ReviewedSourceFileVersion) :
    ReviewedSourceFileChange → Option (List ReviewedSourceFileVersion)
  | .added newVersion _ => insertVersion entries newVersion
  | .deleted oldVersion _ => removeVersion entries oldVersion
  | .modified oldVersion newVersion _ | .typeChanged oldVersion newVersion _ =>
    if oldVersion.rawPath = newVersion.rawPath then do
      let entries ← removeVersion entries oldVersion
      insertVersion entries newVersion
    else none
  | .renamed oldVersion newVersion _ _ => do
      let entries ← removeVersion entries oldVersion
      insertVersion entries newVersion

def replay (entries : List ReviewedSourceFileVersion)
    (changes : List ReviewedSourceFileChange) : Option (List ReviewedSourceFileVersion) :=
  changes.foldlM applyChange entries

/-- The paths a change lists. -/
def changedPaths : ReviewedSourceFileChange → List Bytes
  | .added newVersion _ => [newVersion.rawPath]
  | .deleted oldVersion _ => [oldVersion.rawPath]
  | .modified oldVersion newVersion _ | .typeChanged oldVersion newVersion _
  | .renamed oldVersion newVersion _ _ => [oldVersion.rawPath, newVersion.rawPath]

def covering (path : Bytes) (changes : List ReviewedSourceFileChange) :
    List ReviewedSourceFileChange :=
  changes.filter fun change => path ∈ changedPaths change

theorem removeVersion_spec (hunique : Unique ReviewedSourceFileVersion.rawPath entries)
    (h : lookup ReviewedSourceFileVersion.rawPath entries version.rawPath = some version) :
    ∃ after, removeVersion entries version = some after ∧
      Unique ReviewedSourceFileVersion.rawPath after ∧
      ∀ path, lookup ReviewedSourceFileVersion.rawPath after path =
        if path = version.rawPath then none
        else lookup ReviewedSourceFileVersion.rawPath entries path := by
  refine ⟨_, if_pos h, unique_without hunique _, ?_⟩
  intro path
  exact lookup_without entries version.rawPath path

theorem insertVersion_spec (hunique : Unique ReviewedSourceFileVersion.rawPath entries)
    (h : lookup ReviewedSourceFileVersion.rawPath entries version.rawPath = none) :
    ∃ after, insertVersion entries version = some after ∧
      Unique ReviewedSourceFileVersion.rawPath after ∧
      ∀ path, lookup ReviewedSourceFileVersion.rawPath after path =
        if path = version.rawPath then some version
        else lookup ReviewedSourceFileVersion.rawPath entries path :=
  ⟨_, if_pos h, unique_concat hunique h, lookup_concat h⟩

theorem findEntry_some (h : findEntry inventory path = some version) : version.rawPath = path :=
  (lookup_some h).2

/-- What one accepted record adds to the state. -/
inductive Extends (baseline target : ReviewedSourceTreeInventory)
    (state : AssemblyState) : AssemblyState → Prop
  | added (path : Bytes) (newEntry : ReviewedSourceFileVersion)
      (content : ReviewedSourceContentChange)
      (hold : findEntry baseline path = none)
      (hnew : findEntry target path = some newEntry)
      (hfresh : path ∉ state.consumedNew) :
      Extends baseline target state {
        consumedOld := state.consumedOld
        consumedNew := path :: state.consumedNew
        changes := state.changes ++ [.added newEntry content] }
  | deleted (path : Bytes) (oldEntry : ReviewedSourceFileVersion)
      (content : ReviewedSourceContentChange)
      (hold : findEntry baseline path = some oldEntry)
      (hnew : findEntry target path = none)
      (hfresh : path ∉ state.consumedOld) :
      Extends baseline target state {
        consumedOld := path :: state.consumedOld
        consumedNew := state.consumedNew
        changes := state.changes ++ [.deleted oldEntry content] }
  | replaced (path : Bytes) (oldEntry newEntry : ReviewedSourceFileVersion)
      (change : ReviewedSourceFileChange)
      (hold : findEntry baseline path = some oldEntry)
      (hnew : findEntry target path = some newEntry) (hdiffers : oldEntry ≠ newEntry)
      (hfreshOld : path ∉ state.consumedOld) (hfreshNew : path ∉ state.consumedNew)
      (hchange : (∃ content, change = .modified oldEntry newEntry content) ∨
        ∃ content, change = .typeChanged oldEntry newEntry content) :
      Extends baseline target state {
        consumedOld := path :: state.consumedOld
        consumedNew := path :: state.consumedNew
        changes := state.changes ++ [change] }
  | renamed (oldPath newPath : Bytes) (oldEntry newEntry : ReviewedSourceFileVersion)
      (similarity : Nat) (content : ReviewedSourceContentChange)
      (hold : findEntry baseline oldPath = some oldEntry)
      (hgone : findEntry target oldPath = none)
      (hnew : findEntry target newPath = some newEntry)
      (hcame : findEntry baseline newPath = none)
      (hfreshOld : oldPath ∉ state.consumedOld)
      (hfreshNew : newPath ∉ state.consumedNew) :
      Extends baseline target state {
        consumedOld := oldPath :: state.consumedOld
        consumedNew := newPath :: state.consumedNew
        changes := state.changes ++ [.renamed oldEntry newEntry similarity content] }

theorem assembleChange_extends {content : ReviewedSourceContentChange}
    (hplain : status.code ≠ .renamed → status.oldPath = status.newPath)
    (h : assembleChange baseline target state status content = some after) :
    Extends baseline target state after := by
  unfold assembleChange at h
  split at h
  · rename_i hcode hold hnew
    have hpath := hplain (by rw [hcode]; decide)
    rw [hpath] at hold
    split at h
    · cases h
    · rename_i hfresh
      injection h with h
      rw [← h]
      exact .added status.newPath _ content hold hnew hfresh
  · rename_i hcode hold hnew
    have hpath := hplain (by rw [hcode]; decide)
    rw [← hpath] at hnew
    split at h
    · cases h
    · rename_i hfresh
      injection h with h
      rw [← h]
      exact .deleted status.oldPath _ content hold hnew hfresh
  · rename_i hcode hold hnew
    have hpath := hplain (by rw [hcode]; decide)
    rw [hpath] at hold
    split at h
    · cases h
    · rename_i hfresh
      injection h with h
      simp only [not_or] at hfresh
      rw [← h, hpath]
      rw [hpath] at hfresh
      exact .replaced status.newPath _ _ _ hold hnew hfresh.1 hfresh.2.2.1 hfresh.2.2.2
        (Or.inl ⟨content, rfl⟩)
  · rename_i oldEntry newEntry hcode hold hnew
    have hpath := hplain (by rw [hcode]; decide)
    rw [hpath] at hold
    split at h
    · cases h
    · rename_i hfresh
      injection h with h
      simp only [not_or] at hfresh
      rw [← h, hpath]
      rw [hpath] at hfresh
      have hdiffers : oldEntry ≠ newEntry := fun hsame => hfresh.1 (by rw [hsame])
      exact .replaced status.newPath _ _ _ hold hnew hdiffers hfresh.2.1 hfresh.2.2
        (Or.inr ⟨content, rfl⟩)
  · rename_i hold hnew
    split at h
    · cases h
    · split at h
      · cases h
      · rename_i hfresh
        injection h with h
        simp only [not_or, Option.not_isSome_iff_eq_none] at hfresh
        rw [← h]
        exact .renamed status.oldPath status.newPath _ _ _ content hold hfresh.1 hnew
          hfresh.2.1 hfresh.2.2.1 hfresh.2.2.2
  · cases h

/-! ## The whole loop -/

/-- A path that one of the changes so far is about. -/
def Listed (state : AssemblyState) (path : Bytes) : Prop :=
  path ∈ state.consumedOld ∨ path ∈ state.consumedNew

instance (state : AssemblyState) (path : Bytes) : Decidable (Listed state path) :=
  inferInstanceAs (Decidable (_ ∨ _))

/-- What a change does to the entries it applies to: the paths it lists get
their target version, every other path keeps its own. -/
def TakesOver (baseline target : ReviewedSourceTreeInventory)
    (change : ReviewedSourceFileChange) : Prop :=
  ∀ entries, Unique ReviewedSourceFileVersion.rawPath entries →
    (∀ path ∈ changedPaths change,
      lookup ReviewedSourceFileVersion.rawPath entries path = findEntry baseline path) →
    ∃ after, applyChange entries change = some after ∧
      Unique ReviewedSourceFileVersion.rawPath after ∧
      ∀ path, lookup ReviewedSourceFileVersion.rawPath after path =
        if path ∈ changedPaths change then findEntry target path
        else lookup ReviewedSourceFileVersion.rawPath entries path

/-- The invariant of the assembly loop. -/
structure Assembled (baseline target : ReviewedSourceTreeInventory)
    (state : AssemblyState) : Prop where
  old_found : ∀ path ∈ state.consumedOld, findEntry baseline path ≠ none
  new_found : ∀ path ∈ state.consumedNew, findEntry target path ≠ none
  differs : ∀ path, Listed state path → findEntry baseline path ≠ findEntry target path
  covered : ∀ path, (covering path state.changes).length =
    if Listed state path then 1 else 0
  replayed : ∃ current, replay baseline.entries state.changes = some current ∧
    Unique ReviewedSourceFileVersion.rawPath current ∧
    ∀ path, lookup ReviewedSourceFileVersion.rawPath current path =
      if Listed state path then findEntry target path else findEntry baseline path

/-- What one record adds, whatever its status: a single change about paths
that no earlier change lists and whose entries differ. -/
structure ExtendsBy (baseline target : ReviewedSourceTreeInventory)
    (state after : AssemblyState) (change : ReviewedSourceFileChange) : Prop where
  changes : after.changes = state.changes ++ [change]
  listed : ∀ path, Listed after path ↔ path ∈ changedPaths change ∨ Listed state path
  fresh : ∀ path ∈ changedPaths change, ¬ Listed state path
  differs : ∀ path ∈ changedPaths change,
    findEntry baseline path ≠ findEntry target path
  takesOver : TakesOver baseline target change
  old_found : ∀ path ∈ after.consumedOld, path ∉ state.consumedOld →
    findEntry baseline path ≠ none
  new_found : ∀ path ∈ after.consumedNew, path ∉ state.consumedNew →
    findEntry target path ≠ none

theorem replay_concat {current : List ReviewedSourceFileVersion}
    {changes : List ReviewedSourceFileChange} (h : replay entries changes = some current)
    (change : ReviewedSourceFileChange) :
    replay entries (changes ++ [change]) = applyChange current change := by
  unfold replay at h ⊢
  rw [List.foldlM_append, h]
  simp

theorem covering_concat (path : Bytes) (changes : List ReviewedSourceFileChange)
    (change : ReviewedSourceFileChange) :
    (covering path (changes ++ [change])).length = (covering path changes).length +
        if path ∈ changedPaths change then 1 else 0 := by
  unfold covering
  rw [List.filter_append, List.length_append]
  by_cases hmem : path ∈ changedPaths change
  · simp [hmem]
  · simp [hmem]

theorem Assembled.initial (baseline target : ReviewedSourceTreeInventory) :
    Assembled baseline target {} where
  old_found := fun _ hmem => absurd hmem List.not_mem_nil
  new_found := fun _ hmem => absurd hmem List.not_mem_nil
  differs := by
    rintro path (hmem | hmem)
    · exact absurd hmem List.not_mem_nil
    · exact absurd hmem List.not_mem_nil
  covered := by
    intro path
    have hnot : ¬ Listed {} path := by simp [Listed]
    rw [if_neg hnot]
    rfl
  replayed := by
    refine ⟨baseline.entries, rfl, baseline.unique_paths, ?_⟩
    intro path
    have hnot : ¬ Listed {} path := by simp [Listed]
    rw [if_neg hnot]
    rfl

theorem Assembled.extend (hstate : Assembled baseline target state)
    (hextends : ExtendsBy baseline target state after change) :
    Assembled baseline target after where
  old_found := by
    intro path hmem
    by_cases hbefore : path ∈ state.consumedOld
    · exact hstate.old_found path hbefore
    · exact hextends.old_found path hmem hbefore
  new_found := by
    intro path hmem
    by_cases hbefore : path ∈ state.consumedNew
    · exact hstate.new_found path hbefore
    · exact hextends.new_found path hmem hbefore
  differs := by
    intro path hlisted
    rcases (hextends.listed path).mp hlisted with hmem | hbefore
    · exact hextends.differs path hmem
    · exact hstate.differs path hbefore
  covered := by
    intro path
    rw [hextends.changes, covering_concat, hstate.covered path]
    by_cases hmem : path ∈ changedPaths change
    · have hlisted : Listed after path := (hextends.listed path).mpr (Or.inl hmem)
      rw [if_pos hmem, if_neg (hextends.fresh path hmem), if_pos hlisted]
    · have hsame : Listed after path ↔ Listed state path := by
        rw [hextends.listed path]
        simp [hmem]
      simp [hmem, hsame]
  replayed := by
    obtain ⟨current, hreplay, hunique, hlookup⟩ := hstate.replayed
    have huntouched : ∀ path ∈ changedPaths change,
        lookup ReviewedSourceFileVersion.rawPath current path = findEntry baseline path := by
      intro path hmem
      rw [hlookup path, if_neg (hextends.fresh path hmem)]
    obtain ⟨next, happly, hnext, hafter⟩ :=
      hextends.takesOver current hunique huntouched
    refine ⟨next, ?_, hnext, ?_⟩
    · rw [hextends.changes, replay_concat hreplay]
      exact happly
    · intro path
      rw [hafter path, hlookup path]
      by_cases hmem : path ∈ changedPaths change
      · rw [if_pos hmem, if_pos ((hextends.listed path).mpr (Or.inl hmem))]
      · have hsame : Listed after path ↔ Listed state path := by
          rw [hextends.listed path]
          simp [hmem]
        simp [hmem, hsame]

/-! ## The four cases take over their paths -/

section

variable {baseline target : ReviewedSourceTreeInventory}

theorem added_takesOver (content : ReviewedSourceContentChange)
    (hold : findEntry baseline newEntry.rawPath = none)
    (hnew : findEntry target newEntry.rawPath = some newEntry) :
    TakesOver baseline target (.added newEntry content) := by
  intro entries hunique hbefore
  have hfree := hbefore newEntry.rawPath (by simp [changedPaths])
  rw [hold] at hfree
  obtain ⟨after, hinsert, hafter, hlookup⟩ := insertVersion_spec hunique hfree
  refine ⟨after, hinsert, hafter, ?_⟩
  intro path
  rw [hlookup path]
  by_cases hpath : path = newEntry.rawPath
  · simp [changedPaths, hpath, hnew]
  · simp [changedPaths, hpath]

theorem deleted_takesOver (content : ReviewedSourceContentChange)
    (hold : findEntry baseline oldEntry.rawPath = some oldEntry)
    (hnew : findEntry target oldEntry.rawPath = none) :
    TakesOver baseline target (.deleted oldEntry content) := by
  intro entries hunique hbefore
  have hthere := hbefore oldEntry.rawPath (by simp [changedPaths])
  rw [hold] at hthere
  obtain ⟨after, hremove, hafter, hlookup⟩ := removeVersion_spec hunique hthere
  refine ⟨after, hremove, hafter, ?_⟩
  intro path
  rw [hlookup path]
  by_cases hpath : path = oldEntry.rawPath
  · simp [changedPaths, hpath, hnew]
  · simp [changedPaths, hpath]

/-- Removing one version and inserting another, on the same path or on a free
one. -/
theorem moved_spec (hunique : Unique ReviewedSourceFileVersion.rawPath entries)
    (hthere : lookup ReviewedSourceFileVersion.rawPath entries oldEntry.rawPath =
      some oldEntry) (hfree : newEntry.rawPath = oldEntry.rawPath ∨
      lookup ReviewedSourceFileVersion.rawPath entries newEntry.rawPath = none) :
    ∃ after, (do
        let entries ← removeVersion entries oldEntry
        insertVersion entries newEntry) = some after ∧
      Unique ReviewedSourceFileVersion.rawPath after ∧
      ∀ path, lookup ReviewedSourceFileVersion.rawPath after path =
        if path = newEntry.rawPath then some newEntry
        else if path = oldEntry.rawPath then none
        else lookup ReviewedSourceFileVersion.rawPath entries path := by
  obtain ⟨removed, hremove, hremoved, hwithout⟩ := removeVersion_spec hunique hthere
  have hnone : lookup ReviewedSourceFileVersion.rawPath removed newEntry.rawPath = none := by
    rw [hwithout]
    split
    · rfl
    · rename_i hother
      exact hfree.resolve_left hother
  obtain ⟨after, hinsert, hafter, hlookup⟩ := insertVersion_spec hremoved hnone
  refine ⟨after, ?_, hafter, ?_⟩
  · rw [hremove]
    exact hinsert
  · intro path
    rw [hlookup path, hwithout path]

theorem replaced_takesOver (hpath : newEntry.rawPath = oldEntry.rawPath)
    (hold : findEntry baseline oldEntry.rawPath = some oldEntry)
    (hnew : findEntry target oldEntry.rawPath = some newEntry)
    (hlist : changedPaths change = [oldEntry.rawPath, newEntry.rawPath])
    (happly : ∀ entries, applyChange entries change =
      if oldEntry.rawPath = newEntry.rawPath then do
        let entries ← removeVersion entries oldEntry
        insertVersion entries newEntry
      else none) : TakesOver baseline target change := by
  intro entries hunique hbefore
  have hthere := hbefore oldEntry.rawPath (by simp [hlist])
  rw [hold] at hthere
  obtain ⟨after, hmoved, hafter, hlookup⟩ :=
    moved_spec hunique hthere (Or.inl hpath)
  refine ⟨after, ?_, hafter, ?_⟩
  · rw [happly, if_pos hpath.symm]
    exact hmoved
  · intro path
    rw [hlookup path, hlist, hpath]
    by_cases hsame : path = oldEntry.rawPath
    · simp [hsame, hnew]
    · simp [hsame]

theorem renamed_takesOver (similarity : Nat) (content : ReviewedSourceContentChange)
    (hold : findEntry baseline oldEntry.rawPath = some oldEntry)
    (hgone : findEntry target oldEntry.rawPath = none)
    (hnew : findEntry target newEntry.rawPath = some newEntry)
    (hcame : findEntry baseline newEntry.rawPath = none) :
    TakesOver baseline target (.renamed oldEntry newEntry similarity content) := by
  intro entries hunique hbefore
  have hthere := hbefore oldEntry.rawPath (by simp [changedPaths])
  rw [hold] at hthere
  have hfree := hbefore newEntry.rawPath (by simp [changedPaths])
  rw [hcame] at hfree
  obtain ⟨after, hmoved, hafter, hlookup⟩ :=
    moved_spec hunique hthere (Or.inr hfree)
  refine ⟨after, hmoved, hafter, ?_⟩
  intro path
  rw [hlookup path]
  by_cases hpath : path = newEntry.rawPath
  · simp [changedPaths, hpath, hnew]
  · by_cases hfrom : path = oldEntry.rawPath
    · rw [if_neg hpath, if_pos hfrom, if_pos (by simp [changedPaths, hfrom]), hfrom,
        hgone]
    · simp [changedPaths, hpath, hfrom]

end

theorem Assembled.not_listed (hstate : Assembled baseline target state)
    (hold : path ∉ state.consumedOld ∨ findEntry baseline path = none)
    (hnew : path ∉ state.consumedNew ∨ findEntry target path = none) : ¬ Listed state path := by
  rintro (hmem | hmem)
  · rcases hold with hfresh | hnone
    · exact hfresh hmem
    · exact hstate.old_found path hmem hnone
  · rcases hnew with hfresh | hnone
    · exact hfresh hmem
    · exact hstate.new_found path hmem hnone

/-- A path consumed by this record and not before is the record's own. -/
theorem found_of_cons {other : Bytes} {entry : ReviewedSourceFileVersion}
    (hentry : findEntry inventory path = some entry) (hmem : other ∈ path :: consumed)
    (hbefore : other ∉ consumed) : findEntry inventory other ≠ none := by
  rcases List.mem_cons.mp hmem with hsame | hmem
  · rw [hsame, hentry]
    exact Option.some_ne_none entry
  · exact absurd hmem hbefore

theorem Extends.by_change (h : Extends baseline target state after)
    (hstate : Assembled baseline target state) :
    ∃ change, ExtendsBy baseline target state after change := by
  cases h with
  | added path newEntry content hold hnew hfresh =>
    have hpath := findEntry_some hnew
    refine ⟨.added newEntry content, rfl, ?_, ?_, ?_, ?_, ?_, ?_⟩
    · intro other
      simp only [Listed, changedPaths, List.mem_cons, List.not_mem_nil, or_false, hpath]
      tauto
    · intro other hmem
      simp only [changedPaths, List.mem_singleton, hpath] at hmem
      rw [hmem]
      exact hstate.not_listed (Or.inr hold) (Or.inl hfresh)
    · intro other hmem
      simp only [changedPaths, List.mem_singleton, hpath] at hmem
      rw [hmem, hold, hnew]
      exact (Option.some_ne_none newEntry).symm
    · rw [← hpath] at hold hnew
      exact added_takesOver content hold hnew
    · intro other hmem hbefore
      exact absurd hmem hbefore
    · intro other hmem hbefore
      exact found_of_cons hnew hmem hbefore
  | deleted path oldEntry content hold hnew hfresh =>
    have hpath := findEntry_some hold
    refine ⟨.deleted oldEntry content, rfl, ?_, ?_, ?_, ?_, ?_, ?_⟩
    · intro other
      simp only [Listed, changedPaths, List.mem_cons, List.not_mem_nil, or_false, hpath]
      tauto
    · intro other hmem
      simp only [changedPaths, List.mem_singleton, hpath] at hmem
      rw [hmem]
      exact hstate.not_listed (Or.inl hfresh) (Or.inr hnew)
    · intro other hmem
      simp only [changedPaths, List.mem_singleton, hpath] at hmem
      rw [hmem, hold, hnew]
      exact Option.some_ne_none oldEntry
    · rw [← hpath] at hold hnew
      exact deleted_takesOver content hold hnew
    · intro other hmem hbefore
      exact found_of_cons hold hmem hbefore
    · intro other hmem hbefore
      exact absurd hmem hbefore
  | replaced path oldEntry newEntry change hold hnew hdiffers hfreshOld hfreshNew hchange =>
    have hpathOld := findEntry_some hold
    have hpathNew := findEntry_some hnew
    have hlist : changedPaths change = [oldEntry.rawPath, newEntry.rawPath] := by
      rcases hchange with ⟨content, rfl⟩ | ⟨content, rfl⟩
      · rfl
      · rfl
    refine ⟨change, rfl, ?_, ?_, ?_, ?_, ?_, ?_⟩
    · intro other
      simp only [Listed, hlist, List.mem_cons, List.not_mem_nil, or_false, hpathOld, hpathNew]
      tauto
    · intro other hmem
      simp only [hlist, List.mem_cons, List.not_mem_nil, or_false, hpathOld, hpathNew,
        or_self] at hmem
      rw [hmem]
      exact hstate.not_listed (Or.inl hfreshOld) (Or.inl hfreshNew)
    · intro other hmem
      simp only [hlist, List.mem_cons, List.not_mem_nil, or_false, hpathOld, hpathNew,
        or_self] at hmem
      rw [hmem, hold, hnew]
      intro hsame
      injection hsame with hsame
      exact hdiffers hsame
    · rw [← hpathOld] at hold hnew
      refine replaced_takesOver (hpathNew.trans hpathOld.symm) hold hnew hlist ?_
      intro entries
      rcases hchange with ⟨content, rfl⟩ | ⟨content, rfl⟩
      · rfl
      · rfl
    · intro other hmem hbefore
      exact found_of_cons hold hmem hbefore
    · intro other hmem hbefore
      exact found_of_cons hnew hmem hbefore
  | renamed oldPath newPath oldEntry newEntry similarity content hold hgone hnew hcame
      hfreshOld hfreshNew =>
      have hpathOld := findEntry_some hold
      have hpathNew := findEntry_some hnew
      refine ⟨.renamed oldEntry newEntry similarity content, rfl, ?_, ?_, ?_, ?_, ?_, ?_⟩
      · intro other
        simp only [Listed, changedPaths, List.mem_cons, List.not_mem_nil, or_false,
          hpathOld, hpathNew]
        tauto
      · intro other hmem
        simp only [changedPaths, List.mem_cons, List.not_mem_nil, or_false, hpathOld,
          hpathNew] at hmem
        rcases hmem with rfl | rfl
        · exact hstate.not_listed (Or.inl hfreshOld) (Or.inr hgone)
        · exact hstate.not_listed (Or.inr hcame) (Or.inl hfreshNew)
      · intro other hmem
        simp only [changedPaths, List.mem_cons, List.not_mem_nil, or_false, hpathOld,
          hpathNew] at hmem
        rcases hmem with rfl | rfl
        · rw [hold, hgone]
          exact Option.some_ne_none oldEntry
        · rw [hnew, hcame]
          exact (Option.some_ne_none newEntry).symm
      · rw [← hpathOld] at hold hgone
        rw [← hpathNew] at hnew hcame
        exact renamed_takesOver similarity content hold hgone hnew hcame
      · intro other hmem hbefore
        exact found_of_cons hold hmem hbefore
      · intro other hmem hbefore
        exact found_of_cons hnew hmem hbefore

/-- A record that is not a rename is about one path. -/
theorem parseNameStatus_plain (h : parseNameStatus output detectRenames = .ok statuses)
    (hmem : status ∈ statuses) (hcode : status.code ≠ .renamed) :
    status.oldPath = status.newPath := by
  obtain ⟨text, rest, hread⟩ := readRecords_mem h status hmem
  unfold readStatusRecord at hread
  split at hread
  · cases hread
  · cases hread
  · split at hread
    · simp only [readRenameStatus, Option.bind_eq_bind, Option.bind_eq_some_iff] at hread
      obtain ⟨_, _, similarity, _, _, _, paths, _, hread⟩ := hread
      injection hread with hread
      injection hread with hread
      rw [← hread] at hcode
      exact absurd rfl hcode
    · simp only [readPlainStatus, Option.bind_eq_bind, Option.bind_eq_some_iff] at hread
      obtain ⟨code, _, path, _, hread⟩ := hread
      injection hread with hread
      injection hread with hread
      rw [← hread]

theorem assembleRecord_assembled {item : (StatusRecord × NumstatRecord) × Nat}
    (hplain : item.1.1.code ≠ .renamed → item.1.1.oldPath = item.1.1.newPath)
    (hstate : Assembled baseline target state)
    (h : assembleRecord baseline target state item = .ok after) :
    Assembled baseline target after := by
  dsimp only [assembleRecord] at h
  split at h
  · cases h
  · split at h
    · cases h
    · rename_i next hchange
      injection h with h
      rw [← h]
      have hextends := assembleChange_extends hplain hchange
      obtain ⟨change, hby⟩ := hextends.by_change hstate
      exact hstate.extend hby

/-- The loop over all records keeps the invariant. -/
theorem assembleRecords_assembled {numstats : List NumstatRecord}
    (hstatuses : parseNameStatus output detectRenames = .ok statuses)
    (h : (statuses.zip numstats).zipIdx.foldlM (assembleRecord baseline target) {} =
      .ok state) : Assembled baseline target state := by
  refine foldlM_inv (P := Assembled baseline target) ?_ (Assembled.initial baseline target) h
  intro item hitem before next hbefore hstep
  refine assembleRecord_assembled ?_ hbefore hstep
  have hpair : item.1 ∈ statuses.zip numstats := List.fst_mem_of_mem_zipIdx hitem
  have hstatus : item.1.1 ∈ statuses := (List.of_mem_zip hpair).1
  exact parseNameStatus_plain hstatuses hstatus

/-! ## Coverage -/

theorem requireCoverage_ok {other : ReviewedSourceTreeInventory} {count : Nat} {done : Unit}
    (h : requireCoverage entries other consumed count = .ok done) :
    ∀ entry ∈ entries, findEntry other entry.rawPath ≠ some entry ↔ entry.rawPath ∈ consumed := by
  intro entry hmem
  unfold requireCoverage at h
  split at h
  · rename_i hall
    have hentry := List.all_eq_true.mp hall entry hmem
    rw [decide_eq_true_iff, entryChanged, decide_eq_decide] at hentry
    exact hentry
  · cases h

/-- The paths the changes list are exactly those that differ. -/
theorem Assembled.listed_iff (hstate : Assembled baseline target state)
    (hold : ∀ entry ∈ baseline.entries,
      findEntry target entry.rawPath ≠ some entry ↔ entry.rawPath ∈ state.consumedOld)
    (hnew : ∀ entry ∈ target.entries,
      findEntry baseline entry.rawPath ≠ some entry ↔ entry.rawPath ∈ state.consumedNew)
    (path : Bytes) : Listed state path ↔ findEntry baseline path ≠ findEntry target path := by
  refine ⟨hstate.differs path, ?_⟩
  intro hdiffers
  cases hbaseline : findEntry baseline path with
  | some entry =>
    have hpath := findEntry_some hbaseline
    have hchanged : findEntry target entry.rawPath ≠ some entry := by
      rw [hpath, ← hbaseline]
      exact hdiffers.symm
    have hconsumed := (hold entry (lookup_some hbaseline).1).mp hchanged
    rw [hpath] at hconsumed
    exact Or.inl hconsumed
  | none =>
    cases htarget : findEntry target path with
    | none =>
      rw [hbaseline, htarget] at hdiffers
      exact absurd rfl hdiffers
    | some entry =>
      have hpath := findEntry_some htarget
      have hchanged : findEntry baseline entry.rawPath ≠ some entry := by
        rw [hpath, ← htarget]
        exact hdiffers
      have hconsumed := (hnew entry (lookup_some htarget).1).mp hchanged
      rw [hpath] at hconsumed
      exact Or.inr hconsumed

/-- An accepted change set is the whole difference: replayed on the baseline
it gives the target, every path that differs is listed by exactly one change,
and a path with the same entry on both sides by none. -/
theorem assembleReviewedSourceChanges_replay
    (baseline target : ReviewedSourceTreeInventory)
    (nameStatusOutput numstatOutput : Bytes) (detectRenames : Bool)
    (changes : List ReviewedSourceFileChange)
    (h : assembleReviewedSourceChanges baseline target nameStatusOutput numstatOutput
      detectRenames = .ok changes) :
    (∃ result, replay baseline.entries changes = some result ∧
      result.Perm target.entries) ∧
    ∀ path, (covering path changes).length =
      if findEntry baseline path = findEntry target path then 0 else 1 := by
  unfold assembleReviewedSourceChanges at h
  rw [bind_eq_ok] at h
  obtain ⟨statuses, hstatuses, h⟩ := h
  rw [bind_eq_ok] at h
  obtain ⟨numstats, _, h⟩ := h
  split at h
  · cases h
  · rw [bind_eq_ok] at h
    obtain ⟨state, hloop, h⟩ := h
    rw [bind_eq_ok] at h
    obtain ⟨_, hold, h⟩ := h
    rw [bind_eq_ok] at h
    obtain ⟨_, hnew, h⟩ := h
    injection h with h
    rw [← h]
    have hstate := assembleRecords_assembled hstatuses hloop
    have hlisted := hstate.listed_iff (requireCoverage_ok hold) (requireCoverage_ok hnew)
    constructor
    · obtain ⟨current, hreplay, hunique, hlookup⟩ := hstate.replayed
      refine ⟨current, hreplay, perm_of_lookup_eq hunique target.unique_paths ?_⟩
      intro path
      show _ = findEntry target path
      rw [hlookup path]
      by_cases hsame : findEntry baseline path = findEntry target path
      · simp [hsame]
      · rw [if_pos ((hlisted path).mpr hsame)]
    · intro path
      rw [hstate.covered path]
      by_cases hsame : findEntry baseline path = findEntry target path
      · have hnot : ¬ Listed state path := fun hpath => (hlisted path).mp hpath hsame
        rw [if_neg hnot, if_pos hsame]
      · rw [if_pos ((hlisted path).mpr hsame), if_neg hsame]

/-! ## An update of a recipe: one file edited, one renamed, one left alone -/

theorem recipePath_filled {rawBytes : Bytes} (hpath : rawBytes ≠ [] ∧ 0 ∉ rawBytes) :
    rawBytes ≠ [] := hpath.1

theorem recipePath_no_nul {rawBytes : Bytes} (hpath : rawBytes ≠ [] ∧ 0 ∉ rawBytes) :
    0 ∉ rawBytes := hpath.2

def recipeFile (rawBytes : Bytes) (hpath : rawBytes ≠ [] ∧ 0 ∉ rawBytes)
    (objectId : ReviewedSourceObjectId) : ReviewedSourceFileVersion :=
  ⟨⟨rawBytes, recipePath_filled hpath, recipePath_no_nul hpath⟩, .regular, objectId, some 7,
    by simp⟩

def recipeBaseline : ReviewedSourceTreeInventory where
  entries := [
    recipeFile (ascii "LICENSE") (by decide) (.repeated (byte '0') (by decide)),
    recipeFile (ascii "PKGBUILD") (by decide) (.repeated (byte '1') (by decide)),
    recipeFile (ascii "fix.patch") (by decide) (.repeated (byte '2') (by decide))]
  unique_paths := by decide

def recipeTarget : ReviewedSourceTreeInventory where
  entries := [
    recipeFile (ascii "LICENSE") (by decide) (.repeated (byte '0') (by decide)),
    recipeFile (ascii "PKGBUILD") (by decide) (.repeated (byte '3') (by decide)),
    recipeFile (ascii "new.patch") (by decide) (.repeated (byte '2') (by decide))]
  unique_paths := by decide

def recipeNameStatus : Bytes :=
  ascii "M" ++ [0] ++ ascii "PKGBUILD" ++ [0] ++
    ascii "R100" ++ [0] ++ ascii "fix.patch" ++ [0] ++ ascii "new.patch" ++ [0]

def recipeNumstat : Bytes :=
  ascii "2\t1\tPKGBUILD" ++ [0] ++
    ascii "0\t0\t" ++ [0] ++ ascii "fix.patch" ++ [0] ++ ascii "new.patch" ++ [0]

theorem assembleReviewedSourceChanges_replay_recipe :
    ∃ changes,
      assembleReviewedSourceChanges recipeBaseline recipeTarget recipeNameStatus
        recipeNumstat true = .ok changes ∧
      changes.map changedPaths =
        [[ascii "PKGBUILD", ascii "PKGBUILD"], [ascii "fix.patch", ascii "new.patch"]] ∧
      (∃ result, replay recipeBaseline.entries changes = some result ∧
        result.Perm recipeTarget.entries) ∧
      ∀ path, (covering path changes).length =
        if findEntry recipeBaseline path = findEntry recipeTarget path then 0 else 1 := by
  have hrun : (assembleReviewedSourceChanges recipeBaseline recipeTarget recipeNameStatus
      recipeNumstat true).toOption.map (List.map changedPaths) =
      some [[ascii "PKGBUILD", ascii "PKGBUILD"],
        [ascii "fix.patch", ascii "new.patch"]] := by
    decide +kernel
  obtain ⟨changes, hok, hpaths⟩ := exists_ok_of_view hrun
  exact ⟨changes, hok, hpaths,
    assembleReviewedSourceChanges_replay _ _ _ _ _ changes hok⟩

end Moguet.Review.ChangeReplay
