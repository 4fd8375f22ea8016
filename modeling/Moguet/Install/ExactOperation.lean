import Mathlib.Data.List.Perm.Subperm
import Moguet.Install.PreparedRoundTrip
import Moguet.Store.Sha256
import Moguet.Verified.Subsequence

/-!
# The operations of an exact transaction

Two hooks of a transaction write down what it installed and what it upgraded, each a
fragment that names the manifest of the transaction and the stage of its archives
(`exact_artifact_transaction_protocol.cpp`). Joined, the fragments say of every artifact
which of the two happened to it.
-/

namespace Moguet.Install.ExactOperation

open Verified ByteString Checked Decimal Fields Subsequence Plan.Constraint Request
open Install.PreparedState (serializeRootPreparedState)
open Store.Sha256

variable {manifest : RootPrepareRequest}

variable {fragment installs upgrades : Option Bytes} {targets upgraded installed : List Bytes}
  {text packageBase : Bytes} {artifacts chosen : List RootArtifactExpectation}
  {first second artifact : RootArtifactExpectation}

/-! ## Writing -/

inductive ExactArtifactTransactionOperation
  | install
  | upgrade
  deriving DecidableEq

abbrev Operation := ExactArtifactTransactionOperation

structure ExactArtifactOperationRecord where
  operation : Operation
  artifact : RootArtifactExpectation

abbrev Records := List ExactArtifactOperationRecord

variable {records : Records}

inductive ExactArtifactReceiptIssue
  | missing
  | invalid
  deriving DecidableEq

def operationName : Operation → Bytes
  | .install => ascii "Install"
  | .upgrade => ascii "Upgrade"

def fragmentPrefix (manifest : RootPrepareRequest) (stage : Bytes) (operation : Operation) :
    Protocol Bytes :=
  if !isValidRootRequest manifest || manifest.purpose ≠ .exactInstalledBinding ||
      !isValidSourceArtifactInstallSha256 stage then
    .error (.invalidArgument "invalid exact transaction authority")
  else do
    let prepared ← serializeRootPreparedState manifest
    .ok (ascii "MOGUET-EXACT-ARTIFACT-OPERATIONS\t1\nOWNER\tsource-artifact-install\n" ++
      ascii "PURPOSE\tExactInstalledBinding\nTOKEN\t" ++ manifest.transactionToken ++
      ascii "\nMANIFEST\t" ++ rawContentsSha256 prepared ++ ascii "\nSTAGE\t" ++ stage ++
      ascii "\nOPERATION\t" ++ operationName operation ++ ascii "\n")

/-- `artifact_record`. -/
def operationRecord (artifact : RootArtifactExpectation) : Bytes :=
  ascii "SELECTED\t" ++ (writeUnsigned artifact.artifactIndex ++ (byte '\t' ::
    (artifact.packageName ++ ascii "\t" ++ artifact.archiveSha256 ++ ascii "\t" ++
      artifact.fullVersion ++ ascii "\t" ++ artifact.packageBase ++ ascii "\t" ++
      artifact.architecture ++ ascii "\t" ++ artifact.rawMtreeSha256 ++ ascii "\n")))

def fragmentEnd : Bytes := ascii "END\n"

/-- The artifacts that the targets name, in the order of the manifest. -/
def selectedBy (manifest : RootPrepareRequest) (targets : List Bytes) :
    List RootArtifactExpectation :=
  manifest.artifacts.filter fun artifact => artifact.packageName ∈ targets

def isOperationTarget (manifest : RootPrepareRequest) (target : Bytes) : Bool :=
  manifest.artifacts.any fun artifact => artifact.packageName = target

/-- `serialize_exact_artifact_operation_fragment`. The order in which the targets arrive
has no authority. -/
def serializeOperationFragment (manifest : RootPrepareRequest) (stage : Bytes)
    (operation : Operation) (targets : List Bytes) : Protocol Bytes := do
  let opening ← fragmentPrefix manifest stage operation
  if targets = [] ∨ manifest.artifacts.length < targets.length then
    .error (.invalidArgument "empty or oversized exact operation targets")
  else if ¬ targets.Nodup ∨ ∃ target ∈ targets, isOperationTarget manifest target = false then
    .error (.invalidArgument "duplicate or unselected exact operation target")
  else
    let protocol := opening ++ (selectedBy manifest targets).flatMap operationRecord ++ fragmentEnd
    if maximumProtocolBytes < protocol.length then
      .error (.invalidArgument "oversized exact operation fragment")
    else .ok protocol

/-! ## Reading -/

/-- `parse_exact_artifact_operation_fragment`; what throws is invalid. -/
def parseOperationFragment (fragment : Bytes) (manifest : RootPrepareRequest) (stage : Bytes)
    (operation : Operation) : Except ExactArtifactReceiptIssue Records :=
  match fragmentPrefix manifest stage operation with
  | .error _ => .error .invalid
  | .ok opening =>
    if maximumProtocolBytes < fragment.length ∨ opening.isPrefixOf fragment = false then
      .error .invalid
    else
      let taken := takeItems operationRecord manifest.artifacts (fragment.drop opening.length)
      if taken.1 = [] ∨ taken.2 ≠ fragmentEnd then .error .invalid
      else .ok (taken.1.map fun artifact => ⟨operation, artifact⟩)

/-- A record of an artifact that has none before. -/
def addOperationRecord (records : Records) (record : ExactArtifactOperationRecord) :
    Except ExactArtifactReceiptIssue Records :=
  if records.any fun prior => prior.artifact.artifactIndex = record.artifact.artifactIndex ||
      prior.artifact.packageName = record.artifact.packageName then .error .invalid
  else .ok (records ++ [record])

def addOperationFragment (manifest : RootPrepareRequest) (stage : Bytes) (records : Records)
    (fragment : Operation × Option Bytes) : Except ExactArtifactReceiptIssue Records :=
  match fragment.2 with
  | none => .ok records
  | some text => do
      let parsed ← parseOperationFragment text manifest stage fragment.1
      parsed.foldlM addOperationRecord records

def canonicalRecord (records : Records) (artifact : RootArtifactExpectation) :
    Except ExactArtifactReceiptIssue ExactArtifactOperationRecord :=
  match records.find? fun record => record.artifact = artifact with
  | none => .error .invalid
  | some record => .ok record

/-- `join_exact_artifact_operation_fragments`. -/
def joinOperationFragments (installs upgrades : Option Bytes) (manifest : RootPrepareRequest)
    (stage : Bytes) : Except ExactArtifactReceiptIssue Records :=
  match fragmentPrefix manifest stage .install with
  | .error _ => .error .invalid
  | .ok _ => do
      let records ← [(.install, installs), (.upgrade, upgrades)].foldlM
        (addOperationFragment manifest stage) []
      if records.length ≠ manifest.artifacts.length then .error .missing
      else manifest.artifacts.mapM (canonicalRecord records)

/-! ## Manifests -/

/-- No two artifacts share an index or a name. -/
def Distinct (artifacts : List RootArtifactExpectation) : Prop :=
  artifacts.Pairwise fun first second =>
    first.artifactIndex ≠ second.artifactIndex ∧ first.packageName ≠ second.packageName

theorem distinct_of_checkArtifact {request : RootPrepareRequest} :
    ∀ {items : List RootArtifactExpectation} {totals after : RequestTotals},
      Distinct totals.prior → items.foldlM (checkArtifact request) totals = some after →
      Distinct (totals.prior ++ items) := by
  intro items
  induction items with
  | nil =>
    intro totals after h _
    rw [List.append_nil]
    exact h
  | cons item items ih =>
    intro totals after h hloop
    rw [List.foldlM_cons, Option.bind_eq_bind, Option.bind_eq_some_iff] at hloop
    obtain ⟨next, hnext, hrest⟩ := hloop
    simp only [checkArtifact, Option.bind_eq_bind, Option.bind_eq_some_iff] at hnext
    obtain ⟨_, _, _, _, _, _, _, _, _, _, _, hnew, hsame⟩ := hnext
    have hprior : next.prior = totals.prior ++ [item] := by
      rw [← Option.some.inj hsame]
    have hfresh : ∀ prior ∈ totals.prior, prior.artifactIndex ≠ item.artifactIndex ∧
        prior.packageName ≠ item.packageName := by
      simpa using hnew
    have hdistinct : Distinct next.prior := by
      rw [hprior]
      apply List.pairwise_append.mpr
      refine ⟨h, List.pairwise_singleton _ _, ?_⟩
      intro prior hmem other hother
      rw [List.mem_singleton.mp hother]
      exact hfresh prior hmem
    have hall := ih hdistinct hrest
    rw [hprior, List.append_assoc] at hall
    exact hall

theorem distinct_of_valid (h : isValidRootRequest manifest = true) :
    Distinct manifest.artifacts := by
  simp only [isValidRootRequest, Bool.and_eq_true] at h
  obtain ⟨after, hloop⟩ := Option.isSome_iff_exists.mp h.2
  have hstart : Distinct ({} : RequestTotals).prior := List.Pairwise.nil
  have hall := distinct_of_checkArtifact hstart hloop
  rw [List.nil_append] at hall
  exact hall

theorem artifacts_ne_nil (h : isValidRootRequest manifest = true) : manifest.artifacts ≠ [] :=
  (PreparedRoundTrip.isValidRootRequest_checked h).artifacts_ne

/-- Artifacts of a manifest that share an index or a name are the same. -/
theorem Distinct.eq_of (h : Distinct artifacts) (hfirst : first ∈ artifacts)
    (hsecond : second ∈ artifacts) (hshared : first.artifactIndex = second.artifactIndex ∨
      first.packageName = second.packageName) : first = second := by
  have hindexes : (artifacts.map RootArtifactExpectation.artifactIndex).Nodup :=
    List.pairwise_map.mpr (h.imp fun hboth => hboth.1)
  have hnames : (artifacts.map RootArtifactExpectation.packageName).Nodup :=
    List.pairwise_map.mpr (h.imp fun hboth => hboth.2)
  rcases hshared with hindex | hname
  · exact List.inj_on_of_nodup_map hindexes hfirst hsecond hindex
  · exact List.inj_on_of_nodup_map hnames hfirst hsecond hname

theorem Distinct.nodup (h : Distinct artifacts) : artifacts.Nodup := by
  apply h.imp
  intro first second hboth hsame
  exact hboth.1 (by rw [hsame])

/-! ## One fragment -/

theorem operationRecord_eq (artifact : RootArtifactExpectation) :
    ∃ fields, operationRecord artifact =
      ascii "SELECTED\t" ++ (writeUnsigned artifact.artifactIndex ++ byte '\t' :: fields) :=
  ⟨_, rfl⟩

/-- The record of an artifact does not begin that of another. -/
theorem operationRecord_apart (h : first.artifactIndex ≠ second.artifactIndex) (more : Bytes) :
    (operationRecord first).isPrefixOf (operationRecord second ++ more) = false := by
  by_contra hstarts
  rw [Bool.not_eq_false] at hstarts
  obtain ⟨rest, hrest⟩ := List.isPrefixOf_iff_prefix.mp hstarts
  obtain ⟨firstFields, hfirst⟩ := operationRecord_eq first
  obtain ⟨secondFields, hsecond⟩ := operationRecord_eq second
  rw [hfirst, hsecond] at hrest
  simp only [List.append_assoc, List.cons_append] at hrest
  have hfields : writeUnsigned first.artifactIndex ++ byte '\t' :: (firstFields ++ rest) =
      writeUnsigned second.artifactIndex ++ byte '\t' :: (secondFields ++ more) :=
    List.append_cancel_left hrest
  have htab : ∀ value : Nat, byte '\t' ∉ writeUnsigned value := fun value =>
    (PreparedRoundTrip.visible_writeUnsigned value).no_tab
  have hread := congrArg (takeField (byte '\t')) hfields
  rw [takeField_append (htab _), takeField_append (htab _)] at hread
  injection Option.some.inj hread with hindex _
  exact h (writeUnsigned_injective hindex)

theorem operationRecord_not_end (artifact : RootArtifactExpectation) :
    (operationRecord artifact).isPrefixOf fragmentEnd = false := rfl

/-- The records that are chosen from a manifest are read back. -/
theorem takeItems_chosen (hdistinct : Distinct artifacts) (hsub : chosen.Sublist artifacts) :
    takeItems operationRecord artifacts (chosen.flatMap operationRecord ++ fragmentEnd) =
      (chosen, fragmentEnd) := by
  apply takeItems_write hsub
  · apply hdistinct.imp
    intro first second hboth more
    exact operationRecord_apart hboth.1 more
  · intro artifact _
    exact operationRecord_not_end artifact

/-- The text of a fragment, after what every fragment of the operation begins with. -/
def fragmentText (opening : Bytes) (chosen : List RootArtifactExpectation) : Bytes :=
  opening ++ chosen.flatMap operationRecord ++ fragmentEnd

section Fragments

variable {manifest : RootPrepareRequest} {stage : Bytes} {operation : Operation}

/-- A fragment is read exactly when it is the text of some artifacts of the manifest. -/
theorem parseOperationFragment_eq_ok_iff (hvalid : isValidRootRequest manifest = true)
    {fragment : Bytes} :
    parseOperationFragment fragment manifest stage operation = .ok records ↔
      ∃ opening chosen, fragmentPrefix manifest stage operation = .ok opening ∧
        chosen.Sublist manifest.artifacts ∧ chosen ≠ [] ∧
        fragment = fragmentText opening chosen ∧ fragment.length ≤ maximumProtocolBytes ∧
        records = chosen.map fun artifact => ⟨operation, artifact⟩ := by
  unfold parseOperationFragment
  constructor
  · intro h
    split at h
    · cases h
    · rename_i opening hopening
      split at h
      · cases h
      · rename_i hfits
        dsimp only at h
        split at h
        · cases h
        · rename_i hread
          rw [not_or] at hfits hread
          rw [Bool.not_eq_false] at hfits
          obtain ⟨rest, hrest⟩ := List.isPrefixOf_iff_prefix.mp hfits.2
          rw [← hrest, List.drop_left] at hread h
          obtain ⟨hsub, htext⟩ := takeItems_text operationRecord manifest.artifacts rest
          have hend : (takeItems operationRecord manifest.artifacts rest).2 = fragmentEnd := by
            simpa using hread.2
          rw [hend] at htext
          refine ⟨opening, _, hopening, hsub, hread.1, ?_, by omega, (Except.ok.inj h).symm⟩
          unfold fragmentText
          rw [← hrest, List.append_assoc, ← htext]
  · rintro ⟨opening, chosen, hopening, hsub, hne, htext, hfits, hrecords⟩
    have hstarts : opening.isPrefixOf fragment = true := by
      rw [htext, fragmentText, List.append_assoc]
      exact isPrefixOf_append _ _
    have htaken : takeItems operationRecord manifest.artifacts
        (fragment.drop opening.length) = (chosen, fragmentEnd) := by
      rw [htext, fragmentText, List.append_assoc, List.drop_left]
      exact takeItems_chosen (distinct_of_valid hvalid) hsub
    rw [hopening]
    dsimp only
    rw [if_neg (by rw [hstarts]; simp; omega), htaken, if_neg (by simp [hne]), hrecords]

theorem mem_selectedBy : artifact ∈ selectedBy manifest targets ↔
      artifact ∈ manifest.artifacts ∧ artifact.packageName ∈ targets := by
  unfold selectedBy
  rw [List.mem_filter, decide_eq_true_eq]

theorem selectedBy_sublist (targets : List Bytes) :
    (selectedBy manifest targets).Sublist manifest.artifacts := List.filter_sublist

/-- Names choose the artifacts that they are the names of. -/
theorem filter_names (hsub : chosen.Sublist artifacts) (hdistinct : Distinct artifacts) :
    (artifacts.filter fun artifact =>
      artifact.packageName ∈ chosen.map RootArtifactExpectation.packageName) = chosen := by
  induction hsub with
  | slnil => rfl
  | @cons chosen artifacts artifact hsub ih =>
    have hnew : artifact.packageName ∉ chosen.map RootArtifactExpectation.packageName := by
      intro hmem
      obtain ⟨other, hother, hname⟩ := List.mem_map.mp hmem
      exact (List.rel_of_pairwise_cons hdistinct (hsub.subset hother)).2 hname.symm
    rw [List.filter_cons_of_neg (by simpa using hnew)]
    exact ih hdistinct.of_cons
  | @cons_cons chosen artifacts artifact hsub ih =>
    rw [List.filter_cons_of_pos (by simp)]
    congr 1
    have hsame : (artifacts.filter fun other => other.packageName ∈
        (artifact :: chosen).map RootArtifactExpectation.packageName) =
        artifacts.filter fun other =>
          other.packageName ∈ chosen.map RootArtifactExpectation.packageName := by
      apply List.filter_congr
      intro other hother
      have hne := (List.rel_of_pairwise_cons hdistinct hother).2
      rw [decide_eq_decide, List.map_cons, List.mem_cons]
      constructor
      · rintro (hname | hmem)
        · exact absurd hname.symm hne
        · exact hmem
      · exact Or.inr
    rw [hsame]
    exact ih hdistinct.of_cons

/-- What the fragment of some targets is. -/
theorem serializeOperationFragment_eq_ok_iff {targets : List Bytes} {fragment : Bytes} :
    serializeOperationFragment manifest stage operation targets = .ok fragment ↔
      ∃ opening, fragmentPrefix manifest stage operation = .ok opening ∧ targets ≠ [] ∧
        targets.length ≤ manifest.artifacts.length ∧ targets.Nodup ∧
        (∀ target ∈ targets, isOperationTarget manifest target = true) ∧
        fragment = fragmentText opening (selectedBy manifest targets) ∧
        fragment.length ≤ maximumProtocolBytes := by
  unfold serializeOperationFragment
  constructor
  · intro h
    obtain ⟨opening, hopening, h⟩ := bind_eq_ok.mp h
    split at h
    · cases h
    · rename_i hcount
      split at h
      · cases h
      · rename_i htargets
        dsimp only at h
        split at h
        · cases h
        · rename_i hfits
          rw [not_or] at hcount htargets
          refine ⟨opening, hopening, hcount.1, by omega, not_not.mp htargets.1, ?_,
            (Except.ok.inj h).symm, ?_⟩
          · intro target htarget
            by_contra hnone
            exact htargets.2 ⟨target, htarget, by simpa using hnone⟩
          · rw [← Except.ok.inj h]
            omega
  · rintro ⟨opening, hopening, hne, hcount, hnodup, hknown, htext, hfits⟩
    rw [bind_of_ok hopening, if_neg (by rw [not_or]; exact ⟨hne, by omega⟩), if_neg ?_]
    · rw [htext] at hfits ⊢
      exact if_neg (by unfold fragmentText at hfits; omega)
    · rintro (hrepeated | ⟨target, htarget, hunknown⟩)
      · exact hrepeated hnodup
      · rw [hknown target htarget] at hunknown
        cases hunknown

/-- The fragment of some targets does not depend on their order. -/
theorem serializeOperationFragment_perm {others : List Bytes} (h : targets.Perm others) :
    serializeOperationFragment manifest stage operation targets =
      serializeOperationFragment manifest stage operation others := by
  have hselected : selectedBy manifest targets = selectedBy manifest others := by
    unfold selectedBy
    apply List.filter_congr
    intro artifact _
    rw [decide_eq_decide]
    exact h.mem_iff
  have hnil : targets = [] ↔ others = [] := by
    rw [← List.length_eq_zero_iff, h.length_eq, List.length_eq_zero_iff]
  have hknown : (∃ target ∈ targets, isOperationTarget manifest target = false) ↔
      ∃ target ∈ others, isOperationTarget manifest target = false := by
    constructor
    · rintro ⟨target, htarget, hunknown⟩
      exact ⟨target, h.mem_iff.mp htarget, hunknown⟩
    · rintro ⟨target, htarget, hunknown⟩
      exact ⟨target, h.mem_iff.mpr htarget, hunknown⟩
  unfold serializeOperationFragment
  simp only [hnil, h.length_eq, h.nodup_iff, hknown, hselected]

/-! ### Fragments and sets of names -/

/-- A fragment of some names: none for no name, else the text written for them. -/
def FragmentOf (manifest : RootPrepareRequest) (stage : Bytes) (operation : Operation)
    (targets : List Bytes) : Option Bytes → Prop
  | none => targets = []
  | some text =>
    targets ≠ [] ∧ serializeOperationFragment manifest stage operation targets = .ok text

/-- What is read of a fragment of some names. -/
theorem parse_fragmentOf (hvalid : isValidRootRequest manifest = true)
    (h : FragmentOf manifest stage operation targets (some text)) :
    parseOperationFragment text manifest stage operation =
      .ok ((selectedBy manifest targets).map fun artifact => ⟨operation, artifact⟩) := by
  obtain ⟨hne, hwritten⟩ := h
  obtain ⟨opening, hopening, -, -, -, hknown, htext, hfits⟩ :=
    serializeOperationFragment_eq_ok_iff.mp hwritten
  apply (parseOperationFragment_eq_ok_iff hvalid).mpr
  refine ⟨opening, _, hopening, selectedBy_sublist targets, ?_, htext, hfits, rfl⟩
  obtain ⟨target, htarget⟩ := List.exists_mem_of_ne_nil _ hne
  obtain ⟨artifact, hartifact, hname⟩ := List.any_eq_true.mp (hknown target htarget)
  have hmem : artifact ∈ selectedBy manifest targets := by
    rw [mem_selectedBy, of_decide_eq_true hname]
    exact ⟨hartifact, htarget⟩
  exact List.ne_nil_of_mem hmem

theorem target_of_fragmentOf (h : FragmentOf manifest stage operation targets fragment)
    {target : Bytes} (htarget : target ∈ targets) :
    ∃ artifact ∈ manifest.artifacts, artifact.packageName = target := by
  cases fragment with
  | none =>
    have hnil : targets = [] := h
    rw [hnil] at htarget
    cases htarget
  | some text =>
    obtain ⟨opening, -, -, -, -, hknown, -⟩ := serializeOperationFragment_eq_ok_iff.mp h.2
    obtain ⟨artifact, hartifact, hname⟩ := List.any_eq_true.mp (hknown target htarget)
    exact ⟨artifact, hartifact, of_decide_eq_true hname⟩

/-- A fragment that is read is that of some names. -/
theorem fragmentOf_parse (hvalid : isValidRootRequest manifest = true)
    (h : parseOperationFragment text manifest stage operation = .ok records) :
    ∃ targets, FragmentOf manifest stage operation targets (some text) := by
  obtain ⟨opening, chosen, hopening, hsub, hne, htext, hfits, -⟩ :=
    (parseOperationFragment_eq_ok_iff hvalid).mp h
  have hdistinct := distinct_of_valid hvalid
  have htargets : chosen.map RootArtifactExpectation.packageName ≠ [] := by
    simpa using hne
  refine ⟨chosen.map RootArtifactExpectation.packageName, htargets, ?_⟩
  apply serializeOperationFragment_eq_ok_iff.mpr
  refine ⟨opening, hopening, htargets, ?_, ?_, ?_, ?_, hfits⟩
  · rw [List.length_map]
    exact hsub.length_le
  · exact List.pairwise_map.mpr ((hdistinct.sublist hsub).imp fun hboth => hboth.2)
  · intro target htarget
    obtain ⟨artifact, hartifact, hname⟩ := List.mem_map.mp htarget
    exact List.any_eq_true.mpr ⟨artifact, hsub.subset hartifact, decide_eq_true hname⟩
  · rw [selectedBy, filter_names hsub hdistinct]
    exact htext

end Fragments

/-! ## Joining -/

section Joining

variable {manifest : RootPrepareRequest} {stage : Bytes} {operation : Operation}

/-- The records of some artifacts are added where none of these has one. -/
theorem addOperationRecord_loop (hdistinct : Distinct artifacts) :
    ∀ {chosen : List RootArtifactExpectation} {records : Records},
      chosen.Nodup → (∀ artifact ∈ chosen, artifact ∈ artifacts) →
      (∀ record ∈ records, record.artifact ∈ artifacts) →
      (chosen.map fun artifact => (⟨operation, artifact⟩ : ExactArtifactOperationRecord)).foldlM
          addOperationRecord records =
        if ∃ artifact ∈ chosen, ∃ record ∈ records, record.artifact = artifact then
          .error .invalid
        else .ok (records ++ chosen.map fun artifact => ⟨operation, artifact⟩) := by
  intro chosen
  induction chosen with
  | nil =>
    intro records _ _ _
    rw [if_neg (by simp), List.map_nil, List.append_nil]
    rfl
  | cons artifact chosen ih =>
    intro records hnodup hchosen hrecords
    rw [List.map_cons, List.foldlM_cons]
    obtain ⟨hnew, hnodup⟩ := List.nodup_cons.mp hnodup
    by_cases hshared : ∃ record ∈ records, record.artifact = artifact
    · have hstep : addOperationRecord records ⟨operation, artifact⟩ = .error .invalid := by
        obtain ⟨record, hrecord, hsame⟩ := hshared
        apply if_pos
        apply List.any_eq_true.mpr
        exact ⟨record, hrecord, by simp [hsame]⟩
      rw [hstep, if_pos ⟨artifact, List.mem_cons_self, hshared⟩]
      rfl
    · have hstep : addOperationRecord records ⟨operation, artifact⟩ =
          .ok (records ++ [⟨operation, artifact⟩]) := by
        apply if_neg
        intro hany
        obtain ⟨record, hrecord, hsame⟩ := List.any_eq_true.mp hany
        simp only [Bool.or_eq_true, decide_eq_true_eq] at hsame
        exact hshared ⟨record, hrecord, hdistinct.eq_of (hrecords record hrecord)
          (hchosen artifact List.mem_cons_self) hsame⟩
      have hnext : ∀ record ∈ records ++ [⟨operation, artifact⟩], record.artifact ∈ artifacts := by
        intro record hrecord
        rcases List.mem_append.mp hrecord with hold | hlast
        · exact hrecords record hold
        · rw [List.mem_singleton.mp hlast]
          exact hchosen artifact List.mem_cons_self
      rw [bind_of_ok hstep, ih hnodup
        (fun other hother => hchosen other (List.mem_cons_of_mem _ hother)) hnext]
      have hiff : (∃ other ∈ chosen, ∃ record ∈ records ++
          [(⟨operation, artifact⟩ : ExactArtifactOperationRecord)], record.artifact = other) ↔
          ∃ other ∈ artifact :: chosen, ∃ record ∈ records, record.artifact = other := by
        constructor
        · rintro ⟨other, hother, record, hrecord, hsame⟩
          rcases List.mem_append.mp hrecord with hold | hlast
          · exact ⟨other, List.mem_cons_of_mem _ hother, record, hold, hsame⟩
          · rw [List.mem_singleton.mp hlast] at hsame
            rw [← hsame] at hother
            exact absurd hother hnew
        · rintro ⟨other, hother, record, hrecord, hsame⟩
          rcases List.mem_cons.mp hother with hhead | htail
          · rw [hhead] at hsame
            exact absurd ⟨record, hrecord, hsame⟩ hshared
          · exact ⟨other, htail, record, List.mem_append_left _ hrecord, hsame⟩
      simp only [hiff, List.append_assoc]
      rfl

/-- The names of two sets that share none, each with its fragment. -/
structure Divides (manifest : RootPrepareRequest) (stage : Bytes) (installs upgrades : Option Bytes)
    (installed upgraded : List Bytes) : Prop where
  installs : FragmentOf manifest stage .install installed installs
  upgrades : FragmentOf manifest stage .upgrade upgraded upgrades
  apart : ∀ name ∈ installed, name ∉ upgraded

/-- Every artifact of the manifest is in one of the sets. -/
def Covers (manifest : RootPrepareRequest) (installed upgraded : List Bytes) : Prop :=
  ∀ artifact ∈ manifest.artifacts,
    artifact.packageName ∈ installed ∨ artifact.packageName ∈ upgraded

/-- The record of an artifact, by the set that it is in. -/
def recordIn (installed : List Bytes) (artifact : RootArtifactExpectation) :
    ExactArtifactOperationRecord :=
  ⟨if artifact.packageName ∈ installed then .install else .upgrade, artifact⟩

/-- The records of the artifacts that some names choose. -/
def recordsOf (manifest : RootPrepareRequest) (operation : Operation) (targets : List Bytes) :
    Records :=
  (selectedBy manifest targets).map fun artifact => ⟨operation, artifact⟩

theorem addOperationFragment_of (hvalid : isValidRootRequest manifest = true)
    (h : FragmentOf manifest stage operation targets fragment) {records : Records}
    (hrecords : ∀ record ∈ records, record.artifact ∈ manifest.artifacts) :
    addOperationFragment manifest stage records (operation, fragment) =
      if ∃ artifact ∈ selectedBy manifest targets, ∃ record ∈ records,
          record.artifact = artifact then .error .invalid
      else .ok (records ++ recordsOf manifest operation targets) := by
  have hdistinct := distinct_of_valid hvalid
  cases fragment with
  | none =>
    have hnil : targets = [] := h
    have hnone : selectedBy manifest targets = [] := by
      rw [hnil]
      exact List.filter_eq_nil_iff.mpr fun artifact _ => by simp
    unfold recordsOf
    rw [hnone, if_neg (by simp), List.map_nil, List.append_nil]
    rfl
  | some text =>
    unfold addOperationFragment
    dsimp only
    rw [bind_of_ok (parse_fragmentOf hvalid h)]
    apply addOperationRecord_loop hdistinct ((selectedBy_sublist targets).nodup hdistinct.nodup)
    · intro artifact hartifact
      exact (mem_selectedBy.mp hartifact).1
    · exact hrecords

/-- Two sets of names choose as many artifacts as there are exactly when they cover the
manifest. -/
theorem length_selectedBy_iff (hvalid : isValidRootRequest manifest = true) {installed : List Bytes}
    (hapart : ∀ name ∈ installed, name ∉ upgraded) :
    (selectedBy manifest installed ++ selectedBy manifest upgraded).length =
      manifest.artifacts.length ↔ Covers manifest installed upgraded := by
  have hnodup := (distinct_of_valid hvalid).nodup
  have hboth : (selectedBy manifest installed ++ selectedBy manifest upgraded).Nodup := by
    apply List.nodup_append.mpr
    refine ⟨(selectedBy_sublist installed).nodup hnodup, (selectedBy_sublist upgraded).nodup hnodup,
      ?_⟩
    intro artifact hartifact other hother hsame
    rw [← hsame] at hother
    exact hapart _ (mem_selectedBy.mp hartifact).2 (mem_selectedBy.mp hother).2
  have hsubset : selectedBy manifest installed ++ selectedBy manifest upgraded ⊆
      manifest.artifacts := by
    intro artifact hartifact
    rcases List.mem_append.mp hartifact with h | h
    · exact (mem_selectedBy.mp h).1
    · exact (mem_selectedBy.mp h).1
  have hsubperm := List.subperm_of_subset hboth hsubset
  constructor
  · intro hlength artifact hartifact
    have hperm := hsubperm.perm_of_length_le (by omega)
    rcases List.mem_append.mp (hperm.mem_iff.mpr hartifact) with h | h
    · exact Or.inl (mem_selectedBy.mp h).2
    · exact Or.inr (mem_selectedBy.mp h).2
  · intro hcovers
    have hall : manifest.artifacts ⊆
        selectedBy manifest installed ++ selectedBy manifest upgraded := by
      intro artifact hartifact
      rcases hcovers artifact hartifact with h | h
      · exact List.mem_append_left _ (mem_selectedBy.mpr ⟨hartifact, h⟩)
      · exact List.mem_append_right _ (mem_selectedBy.mpr ⟨hartifact, h⟩)
    exact Nat.le_antisymm hsubperm.length_le (List.subperm_of_subset hnodup hall).length_le

theorem find_recordsOf_mem (hartifact : artifact ∈ manifest.artifacts)
    (hin : artifact.packageName ∈ targets) :
    (recordsOf manifest operation targets).find? (fun record => record.artifact = artifact) =
      some ⟨operation, artifact⟩ := by
  have hmem : (⟨operation, artifact⟩ : ExactArtifactOperationRecord) ∈
      recordsOf manifest operation targets :=
    List.mem_map.mpr ⟨artifact, mem_selectedBy.mpr ⟨hartifact, hin⟩, rfl⟩
  cases hfirst : (recordsOf manifest operation targets).find?
      (fun record => record.artifact = artifact) with
  | none => exact absurd (List.find?_eq_none.mp hfirst _ hmem) (by simp)
  | some record =>
    have hsame : record.artifact = artifact := by
      simpa using List.find?_some hfirst
    obtain ⟨found, -, hrecord⟩ := List.mem_map.mp (List.mem_of_find?_eq_some hfirst)
    rw [← hrecord] at hsame ⊢
    rw [← hsame]

theorem find_recordsOf_none (hout : artifact.packageName ∉ targets) :
    (recordsOf manifest operation targets).find? (fun record => record.artifact = artifact) =
      none := by
  apply List.find?_eq_none.mpr
  intro record hrecord hsame
  obtain ⟨found, hfound, hmade⟩ := List.mem_map.mp hrecord
  rw [← hmade] at hsame
  have hartifact : found = artifact := by simpa using hsame
  rw [hartifact] at hfound
  exact hout (mem_selectedBy.mp hfound).2

/-- The record of an artifact is found among those of the two sets. -/
theorem canonicalRecord_of (hartifact : artifact ∈ manifest.artifacts)
    (hcovers : Covers manifest installed upgraded) :
    canonicalRecord (recordsOf manifest .install installed ++ recordsOf manifest .upgrade upgraded)
      artifact = .ok (recordIn installed artifact) := by
  unfold canonicalRecord recordIn
  rw [List.find?_append]
  by_cases hin : artifact.packageName ∈ installed
  · rw [find_recordsOf_mem hartifact hin, if_pos hin]
    rfl
  · have hup : artifact.packageName ∈ upgraded := by
      rcases hcovers artifact hartifact with h | h
      · exact absurd h hin
      · exact h
    rw [find_recordsOf_none hin, find_recordsOf_mem hartifact hup, if_neg hin]
    rfl

/-- Fragments of two sets that share no name join to the records of the manifest, where
the sets cover it. -/
theorem joinOperationFragments_divides (hvalid : isValidRootRequest manifest = true)
    {opening : Bytes} (hopening : fragmentPrefix manifest stage .install = .ok opening)
    (h : Divides manifest stage installs upgrades installed upgraded) :
    (Covers manifest installed upgraded → joinOperationFragments installs upgrades manifest stage =
        .ok (manifest.artifacts.map (recordIn installed))) ∧
    (¬ Covers manifest installed upgraded →
      joinOperationFragments installs upgrades manifest stage = .error .missing) := by
  have hfirst : addOperationFragment manifest stage [] (.install, installs) =
      .ok (recordsOf manifest .install installed) := by
    rw [addOperationFragment_of hvalid h.installs (List.forall_mem_nil _), if_neg (by simp), List.nil_append]
  have hsecond : addOperationFragment manifest stage (recordsOf manifest .install installed)
      (.upgrade, upgrades) =
      .ok (recordsOf manifest .install installed ++ recordsOf manifest .upgrade upgraded) := by
    rw [addOperationFragment_of hvalid h.upgrades]
    · apply if_neg
      rintro ⟨artifact, hartifact, record, hrecord, hsame⟩
      obtain ⟨found, hfound, hmade⟩ := List.mem_map.mp hrecord
      rw [← hmade] at hsame
      have hboth : found = artifact := hsame
      rw [hboth] at hfound
      exact h.apart _ (mem_selectedBy.mp hfound).2 (mem_selectedBy.mp hartifact).2
    · intro record hrecord
      obtain ⟨found, hfound, hmade⟩ := List.mem_map.mp hrecord
      rw [← hmade]
      exact (mem_selectedBy.mp hfound).1
  have hloop : [(ExactArtifactTransactionOperation.install, installs), (.upgrade, upgrades)].foldlM
      (addOperationFragment manifest stage) [] =
      .ok (recordsOf manifest .install installed ++ recordsOf manifest .upgrade upgraded) := by
    rw [List.foldlM_cons, bind_of_ok hfirst, List.foldlM_cons, bind_of_ok hsecond]
    rfl
  have hlength : (recordsOf manifest .install installed ++
      recordsOf manifest .upgrade upgraded).length =
      (selectedBy manifest installed ++ selectedBy manifest upgraded).length := by
    simp [recordsOf]
  have hcount := length_selectedBy_iff hvalid h.apart
  rw [← hlength] at hcount
  unfold joinOperationFragments
  rw [hopening]
  dsimp only
  rw [bind_of_ok hloop]
  constructor
  · intro hcovers
    rw [if_neg (not_not.mpr (hcount.mpr hcovers))]
    exact mapM_eq_ok fun artifact hartifact => canonicalRecord_of hartifact hcovers
  · intro hcovers
    exact if_pos fun hsame => hcovers (hcount.mp hsame)

/-- Other fragments join to nothing. -/
theorem joinOperationFragments_invalid (hvalid : isValidRootRequest manifest = true)
    (hnone : ∀ installed upgraded, ¬ Divides manifest stage installs upgrades installed upgraded) :
    joinOperationFragments installs upgrades manifest stage = .error .invalid := by
  have hread : ∀ (kind : Operation) (fragment : Option Bytes) (records : Records),
      addOperationFragment manifest stage records (kind, fragment) = .error .invalid ∨
        ∃ targets, FragmentOf manifest stage kind targets fragment := by
    intro kind fragment records
    cases fragment with
    | none => exact Or.inr ⟨[], rfl⟩
    | some text =>
      cases hparsed : parseOperationFragment text manifest stage kind with
      | ok parsed => exact Or.inr (fragmentOf_parse hvalid hparsed)
      | error issue =>
        left
        have hissue : issue = .invalid := by
          unfold parseOperationFragment at hparsed
          split at hparsed
          · exact (Except.error.inj hparsed).symm
          · split at hparsed
            · exact (Except.error.inj hparsed).symm
            · dsimp only at hparsed
              split at hparsed
              · exact (Except.error.inj hparsed).symm
              · cases hparsed
        unfold addOperationFragment
        dsimp only
        rw [hparsed, hissue]
        rfl
  unfold joinOperationFragments
  split
  · rfl
  · rw [List.foldlM_cons]
    rcases hread .install installs [] with hbad | ⟨installed, hinstalled⟩
    · rw [hbad]
      rfl
    · have hfirst : addOperationFragment manifest stage [] (.install, installs) =
          .ok (recordsOf manifest .install installed) := by
        rw [addOperationFragment_of hvalid hinstalled (List.forall_mem_nil _), if_neg (by simp), List.nil_append]
      rw [bind_of_ok hfirst, List.foldlM_cons]
      rcases hread .upgrade upgrades (recordsOf manifest .install installed) with
        hbad | ⟨upgraded, hupgraded⟩
      · rw [hbad]
        rfl
      · have hshared : ¬ ∀ name ∈ installed, name ∉ upgraded := fun hapart =>
          hnone installed upgraded ⟨hinstalled, hupgraded, hapart⟩
        have hrecords : ∀ record ∈ recordsOf manifest .install installed,
            record.artifact ∈ manifest.artifacts := by
          intro record hrecord
          obtain ⟨found, hfound, hmade⟩ := List.mem_map.mp hrecord
          rw [← hmade]
          exact (mem_selectedBy.mp hfound).1
        have hsecond : addOperationFragment manifest stage (recordsOf manifest .install installed)
            (.upgrade, upgrades) = .error .invalid := by
          rw [addOperationFragment_of hvalid hupgraded hrecords]
          apply if_pos
          push Not at hshared
          obtain ⟨name, hin, hup⟩ := hshared
          obtain ⟨artifact, hartifact, hname⟩ := target_of_fragmentOf hinstalled hin
          rw [← hname] at hin hup
          exact ⟨artifact, mem_selectedBy.mpr ⟨hartifact, hup⟩, ⟨.install, artifact⟩,
            List.mem_map.mpr ⟨artifact, mem_selectedBy.mpr ⟨hartifact, hin⟩, rfl⟩, rfl⟩
        rw [hsecond]
        rfl

end Joining

/-! ## The partition -/

section Partition

variable {manifest : RootPrepareRequest} {stage : Bytes}

/-- Every fragment begins with a text that names the manifest, where that can be written. -/
theorem fragmentPrefix_ok_iff (hvalid : isValidRootRequest manifest = true)
    (hpurpose : manifest.purpose = .exactInstalledBinding)
    (hstage : isValidSourceArtifactInstallSha256 stage = true) (operation : Operation) :
    (∃ opening, fragmentPrefix manifest stage operation = .ok opening) ↔
      ∃ prepared, serializeRootPreparedState manifest = .ok prepared := by
  have hguard : (!isValidRootRequest manifest ||
      decide (manifest.purpose ≠ .exactInstalledBinding) ||
        !isValidSourceArtifactInstallSha256 stage) = false := by
    rw [hvalid, hstage, hpurpose]
    rfl
  unfold fragmentPrefix
  rw [if_neg (by rw [hguard]; exact Bool.false_ne_true)]
  constructor
  · rintro ⟨opening, h⟩
    obtain ⟨prepared, hprepared, -⟩ := bind_eq_ok.mp h
    exact ⟨prepared, hprepared⟩
  · rintro ⟨prepared, hprepared⟩
    exact ⟨_, bind_of_ok hprepared⟩

theorem prefix_of_fragmentOf {operation : Operation}
    (h : FragmentOf manifest stage operation targets fragment) (hne : targets ≠ []) :
    ∃ opening, fragmentPrefix manifest stage operation = .ok opening := by
  cases fragment with
  | none => exact absurd h hne
  | some text =>
    obtain ⟨opening, hopening, -⟩ := serializeOperationFragment_eq_ok_iff.mp h.2
    exact ⟨opening, hopening⟩

/-- Sets that cover a manifest are not both empty. -/
theorem prepared_of_covers (hvalid : isValidRootRequest manifest = true)
    (hpurpose : manifest.purpose = .exactInstalledBinding)
    (hstage : isValidSourceArtifactInstallSha256 stage = true)
    (h : Divides manifest stage installs upgrades installed upgraded)
    (hcovers : Covers manifest installed upgraded) :
    ∃ prepared, serializeRootPreparedState manifest = .ok prepared := by
  obtain ⟨artifact, hartifact⟩ := List.exists_mem_of_ne_nil _ (artifacts_ne_nil hvalid)
  rcases hcovers artifact hartifact with hin | hup
  · exact (fragmentPrefix_ok_iff hvalid hpurpose hstage .install).mp
      (prefix_of_fragmentOf h.installs (List.ne_nil_of_mem hin))
  · exact (fragmentPrefix_ok_iff hvalid hpurpose hstage .upgrade).mp
      (prefix_of_fragmentOf h.upgrades (List.ne_nil_of_mem hup))

theorem joinOperationFragments_unwritten (hvalid : isValidRootRequest manifest = true)
    (hpurpose : manifest.purpose = .exactInstalledBinding)
    (hstage : isValidSourceArtifactInstallSha256 stage = true)
    (hnone : ¬ ∃ prepared, serializeRootPreparedState manifest = .ok prepared) :
    joinOperationFragments installs upgrades manifest stage = .error .invalid := by
  unfold joinOperationFragments
  cases hopening : fragmentPrefix manifest stage .install with
  | error failure => rfl
  | ok opening =>
    exact absurd ((fragmentPrefix_ok_iff hvalid hpurpose hstage .install).mp ⟨opening, hopening⟩)
      hnone

end Partition

/-- Operation evidence is a partition. Two fragments join to records exactly where they
are written for two sets that share no name and cover the manifest, and something is
missing exactly where they do not cover it, if its prepared state can be written at all;
the order of the targets does not matter. -/
theorem operationFragments_partition (manifest : RootPrepareRequest) (stage : Bytes)
    (hvalid : isValidRootRequest manifest = true)
    (hpurpose : manifest.purpose = .exactInstalledBinding)
    (hstage : isValidSourceArtifactInstallSha256 stage = true) (installs upgrades : Option Bytes) :
    (∀ records, joinOperationFragments installs upgrades manifest stage = .ok records ↔
      ∃ installed upgraded, Divides manifest stage installs upgrades installed upgraded ∧
        Covers manifest installed upgraded ∧
        records = manifest.artifacts.map (recordIn installed)) ∧
    (joinOperationFragments installs upgrades manifest stage = .error .missing ↔
      (∃ prepared, serializeRootPreparedState manifest = .ok prepared) ∧
        ∃ installed upgraded, Divides manifest stage installs upgrades installed upgraded ∧
          ¬ Covers manifest installed upgraded) ∧
    ∀ operation targets others, targets.Perm others →
      serializeOperationFragment manifest stage operation targets =
        serializeOperationFragment manifest stage operation others := by
  have hjoin : ∀ installed upgraded,
      (∃ prepared, serializeRootPreparedState manifest = .ok prepared) →
      Divides manifest stage installs upgrades installed upgraded →
      (Covers manifest installed upgraded →
        joinOperationFragments installs upgrades manifest stage =
          .ok (manifest.artifacts.map (recordIn installed))) ∧
      (¬ Covers manifest installed upgraded →
        joinOperationFragments installs upgrades manifest stage = .error .missing) := by
    intro installed upgraded hprepared hdivides
    obtain ⟨opening, hopening⟩ :=
      (fragmentPrefix_ok_iff hvalid hpurpose hstage .install).mpr hprepared
    exact joinOperationFragments_divides hvalid hopening hdivides
  have hdivides : ∀ result, joinOperationFragments installs upgrades manifest stage = result →
      result ≠ .error .invalid →
      (∃ prepared, serializeRootPreparedState manifest = .ok prepared) ∧
        ∃ installed upgraded, Divides manifest stage installs upgrades installed upgraded := by
    intro result hresult hother
    constructor
    · by_contra hnone
      exact hother (by rw [← hresult, joinOperationFragments_unwritten hvalid hpurpose hstage hnone])
    · by_contra hnone
      push Not at hnone
      exact hother (by rw [← hresult, joinOperationFragments_invalid hvalid hnone])
  refine ⟨?_, ?_, fun operation targets others => serializeOperationFragment_perm⟩
  · intro records
    constructor
    · intro h
      obtain ⟨hprepared, installed, upgraded, hboth⟩ := hdivides _ h nofun
      have hcases := hjoin installed upgraded hprepared hboth
      by_cases hcovers : Covers manifest installed upgraded
      · rw [hcases.1 hcovers] at h
        exact ⟨installed, upgraded, hboth, hcovers, (Except.ok.inj h).symm⟩
      · rw [hcases.2 hcovers] at h
        cases h
    · rintro ⟨installed, upgraded, hboth, hcovers, hrecords⟩
      rw [hrecords]
      exact (hjoin installed upgraded (prepared_of_covers hvalid hpurpose hstage hboth hcovers)
        hboth).1 hcovers
  · constructor
    · intro h
      obtain ⟨hprepared, installed, upgraded, hboth⟩ := hdivides _ h nofun
      refine ⟨hprepared, installed, upgraded, hboth, ?_⟩
      intro hcovers
      rw [(hjoin installed upgraded hprepared hboth).1 hcovers] at h
      cases h
    · rintro ⟨hprepared, installed, upgraded, hboth, hcovers⟩
      exact (hjoin installed upgraded hprepared hboth).2 hcovers

/-- A manifest of one artifact whose fragments are both absent. -/
theorem operationFragments_partition_absent :
    joinOperationFragments none none PreparedRoundTrip.exactSample
      (List.replicate 64 (byte '0')) = .error .missing := by
  have hparts := operationFragments_partition PreparedRoundTrip.exactSample
    (List.replicate 64 (byte '0')) (by decide +kernel) rfl (by decide) none none
  apply hparts.2.1.mpr
  refine ⟨?_, [], [], ⟨rfl, rfl, nofun⟩, ?_⟩
  · have hread : (serializeRootPreparedState PreparedRoundTrip.exactSample).toOption.isSome =
        true := by decide +kernel
    obtain ⟨prepared, hprepared⟩ := Option.isSome_iff_exists.mp hread
    exact ⟨prepared, eq_ok_of_toOption hprepared⟩
  · intro hcovers
    rcases hcovers _ List.mem_cons_self with hin | hup
    · cases hin
    · cases hup

/-! ## A manifest that cannot be written -/

section Oversized

/-- An artifact of a base. -/
def artifactOf (packageBase : Bytes) : RootArtifactExpectation where
  artifactIndex := 0
  packageName := ascii "app"
  fullVersion := ascii "1-1"
  packageBase := packageBase
  architecture := ascii "any"
  artifactSize := 2048
  signatureSize := 0
  archiveSha256 := List.replicate 64 (byte '0')
  signatureSha256 := ascii "-"
  rawMtreeSha256 := List.replicate 64 (byte 'f')

/-- A manifest of that artifact. -/
def manifestOf (packageBase : Bytes) : RootPrepareRequest :=
  { PreparedRoundTrip.exactSample with
    packageBase := packageBase
    artifacts := [artifactOf packageBase] }

theorem artifactOf_valid (hbase : isValidPackageName packageBase = true) :
    artifactIsValid (artifactOf packageBase) packageBase false = true := by
  have horigin : artifactOriginIsValid (artifactOf packageBase) packageBase false = true := by
    have hsame : decide ((artifactOf packageBase).packageBase = packageBase) = true :=
      decide_eq_true rfl
    have harchitecture : metadataValueIsValid (artifactOf packageBase).architecture 256 = true :=
      rfl
    have hvalid : isValidPackageName (artifactOf packageBase).packageBase = true := hbase
    unfold artifactOriginIsValid
    rw [if_neg Bool.false_ne_true, hvalid, hsame, harchitecture]
    rfl
  unfold artifactIsValid
  rw [horigin]
  rfl

theorem manifestOf_valid (hbase : isValidPackageName packageBase = true)
    (hlength : packageBase.length ≤ maximumProtocolBytes - 1024) :
    isValidRootRequest (manifestOf packageBase) = true := by
  have hsize : artifactProtocolSize (artifactOf packageBase) ≤ maximumProtocolBytes - 256 := by
    have hparts : artifactProtocolSize (artifactOf packageBase) =
        3 + 3 + packageBase.length + 3 + 288 := rfl
    rw [hparts]
    unfold maximumProtocolBytes at hlength ⊢
    omega
  have hstep : ∃ totals, checkArtifact (manifestOf packageBase) {} (artifactOf packageBase) =
      some totals := by
    simp only [checkArtifact, Option.bind_eq_bind, Option.bind_eq_some_iff]
    exact ⟨_, (), if_pos rfl, (), if_pos (artifactOf_valid hbase), 2048, rfl, 2048, rfl, (),
      if_pos ⟨by decide, hsize⟩, (), if_pos (List.forall_mem_nil _), rfl⟩
  obtain ⟨totals, htotals⟩ := hstep
  have hloop : ((manifestOf packageBase).artifacts.foldlM (checkArtifact (manifestOf packageBase))
      {}).isSome = true := by
    have hone : (manifestOf packageBase).artifacts = [artifactOf packageBase] := rfl
    rw [hone, List.foldlM_cons, htotals]
    rfl
  have hbase' : isValidPackageName (manifestOf packageBase).packageBase = true := hbase
  unfold isValidRootRequest
  rw [hloop, hbase']
  rfl

theorem length_le_joinTabs {fields : List Bytes} {field : Bytes} (h : field ∈ fields) :
    field.length ≤ (joinTabs fields).length := by
  unfold joinTabs
  induction fields with
  | nil => cases h
  | cons first fields ih =>
    cases fields with
    | nil =>
      rw [List.mem_singleton.mp h]
      simp
    | cons second rest =>
      rw [List.intercalate_cons_cons, List.length_append, List.length_append]
      rcases List.mem_cons.mp h with hsame | hrest
      · rw [hsame]
        omega
      · have hlength := ih hrest
        omega

theorem length_le_terminated {lines : List Bytes} {line : Bytes} (h : line ∈ lines) :
    line.length ≤ (terminated (byte '\n') lines).length := by
  obtain ⟨front, back, hlines⟩ := List.append_of_mem h
  rw [hlines, terminated_append, terminated_cons]
  simp only [List.length_append]
  omega

/-- The base is written twice. -/
theorem manifestOf_unwritten (hlength : maximumProtocolBytes < 2 * packageBase.length) :
    ¬ ∃ prepared, serializeRootPreparedState (manifestOf packageBase) = .ok prepared := by
  rintro ⟨prepared, h⟩
  have hexact : PreparedState.serializeExactPreparedState (manifestOf packageBase) =
      .ok prepared := h
  unfold PreparedState.serializeExactPreparedState at hexact
  split at hexact
  · obtain ⟨enclosed, henclosed, -⟩ := bind_eq_ok.mp hexact
    unfold PreparedState.serializePlainPreparedState at henclosed
    split at henclosed
    · dsimp only at henclosed
      split at henclosed
      · cases henclosed
      · rename_i hfits
        apply hfits
        have hbase : PreparedState.packageBaseLabel ++ packageBase ∈ (PreparedState.preparedLines
              (PreparedState.cleanupProjection (manifestOf packageBase))).take 7 :=
          List.mem_cons_of_mem _ (List.mem_cons_of_mem _ (List.mem_cons_of_mem _
            List.mem_cons_self))
        have hrecord : PreparedState.artifactRecord
            { artifactOf packageBase with rawMtreeSha256 := ascii "-" } ∈
            (PreparedState.preparedLines
              (PreparedState.cleanupProjection (manifestOf packageBase))).drop 7 :=
          List.mem_cons_self
        have hfield : packageBase.length ≤ (PreparedState.artifactRecord
            { artifactOf packageBase with rawMtreeSha256 := ascii "-" }).length :=
          length_le_joinTabs (List.mem_cons_of_mem _ (List.mem_cons_of_mem _
            (List.mem_cons_of_mem _ (List.mem_cons_of_mem _ List.mem_cons_self))))
        have hfront := length_le_terminated hbase
        have hback := length_le_terminated hrecord
        rw [List.length_append] at hfront
        rw [← List.take_append_drop 7 (PreparedState.preparedLines
          (PreparedState.cleanupProjection (manifestOf packageBase))), terminated_append,
          List.length_append]
        omega
    · cases henclosed
  · cases hexact

/-- A base of ten mebibytes. -/
def longBase : Bytes := List.replicate (10 * 1024 * 1024) (byte 'a')

theorem longBase_valid : isValidPackageName longBase = true := by
  have hlength : longBase.length = 10 * 1024 * 1024 := List.length_replicate
  have hne : longBase ≠ [] := by
    intro hnil
    rw [hnil] at hlength
    cases hlength
  have hdot : longBase ≠ ascii "." := by
    intro hsame
    rw [hsame] at hlength
    exact absurd hlength (by decide)
  have hdots : longBase ≠ ascii ".." := by
    intro hsame
    rw [hsame] at hlength
    exact absurd hlength (by decide)
  have hhead : longBase.head? = some (byte 'a') := by
    unfold longBase
    rw [List.head?_replicate, if_neg (by decide)]
  have hall : longBase.all isIdentifierByte = true := by
    unfold longBase
    rw [List.all_replicate, if_neg (by decide)]
    decide
  unfold isValidPackageName
  rw [if_neg ?_, hall]
  simp only [hne, hdot, hdots, hhead]
  decide

end Oversized

/-- Where the manifest is valid and cannot be written, absent fragments are invalid, not
missing. -/
theorem operationFragments_unwritten :
    ¬ ∀ (manifest : RootPrepareRequest) (stage : Bytes) (installs upgrades : Option Bytes),
      isValidRootRequest manifest = true → manifest.purpose = .exactInstalledBinding →
      isValidSourceArtifactInstallSha256 stage = true →
      (joinOperationFragments installs upgrades manifest stage = .error .missing ↔
        ∃ installed upgraded, Divides manifest stage installs upgrades installed upgraded ∧
          ¬ Covers manifest installed upgraded) := by
  intro h
  have hlength : longBase.length = 10 * 1024 * 1024 := List.length_replicate
  have hvalid : isValidRootRequest (manifestOf longBase) = true := by
    apply manifestOf_valid longBase_valid
    rw [hlength]
    decide
  have hnone : ¬ ∃ prepared, serializeRootPreparedState (manifestOf longBase) = .ok prepared := by
    apply manifestOf_unwritten
    rw [hlength]
    decide
  have hmissing := (h (manifestOf longBase) (List.replicate 64 (byte '0')) none none hvalid rfl
    (by decide)).mpr ⟨[], [], ⟨rfl, rfl, nofun⟩, by
      intro hcovers
      rcases hcovers _ List.mem_cons_self with hin | hup
      · cases hin
      · cases hup⟩
  rw [joinOperationFragments_unwritten hvalid rfl (by decide) hnone] at hmissing
  cases hmissing

end Moguet.Install.ExactOperation
