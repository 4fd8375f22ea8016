import Moguet.Plan.Resolution

/-!
# Provider interaction

`resolve_with_provider_interaction` runs a resolution at most twice: a first
pass only collects which choices would have to be made, the callback is then
asked once for each of them, and a second pass reuses the answers. The
metadata is read again by the second pass, so it has its own environment.
-/

namespace Moguet.Plan.Interaction

open Verified.ByteString Verified.Checked Verified.Upsert Metadata Model Discovery Dependency
open Resolver Resolution

/-- The name a request is keyed by: the one dependency name all of its
candidates provide. -/
def providerSelectionRequestName (candidates : List ProvidedDependency) :
    Except Thrown Bytes :=
  match candidates with
  | [] =>
    .error ⟨.logicError, ascii "Provider selection request has no candidates."⟩
  | first :: _ =>
    if first.providedDependencyName = [] ∨
        candidates.any fun candidate =>
          candidate.providedDependencyName ≠ first.providedDependencyName then
      .error ⟨.logicError, ascii
        "Provider selection candidates have inconsistent dependency identities."⟩
    else .ok first.providedDependencyName

/-- The requests kept so far, each under its name. -/
abbrev KeyedRequests := List (Bytes × ProviderSelectionRequest)

/-- A name is asked about once; a repeated request must offer the same
candidates. -/
def addUniqueRequest (requests : KeyedRequests)
    (request : ProviderSelectionRequest) : Except Thrown KeyedRequests := do
  let name ← providerSelectionRequestName request.candidates
  match requests.find? fun existing => existing.1 = name with
  | none => .ok (requests ++ [(name, request)])
  | some existing =>
    if existing.2.candidates ≠ request.candidates then
      .error ⟨.runtimeError, ascii
        "Provider candidates changed during invocation resolution: " ++ name⟩
    else .ok requests

/-- The answers by name, and the calls the callback has seen. -/
structure SelectionState where
  selections : List (Bytes × ProviderSelectionSet) := []
  asked : List ProviderSelectionRequest := []

def noLongerCandidate (name : Bytes) : Thrown :=
  ⟨.runtimeError, ascii
    "Previously selected provider is no longer a candidate for dependency: " ++ name⟩

def findSelection (selections : List (Bytes × ProviderSelectionSet)) (name : Bytes) :
    Option ProviderSelectionSet :=
  (selections.find? fun selection => selection.1 = name).map (·.2)

/-- Ask for one request and keep the answer under its name. -/
def askRequest (selectProvider : ProviderSelectionCallback) (state : SelectionState)
    (item : Bytes × ProviderSelectionRequest) : Except Thrown SelectionState := do
  let (selected, asked) ← selectProviderCandidates item.2.dependency
    item.2.candidates (some selectProvider) state.asked
  match selected with
  | none => .ok { state with asked := asked }
  | some selected =>
    if (findSelection state.selections item.1).any fun existing =>
        existing.members ≠ selected.members then
      .error (noLongerCandidate item.1)
    else
      .ok {
        selections := upsert (fun selection => selection.1 = item.1)
          (fun selection => (selection.1, selected)) (item.1, selected)
          state.selections
        asked := asked }

/-- `same_selected_aur_provider_refresh_identity`. -/
def sameSelectedAurProviderRefreshIdentity (selected current : ProvidedDependency) :
    Bool :=
  sameProviderIdentity selected current && selected.origin = .aur &&
    current.origin = .aur && sameProviderContract selected current

/-- `same_selected_provider_revalidation_contract`. -/
def sameSelectedProviderRevalidationContract
    (selected current : ProvidedDependency) : Bool :=
  sameProviderIdentity selected current && sameProviderContract selected current

/-- The candidate that stands for a selected member now. An AUR member is
looked for by name too, so that a changed identity is noticed. -/
def currentCandidate (candidates : List ProvidedDependency)
    (member : ProvidedDependency) : Option (ProvidedDependency × Nat) :=
  candidates.zipIdx.find? fun item =>
    sameProviderIdentity member item.1 ||
      (member.origin = .aur && item.1.packageName = member.packageName)

/-- The one-origin position a selected member has among the candidates. -/
def reuseMember (name : Bytes) (candidates : List ProvidedDependency)
    (member : ProvidedDependency) : Except Thrown Nat :=
  let changed : Thrown :=
    ⟨.runtimeError, selectedAurProviderRevalidationFailureDiagnostic member⟩
  match currentCandidate candidates member with
  | none =>
    if member.origin = .aur then .error changed
    else .error (noLongerCandidate name)
  | some (current, index) =>
    if member.origin = .aur then
      if !sameSelectedAurProviderRefreshIdentity member current ||
          !sameSelectedProviderRevalidationContract member current then
        .error changed
      else .ok (index + 1)
    else if !sameSelectedProviderRevalidationContract member current then
      .error ⟨.runtimeError, ascii
        "Provider candidate changed during dependency resolution: " ++
          providerPackageIdentityDisplay member⟩
    else .ok (index + 1)

/-- The callback of the second pass. -/
def reuseSelection (selections : List (Bytes × ProviderSelectionSet)) :
    ProviderSelectionCallback :=
  fun _ _ candidates =>
    if candidates = [] then .ok none
    else do
      let name ← providerSelectionRequestName candidates
      match findSelection selections name with
      | none => .ok none
      | some selected =>
        let indices ← selected.members.mapM (reuseMember name candidates)
        let reused ←
          ProviderSelectionSet.fromCandidateIndices candidates indices
        .ok (some reused)

/-- The callback of the first pass: every request is left open. -/
def discoverCandidates : ProviderSelectionCallback := fun _ _ _ => .ok none

/-- A resolution that can be run again: the callback decides, and the pass
number stands for the metadata it reads. -/
abbrev ResolveOnce := Nat → Option ProviderSelectionCallback → Except Thrown PassResult

/-- The calls to the local resolver of a pass that was run again are kept: the
resolver is one object over both passes. -/
structure InteractionResult where
  result : PassResult
  pass : Nat
  asked : List ProviderSelectionRequest
  earlierLocalRequests : List DependencyContext

def resolveWithProviderInteraction (resolveOnce : ResolveOnce)
    (selectProvider : Option ProviderSelectionCallback) :
    Except Thrown InteractionResult :=
  match selectProvider with
  | none => do
      let result ← resolveOnce 0 none
      .ok ⟨result, 0, [], []⟩
  | some selectProvider => do
      let discovered ← resolveOnce 0 (some discoverCandidates)
      if discovered.plan.incompleteProviderCandidateSets ≠ [] then
        .ok ⟨discovered, 0, [], []⟩
      else do
        let requests ← discovered.requests.foldlM addUniqueRequest []
        let state ← requests.foldlM (askRequest selectProvider) {}
        if state.selections.isEmpty then .ok ⟨discovered, 0, state.asked, []⟩
        else do
          let result ← resolveOnce 1 (some (reuseSelection state.selections))
          .ok ⟨result, 1, state.asked, discovered.localRequests⟩

/-- `resolve_build_plan_with_interaction`. -/
def resolveBuildPlanWithInteraction (env : Nat → MetadataEnvironment)
    (targets : List Bytes) (context : BuildPlanResolutionContext)
    (selectProvider : Option ProviderSelectionCallback) :
    Except Thrown InteractionResult := do
  let interaction ← resolveWithProviderInteraction
    (fun pass => resolveBuildPlanOnce (env pass) targets context) selectProvider
  .ok { interaction with
    result := { interaction.result with
      plan := finalizeBuildPlanRelationAssessments (env interaction.pass)
        interaction.result.plan } }

/-- `resolve_build_plan`, in the mode its consumers rely on. -/
def resolveBuildPlan (env : Nat → MetadataEnvironment) (targets : List Bytes)
    (selectProvider : Option ProviderSelectionCallback) : Except Thrown BuildPlan := do
  let interaction ← resolveBuildPlanWithInteraction env targets { mode := .legacy }
    selectProvider
  .ok interaction.result.plan

/-- `resolve_fetch_plan_with_interaction`. -/
def resolveFetchPlanWithInteraction (env : Nat → MetadataEnvironment)
    (targets : List Bytes) (selectProvider : Option ProviderSelectionCallback) :
    Except Thrown InteractionResult := do
  let interaction ← resolveWithProviderInteraction
    (fun pass => resolveFetchPlanOnce (env pass) targets) selectProvider
  .ok { interaction with
    result := { interaction.result with
      plan := finalizeBuildPlanRelationAssessments (env interaction.pass)
        interaction.result.plan } }

/-- The provider interaction of a local resolution. -/
def resolveLocal (env : Nat → MetadataEnvironment) (roots : List RootPackage)
    (localPackageBases : List Bytes)
    (resolveLocalDependency : Option LocalDependencyResolver)
    (selectProvider : Option ProviderSelectionCallback) :
    Except Thrown InteractionResult :=
  resolveWithProviderInteraction
    (fun pass => resolveOnce (env pass) roots localPackageBases
      resolveLocalDependency) selectProvider

/-- The result of the interaction is the result of one of its passes. -/
theorem resolveWithProviderInteraction_pass {resolveOnce : ResolveOnce}
    {selectProvider : Option ProviderSelectionCallback}
    {interaction : InteractionResult}
    (h : resolveWithProviderInteraction resolveOnce selectProvider = .ok interaction) :
    ∃ callback, resolveOnce interaction.pass callback = .ok interaction.result := by
  unfold resolveWithProviderInteraction at h
  cases selectProvider with
  | none =>
    dsimp only at h
    rw [bind_eq_ok] at h
    obtain ⟨result, hresult, h⟩ := h
    injection h with h
    rw [← h]
    exact ⟨none, hresult⟩
  | some selectProvider =>
    dsimp only at h
    rw [bind_eq_ok] at h
    obtain ⟨discovered, hdiscovered, h⟩ := h
    split at h
    · injection h with h
      rw [← h]
      exact ⟨_, hdiscovered⟩
    · simp only [bind_eq_ok] at h
      obtain ⟨requests, -, state, -, h⟩ := h
      split at h
      · injection h with h
        rw [← h]
        exact ⟨_, hdiscovered⟩
      · rw [bind_eq_ok] at h
        obtain ⟨result, hresult, h⟩ := h
        injection h with h
        rw [← h]
        exact ⟨_, hresult⟩

/-- The earlier calls of the local resolver, when there are any, are those of a
first pass that ended well. -/
theorem resolveWithProviderInteraction_earlier {resolveOnce : ResolveOnce}
    {selectProvider : Option ProviderSelectionCallback}
    {interaction : InteractionResult}
    (h : resolveWithProviderInteraction resolveOnce selectProvider = .ok interaction) :
    interaction.earlierLocalRequests = [] ∨
      ∃ callback discovered, resolveOnce 0 callback = .ok discovered ∧
        interaction.earlierLocalRequests = discovered.localRequests := by
  unfold resolveWithProviderInteraction at h
  cases selectProvider with
  | none =>
    dsimp only at h
    rw [bind_eq_ok] at h
    obtain ⟨result, -, h⟩ := h
    injection h with h
    rw [← h]
    exact Or.inl rfl
  | some selectProvider =>
    dsimp only at h
    rw [bind_eq_ok] at h
    obtain ⟨discovered, hdiscovered, h⟩ := h
    split at h
    · injection h with h
      rw [← h]
      exact Or.inl rfl
    · simp only [bind_eq_ok] at h
      obtain ⟨requests, -, state, -, h⟩ := h
      split at h
      · injection h with h
        rw [← h]
        exact Or.inl rfl
      · rw [bind_eq_ok] at h
        obtain ⟨result, -, h⟩ := h
        injection h with h
        rw [← h]
        exact Or.inr ⟨_, discovered, hdiscovered, rfl⟩

end Moguet.Plan.Interaction
