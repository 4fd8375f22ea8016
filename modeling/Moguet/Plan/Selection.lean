import Moguet.Plan.EdgeOrigin

/-!
# No provider is chosen implicitly

A provider out of several candidates enters a plan only through an answer of
the callback. The callback is asked between the two passes, once for each
dependency name, and the second pass finds its answers again among the
candidates it discovers itself: by identity, and with an unchanged capability
contract.
-/

namespace Moguet.Plan.Selection

open Verified.ByteString Verified.Checked Verified.Upsert Constraint Metadata Model RepositoryQuery
open Discovery Dependency Resolver Walk Resolution Interaction EdgeOrigin

variable {indices : List Nat} {candidates : List ProvidedDependency} {dependency name : Bytes}
  {member a b c : ProvidedDependency} {index : Nat}
  {selectProvider : Option ProviderSelectionCallback}
  {requests asked after : List ProviderSelectionRequest}
  {selections : List (Bytes × ProviderSelectionSet)} {callback : ProviderSelectionCallback}
  {settings : ResolverSettings} {site : DependencySite} {selection : ProviderSelectionSet}
  {resolveOnce : ResolveOnce}

/-! ## Selections among candidates -/

/-- Members are candidates at selected positions. -/
theorem collectMembers_mem :
    ∀ {candidates members collected : List ProvidedDependency} {index : Nat},
      collectMembers indices index candidates members = .ok collected →
      ∀ member ∈ collected, member ∈ members ∨ ∃ position, candidates[position]? = some member ∧
          index + position ∈ indices := by
  intro candidates
  induction candidates with
  | nil =>
    intro members collected index h member hmem
    injection h with h
    rw [h]
    exact Or.inl hmem
  | cons candidate rest ih =>
    intro members collected index h member hmem
    have hlater : ∀ {kept : List ProvidedDependency},
        collectMembers indices (index + 1) rest kept = .ok collected →
        member ∈ kept ∨ ∃ position, (candidate :: rest)[position]? = some member ∧
          index + position ∈ indices := by
      intro kept hkept
      rcases ih hkept member hmem with hold | ⟨position, hposition, hindex⟩
      · exact Or.inl hold
      · refine Or.inr ⟨position + 1, hposition, ?_⟩
        rw [show index + (position + 1) = index + 1 + position by omega]
        exact hindex
    unfold collectMembers at h
    split at h
    · exact hlater h
    · rename_i hselected
      split at h
      · exact hlater h
      · split at h
        · cases h
        · rcases hlater h with hkept | hfound
          · rcases List.mem_append.mp hkept with hold | hnew
            · exact Or.inl hold
            · rw [List.mem_singleton.mp hnew]
              exact Or.inr ⟨0, rfl, not_not.mp hselected⟩
          · exact Or.inr hfound

theorem fromCandidateIndices_mem {set : ProviderSelectionSet}
    (h : ProviderSelectionSet.fromCandidateIndices candidates indices = .ok set) :
    ∀ member ∈ set.members, ∃ position,
      candidates[position]? = some member ∧ position + 1 ∈ indices := by
  unfold ProviderSelectionSet.fromCandidateIndices at h
  split at h
  · cases h
  · split at h
    · cases h
    · split at h
      · cases h
      · rename_i members hcollected
        split at h
        · cases h
        · injection h with h
          intro member hmem
          rw [← h] at hmem
          rcases collectMembers_mem hcollected member hmem with hnone | ⟨position, hat, hin⟩
          · cases hnone
          · exact ⟨position, hat, by rw [Nat.add_comm]; exact hin⟩

/-- The candidate at a position, the first one of its identity. -/
structure FirstOf (candidates : List ProvidedDependency) (position : Nat)
    (candidate : ProvidedDependency) : Prop where
  found : candidates[position]? = some candidate
  first : ∀ earlier other, earlier < position → candidates[earlier]? = some other →
    sameProviderIdentity candidate other = false

/-- Two first candidates of one identity are the same candidate. -/
theorem FirstOf.eq_of_identity {position position' : Nat}
    {candidate candidate' : ProvidedDependency} (h : FirstOf candidates position candidate)
    (h' : FirstOf candidates position' candidate')
    (hsame : sameProviderIdentity candidate candidate' = true) : candidate = candidate' := by
  have hnotBefore : ¬ position < position' := by
    intro hlt
    have hdifferent := h'.first position candidate hlt h.found
    rw [sameProviderIdentity_symm hsame] at hdifferent
    cases hdifferent
  have hnotAfter : ¬ position' < position := by
    intro hlt
    have hdifferent := h.first position' candidate' hlt h'.found
    rw [hsame] at hdifferent
    cases hdifferent
  have hposition : position = position' := by omega
  have hfound := h.found
  rw [hposition, h'.found] at hfound
  injection hfound with hfound
  exact hfound.symm

theorem offeredIndex_ok (h : offeredIndex dependency candidates member = .ok index) :
    ∃ position candidate, index = position + 1 ∧ FirstOf candidates position candidate ∧
      sameProviderIdentity candidate member = true := by
  unfold offeredIndex at h
  split at h
  · rename_i position hposition
    injection h with h
    rw [List.findIdx?_eq_some_iff_getElem] at hposition
    obtain ⟨hlt, hsame, hfirst⟩ := hposition
    refine ⟨position, candidates[position], h.symm, ?_, hsame⟩
    refine ⟨List.getElem?_eq_getElem hlt, ?_⟩
    intro earlier other hearlier hother
    obtain ⟨hbound, hother⟩ := List.getElem?_eq_some_iff.mp hother
    have hdifferent := hfirst earlier hearlier
    rw [hother] at hdifferent
    cases hcontra : sameProviderIdentity candidates[position] other with
    | false => rfl
    | true =>
      exact absurd (sameProviderIdentity_trans (sameProviderIdentity_symm hcontra) hsame) hdifferent
  · cases h

/-- A selection the resolver accepts: what the callback was asked and what it
answered, with every member rebuilt from the candidates. -/
theorem selectProviderCandidates_some
    (h : selectProviderCandidates dependency candidates selectProvider requests =
      .ok (some selection, asked)) :
    ∃ callback answer, selectProvider = some callback ∧
      asked = requests ++ [⟨dependency, candidates⟩] ∧
      callback requests dependency candidates = .ok (some answer) ∧
      ∀ selected ∈ selection.members, ∃ position, FirstOf candidates position selected ∧
        ∃ member ∈ answer.members, sameProviderIdentity selected member = true := by
  unfold selectProviderCandidates at h
  split at h
  · cases h
  · rename_i callback
    split at h
    · cases h
    · rw [bind_eq_ok] at h
      obtain ⟨answer, hanswer, h⟩ := h
      dsimp only at h
      cases answer with
      | none => cases h
      | some answer =>
        simp only [bind_eq_ok] at h
        obtain ⟨indices, hindices, rebuilt, hrebuilt, h⟩ := h
        injection h with h
        injection h with hselection hasked
        injection hselection with hselection
        refine ⟨callback, answer, rfl, hasked.symm, hanswer, ?_⟩
        intro selected hselected
        rw [← hselection] at hselected
        obtain ⟨position, hat, hindex⟩ :=
          fromCandidateIndices_mem hrebuilt selected hselected
        obtain ⟨member, hmember, hoffered⟩ := mapM_ok_mem hindices _ hindex
        obtain ⟨position', candidate, heq, hfirst, hsame⟩ := offeredIndex_ok hoffered
        have hposition : position = position' := by omega
        have hcandidate : candidate = selected := by
          have hfound := hfirst.found
          rw [← hposition, hat] at hfound
          injection hfound with hfound
          exact hfound.symm
        rw [hcandidate] at hfirst hsame
        exact ⟨position', hfirst, member, hmember, hsame⟩

/-! ## Reuse -/

/-- The same provider with the same capability contract. -/
def SameChoice (selected current : ProvidedDependency) : Prop :=
  sameProviderIdentity selected current = true ∧
    sameProviderContract selected current = true

theorem sameProviderContract_trans (hab : sameProviderContract a b = true)
    (hbc : sameProviderContract b c = true) : sameProviderContract a c = true := by
  unfold sameProviderContract at hab hbc ⊢
  cases ha : a.constraintMetadata with
  | none => simp [ha] at hab
  | some first =>
    cases hb : b.constraintMetadata with
    | none => simp [hb] at hbc
    | some second =>
      cases hc : c.constraintMetadata with
      | none => simp [hc] at hbc
      | some third =>
        simp only [ha, hb, hc, Bool.and_eq_true, decide_eq_true_eq] at hab hbc ⊢
        exact ⟨⟨hab.1.1.trans hbc.1.1, hab.1.2.trans hbc.1.2⟩,
          hab.2.1.trans hbc.2.1, hab.2.2.trans hbc.2.2⟩

theorem SameChoice.trans (hab : SameChoice a b) (hbc : SameChoice b c) : SameChoice a c :=
  ⟨sameProviderIdentity_trans hab.1 hbc.1, sameProviderContract_trans hab.2 hbc.2⟩

theorem currentCandidate_some {current : ProvidedDependency}
    (h : currentCandidate candidates member = some (current, index)) :
    candidates[index]? = some current ∧
      ∀ earlier other, earlier < index → candidates[earlier]? = some other →
        sameProviderIdentity member other = false := by
  unfold currentCandidate at h
  rw [List.find?_eq_some_iff_getElem] at h
  obtain ⟨-, position, hposition, hat, hfirst⟩ := h
  rw [List.length_zipIdx] at hposition
  simp only [List.getElem_zipIdx, Nat.zero_add, Prod.mk.injEq] at hat
  obtain ⟨hcurrent, hindex⟩ := hat
  rw [← hindex, ← hcurrent]
  refine ⟨List.getElem?_eq_getElem hposition, ?_⟩
  intro earlier other hearlier hother
  obtain ⟨hbound, hother⟩ := List.getElem?_eq_some_iff.mp hother
  have hdifferent := hfirst earlier hearlier
  simp only [List.getElem_zipIdx, Bool.not_eq_true', Bool.or_eq_false_iff] at hdifferent
  rw [hother] at hdifferent
  exact hdifferent.1

/-- A member is reused as the first candidate of its identity, with an
unchanged contract. -/
theorem reuseMember_ok (h : reuseMember name candidates member = .ok index) :
    ∃ position current, index = position + 1 ∧ FirstOf candidates position current ∧
      SameChoice member current := by
  unfold reuseMember at h
  dsimp only at h
  split at h
  · split at h <;> cases h
  · rename_i current position hcurrent
    obtain ⟨hat, hearlier⟩ := currentCandidate_some hcurrent
    have hchoice : sameSelectedProviderRevalidationContract member current = true →
        SameChoice member current := by
      intro hcontract
      unfold sameSelectedProviderRevalidationContract at hcontract
      rw [Bool.and_eq_true] at hcontract
      exact hcontract
    have hfirst : SameChoice member current → FirstOf candidates position current := by
      intro hsame
      refine ⟨hat, ?_⟩
      intro earlier other hlt hother
      have hdifferent := hearlier earlier other hlt hother
      cases hcontra : sameProviderIdentity current other with
      | false => rfl
      | true =>
        rw [sameProviderIdentity_trans hsame.1 hcontra] at hdifferent
        cases hdifferent
    split at h
    · split at h
      · cases h
      · rename_i hkept
        injection h with h
        simp only [Bool.or_eq_true, Bool.not_eq_true', not_or, Bool.not_eq_false] at hkept
        have hsame := hchoice hkept.2
        exact ⟨position, current, h.symm, hfirst hsame, hsame⟩
    · split at h
      · cases h
      · rename_i hkept
        injection h with h
        simp only [Bool.not_eq_true', Bool.not_eq_false] at hkept
        have hsame := hchoice hkept
        exact ⟨position, current, h.symm, hfirst hsame, hsame⟩

/-- What the second pass answers: stored members, found again. -/
theorem reuseSelection_some {prior : List ProviderSelectionRequest} {answer : ProviderSelectionSet}
    (h : reuseSelection selections prior dependency candidates = .ok (some answer)) :
    ∃ name stored, providerSelectionRequestName candidates = .ok name ∧
      findSelection selections name = some stored ∧
      ∀ member ∈ answer.members, ∃ position, FirstOf candidates position member ∧
        ∃ selected ∈ stored.members, SameChoice selected member := by
  unfold reuseSelection at h
  split at h
  · cases h
  · rw [bind_eq_ok] at h
    obtain ⟨name, hname, h⟩ := h
    split at h
    · cases h
    · rename_i stored hstored
      simp only [bind_eq_ok] at h
      obtain ⟨indices, hindices, reused, hreused, h⟩ := h
      injection h with h
      injection h with h
      refine ⟨name, stored, hname, hstored, ?_⟩
      intro member hmember
      rw [← h] at hmember
      obtain ⟨position, hat, hindex⟩ := fromCandidateIndices_mem hreused member hmember
      obtain ⟨selected, hselected, hreuse⟩ := mapM_ok_mem hindices _ hindex
      obtain ⟨position', current, heq, hfirst, hsame⟩ := reuseMember_ok hreuse
      have hposition : position = position' := by omega
      have hcurrent : current = member := by
        have hfound := hfirst.found
        rw [← hposition, hat] at hfound
        injection hfound with hfound
        exact hfound.symm
      rw [hcurrent] at hfirst hsame
      exact ⟨position', hfirst, selected, hselected, hsame⟩

theorem findSelection_mem {stored : ProviderSelectionSet}
    (h : findSelection selections name = some stored) : (name, stored) ∈ selections := by
  unfold findSelection at h
  obtain ⟨item, hitem, rfl⟩ := Option.map_eq_some_iff.mp h
  have hname : item.1 = name := by simpa using List.find?_some hitem
  rw [← hname]
  exact List.mem_of_find?_eq_some hitem

/-- All candidates of a request provide its name. -/
theorem providerSelectionRequestName_of_candidatesFor (hfor : CandidatesFor name candidates)
    {found : Bytes} (h : providerSelectionRequestName candidates = .ok found) : found = name := by
  unfold providerSelectionRequestName at h
  split at h
  · cases h
  · split at h
    · cases h
    · injection h with h
      rw [← h]
      exact hfor _ List.mem_cons_self

/-! ## Asking -/

/-- The callback was asked about the name, and its answer names the candidate:
one that was offered, with the identity of a member that was returned. -/
inductive Answered (callback : ProviderSelectionCallback)
    (asked : List ProviderSelectionRequest) (name : Bytes)
    (selected : ProvidedDependency) : Prop
  | member (prior later : List ProviderSelectionRequest)
      (request : ProviderSelectionRequest) (answer : ProviderSelectionSet)
      (member : ProvidedDependency) (hasked : asked = prior ++ request :: later)
      (hname : providerSelectionRequestName request.candidates = .ok name)
      (hanswer : callback prior request.dependency request.candidates =
        .ok (some answer))
      (hmember : member ∈ answer.members) (hselected : selected ∈ request.candidates)
      (hidentity : sameProviderIdentity selected member = true)

theorem Answered.append {selected : ProvidedDependency} (h : Answered callback asked name selected)
    (more : List ProviderSelectionRequest) : Answered callback (asked ++ more) name selected := by
  obtain ⟨prior, later, request, answer, member, hasked, hname, hanswer, hmember, hselected,
    hidentity⟩ := h
  exact .member prior (later ++ more) request answer member
    (by rw [hasked, List.append_assoc, List.cons_append]) hname hanswer hmember hselected
    hidentity

/-- The requests of a pass, each under its own name. -/
structure Keyed (requests : KeyedRequests) : Prop where
  once : (requests.map (·.1)).Nodup
  named : ∀ item ∈ requests,
    providerSelectionRequestName item.2.candidates = .ok item.1

theorem addUniqueRequest_keyed {requests after : KeyedRequests}
    {request : ProviderSelectionRequest} (hkeyed : Keyed requests)
    (h : addUniqueRequest requests request = .ok after) : Keyed after := by
  unfold addUniqueRequest at h
  rw [bind_eq_ok] at h
  obtain ⟨name, hname, h⟩ := h
  split at h
  · rename_i hfresh
    injection h with h
    rw [← h]
    have hnew : name ∉ requests.map (·.1) := by
      intro hmem
      obtain ⟨item, hitem, hitemName⟩ := List.mem_map.mp hmem
      have hnone := List.find?_eq_none.mp hfresh item hitem
      exact hnone (by simpa using hitemName)
    constructor
    · rw [List.map_append, List.map_singleton, List.nodup_append_comm]
      exact List.nodup_cons.mpr ⟨hnew, hkeyed.once⟩
    · intro item hmem
      rcases List.mem_append.mp hmem with hmem | hmem
      · exact hkeyed.named item hmem
      · rw [List.mem_singleton.mp hmem]
        exact hname
  · split at h
    · cases h
    · injection h with h
      rw [← h]
      exact hkeyed

theorem providerSelectionRequestName_ne_nil (h : providerSelectionRequestName candidates = .ok name)
    : candidates ≠ [] := by
  intro hnil
  rw [hnil] at h
  cases h

/-- A call of the callback is logged. -/
theorem selectProviderCandidates_asked {selection : Option ProviderSelectionSet}
    (hne : candidates ≠ [])
    (h : selectProviderCandidates dependency candidates (some callback) requests =
      .ok (selection, asked)) : asked = requests ++ [⟨dependency, candidates⟩] := by
  unfold selectProviderCandidates at h
  dsimp only at h
  rw [if_neg hne, bind_eq_ok] at h
  obtain ⟨answer, hanswer, h⟩ := h
  cases answer with
  | none =>
    injection h with h
    injection h with _ hasked
    exact hasked.symm
  | some answer =>
    simp only [bind_eq_ok] at h
    obtain ⟨indices, -, rebuilt, -, h⟩ := h
    injection h with h
    injection h with _ hasked
    exact hasked.symm

/-- Every stored selection is an answer. -/
def Recorded (callback : ProviderSelectionCallback) (state : SelectionState) : Prop :=
  ∀ item ∈ state.selections, ∀ selected ∈ item.2.members,
    Answered callback state.asked item.1 selected

/-- One request: it is asked, and only its answer is stored. -/
theorem askRequest_spec {state after : SelectionState} {item : Bytes × ProviderSelectionRequest}
    (hname : providerSelectionRequestName item.2.candidates = .ok item.1)
    (h : askRequest callback state item = .ok after) :
    after.asked = state.asked ++ [item.2] ∧
      (Recorded callback state → Recorded callback after) := by
  unfold askRequest at h
  rw [bind_eq_ok] at h
  obtain ⟨⟨selection, asked⟩, hselect, h⟩ := h
  have hasked : asked = state.asked ++ [item.2] :=
    selectProviderCandidates_asked (providerSelectionRequestName_ne_nil hname) hselect
  have hold : Recorded callback state → ∀ stored ∈ state.selections,
      ∀ selected ∈ stored.2.members, Answered callback asked stored.1 selected := by
    intro hrecorded stored hstored selected hselected
    rw [hasked]
    exact (hrecorded stored hstored selected hselected).append _
  dsimp only at h
  cases selection with
  | none =>
    injection h with h
    rw [← h]
    exact ⟨hasked, hold⟩
  | some selection =>
    dsimp only at h
    split at h
    · cases h
    · injection h with h
      rw [← h]
      refine ⟨hasked, ?_⟩
      obtain ⟨chosen, answer, hcallback, -, hanswer, hmembers⟩ :=
        selectProviderCandidates_some hselect
      injection hcallback with hcallback
      have hnew : ∀ selected ∈ selection.members, Answered callback asked item.1 selected := by
        intro selected hselected
        obtain ⟨position, hfirst, member, hmember, hidentity⟩ :=
          hmembers selected hselected
        exact .member state.asked [] item.2 answer member hasked hname
          (by rw [hcallback]; exact hanswer) hmember
          (List.mem_of_getElem? hfirst.found) hidentity
      intro hrecorded stored hstored selected hselected
      rcases mem_upsert hstored with hkept | rfl | ⟨existing, -, hkey, rfl⟩
      · exact hold hrecorded stored hkept selected hselected
      · exact hnew selected hselected
      · have hexisting : existing.1 = item.1 := by simpa using hkey
        show Answered callback asked existing.1 selected
        rw [hexisting]
        exact hnew selected hselected

/-- All requests: each is asked in turn. -/
theorem askRequests_spec : ∀ {requests : KeyedRequests} {state after : SelectionState},
      (∀ item ∈ requests, providerSelectionRequestName item.2.candidates = .ok item.1) →
      requests.foldlM (askRequest callback) state = .ok after →
      after.asked = state.asked ++ requests.map (·.2) ∧
        (Recorded callback state → Recorded callback after) := by
  intro requests
  induction requests with
  | nil =>
    intro state after _ h
    injection h with h
    rw [← h]
    exact ⟨(List.append_nil _).symm, id⟩
  | cons item rest ih =>
    intro state after hnamed h
    rw [List.foldlM_cons, bind_eq_ok] at h
    obtain ⟨next, hnext, h⟩ := h
    obtain ⟨hfirst, hkeep⟩ := askRequest_spec (hnamed item List.mem_cons_self) hnext
    obtain ⟨hrest, hkeeps⟩ :=
      ih (fun other hother => hnamed other (List.mem_cons_of_mem _ hother)) h
    constructor
    · rw [hrest, hfirst, List.append_assoc, List.map_cons, List.singleton_append]
    · exact fun hrecorded => hkeeps (hkeep hrecorded)

/-- The names the callback is asked about. -/
def askedNames (asked : List ProviderSelectionRequest) : List (Except Thrown Bytes) :=
  asked.map fun request => providerSelectionRequestName request.candidates

theorem Keyed.askedNames_nodup {requests : KeyedRequests} (h : Keyed requests) :
    (askedNames (requests.map (·.2))).Nodup := by
  have hnames : askedNames (requests.map (·.2)) = (requests.map (·.1)).map Except.ok := by
    unfold askedNames
    rw [List.map_map, List.map_map]
    exact List.map_congr_left fun item hitem => h.named item hitem
  rw [hnames]
  exact h.once.map fun first second hsame => by injection hsame

/-! ## Choices of a pass -/

theorem chooseProviders_many {resolution : ProviderResolutionKind} (hmany : 2 ≤ candidates.length)
    (h : chooseProviders settings site candidates requests =
      .ok (some (selection, resolution), after)) : resolution = .userSelected := by
  unfold chooseProviders at h
  rw [bind_eq_ok] at h
  obtain ⟨⟨chosen, asked⟩, -, h⟩ := h
  dsimp only at h
  cases chosen with
  | some chosen =>
    injection h with h
    injection h with h
    injection h with h
    injection h with _ h
    exact h.symm
  | none =>
    dsimp only at h
    rw [if_neg (by omega)] at h
    cases h

theorem chooseProviders_userSelected (h : chooseProviders settings site candidates requests =
      .ok (some (selection, .userSelected), after)) :
    selectProviderCandidates site.dependency candidates settings.selectProvider
      requests = .ok (some selection, after) := by
  unfold chooseProviders at h
  rw [bind_eq_ok] at h
  obtain ⟨⟨chosen, asked⟩, hchosen, h⟩ := h
  dsimp only at h
  cases chosen with
  | some chosen =>
    injection h with h
    injection h with hselection hasked
    injection hselection with hselection
    injection hselection with hselection _
    rw [hchosen, hselection, hasked]
  | none =>
    dsimp only at h
    split at h
    · rw [bind_eq_ok] at h
      obtain ⟨unique, -, h⟩ := h
      cases h
    · cases h

/-- A provider the user selected in a pass is one the callback of the pass
answered with. -/
theorem PlannedProvider.answered {consumer : ConsumerDependencyRequirement}
    {discovery : ProviderCandidateDiscovery} {provider : ProvidedDependency}
    (h : PlannedProvider settings site consumer discovery .userSelected provider) :
    ∃ callback requests answer position selected member, settings.selectProvider = some callback ∧
      callback requests site.dependency discovery.candidates = .ok (some answer) ∧
      FirstOf discovery.candidates position selected ∧ member ∈ answer.members ∧
      sameProviderIdentity selected member = true ∧
      (provider = selected ∨ SameChoice selected provider) := by
  obtain ⟨selection, selected, before, after, hchoose, hselected, hprovider⟩ := h.chosen
  obtain ⟨callback, answer, hcallback, -, hanswer, hmembers⟩ :=
    selectProviderCandidates_some (chooseProviders_userSelected hchoose)
  obtain ⟨position, hfirst, member, hmember, hidentity⟩ := hmembers selected hselected
  refine ⟨callback, before, answer, position, selected, member, hcallback, hanswer, hfirst,
    hmember, hidentity, ?_⟩
  rcases hprovider with ⟨-, hsame⟩ | ⟨-, hsame, hcontract⟩
  · exact Or.inl hsame
  · exact Or.inr ⟨hsame, hcontract⟩

/-! ## The interaction -/

/-- How an interaction came to its result: which callback the pass ran with,
and what the user's callback had answered by then. -/
inductive InteractionRun (resolveOnce : ResolveOnce) :
    Option ProviderSelectionCallback → InteractionResult → Prop
  | unasked (result : PassResult) (hresult : resolveOnce 0 none = .ok result) :
      InteractionRun resolveOnce none ⟨result, 0, [], []⟩
  | discovered (callback : ProviderSelectionCallback) (result : PassResult)
      (asked : List ProviderSelectionRequest)
      (hresult : resolveOnce 0 (some discoverCandidates) = .ok result)
      (honce : (askedNames asked).Nodup) :
      InteractionRun resolveOnce (some callback) ⟨result, 0, asked, []⟩
  | reused (callback : ProviderSelectionCallback) (result : PassResult)
      (state : SelectionState) (earlier : List DependencyContext)
      (hresult : resolveOnce 1 (some (reuseSelection state.selections)) = .ok result)
      (honce : (askedNames state.asked).Nodup) (hrecorded : Recorded callback state) :
      InteractionRun resolveOnce (some callback) ⟨result, 1, state.asked, earlier⟩

theorem resolveWithProviderInteraction_run {interaction : InteractionResult}
    (h : resolveWithProviderInteraction resolveOnce selectProvider =
      .ok interaction) : InteractionRun resolveOnce selectProvider interaction := by
  unfold resolveWithProviderInteraction at h
  cases selectProvider with
  | none =>
    dsimp only at h
    rw [bind_eq_ok] at h
    obtain ⟨result, hresult, h⟩ := h
    injection h with h
    rw [← h]
    exact .unasked result hresult
  | some callback =>
    dsimp only at h
    rw [bind_eq_ok] at h
    obtain ⟨discovered, hdiscovered, h⟩ := h
    split at h
    · injection h with h
      rw [← h]
      exact .discovered callback discovered [] hdiscovered List.nodup_nil
    · simp only [bind_eq_ok] at h
      obtain ⟨requests, hrequests, state, hstate, h⟩ := h
      have hkeyed : Keyed requests := by
        refine foldlM_inv (P := Keyed) ?_ ?_ hrequests
        · exact fun _ _ _ _ hbefore => addUniqueRequest_keyed hbefore
        · exact ⟨List.nodup_nil, by simp⟩
      obtain ⟨hasked, hrecorded⟩ := askRequests_spec hkeyed.named hstate
      have honce : (askedNames state.asked).Nodup := by
        rw [hasked]
        exact hkeyed.askedNames_nodup
      split at h
      · injection h with h
        rw [← h]
        exact .discovered callback discovered state.asked hdiscovered honce
      · rw [bind_eq_ok] at h
        obtain ⟨result, hresult, h⟩ := h
        injection h with h
        rw [← h]
        exact .reused callback result state _ hresult honce
          (hrecorded fun item hmem => by cases hmem)

/-- The complete candidate set of a dependency name. -/
def CompleteCandidates (env : MetadataEnvironment)
    (recipes : Option AurRecipeMetadataSet) (name : Bytes)
    (candidates : List ProvidedDependency) : Prop :=
  ∃ failureContext before discovery after,
    findDependencyProviders env name (some failureContext) true recipes before =
        .ok (discovery, after) ∧
      discovery.isComplete = true ∧ discovery.candidates = candidates

/-- The callback answered for the name with a set that names the provider, and
its capability contract is still the one that was offered. -/
def ChosenFor (selectProvider : Option ProviderSelectionCallback)
    (asked : List ProviderSelectionRequest) (name : Bytes)
    (provider : ProvidedDependency) : Prop :=
  ∃ callback selected, selectProvider = some callback ∧
    Answered callback asked name selected ∧ SameChoice selected provider

/-- A provided edge: its provider is explained by the candidates of its
dependency name or by an answer. -/
structure ExplicitEdge (env : MetadataEnvironment)
    (recipes : Option AurRecipeMetadataSet)
    (selectProvider : Option ProviderSelectionCallback)
    (asked : List ProviderSelectionRequest) (edge : BuildPlanDependencyEdge)
    (consumer : ConsumerDependencyRequirement) (provider : ProvidedDependency) :
    Prop where
  parsed : parseDependencyRequirement edge.dependencySpec = .ok (.consumer consumer)
  resolved : edge.resolvedProvider = some provider
  complete : ∃ candidates, CompleteCandidates env recipes consumer.packageName candidates
  explicit : ∀ candidates,
    CompleteCandidates env recipes consumer.packageName candidates →
      2 ≤ candidates.length →
      ChosenFor selectProvider asked consumer.packageName provider
  reused : edge.providerResolution = .userSelected →
    ChosenFor selectProvider asked consumer.packageName provider

/-- The edges and the calls of an interaction. -/
structure ExplicitChoices (env : MetadataEnvironment)
    (recipes : Option AurRecipeMetadataSet)
    (selectProvider : Option ProviderSelectionCallback)
    (interaction : InteractionResult) : Prop where
  asked_once : (askedNames interaction.asked).Nodup
  provided : ∀ edge ∈ interaction.result.plan.dependencyEdges, edge.kind = .provided →
    ∃ consumer provider, ExplicitEdge env recipes selectProvider interaction.asked edge
      consumer provider

/-- An edge of a pass, given what a selection of the pass goes back to. -/
theorem EdgeOrigin.explicitEdge {edge : BuildPlanDependencyEdge} (h : EdgeOrigin settings edge)
    (hkind : edge.kind = .provided) (hchosen : ∀ site consumer discovery provider,
      PlannedProvider settings site consumer discovery .userSelected provider →
        ChosenFor selectProvider asked consumer.packageName provider) :
    ∃ consumer provider, ExplicitEdge settings.env settings.context.recipes
      selectProvider asked edge consumer provider := by
  obtain ⟨site, consumer, discovery, provider, hparsed, hplanned, hprovider, -⟩ :=
    h.provided hkind
  obtain ⟨before, after, hfound⟩ := hplanned.discovered.found
  refine ⟨consumer, provider, {
    parsed := hparsed
    resolved := hprovider
    complete := ⟨discovery.candidates, _, before, discovery, after, hfound,
      hplanned.discovered.complete, rfl⟩
    explicit := ?_
    reused := ?_ }⟩
  · rintro candidates ⟨failureContext, before', discovery', after', hfound', -, rfl⟩ hmany
    have hsame : discovery' = discovery := findDependencyProviders_agree hfound' hfound
    rw [hsame] at hmany
    obtain ⟨selection, selected, first, last, hchoose, -⟩ := hplanned.chosen
    have hresolution := chooseProviders_many hmany hchoose
    rw [hresolution] at hplanned
    exact hchosen site consumer discovery provider hplanned
  · intro hresolution
    rw [hresolution] at hplanned
    exact hchosen site consumer discovery provider hplanned

/-- The passes the interaction is used with in the planner. -/
inductive PlanPass (env : Nat → MetadataEnvironment) (targets : List Bytes) :
    BuildPlanResolutionContext → ResolveOnce → Prop
  | build (context : BuildPlanResolutionContext) :
      PlanPass env targets context
        (fun pass => resolveBuildPlanOnce (env pass) targets context)
  | fetch : PlanPass env targets { mode := .legacy }
      (fun pass => resolveFetchPlanOnce (env pass) targets)

theorem PlanPass.traced {env : Nat → MetadataEnvironment} {targets : List Bytes}
    {context : BuildPlanResolutionContext} (h : PlanPass env targets context resolveOnce)
    {pass : Nat} {callback : Option ProviderSelectionCallback} {result : PassResult}
    (hresult : resolveOnce pass callback = .ok result) :
    ∃ settings : ResolverSettings, settings.env = env pass ∧
      settings.context = context ∧ settings.selectProvider = callback ∧
      Traced settings result.plan := by
  cases h with
  | build => exact ⟨_, rfl, rfl, rfl, resolveBuildPlanOnce_edgeOrigin hresult⟩
  | fetch => exact ⟨_, rfl, rfl, rfl, resolveFetchPlanOnce_edgeOrigin hresult⟩

/-- `app` depends on `sh`, which `bash` and `dash` provide. -/
def twoShells : MetadataEnvironment :=
  MetadataEnvironment.ofAurRecords
    [{ name := ascii "app", packageBase := ascii "app", version := ascii "1-1",
       depends := [ascii "sh"] },
     { name := ascii "bash", packageBase := ascii "bash", version := ascii "1-1",
       provides := [ascii "sh"] },
     { name := ascii "dash", packageBase := ascii "dash", version := ascii "1-1",
       provides := [ascii "sh"] }]

/-- A callback that takes the second candidate. -/
def takeSecond : ProviderSelectionCallback := fun _ _ candidates => do
  let selection ← ProviderSelectionSet.fromCandidateIndices candidates [2]
  .ok (some selection)

end Moguet.Plan.Selection
