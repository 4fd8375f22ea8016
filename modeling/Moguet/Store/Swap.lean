import Moguet.Store.Progress

/-!
# Publications by callers that take turns

Every publication names the record its caller has seen last. A unit that nobody
else writes to is then a register that is only compared and swapped, and that
keeps all it has held: a publication counts exactly when it names the last record,
and one that does not leaves the records as they are.
-/

namespace Moguet.Store.Swap

open Verified ByteString Dialogue Dialogue.Program Record Chain Publish Commit Progress

variable {configuration : StoreConfiguration} {stamps : Nat → Stamp} {state : Quiet}
  {expected : Option ObservedRecord} {publication : Bytes} {note : PublicationProgress}

/-! ## A publication that names another record -/

theorem run_require_not {condition : Bool} {otherwise : PublishResult} (h : condition = false) :
    run (respond configuration stamps) state
      (Stage.require condition otherwise : PublishStage PUnit) = (.error otherwise, state) := by
  rw [h]
  rfl

theorem run_requireExpected_stale (stamps : Nat → Stamp) (note : PublicationProgress)
    (h : Kept configuration state.records)
    (hstale : expected ≠ expectedAfter state.records) :
    ∃ failure after, run (respond configuration stamps) state
        (requireExpected note configuration (provenOf state.records).tip expected) =
          (.error (.failure failure), after) ∧ after.records = state.records := by
  unfold expectedAfter at hstale
  unfold provenOf
  cases hlast : state.records.getLast? with
  | none =>
    rw [hlast] at hstale
    cases expected with
    | none => exact absurd rfl hstale
    | some expected => exact ⟨_, _, rfl, rfl⟩
  | some stored =>
    rw [hlast] at hstale
    cases expected with
    | none => exact ⟨_, _, rfl, rfl⟩
    | some expected =>
      have hmem := List.mem_of_getLast? hlast
      have hsound := h.sound stored hmem
      have hfound := h.findStored hmem
      have hleaf : (scannedOf stored).leaf.leaf = stored.leaf := (h.scanned hmem).2
      have hgeneration : (scannedOf stored).leaf.generation = state.records.length := by
        have hindex := hlast
        rw [List.getLast?_eq_getElem?] at hindex
        have hpos := List.length_pos_of_mem hmem
        have hplace := h.generation hindex
        omega
      by_cases hhead : (decide ((scannedOf stored).leaf.generation = expected.generation) &&
          decide ((scannedOf stored).leaf.leaf = expected.leafName) &&
          decide (recordIdentityFromStatus (scannedOf stored).status = expected.identity)) = true
      · have hcontents : ¬ stored.contents = expected.rawContents := by
          intro hsame
          simp only [Bool.and_eq_true, decide_eq_true_eq] at hhead
          apply hstale
          rw [Option.map_some, ← hgeneration, hhead.1.1, ← hleaf, hhead.1.2, hsame]
          exact congrArg (fun identity => some (ObservedRecord.mk _ _ identity _)) hhead.2.symm
        have hread : run (respond configuration stamps)
            { state with tip := some stored, offset := 0 }
            (readAllBytes note .failure configuration stored.leaf stored.status :
              PublishStage Bytes) = (.ok stored.contents,
              { state with tip := some stored, offset := stored.contents.length }) :=
          run_readAllBytes hsound rfl rfl hfound
        refine ⟨concurrentReplacement (some stored.leaf),
          { state with tip := some stored, offset := stored.contents.length }, ?_, rfl⟩
        refine (Stage.run_bind_ok (Stage.run_require hhead)).trans ?_
        rw [hleaf]
        refine (Stage.run_bind_ok (run_openExistingEntry hsound hfound)).trans ?_
        refine (Stage.run_bind_ok hread).trans ?_
        exact Stage.run_bind_error (run_require_not (decide_eq_false hcontents))
      · exact ⟨concurrentReplacement (some (scannedOf stored).leaf.leaf), state,
          Stage.run_bind_error (run_require_not (Bool.not_eq_true _ ▸ hhead)), rfl⟩

/-- A publication that does not name the last record is refused. -/
theorem run_publish_stale (stamps : Nat → Stamp) (h : Kept configuration state.records)
    (hcount : state.records.length ≤ maxUnitDirectoryEntries)
    (hpublication : publication.length ≤ configuration.maxRecordBytes)
    (hstale : expected ≠ expectedAfter state.records) :
    ∃ failure after, run (respond configuration stamps) state
        (publishGenerationStore configuration publication expected) =
          (.failure failure, after) ∧ after.records = state.records := by
  have hopened : Kept configuration (afterOpen state).records := h
  obtain ⟨failure, after, hleft, hrecords⟩ :=
    run_requireExpected_stale stamps {} hopened hstale
  have hprepare : run (respond configuration stamps) state
      (prepareCommit configuration publication expected) = (.error (.failure failure), after) :=
    (Stage.run_bind_ok (run_openHistory h hcount hpublication)).trans
      (Stage.run_bind_error hleft)
  have hstage : run (respond configuration stamps) state
      (publishStage configuration publication expected) = (.error (.failure failure), after) :=
    Stage.run_bind_error hprepare
  refine ⟨failure, after, ?_, hrecords⟩
  rw [publishGenerationStore_eq]
  refine (run_bind _ state).trans ?_
  rw [hstage]
  rfl

/-! ## Any publication -/

/-- A publication with the record its caller has seen last. -/
structure Attempt where
  contents : Bytes
  expected : Option ObservedRecord

variable {attempt : Attempt} {attempts front : List Attempt}

section Attempts

variable (configuration stamps)

def publish (state : Quiet) (attempt : Attempt) : PublishResult × Quiet :=
  run (respond configuration stamps) state
    (publishGenerationStore configuration attempt.contents attempt.expected)

/-- Attempts one after the other. -/
def publishEach : Quiet → List Attempt → List PublishResult × Quiet
  | state, [] => ([], state)
  | state, attempt :: attempts =>
    let first := publish configuration stamps state attempt
    let others := publishEach first.2 attempts
    (first.1 :: others.1, others.2)

end Attempts

/-- What an attempt comes to: it counts exactly when it names the last record. -/
structure Swaps (configuration : StoreConfiguration) (before : Quiet) (attempt : Attempt)
    (done : PublishResult × Quiet) : Prop where
  kept : Kept configuration done.2.records
  counted : attempt.expected = expectedAfter before.records → isPublished done.1 = true ∧
    ∃ stored, stored.contents = attempt.contents ∧ done.2.records = before.records ++ [stored]
  refused : attempt.expected ≠ expectedAfter before.records →
    (∃ failure, done.1 = .failure failure) ∧ done.2.records = before.records

theorem publish_swaps (hstamps : ∀ index, (stamps index).Ordinary)
    (h : Kept configuration state.records)
    (hcount : state.records.length < maxUnitDirectoryEntries)
    (hattempt : Publishable configuration attempt.contents) :
    Swaps configuration state attempt (publish configuration stamps state attempt) := by
  unfold publish
  by_cases hsame : attempt.expected = expectedAfter state.records
  · have hrun := run_publish h hcount.le (hstamps _) hattempt.1 hattempt.2
    rw [hsame, hrun, if_pos hcount]
    exact ⟨h.grow hcount.le (hstamps _) hattempt.1 hattempt.2,
      fun _ => ⟨rfl, _, contents_nextStored _ _ _ _, rfl⟩, fun hother => absurd hsame hother⟩
  · obtain ⟨failure, after, hrun, hrecords⟩ :=
      run_publish_stale stamps h hcount.le hattempt.1 hsame
    rw [hrun]
    exact ⟨by rw [hrecords]; exact h, fun hother => absurd hother hsame,
      fun _ => ⟨⟨failure, rfl⟩, hrecords⟩⟩

theorem Swaps.grows {before : Quiet} {done : PublishResult × Quiet}
    (h : Swaps configuration before attempt done) : before.records <+: done.2.records ∧
      done.2.records.length ≤ before.records.length + 1 := by
  by_cases hsame : attempt.expected = expectedAfter before.records
  · obtain ⟨-, stored, -, hrecords⟩ := h.counted hsame
    rw [hrecords]
    exact ⟨List.prefix_append _ _, List.length_append.le⟩
  · rw [(h.refused hsame).2]
    exact ⟨List.prefix_rfl, Nat.le_succ _⟩

/-! ## Attempts one after the other -/

/-- The contents of the attempts that counted. -/
def countedContents (attempts : List Attempt) (results : List PublishResult) : List Bytes :=
  ((attempts.zip results).filter fun answered => isPublished answered.2).map (·.1.contents)

/-- The records stay in their order, and those added hold what counted. -/
theorem publishEach_records (hstamps : ∀ index, (stamps index).Ordinary) :
    ∀ {attempts : List Attempt} {state : Quiet}, Kept configuration state.records →
      (∀ attempt ∈ attempts, Publishable configuration attempt.contents) →
      state.records.length + attempts.length ≤ maxUnitDirectoryEntries →
      Kept configuration (publishEach configuration stamps state attempts).2.records ∧
        ∃ added, (publishEach configuration stamps state attempts).2.records =
            state.records ++ added ∧ added.length ≤ attempts.length ∧
          added.map Stored.contents =
            countedContents attempts (publishEach configuration stamps state attempts).1 := by
  intro attempts
  induction attempts with
  | nil =>
    intro state h _ _
    exact ⟨h, [], (List.append_nil _).symm, le_rfl, rfl⟩
  | cons attempt attempts ih =>
    intro state h hattempts hroom
    rw [List.length_cons] at hroom
    have hswaps : Swaps configuration state attempt (publish configuration stamps state attempt) :=
      publish_swaps hstamps h (by omega) (hattempts attempt List.mem_cons_self)
    have hothers := fun other hother => hattempts other (List.mem_cons_of_mem attempt hother)
    unfold publishEach countedContents
    dsimp only
    by_cases hsame : attempt.expected = expectedAfter state.records
    · obtain ⟨hpublished, stored, hstored, hrecords⟩ := hswaps.counted hsame
      obtain ⟨hkept, added, hadded, hlength, hcontents⟩ := ih hswaps.kept hothers (by
        rw [hrecords, List.length_append, List.length_singleton]
        omega)
      refine ⟨hkept, stored :: added, ?_, Nat.succ_le_succ hlength, ?_⟩
      · rw [hadded, hrecords, List.append_assoc]
        rfl
      · rw [List.zip_cons_cons, List.filter_cons_of_pos (by exact hpublished), List.map_cons,
          List.map_cons, hstored, hcontents]
        rfl
    · obtain ⟨⟨failure, hfailure⟩, hrecords⟩ := hswaps.refused hsame
      obtain ⟨hkept, added, hadded, hlength, hcontents⟩ := ih hswaps.kept hothers (by
        rw [hrecords]
        omega)
      refine ⟨hkept, added, by rw [hadded, hrecords], Nat.le_succ_of_le hlength, ?_⟩
      rw [List.zip_cons_cons, List.filter_cons_of_neg (by simp [hfailure, isPublished])]
      exact hcontents

/-- An attempt is answered in the state the earlier ones have left. -/
theorem publishEach_append (attempt : Attempt) (back : List Attempt) :
    ∀ (front : List Attempt) (state : Quiet),
      let before := publishEach configuration stamps state front
      (publishEach configuration stamps state (front ++ attempt :: back)).2 =
          (publishEach configuration stamps before.2 (attempt :: back)).2 ∧
        (publishEach configuration stamps state (front ++ attempt :: back)).1[front.length]? =
          some (publish configuration stamps before.2 attempt).1 := by
  intro front
  induction front with
  | nil => exact fun state => ⟨rfl, rfl⟩
  | cons first front ih => exact fun state => ih (publish configuration stamps state first).2

theorem publishEach_at (hstamps : ∀ index, (stamps index).Ordinary) {back : List Attempt}
    (hattempts : ∀ other ∈ front ++ attempt :: back, Publishable configuration other.contents)
    (hroom : (front ++ attempt :: back).length ≤ maxUnitDirectoryEntries) :
    let before := (publishEach configuration stamps {} front).2
    let done := publish configuration stamps before attempt
    Swaps configuration before attempt done ∧
      (publishEach configuration stamps {} (front ++ attempt :: back)).1[front.length]? =
        some done.1 ∧
      done.2.records <+:
        (publishEach configuration stamps {} (front ++ attempt :: back)).2.records := by
  rw [List.length_append, List.length_cons] at hroom
  have hzero : ({} : Quiet).records.length = 0 := rfl
  obtain ⟨hkept, added, hadded, hlength, -⟩ := publishEach_records hstamps holding_initial.kept
    (fun other hother => hattempts other (List.mem_append_left _ hother)) (by omega)
  have hcount : (publishEach configuration stamps {} front).2.records.length ≤ front.length := by
    rw [hadded]
    exact hlength
  have hswaps := publish_swaps hstamps hkept (by omega)
    (hattempts attempt (List.mem_append_right front List.mem_cons_self))
  have hgrows := hswaps.grows.2
  obtain ⟨hafter, hanswer⟩ := publishEach_append attempt back front {}
  obtain ⟨-, more, hmore, -⟩ := publishEach_records hstamps hswaps.kept
    (fun other hother => hattempts other
      (List.mem_append_right front (List.mem_cons_of_mem attempt hother))) (by omega)
  exact ⟨hswaps, hanswer, more, by rw [hafter]; exact hmore.symm⟩

end Moguet.Store.Swap
