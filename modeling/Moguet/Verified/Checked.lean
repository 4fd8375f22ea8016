import Mathlib.Data.List.Basic

/-!
# Checked computations

Code that may throw is an `Except` computation over an explicit state. The
rules below are all the development needs about it: a successful
sequence is a chain of successful steps, and what one step of a loop keeps
the whole loop keeps.
-/

namespace Moguet.Verified.Checked

variable {p : Prop}

universe u v

variable {ε : Type u} {α β σ : Type v} {x : Except ε α} {f : α → Except ε β} {a : α}
  {step : σ → α → Except ε σ} {read : β → Except ε α} {write : α → β}

/-- A sequence succeeds exactly when both of its steps do. -/
theorem bind_eq_ok {r : β} : (x >>= f) = .ok r ↔ ∃ a, x = .ok a ∧ f a = .ok r := by
  constructor
  · intro h
    cases x with
    | error e => cases h
    | ok a => exact ⟨a, rfl, h⟩
  · rintro ⟨a, rfl, h⟩
    exact h

/-- After a step that succeeds the rest runs on its result. -/
theorem bind_of_ok (h : x = .ok a) : (x >>= f) = f a := by
  rw [h]
  rfl

/-- A computation evaluated through a view of its result. -/
theorem exists_ok_of_view {γ : Type*} {view : α → γ} {seen : γ}
    (h : x.toOption.map view = some seen) : ∃ a, x = .ok a ∧ view a = seen := by
  cases x with
  | error e => cases h
  | ok a =>
    injection h with h
    exact ⟨a, rfl, h⟩

theorem eq_ok_of_toOption (h : x.toOption = some a) : x = .ok a := by
  cases x with
  | error e => cases h
  | ok b =>
    have hsame : b = a := Option.some.inj h
    rw [hsame]

/-- A condition that holds lets a chain of optional steps go on. -/
theorem guard_pos [Decidable p] (h : p) : (guard p : Option Unit) = some () := by
  unfold guard
  rw [if_pos h]
  rfl

theorem of_guard [Decidable p] {u : Unit} (h : (guard p : Option Unit) = some u) : p := by
  by_contra hnot
  unfold guard at h
  rw [if_neg hnot] at h
  cases h

/-- Loop rule: an invariant kept by every step that succeeds holds after a
loop that succeeds. The step may use that its item belongs to the list. -/
theorem foldlM_inv {P : σ → Prop} : ∀ {items : List α} {s s' : σ},
      (∀ item ∈ items, ∀ t t', P t → step t item = .ok t' → P t') →
      P s → items.foldlM step s = .ok s' → P s' := by
  intro items
  induction items with
  | nil =>
    intro s s' _ hs h
    injection h with h
    rw [← h]
    exact hs
  | cons item rest ih =>
    intro s s' hstep hs h
    rw [List.foldlM_cons, bind_eq_ok] at h
    obtain ⟨t, ht, hrest⟩ := h
    have htP : P t := hstep item List.mem_cons_self s t hs ht
    refine ih ?_ htP hrest
    intro other hother
    exact hstep other (List.mem_cons_of_mem _ hother)

/-- Loop rule for a view: where every step that succeeds changes the view by its
item alone, the loop changes it by its items. -/
theorem foldlM_view {β : Type*} (view : σ → β) (change : β → α → β)
    (hstep : ∀ t item t', step t item = .ok t' → view t' = change (view t) item) :
    ∀ {items : List α} {s s' : σ}, items.foldlM step s = .ok s' →
      view s' = items.foldl change (view s) := by
  intro items
  induction items with
  | nil =>
    intro s s' h
    injection h with h
    rw [← h]
    rfl
  | cons item rest ih =>
    intro s s' h
    rw [List.foldlM_cons, bind_eq_ok] at h
    obtain ⟨t, ht, hrest⟩ := h
    rw [List.foldl_cons, ← hstep s item t ht]
    exact ih hrest

/-- Loop rule for a reader: when each step appends the one value that its item
is written from, the loop appends the values that the items are written
from. -/
theorem foldlM_append_iff {step : List β → α → Except ε (List β)} {P : List β → Prop}
    {write : β → α} (hpart : ∀ {values more : List β}, P (values ++ more) → P values)
    (hstep : ∀ {values : List β} {item : α} {after : List β}, P values →
      (step values item = .ok after ↔
        ∃ value, item = write value ∧ after = values ++ [value] ∧ P after)) :
    ∀ {items : List α} {values after : List β}, P values → (items.foldlM step values = .ok after ↔
        ∃ more, items = more.map write ∧ after = values ++ more ∧ P after) := by
  intro items
  induction items with
  | nil =>
    intro values after hvalues
    constructor
    · intro h
      injection h with h
      exact ⟨[], rfl, by rw [← h, List.append_nil], by rw [← h]; exact hvalues⟩
    · rintro ⟨more, hitems, hafter, -⟩
      have hmore : more = [] := List.map_eq_nil_iff.mp hitems.symm
      rw [hafter, hmore, List.append_nil]
      rfl
  | cons item items ih =>
    intro values after hvalues
    rw [List.foldlM_cons, bind_eq_ok]
    constructor
    · rintro ⟨next, hnext, h⟩
      obtain ⟨value, hitem, hkept, hfits⟩ := (hstep hvalues).mp hnext
      obtain ⟨more, hitems, hafter, hall⟩ := (ih hfits).mp h
      refine ⟨value :: more, ?_, ?_, hall⟩
      · rw [hitem, hitems]
        rfl
      · rw [hafter, hkept, List.append_assoc]
        rfl
    · rintro ⟨more, hitems, hafter, hall⟩
      cases more with
      | nil => cases hitems
      | cons value more =>
        injection hitems with hitem hitems
        have hsplit : after = values ++ [value] ++ more := by
          rw [hafter, List.append_assoc]
          rfl
        have hkept : P (values ++ [value]) := by
          rw [hsplit] at hall
          exact hpart hall
        exact ⟨values ++ [value], (hstep hvalues).mpr ⟨value, hitem, rfl, hkept⟩,
          (ih hkept).mpr ⟨more, hitems, hsplit, hall⟩⟩

/-- A loop of checks that succeeds has made every one of them. -/
theorem forM_ok_mem {check : α → Except ε PUnit} : ∀ {items : List α}, items.forM check = .ok ⟨⟩ →
      ∀ item ∈ items, check item = .ok ⟨⟩ := by
  intro items
  induction items with
  | nil => intro _ item hmem; cases hmem
  | cons first rest ih =>
    intro h item hmem
    have hboth : (check first >>= fun _ => rest.forM check) = .ok ⟨⟩ := h
    rw [bind_eq_ok] at hboth
    obtain ⟨_, hfirst, hrest⟩ := hboth
    rcases List.mem_cons.mp hmem with rfl | hmem
    · exact hfirst
    · exact ih hrest item hmem

/-- A mapped check succeeds when it does on every item. -/
theorem mapM_eq_ok {g : α → β} : ∀ {items : List α}, (∀ item ∈ items, f item = .ok (g item)) →
      items.mapM f = .ok (items.map g) := by
  intro items
  induction items with
  | nil => intro _; rfl
  | cons first rest ih =>
    intro h
    rw [List.mapM_cons, h first List.mem_cons_self, bind_of_ok rfl,
      ih fun item hmem => h item (List.mem_cons_of_mem _ hmem)]
    rfl

/-- Every result of a mapped check comes from an item. -/
theorem mapM_ok_mem : ∀ {items : List α} {results : List β}, items.mapM f = .ok results →
      ∀ result ∈ results, ∃ item ∈ items, f item = .ok result := by
  intro items
  induction items with
  | nil =>
    intro results h result hmem
    injection h with h
    rw [← h] at hmem
    cases hmem
  | cons first rest ih =>
    intro results h result hmem
    rw [List.mapM_cons, bind_eq_ok] at h
    obtain ⟨head, hhead, h⟩ := h
    rw [bind_eq_ok] at h
    obtain ⟨tail, htail, h⟩ := h
    injection h with h
    rw [← h] at hmem
    rcases List.mem_cons.mp hmem with rfl | hmem
    · exact ⟨first, List.mem_cons_self, hhead⟩
    · obtain ⟨item, hitem, hresult⟩ := ih htail result hmem
      exact ⟨item, List.mem_cons_of_mem _ hitem, hresult⟩

/-- Every input of a successful `mapM` has its result among the outputs. -/
theorem mapM_ok_image : ∀ {items : List α} {results : List β}, items.mapM f = .ok results →
      ∀ item ∈ items, ∃ result ∈ results, f item = .ok result := by
  intro items
  induction items with
  | nil =>
    intro results _ item hmem
    cases hmem
  | cons first rest ih =>
    intro results h item hmem
    rw [List.mapM_cons, bind_eq_ok] at h
    obtain ⟨result, hfirst, h⟩ := h
    rw [bind_eq_ok] at h
    obtain ⟨later, hlater, h⟩ := h
    injection h with h
    rw [← h]
    rcases List.mem_cons.mp hmem with rfl | hrest
    · exact ⟨result, List.mem_cons_self, hfirst⟩
    · obtain ⟨found, hfound, hitem⟩ := ih hlater item hrest
      exact ⟨found, List.mem_cons_of_mem _ hfound, hitem⟩

/-- Loop rule for a relation between the state before and after: reflexive,
transitive and kept by one step, it relates both ends of the loop. -/
theorem foldlM_rel {R : σ → σ → Prop} (hrefl : ∀ s, R s s) (htrans : ∀ a b c, R a b → R b c → R a c)
    :
    ∀ {items : List α} {s s' : σ}, (∀ item ∈ items, ∀ t t', step t item = .ok t' → R t t') →
      items.foldlM step s = .ok s' → R s s' := by
  intro items s s' hstep h
  refine foldlM_inv (P := R s) ?_ (hrefl s) h
  intro item hitem t t' ht hok
  exact htrans s t t' ht (hstep item hitem t t' hok)

/-- Loop rule for two runs over the same items: what relates their states and
is kept when both take a step relates their ends. -/
theorem foldlM_agree {τ : Type v} {step' : τ → α → Except ε τ} {R : σ → τ → Prop}
    (hstep : ∀ item s t s' t', R s t → step s item = .ok s' → step' t item = .ok t' → R s' t') :
    ∀ {items : List α} {s s' : σ} {t t' : τ}, R s t →
      items.foldlM step s = .ok s' → items.foldlM step' t = .ok t' → R s' t' := by
  intro items
  induction items with
  | nil =>
    intro s s' t t' hrel h h'
    injection h with h
    injection h' with h'
    rw [← h, ← h']
    exact hrel
  | cons item rest ih =>
    intro s s' t t' hrel h h'
    rw [List.foldlM_cons, bind_eq_ok] at h h'
    obtain ⟨next, hnext, h⟩ := h
    obtain ⟨next', hnext', h'⟩ := h'
    exact ih (hstep item s t next next' hrel hnext hnext') h h'

/-- A loop of optional steps that succeeds has made every one of them. -/
theorem foldlM_some_mem {step : σ → α → Option σ} :
    ∀ {items : List α} {s s' : σ}, items.foldlM step s = some s' →
      ∀ item ∈ items, ∃ t t', step t item = some t' := by
  intro items
  induction items with
  | nil => intro s s' _ item hmem; cases hmem
  | cons first rest ih =>
    intro s s' h item hmem
    rw [List.foldlM_cons, Option.bind_eq_bind, Option.bind_eq_some_iff] at h
    obtain ⟨t, ht, hrest⟩ := h
    rcases List.mem_cons.mp hmem with rfl | hmem
    · exact ⟨s, t, ht⟩
    · exact ih hrest item hmem

/-- A reader that undoes a writer on every item undoes it on the row. -/
theorem mapM_map_ok : ∀ {items : List α}, (∀ item ∈ items, read (write item) = .ok item) →
      (items.map write).mapM read = .ok items := by
  intro items
  induction items with
  | nil => intro _; rfl
  | cons first rest ih =>
    intro h
    rw [List.map_cons, List.mapM_cons, h first List.mem_cons_self]
    rw [bind_of_ok rfl, ih fun item hmem => h item (List.mem_cons_of_mem _ hmem)]
    rfl

/-- A row that was read is what its items are written as. -/
theorem map_of_mapM_ok (h : ∀ text item, read text = .ok item → write item = text) :
    ∀ {texts : List β} {items : List α}, texts.mapM read = .ok items → items.map write = texts := by
  intro texts
  induction texts with
  | nil =>
    intro items hread
    injection hread with hread
    rw [← hread]
    rfl
  | cons first rest ih =>
    intro items hread
    rw [List.mapM_cons, bind_eq_ok] at hread
    obtain ⟨head, hhead, hread⟩ := hread
    rw [bind_eq_ok] at hread
    obtain ⟨tail, htail, hread⟩ := hread
    injection hread with hread
    rw [← hread, List.map_cons, h first head hhead, ih htail]

end Moguet.Verified.Checked
