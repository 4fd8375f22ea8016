import Mathlib.Data.List.Sublists
import Moguet.Verified.ByteString

/-!
# Texts of a subsequence

A writer that writes some of the items of a list, in its order, and a reader that walks
the list once and takes an item where the text goes on with it. The reader never goes
back: it reads what was written where the text of no item starts like that of a later
one.
-/

namespace Moguet.Verified.Subsequence

open ByteString

variable {α : Type}

/-- The items that the text goes on with, one after the other, and what is left. -/
def takeItems (write : α → Bytes) : List α → Bytes → List α × Bytes
  | [], text => ([], text)
  | item :: items, text =>
    if (write item).isPrefixOf text then
      let taken := takeItems write items (text.drop (write item).length)
      (item :: taken.1, taken.2)
    else takeItems write items text

/-- What is taken is a subsequence, and stands in the text. -/
theorem takeItems_text (write : α → Bytes) (items : List α) (text : Bytes) :
    (takeItems write items text).1.Sublist items ∧
      text = (takeItems write items text).1.flatMap write ++ (takeItems write items text).2 := by
  induction items generalizing text with
  | nil => exact ⟨List.Sublist.refl [], rfl⟩
  | cons item items ih =>
    unfold takeItems
    split
    · rename_i hstarts
      obtain ⟨rest, hrest⟩ := List.isPrefixOf_iff_prefix.mp hstarts
      obtain ⟨hsub, htext⟩ := ih (text.drop (write item).length)
      refine ⟨hsub.cons_cons item, ?_⟩
      rw [List.flatMap_cons, List.append_assoc, ← htext, ← hrest, List.drop_left]
    · obtain ⟨hsub, htext⟩ := ih text
      exact ⟨hsub.cons item, htext⟩

/-- A subsequence that is written is read. -/
theorem takeItems_write {write : α → Bytes} {rest : Bytes} :
    ∀ {items chosen : List α}, chosen.Sublist items → items.Pairwise (fun first second =>
        ∀ more, (write first).isPrefixOf (write second ++ more) = false) →
      (∀ item ∈ items, (write item).isPrefixOf rest = false) →
      takeItems write items (chosen.flatMap write ++ rest) = (chosen, rest) := by
  intro items chosen hsub
  induction hsub with
  | slnil =>
    intro _ _
    rfl
  | @cons chosen items item hsub ih =>
    intro hapart hrest
    have hskip : (write item).isPrefixOf (chosen.flatMap write ++ rest) = false := by
      cases chosen with
      | nil => exact hrest item List.mem_cons_self
      | cons first chosen =>
        rw [List.flatMap_cons, List.append_assoc]
        apply List.rel_of_pairwise_cons hapart
        exact hsub.subset List.mem_cons_self
    unfold takeItems
    rw [if_neg (by rw [hskip]; exact Bool.false_ne_true)]
    exact ih hapart.of_cons fun other hother => hrest other (List.mem_cons_of_mem _ hother)
  | @cons_cons chosen items item hsub ih =>
    intro hapart hrest
    have htaken := ih hapart.of_cons fun other hother =>
      hrest other (List.mem_cons_of_mem _ hother)
    have hstarts : (write item).isPrefixOf ((item :: chosen).flatMap write ++ rest) = true := by
      rw [List.flatMap_cons, List.append_assoc]
      exact isPrefixOf_append _ _
    unfold takeItems
    rw [if_pos hstarts, List.flatMap_cons, List.append_assoc, List.drop_left, htaken]

end Moguet.Verified.Subsequence
