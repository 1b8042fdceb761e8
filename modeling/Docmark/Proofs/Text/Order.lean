import Docmark.Text.Basic
import Mathlib.Data.List.Induction
import Mathlib.Data.List.Perm.Basic

/-!
Stable order by a number: nothing is lost, the result is in order, and what is in order stays.
-/

namespace Docmark.Text

variable {α : Type} {key : α → Int}

theorem insertByKey_perm (key : α → Int) (a : α) (as : List α) :
    (insertByKey key a as).Perm (a :: as) := by
  induction as with
  | nil => exact List.Perm.refl _
  | cons b bs ih =>
    simp only [insertByKey]
    split
    · exact List.Perm.refl _
    · exact (ih.cons b).trans (List.Perm.swap a b bs)

theorem sortByKey_append_singleton (key : α → Int) (as : List α) (a : α) :
    sortByKey key (as ++ [a]) = insertByKey key a (sortByKey key as) := by
  simp [sortByKey]

theorem sortByKey_perm (key : α → Int) (as : List α) : (sortByKey key as).Perm as := by
  induction as using List.reverseRecOn with
  | nil => exact List.Perm.refl _
  | append_singleton as a ih =>
    rw [sortByKey_append_singleton]
    exact (insertByKey_perm key a _).trans
      ((ih.cons a).trans (List.perm_append_singleton a as).symm)

theorem insertByKey_ordered {as : List α} (h : as.Pairwise fun a b => key a ≤ key b) (a : α) :
    (insertByKey key a as).Pairwise fun a b => key a ≤ key b := by
  induction as with
  | nil => simp [insertByKey]
  | cons b bs ih =>
    rw [List.pairwise_cons] at h
    simp only [insertByKey]
    split
    · rename_i hlt
      refine List.pairwise_cons.mpr ⟨?_, List.pairwise_cons.mpr h⟩
      intro c hc
      rcases List.mem_cons.mp hc with rfl | hc
      · omega
      · have := h.1 c hc
        omega
    · rename_i hge
      refine List.pairwise_cons.mpr ⟨?_, ih h.2⟩
      intro c hc
      rcases List.mem_cons.mp ((insertByKey_perm key a bs).mem_iff.mp hc) with rfl | hc
      · omega
      · exact h.1 c hc

theorem sortByKey_ordered (key : α → Int) (as : List α) :
    (sortByKey key as).Pairwise fun a b => key a ≤ key b := by
  induction as using List.reverseRecOn with
  | nil => exact List.Pairwise.nil
  | append_singleton as a ih =>
    rw [sortByKey_append_singleton]
    exact insertByKey_ordered ih a

theorem insertByKey_of_le {as : List α} {a : α} (h : ∀ b ∈ as, key b ≤ key a) :
    insertByKey key a as = as ++ [a] := by
  induction as with
  | nil => rfl
  | cons b bs ih =>
    have hb := h b (by simp)
    rw [insertByKey, if_neg (by omega), ih fun c hc => h c (by simp [hc])]
    rfl

theorem sortByKey_of_ordered {as : List α} (h : as.Pairwise fun a b => key a ≤ key b) :
    sortByKey key as = as := by
  induction as using List.reverseRecOn with
  | nil => rfl
  | append_singleton as a ih =>
    rw [List.pairwise_append] at h
    rw [sortByKey_append_singleton, ih h.1]
    exact insertByKey_of_le fun b hb => h.2.2 b hb a (by simp)

theorem insertByKey_map {β : Type} (key : β → Int) (f : α → β) (a : α) (as : List α) :
    insertByKey key (f a) (as.map f) = (insertByKey (fun a => key (f a)) a as).map f := by
  induction as with
  | nil => rfl
  | cons b bs ih =>
    rw [List.map_cons, insertByKey, insertByKey, ih]
    split <;> rfl

/-- Images in the order of their own numbers. -/
theorem sortByKey_map {β : Type} (key : β → Int) (f : α → β) (as : List α) :
    sortByKey key (as.map f) = (sortByKey (fun a => key (f a)) as).map f := by
  induction as using List.reverseRecOn with
  | nil => rfl
  | append_singleton as a ih =>
    rw [List.map_append, List.map_singleton, sortByKey_append_singleton, ih,
      sortByKey_append_singleton, insertByKey_map]

end Docmark.Text
