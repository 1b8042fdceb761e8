import Docmark.Text.Basic
import Mathlib.Data.List.Basic

/-!
First occurrences: the members of a list after those seen before, each once and in the order in
which they come.
-/

namespace Docmark.Text

variable {α : Type} [BEq α] [LawfulBEq α] {a : α} {seen as bs : List α}

/-- The members seen before, and after them the new ones. -/
def distinctFrom (seen as : List α) : List α :=
  as.foldl (fun seen a => if seen.contains a then seen else seen ++ [a]) seen

omit [LawfulBEq α] in
theorem distinct_eq (as : List α) : distinct as = distinctFrom [] as := rfl

omit [LawfulBEq α] in
@[simp] theorem distinctFrom_nil (seen : List α) : distinctFrom seen [] = seen := rfl

omit [LawfulBEq α] in
theorem distinctFrom_append (seen as bs : List α) :
    distinctFrom seen (as ++ bs) = distinctFrom (distinctFrom seen as) bs :=
  List.foldl_append

theorem distinctFrom_cons_of_mem (h : a ∈ seen) (as : List α) :
    distinctFrom seen (a :: as) = distinctFrom seen as := by
  simp [distinctFrom, h]

theorem distinctFrom_cons_of_not_mem (h : a ∉ seen) (as : List α) :
    distinctFrom seen (a :: as) = distinctFrom (seen ++ [a]) as := by
  simp [distinctFrom, h]

/-- What was seen before stays in front. -/
theorem prefix_distinctFrom (seen as : List α) : seen <+: distinctFrom seen as := by
  induction as generalizing seen with
  | nil => exact List.prefix_refl _
  | cons a as ih =>
    by_cases h : a ∈ seen
    · rw [distinctFrom_cons_of_mem h]
      exact ih seen
    · rw [distinctFrom_cons_of_not_mem h]
      exact (List.prefix_append seen [a]).trans (ih _)

theorem mem_distinctFrom : a ∈ distinctFrom seen as ↔ a ∈ seen ∨ a ∈ as := by
  induction as generalizing seen with
  | nil => simp
  | cons b as ih =>
    by_cases h : b ∈ seen
    · rw [distinctFrom_cons_of_mem h, ih, List.mem_cons]
      refine ⟨fun hm => by tauto, ?_⟩
      rintro (hs | rfl | hm)
      · exact Or.inl hs
      · exact Or.inl h
      · exact Or.inr hm
    · rw [distinctFrom_cons_of_not_mem h, ih, List.mem_append, List.mem_singleton, List.mem_cons,
        or_assoc]

theorem mem_distinct : a ∈ distinct as ↔ a ∈ as := by
  simp [distinct_eq, mem_distinctFrom]

theorem nodup_distinctFrom (h : seen.Nodup) (as : List α) : (distinctFrom seen as).Nodup := by
  induction as generalizing seen with
  | nil => exact h
  | cons a as ih =>
    by_cases ha : a ∈ seen
    · rw [distinctFrom_cons_of_mem ha]
      exact ih h
    · rw [distinctFrom_cons_of_not_mem ha]
      have new : ∀ b ∈ seen, ¬b = a := by
        rintro b hb rfl
        exact ha hb
      exact ih (by simpa [List.nodup_append, h] using new)

theorem nodup_distinct (as : List α) : (distinct as).Nodup :=
  nodup_distinctFrom List.nodup_nil as

theorem distinctFrom_of_subset (h : ∀ a ∈ as, a ∈ seen) : distinctFrom seen as = seen := by
  induction as with
  | nil => rfl
  | cons a as ih =>
    rw [distinctFrom_cons_of_mem (h a (by simp))]
    exact ih fun b hb => h b (by simp [hb])

theorem distinct_eq_nil_iff : distinct as = [] ↔ as = [] := by
  simp only [List.eq_nil_iff_forall_not_mem, mem_distinct]

theorem distinct_append_singleton (as : List α) (a : α) :
    distinct (as ++ [a]) = if a ∈ as then distinct as else distinct as ++ [a] := by
  rw [distinct_eq, distinctFrom_append, ← distinct_eq]
  split
  · rename_i h
    exact distinctFrom_cons_of_mem (mem_distinct.mpr h) []
  · rename_i h
    exact distinctFrom_cons_of_not_mem (mt mem_distinct.mp h) []

/-- A member keeps its place when others follow. -/
theorem idxOf_distinctFrom (h : a ∈ seen) (as : List α) :
    (distinctFrom seen as).idxOf a = seen.idxOf a := by
  obtain ⟨bs, hb⟩ := prefix_distinctFrom seen as
  rw [← hb, List.idxOf_append_of_mem h]

/-- Images of members under a function that keeps them apart, after others that they are not. -/
theorem distinctFrom_map {β : Type} [BEq β] [LawfulBEq β] {f : α → β} {others : List β}
    (inj : ∀ a ∈ as, ∀ b ∈ seen ++ as, f a = f b → a = b) (fresh : ∀ a ∈ as, f a ∉ others) :
    distinctFrom (others ++ seen.map f) (as.map f) = others ++ (distinctFrom seen as).map f := by
  induction as generalizing seen with
  | nil => rfl
  | cons a as ih =>
    have mem_iff : f a ∈ others ++ seen.map f ↔ a ∈ seen := by
      rw [List.mem_append, List.mem_map]
      constructor
      · rintro (ho | ⟨b, hb, he⟩)
        · exact absurd ho (fresh a (by simp))
        · rw [inj a (by simp) b (by simp [hb]) he.symm]
          exact hb
      · exact fun ha => Or.inr ⟨a, ha, rfl⟩
    have fresh' : ∀ b ∈ as, f b ∉ others := fun b hb => fresh b (by simp [hb])
    rw [List.map_cons]
    by_cases ha : a ∈ seen
    · rw [distinctFrom_cons_of_mem (mem_iff.mpr ha), distinctFrom_cons_of_mem ha]
      refine ih (fun b hb c hc => inj b (by simp [hb]) c ?_) fresh'
      rcases List.mem_append.mp hc with hc | hc <;> simp [hc]
    · rw [distinctFrom_cons_of_not_mem (mt mem_iff.mp ha), distinctFrom_cons_of_not_mem ha,
        List.append_assoc, ← List.map_singleton, ← List.map_append]
      refine ih (fun b hb c hc => inj b (by simp [hb]) c ?_) fresh'
      simpa using hc

end Docmark.Text
