import Docmark.Dictionary
import Mathlib.Data.List.Perm.Basic

/-!
Dictionaries whose keys are all different: looking a key up is membership, and putting a value keeps
them different.
-/

namespace Docmark.Dictionary

variable {κ β : Type} [BEq κ] [LawfulBEq κ] {k l : κ} {v : β} {d d' : Dictionary κ β}

theorem mem_of_get? (h : d.get? k = some v) : (k, v) ∈ d := by
  induction d with
  | nil => simp at h
  | cons p d ih =>
    obtain ⟨l, w⟩ := p
    rw [get?_cons] at h
    split at h
    · rename_i he
      cases h
      simp [beq_iff_eq.mp he]
    · exact List.mem_cons_of_mem _ (ih h)

theorem get?_eq_some_iff (nodup : d.keys.Nodup) : d.get? k = some v ↔ (k, v) ∈ d := by
  induction d with
  | nil => simp
  | cons p d ih =>
    obtain ⟨l, w⟩ := p
    rw [keys, List.map_cons, List.nodup_cons] at nodup
    rw [get?_cons]
    by_cases he : k = l
    · subst he
      have : (k, v) ∉ d := fun hm => nodup.1 (List.mem_map.mpr ⟨(k, v), hm, rfl⟩)
      simp [this, eq_comm]
    · simp [he, ih nodup.2]

theorem get?_eq_none_iff : d.get? k = none ↔ k ∉ d.keys := by
  induction d with
  | nil => simp [keys]
  | cons p d ih =>
    obtain ⟨l, w⟩ := p
    rw [get?_cons]
    by_cases he : k = l
    · simp [he, keys]
    · simpa [he, keys] using ih

omit [LawfulBEq κ] in
theorem get?_map {γ : Type} (f : β → γ) (d : Dictionary κ β) (k : κ) :
    get? (d.map fun p => (p.1, f p.2)) k = (d.get? k).map f := by
  induction d with
  | nil => rfl
  | cons p d ih =>
    obtain ⟨l, w⟩ := p
    rw [List.map_cons, get?_cons, get?_cons]
    split
    · rfl
    · exact ih

/-- The order of the pairs does not show in what is looked up. -/
theorem get?_perm (h : d.Perm d') (nodup : d.keys.Nodup) (k : κ) : d.get? k = d'.get? k := by
  have nodup' : d'.keys.Nodup := (h.map Prod.fst).nodup_iff.mp nodup
  cases hd : d'.get? k with
  | none =>
    rw [get?_eq_none_iff] at hd ⊢
    exact fun hm => hd ((h.map Prod.fst).mem_iff.mp hm)
  | some v =>
    rw [get?_eq_some_iff nodup'] at hd
    exact (get?_eq_some_iff nodup).mpr (h.mem_iff.mpr hd)

theorem mem_of_mem_put {p : κ × β} (h : p ∈ put k v d) : p = (k, v) ∨ p ∈ d := by
  induction d with
  | nil => exact Or.inl (List.mem_singleton.mp h)
  | cons q d ih =>
    obtain ⟨l, w⟩ := q
    by_cases he : k = l
    · subst he
      simp only [put, beq_self_eq_true, ↓reduceIte, List.mem_cons] at h
      rcases h with h | h
      · exact Or.inl h
      · exact Or.inr (List.mem_cons_of_mem _ h)
    · simp only [put, beq_iff_eq, he, ↓reduceIte, List.mem_cons] at h
      rcases h with rfl | h
      · exact Or.inr List.mem_cons_self
      · exact (ih h).imp_right (List.mem_cons_of_mem _)

theorem keys_put : (put k v d).keys = if k ∈ d.keys then d.keys else d.keys ++ [k] := by
  induction d with
  | nil => rfl
  | cons p d ih =>
    obtain ⟨l, w⟩ := p
    by_cases he : k = l
    · simp [put, he, keys]
    · have : (put k v ((l, w) :: d)).keys = l :: (put k v d).keys := by simp [put, he, keys]
      rw [this, ih]
      by_cases hk : k ∈ keys d
      · have : k ∈ keys ((l, w) :: d) := List.mem_cons_of_mem _ hk
        rw [if_pos hk, if_pos this]
        rfl
      · have : k ∉ keys ((l, w) :: d) := by simpa [keys, he] using hk
        rw [if_neg hk, if_neg this]
        rfl

theorem nodup_keys_put (nodup : d.keys.Nodup) : (put k v d).keys.Nodup := by
  rw [keys_put]
  split
  · exact nodup
  · rename_i hk
    have new : ∀ b ∈ d.keys, ¬b = k := by
      rintro b hb rfl
      exact hk hb
    simpa [List.nodup_append, nodup] using new

theorem put_of_not_mem (h : k ∉ d.keys) : put k v d = d ++ [(k, v)] := by
  induction d with
  | nil => rfl
  | cons p d ih =>
    obtain ⟨l, w⟩ := p
    simp only [keys, List.map_cons, List.mem_cons, not_or] at h
    simp [put, h.1, ih h.2]

end Docmark.Dictionary
