import Docmark.Footnote.State
import Docmark.Proofs.Convert.AnnotatedBlock
import Mathlib.Data.List.Nodup

/-!
What references and definitions do to the numbers of footnotes: names count in the order in which
they are first seen, a reference is remembered once, and the last definition of a name stands.
-/

namespace Docmark.Convert

/-- A definition behind others is the last one of its name. -/
theorem lastContent_append_singleton (name : Text) (defs : List (Text × Text)) (p : Text × Text) :
    lastContent name (defs ++ [p]) = if p.1 = name then some p.2 else lastContent name defs := by
  induction defs with
  | nil => simp [lastContent]
  | cons q defs ih =>
    rw [List.cons_append, lastContent, ih, lastContent]
    split <;> rfl

end Docmark.Convert

open Docmark.Convert

namespace Docmark.Footnote

/-- The number of a name: one more than the different names before its first place. -/
def numberAmong (names : List Text) (name : Text) : Nat :=
  (Text.distinct (names.takeWhile (· != name))).length + 1

theorem numberAmong_eq {names : List Text} {name : Text} (h : name ∈ names) :
    numberAmong names name = (Text.distinct names).idxOf name + 1 := by
  obtain ⟨before, after, rfl, new⟩ := List.eq_append_cons_of_mem h
  have first := (Text.span_ne new after).1
  have new : name ∉ Text.distinct before := by rwa [Text.mem_distinct]
  rw [numberAmong, first, Text.distinct_eq (before ++ _), Text.distinctFrom_append,
    ← Text.distinct_eq, Text.distinctFrom_cons_of_not_mem new, Text.idxOf_distinctFrom (by simp),
    List.idxOf_append_of_notMem new]
  simp

theorem numberAmong_inj {names : List Text} {x y : Text} (hx : x ∈ names) (hy : y ∈ names)
    (h : numberAmong names x = numberAmong names y) : x = y := by
  rw [numberAmong_eq hx, numberAmong_eq hy] at h
  exact List.idxOf_inj (Text.mem_distinct.mpr hx) |>.mp (by omega)

/-- Names that follow leave the number as it is. -/
theorem numberAmong_append {names : List Text} {name : Text} (h : name ∈ names)
    (others : List Text) : numberAmong (names ++ others) name = numberAmong names name := by
  rw [numberAmong_eq h, numberAmong_eq (by simp [h]), Text.distinct_eq, Text.distinctFrom_append,
    ← Text.distinct_eq, Text.idxOf_distinctFrom (Text.mem_distinct.mpr h)]

/-- A new name is the last one. -/
theorem numberAmong_new {names : List Text} {name : Text} (h : name ∉ names) :
    numberAmong (names ++ [name]) name = (Text.distinct names).length + 1 := by
  have new : name ∉ Text.distinct names := mt Text.mem_distinct.mp h
  rw [numberAmong_eq (by simp), Text.distinct_append_singleton, if_neg h,
    List.idxOf_append_of_notMem new]
  simp

namespace State

/--
The state after footnotes with these names, where `refs` are those of the references, and `defs` the
definitions with their contents.
-/
structure Counts (s : State) (names refs : List Text) (defs : List (Text × Text)) : Prop where
  counter : s.counter = (Text.distinct names).length
  numbers : ∀ x, s.numbers.get? x = if x ∈ names then some (numberAmong names x) else none
  referenced : s.referenced = Text.distinct refs
  defined : s.definitions.keys = Text.distinct (defs.map Prod.fst)
  definitions : ∀ x, s.definitions.get? x = (lastContent x defs).map fun c =>
    ⟨x, Text.strip c, numberAmong names x⟩
  named : ∀ p ∈ defs, p.1 ∈ names

theorem counts_initial : Counts {} [] [] [] :=
  ⟨rfl, by simp, rfl, rfl, by simp [lastContent], by simp⟩

variable {s : State} {names refs : List Text} {defs : List (Text × Text)}

/-- Definitions keep their numbers when names follow. -/
theorem Counts.definitions_append (h : s.Counts names refs defs) (x y : Text) :
    s.definitions.get? y = (lastContent y defs).map fun c =>
      ⟨y, Text.strip c, numberAmong (names ++ [x]) y⟩ := by
  rw [h.definitions]
  cases hc : lastContent y defs with
  | none => rfl
  | some c =>
    have known : y ∈ names := h.named _ (mem_of_lastContent hc)
    rw [Option.map_some, Option.map_some, numberAmong_append known]

theorem Counts.numberFor (h : s.Counts names refs defs) (x : Text) :
    (s.numberFor x).1 = numberAmong (names ++ [x]) x ∧
      (s.numberFor x).2.Counts (names ++ [x]) refs defs := by
  have named : ∀ p ∈ defs, p.1 ∈ names ++ [x] := fun p hp =>
    List.mem_append_left [x] (h.named p hp)
  have known := h.numbers x
  unfold State.numberFor
  by_cases hx : x ∈ names
  · rw [if_pos hx] at known
    rw [known]
    refine ⟨(numberAmong_append hx [x]).symm, ?_, ?_, h.referenced, h.defined,
      h.definitions_append x, named⟩
    · rw [h.counter, Text.distinct_append_singleton, if_pos hx]
    · intro y
      rw [h.numbers]
      by_cases hy : y ∈ names
      · rw [if_pos hy, if_pos (by simp [hy]), numberAmong_append hy]
      · have other : y ≠ x := fun he => hy (he ▸ hx)
        rw [if_neg hy, if_neg (by simp [hy, other])]
  · rw [if_neg hx] at known
    rw [known]
    have next : s.counter + 1 = numberAmong (names ++ [x]) x := by
      rw [h.counter, numberAmong_new hx]
    refine ⟨next, ?_, ?_, h.referenced, h.defined, h.definitions_append x, named⟩
    · rw [Text.distinct_append_singleton, if_neg hx]
      simp [h.counter]
    · intro y
      by_cases hy : y = x
      · subst hy
        rw [Dictionary.get?_put_self, if_pos (by simp), next]
      · rw [Dictionary.get?_put_of_ne hy, h.numbers]
        by_cases hm : y ∈ names
        · rw [if_pos hm, if_pos (by simp [hm]), numberAmong_append hm]
        · rw [if_neg hm, if_neg (by simp [hm, hy])]

theorem Counts.reference (h : s.Counts names refs defs) (x : Text) :
    (s.reference x).1 = numberAmong (names ++ [x]) x ∧
      (s.reference x).2.Counts (names ++ [x]) (refs ++ [x]) defs := by
  apply Counts.numberFor
  refine ⟨h.counter, h.numbers, ?_, h.defined, h.definitions, h.named⟩
  simp only [h.referenced, Text.distinct_append_singleton, List.contains_iff_mem, Text.mem_distinct]

theorem Counts.define (h : s.Counts names refs defs) (x c : Text) :
    (s.define x c).1 = numberAmong (names ++ [x]) x ∧
      (s.define x c).2.Counts (names ++ [x]) refs (defs ++ [(x, c)]) := by
  obtain ⟨number, counts⟩ := h.numberFor x
  refine ⟨number, counts.counter, counts.numbers, counts.referenced, ?_, ?_, ?_⟩
  · simp only [State.define]
    rw [Dictionary.keys_put, counts.defined, List.map_append, List.map_singleton,
      Text.distinct_append_singleton]
    simp only [Text.mem_distinct]
  · intro y
    simp only [State.define, lastContent_append_singleton]
    by_cases hy : y = x
    · subst hy
      rw [Dictionary.get?_put_self, if_pos rfl, number]
      rfl
    · rw [Dictionary.get?_put_of_ne hy, counts.definitions, if_neg (Ne.symm hy)]
  · intro p hp
    rcases List.mem_append.mp hp with hp | hp
    · exact List.mem_append_left [x] (h.named p hp)
    · rw [List.mem_singleton.mp hp]
      exact List.mem_append_right names (by simp)

/-- The definition that is kept under a name. -/
theorem Counts.mem_definitions (h : s.Counts names refs defs) {x : Text} {d : Definition} :
    (x, d) ∈ s.definitions ↔ ∃ c, lastContent x defs = some c ∧
      d = ⟨x, Text.strip c, numberAmong names x⟩ := by
  have nodup : s.definitions.keys.Nodup := by
    rw [h.defined]
    exact Text.nodup_distinct _
  rw [← Dictionary.get?_eq_some_iff nodup, h.definitions, Option.map_eq_some_iff]
  simp only [eq_comm]

theorem Counts.mem_ordered (h : s.Counts names refs defs) {d : Definition} :
    d ∈ s.ordered ↔ ∃ x c, lastContent x defs = some c ∧
      d = ⟨x, Text.strip c, numberAmong names x⟩ := by
  rw [ordered, (Text.sortByKey_perm _ _).mem_iff, Dictionary.values, List.mem_map]
  constructor
  · rintro ⟨⟨x, d⟩, hp, rfl⟩
    exact ⟨x, h.mem_definitions.mp hp⟩
  · rintro ⟨x, hc⟩
    exact ⟨(x, d), h.mem_definitions.mpr hc, rfl⟩

/-- No two definitions have one number. -/
theorem Counts.ordered_lt (h : s.Counts names refs defs) :
    s.ordered.Pairwise fun a b => a.number < b.number := by
  have known : ∀ x ∈ s.definitions.keys, x ∈ names := by
    intro x hx
    rw [h.defined, Text.mem_distinct] at hx
    obtain ⟨p, hp, rfl⟩ := List.mem_map.mp hx
    exact h.named p hp
  have numbers : s.definitions.values.map Definition.number =
      s.definitions.keys.map (numberAmong names) := by
    rw [Dictionary.values, Dictionary.keys, List.map_map, List.map_map]
    apply List.map_congr_left
    rintro ⟨x, d⟩ hp
    obtain ⟨c, -, rfl⟩ := h.mem_definitions.mp hp
    rfl
  have nodup : (s.ordered.map Definition.number).Nodup := by
    rw [ordered, ((Text.sortByKey_perm _ _).map _).nodup_iff, numbers]
    refine List.Nodup.map_on (fun x hx y hy => numberAmong_inj (known x hx) (known y hy)) ?_
    rw [h.defined]
    exact Text.nodup_distinct _
  have apart : s.ordered.Pairwise fun a b => a.number ≠ b.number := List.pairwise_map.mp nodup
  have up := Text.sortByKey_ordered (fun d : Definition => d.number) s.definitions.values
  refine (up.and apart).imp ?_
  rintro a b ⟨le, ne⟩
  omega

end State

end Docmark.Footnote
