import Docmark.Proofs.Markdown.CellText

/-!
The pairs of asterisks at the ends of a key, which are taken off one by one. What the signs of a
text say about its ends, and how many pairs a line has whose key stands between two further ones.
-/

namespace Docmark.Markdown

open Preview (isPunctuation)

def strongMark : Text := ['*', '*']

/-- What is taken off the ends of a text, and what is left between. -/
structure StrongEdges where
  front : Text
  inner : Text
  back : Text

def strongEdges (t : Text) : StrongEdges :=
  let body := Text.strip t
  let rest := (Text.after? strongMark body).getD body
  { front := if Text.startsWith strongMark body then strongMark else []
    inner := if Text.endsWith strongMark rest then rest.dropLast.dropLast else rest
    back := if Text.endsWith strongMark rest then strongMark else [] }

section edges

variable {t u : Text}

/-- A key loses the pairs at its ends and the white space that stood inside of them. -/
theorem stripStrong_eq (t : Text) : stripStrong t = Text.strip (strongEdges t).inner :=
  rfl

theorem dropLast_strongMark (u : Text) : (u ++ strongMark).dropLast.dropLast = u := by
  rw [strongMark, List.append_cons, List.dropLast_concat, List.dropLast_concat]

/-- With a pair in front, what stands behind it decides about the other end. -/
theorem strongEdges_of_begins {r : Text} (begins : Text.strip t = strongMark ++ r) :
    strongEdges t = ⟨strongMark, if Text.endsWith strongMark r then r.dropLast.dropLast else r,
      if Text.endsWith strongMark r then strongMark else []⟩ := by
  have opens : Text.startsWith strongMark (strongMark ++ r) = true :=
    List.isPrefixOf_iff_prefix.mpr (List.prefix_append strongMark r)
  rw [strongEdges, begins]
  simp only [Text.after?_append, Option.getD_some, opens, ↓reduceIte]

theorem strongEdges_of_other (begins : ¬ strongMark <+: Text.strip t) :
    strongEdges t = ⟨[], if Text.endsWith strongMark (Text.strip t)
        then (Text.strip t).dropLast.dropLast else Text.strip t,
      if Text.endsWith strongMark (Text.strip t) then strongMark else []⟩ := by
  have other : Text.startsWith strongMark (Text.strip t) = false :=
    Bool.eq_false_iff.mpr (mt List.isPrefixOf_iff_prefix.mp begins)
  rw [strongEdges]
  simp only [Text.after?_of_other begins, Option.getD_none, other, Bool.false_eq_true, ↓reduceIte]

/-- Nothing is lost but what is taken off. -/
theorem strongEdges_append (t : Text) :
    Text.strip t = (strongEdges t).front ++ ((strongEdges t).inner ++ (strongEdges t).back) := by
  have cut (r : Text) : r = (if Text.endsWith strongMark r then r.dropLast.dropLast else r) ++
      if Text.endsWith strongMark r then strongMark else [] := by
    split
    · rename_i ends
      obtain ⟨s, rfl⟩ := List.isSuffixOf_iff_suffix.mp ends
      rw [dropLast_strongMark]
    · rw [List.append_nil]
  by_cases begins : strongMark <+: Text.strip t
  · obtain ⟨r, hr⟩ := begins
    rw [strongEdges_of_begins hr.symm, ← hr]
    exact congrArg _ (cut r)
  · rw [strongEdges_of_other begins]
    exact cut (Text.strip t)

theorem strongEdges_front (t : Text) :
    (strongEdges t).front = strongMark ∨ (strongEdges t).front = [] := by
  unfold strongEdges
  dsimp only
  split
  · exact Or.inl rfl
  · exact Or.inr rfl

theorem strongEdges_back (t : Text) :
    (strongEdges t).back = strongMark ∨ (strongEdges t).back = [] := by
  unfold strongEdges
  dsimp only
  split
  · exact Or.inl rfl
  · exact Or.inr rfl

theorem strongEdges_strong (whole : Text.strip t = strongMark ++ (u ++ strongMark)) :
    strongEdges t = ⟨strongMark, u, strongMark⟩ := by
  have ends : Text.endsWith strongMark (u ++ strongMark) = true :=
    List.isSuffixOf_iff_suffix.mpr (List.suffix_append u strongMark)
  rw [strongEdges_of_begins whole, if_pos ends, if_pos ends, dropLast_strongMark]

theorem strongEdges_plain (begins : ¬ strongMark <+: Text.strip t)
    (ends : ¬ strongMark <:+ Text.strip t) : strongEdges t = ⟨[], Text.strip t, []⟩ := by
  have other : ¬ Text.endsWith strongMark (Text.strip t) = true :=
    mt List.isSuffixOf_iff_suffix.mp ends
  rw [strongEdges_of_other begins, if_neg other, if_neg other]

theorem strongEdges_suffix (begins : ¬ strongMark <+: Text.strip t)
    (ends : strongMark <:+ Text.strip t) :
    (strongEdges t).front = [] ∧ (strongEdges t).back = strongMark := by
  have closes : Text.endsWith strongMark (Text.strip t) = true :=
    List.isSuffixOf_iff_suffix.mpr ends
  rw [strongEdges_of_other begins]
  exact ⟨rfl, if_pos closes⟩

end edges

section ends

variable {t : Text} {m : List (Option Char)}

/-- An asterisk at the start of a text has no backslash. -/
theorem head?_signs_star (begins : strongMark <+: t) : (signs t).head? = some none := by
  obtain ⟨r, rfl⟩ := begins
  rfl

/-- Nor has one at the end with another one in front of it. -/
theorem getLast?_signs_star (ends : strongMark <:+ t) : (signs t).getLast? = some none := by
  obtain ⟨u, rfl⟩ := ends
  by_cases slash : EndsEscaping u
  · obtain ⟨m, -, written⟩ := signs_append_of_endsEscaping (c := '*') (by decide) slash ['*']
    rw [strongMark, written]
    exact List.getLast?_append_of_ne_nil _ (List.cons_ne_nil _ _)
  · rw [signs_append slash]
    exact List.getLast?_append_of_ne_nil _ (List.cons_ne_nil _ _)

theorem eq_bare_of_sign_eq_none {g : Glyph} (h : g.sign = none) : g = .bare '*' := by
  by_contra other
  rw [sign_of_ne other] at h
  cases h

theorem exists_of_signs_cons (h : signs t = none :: m) : ∃ r, t = '*' :: r ∧ signs r = m := by
  obtain ⟨g, gs, whole, sign, rest⟩ := List.map_eq_cons_iff.mp h
  obtain rfl := eq_bare_of_sign_eq_none sign
  have legible := legible_glyphs t
  rw [whole] at legible
  refine ⟨gs.flatMap Glyph.written, ?_, ?_⟩
  · rw [← flatMap_written_glyphs t, whole]
    rfl
  · cases legible with
    | bare inner lone => rw [signs, inner.glyphs_written, rest]

theorem exists_of_signs_append (h : signs t = m ++ [none, none]) :
    ∃ u, t = u ++ strongMark ∧ signs u = m := by
  obtain ⟨gs, hs, whole, front, back⟩ := List.map_eq_append_iff.mp h
  obtain ⟨g, g', rfl⟩ : ∃ g g', hs = [g, g'] := by
    apply List.length_eq_two.mp
    simpa using congrArg List.length back
  obtain ⟨sign, back⟩ := List.cons.inj back
  obtain ⟨sign', -⟩ := List.cons.inj back
  obtain rfl := eq_bare_of_sign_eq_none sign
  obtain rfl := eq_bare_of_sign_eq_none sign'
  have legible := legible_glyphs t
  rw [whole] at legible
  refine ⟨gs.flatMap Glyph.written, ?_, ?_⟩
  · rw [← flatMap_written_glyphs t, whole, List.flatMap_append]
    rfl
  · rw [signs, legible.of_append.glyphs_written, front]

/-- A key with a pair at each end. -/
theorem exists_of_signs_strong (h : signs t = none :: none :: (m ++ [none, none])) :
    ∃ u, t = strongMark ++ (u ++ strongMark) ∧ signs u = m := by
  obtain ⟨r, rfl, hr⟩ := exists_of_signs_cons h
  obtain ⟨s, rfl, hs⟩ := exists_of_signs_cons hr
  obtain ⟨u, rfl, hu⟩ := exists_of_signs_append hs
  exact ⟨u, rfl, hu⟩

end ends

section line

/-- The key of a property as it stands in its line, in front of the value. -/
def keyPart (key : Text) : Text :=
  strongMark ++ (stripStrong key ++ ':' :: strongMark)

theorem signs_strongMark_append (t : Text) : signs (strongMark ++ t) = none :: none :: signs t :=
  rfl

/-- The line of a property has two pairs of its own around the key. -/
theorem strongMarks_keyPart (key : Text) :
    strongMarks (keyPart key) = strongMarks (stripStrong key) + 2 := by
  rw [keyPart]
  generalize stripStrong key = t
  have more : (segments (signs (t ++ ':' :: strongMark))).length =
      (segments (signs t)).length + 1 := by
    by_cases slash : EndsEscaping t
    · obtain ⟨m, before, after⟩ :=
        signs_append_of_endsEscaping (c := ':') (by decide) slash strongMark
      obtain ⟨front, last, h, h'⟩ := exists_segments_append m '\\'
      rw [before, after]
      refine (length_segments_mark m ':').trans ?_
      rw [h' [], h]
      simp [segments]
    · rw [signs_append slash]
      exact length_segments_mark (signs t) ':'
  have some : 1 ≤ (segments (signs t)).length := by
    obtain ⟨front, last, h, -⟩ := exists_segments_append (signs t) ':'
    rw [h]
    simp
  rw [strongMarks, strongMarks, signs_strongMark_append, segments, List.length_cons, more]
  omega

/-- A pair behind a text stands for itself only where no backslash is in front of it. -/
theorem count_none_append_strongMark_le (t : Text) :
    (signs (t ++ strongMark)).count none ≤ (signs t).count none + 2 := by
  by_cases slash : EndsEscaping t
  · obtain ⟨m, before, after⟩ := signs_append_of_endsEscaping (c := '*') (by decide) slash ['*']
    rw [strongMark, before, after]
    simp [signs, glyphs, Glyph.sign]
  · rw [signs_append slash, List.count_append]
    exact le_rfl

/-- Trimming a text between two pairs brings no pair. -/
theorem count_none_strip_le (t : Text) :
    (signs (Text.strip t ++ strongMark)).count none ≤ (signs (t ++ strongMark)).count none := by
  obtain ⟨a, b, whole, front, back⟩ := Text.exists_dropAround Text.isBlankChar t
  have inner : (signs (Text.strip t ++ strongMark)).count none ≤
      (signs (Text.strip t ++ (b ++ strongMark))).count none := by
    cases b with
    | nil => exact le_rfl
    | cons c b =>
      have plain := not_isPunctuation_of_isBlankChar (back c List.mem_cons_self)
      have rest : ¬ EndsEscaping b :=
        not_endsEscaping_of_blank fun d hd => back d (List.mem_cons_of_mem c hd)
      have pair : (signs strongMark).count none = 2 := rfl
      refine (count_none_append_strongMark_le (Text.strip t)).trans ?_
      rw [List.cons_append, signs_append_plain plain, signs_append rest, List.count_append,
        List.count_cons_of_ne (Option.some_ne_none c), List.count_append, pair]
      omega
  have written : t ++ strongMark = a ++ (Text.strip t ++ (b ++ strongMark)) := by
    conv_lhs => rw [whole]
    simp only [Text.strip, List.append_assoc]
  rw [written, signs_append (not_endsEscaping_of_blank front), List.count_append]
  exact inner.trans (Nat.le_add_left _ _)

/-- The pairs that are taken off, put back, bring no pair that was not there. -/
theorem count_none_stripStrong_le (t : Text) :
    (signs ((strongEdges t).front ++ (stripStrong t ++ (strongEdges t).back))).count none ≤
      (signs (Text.strip t)).count none := by
  have inner : (signs (stripStrong t ++ (strongEdges t).back)).count none ≤
      (signs ((strongEdges t).inner ++ (strongEdges t).back)).count none := by
    rw [stripStrong_eq]
    rcases strongEdges_back t with pair | none
    · rw [pair]
      exact count_none_strip_le _
    · rw [none, List.append_nil, List.append_nil, signs_strip, count_none_trimSigns]
  rw [strongEdges_append t]
  rcases strongEdges_front t with pair | none
  · rw [pair, signs_strongMark_append, signs_strongMark_append]
    simpa using inner
  · rw [none]
    exact inner

end line

end Docmark.Markdown
