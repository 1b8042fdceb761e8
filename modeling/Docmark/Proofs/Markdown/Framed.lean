import Docmark.Convert.Block
import Docmark.Proofs.Markdown.PlainLine
import Docmark.Proofs.Markdown.Spelling

/-!
Blocks of lines that begin and end with a line that is not blank, as paragraphs do.
-/

namespace Docmark.Markdown

/-- Lines whose first and last are not blank. -/
structure Framed (ls : List Text) : Prop where
  first : ∀ l, ls.head? = some l → Text.isBlank l = false
  last : ∀ l, ls.getLast? = some l → Text.isBlank l = false

theorem framed_nil : Framed [] :=
  ⟨by simp, by simp⟩

/-- What is done to each line, as long as it keeps blank lines and the others apart. -/
theorem Framed.map_of_map {α : Type} {as : List α} {f g : α → Text} (h : Framed (as.map f))
    (same : ∀ a, Text.isBlank (g a) = Text.isBlank (f a)) : Framed (as.map g) := by
  refine ⟨fun l hl => ?_, fun l hl => ?_⟩
  · rw [List.head?_map] at hl
    obtain ⟨a, ha, rfl⟩ := Option.map_eq_some_iff.mp hl
    rw [same, h.first (f a) (by rw [List.head?_map, ha]; rfl)]
  · rw [List.getLast?_map] at hl
    obtain ⟨a, ha, rfl⟩ := Option.map_eq_some_iff.mp hl
    rw [same, h.last (f a) (by rw [List.getLast?_map, ha]; rfl)]

/-- Whatever stands between two such runs of lines. -/
theorem Framed.append {ls ms : List Text} (h : Framed ls) (ne : ls ≠ []) (between : List Text)
    (h' : Framed ms) (ne' : ms ≠ []) : Framed (ls ++ between ++ ms) := by
  obtain ⟨l, ls, rfl⟩ := List.exists_cons_of_ne_nil ne
  refine ⟨fun m hm => h.first m hm, fun m hm => h'.last m ?_⟩
  rwa [List.getLast?_append, List.getLast?_eq_some_getLast ne', Option.some_or,
    ← List.getLast?_eq_some_getLast] at hm

theorem framed_flatten {lss : List (List Text)} (ne : ∀ ls ∈ lss, ls ≠ [])
    (h : ∀ ls ∈ lss, Framed ls) : Framed lss.flatten := by
  induction lss with
  | nil => exact framed_nil
  | cons ls lss ih =>
    have first := h ls (by simp)
    have rest := ih (fun ms hm => ne ms (by simp [hm])) fun ms hm => h ms (by simp [hm])
    rw [List.flatten_cons]
    by_cases last : lss.flatten = []
    · rwa [last, List.append_nil]
    · simpa using first.append (ne ls (by simp)) [] rest last

theorem framed_lines_of_ends {t : Text} (ne : t ≠ [])
    (front : ∀ c, t.head? = some c → Text.isBlankChar c = false)
    (back : ∀ c, t.getLast? = some c → Text.isBlankChar c = false) : Framed (Text.lines t) := by
  have newline : Text.isBlankChar '\n' = true := by decide
  refine ⟨fun l hl => ?_, fun l hl => ?_⟩
  · obtain ⟨c, r, rfl⟩ := List.exists_cons_of_ne_nil ne
    have shown := front c rfl
    have other : c ≠ '\n' := by
      rintro rfl
      rw [newline] at shown
      cases shown
    obtain ⟨m, ms, hm⟩ := List.exists_cons_of_ne_nil (Text.lines_ne_nil r)
    rw [Text.lines, if_neg other, hm] at hl
    cases hl
    rw [Text.isBlank, List.all_cons, shown, Bool.false_and]
  · obtain ⟨above, cut⟩ := List.getLast?_eq_some_iff.mp hl
    have whole := Text.unlines_lines t
    rw [cut] at whole
    have filled : l ≠ [] := by
      rintro rfl
      by_cases only : above = []
      · rw [only] at whole
        exact ne whole.symm
      · rw [Text.unlines_append only (List.cons_ne_nil _ _)] at whole
        have := back '\n' (by rw [← whole]; exact List.getLast?_concat)
        rw [newline] at this
        cases this
    have same : t.getLast? = l.getLast? := by
      by_cases only : above = []
      · rw [← whole, only]
        rfl
      · have single : Text.unlines [l] = l := rfl
        rw [← whole, Text.unlines_append only (List.cons_ne_nil _ _), single, List.getLast?_append,
          List.getLast?_cons, List.getLast?_eq_some_getLast filled]
        rfl
    have shown := back (l.getLast filled) (by rw [same, List.getLast?_eq_some_getLast filled])
    refine Bool.eq_false_iff.mpr fun blank => ?_
    rw [List.all_eq_true.mp blank _ (List.getLast_mem filled)] at shown
    cases shown

/-- Such a block keeps its lines when line feeds are taken off its ends. -/
theorem trimNewlines_of_framed {t : Text} (h : Framed (Text.lines t)) :
    Text.trimNewlines t = t := by
  have empty : Text.isBlank [] = true := rfl
  refine Text.dropAround_of_ends (fun c hc => ?_) (fun c hc => ?_)
  · obtain ⟨r, rfl⟩ := List.head?_eq_some_iff.mp hc
    rw [beq_eq_false_iff_ne]
    rintro rfl
    have := h.first [] (by simp [Text.lines])
    rw [empty] at this
    cases this
  · obtain ⟨u, rfl⟩ := List.getLast?_eq_some_iff.mp hc
    rw [beq_eq_false_iff_ne]
    rintro rfl
    have := h.last [] (by rw [Text.lines_append_newline]; simp [Text.lines])
    rw [empty] at this
    cases this

/-- The lines of Markdown in an item, none where it is blank. -/
def shownLines (t : Text) : List Text :=
  if Text.isBlank (Text.trimNewlines t) then [] else Text.lines (Text.trimNewlines t)

theorem newline_not_mem_shownLines {t l : Text} (h : l ∈ shownLines t) : '\n' ∉ l := by
  rw [shownLines] at h
  split at h
  · cases h
  · exact Text.newline_not_mem_of_mem_lines h

theorem framed_shownLines_of_framed {t : Text} (h : Framed (Text.lines t)) :
    Framed (shownLines t) := by
  rw [shownLines, trimNewlines_of_framed h]
  split
  · exact framed_nil
  · exact h

theorem newline_not_mem_escapeBlockStart {line : Text} (h : '\n' ∉ line) :
    '\n' ∉ escapeBlockStart line := by
  rcases escapeBlockStart_cases line with he | ⟨a, c, b, hab, he, -⟩
  · rwa [he]
  · rw [hab] at h
    rw [he]
    simpa using h

theorem framed_paragraphText (escaping : Bool) (content : Text) :
    Framed (shownLines (Convert.paragraphText escaping content)) := by
  rw [Convert.paragraphText]
  by_cases none : Text.strip (dropBreaks content) = []
  · rw [none]
    cases escaping <;> exact framed_nil
  · have ends := framed_lines_of_ends none (fun c hc => Text.not_head?_dropAround hc)
      fun c hc => Text.not_getLast?_dropAround hc
    apply framed_shownLines_of_framed
    split
    · rw [Text.lines_mapLines fun l hl => newline_not_mem_escapeBlockStart hl]
      rw [← List.map_id (Text.lines _)] at ends
      exact ends.map_of_map isBlank_escapeBlockStart
    · exact ends

end Docmark.Markdown
