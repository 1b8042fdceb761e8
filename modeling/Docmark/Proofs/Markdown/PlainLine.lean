import Docmark.Proofs.Markdown.Guard
import Docmark.Proofs.Markdown.Spelling

/-!
Single lines of escaped text: how they are put together from runs and markers, what paragraphs make
of them, and what stays of them when their markers are numbered.
-/

namespace Docmark

open Annotation

theorem not_isBlank_of_isNumeral {d : Text} (h : IsNumeral d) : Text.isBlank d = false := by
  obtain ⟨c, r, rfl⟩ := List.exists_cons_of_ne_nil h.1
  simp [Text.isBlank, Text.not_isBlankChar_of_isDecimal (h.2 c (by simp))]

theorem isBlank_renderPieces_rename (f : Text → Text) (ps : List Piece) :
    Text.isBlank (renderPieces (ps.map (Piece.rename f))) = Text.isBlank (renderPieces ps) := by
  induction ps with
  | nil => rfl
  | cons p ps ih =>
    rw [List.map_cons, renderPieces_cons, renderPieces_cons, Text.isBlank_append,
      Text.isBlank_append, ih]
    cases p with
    | char c => rfl
    | marker d =>
      have (e : Text) : Text.isBlank (Piece.marker e).render = false := by
        simp only [Piece.render, List.cons_append, Text.isBlank, List.all_cons]
        rw [show Text.isBlankChar '(' = false by decide, Bool.false_and]
      rw [Piece.rename, this, this]

/-- A text is blank whatever the names in its markers are. -/
theorem isBlank_relabel (f : Text → Text) (t : Text) :
    Text.isBlank (relabel f t) = Text.isBlank t := by
  rw [relabel, isBlank_renderPieces_rename, renderPieces_pieces]

namespace Text

theorem replaceChar_cons_of_ne (new : Text) {c d : Char} (h : d ≠ c) (r : Text) :
    replaceChar c new (d :: r) = d :: replaceChar c new r := by
  rw [replaceChar, List.flatMap_cons, if_neg h]
  rfl

theorem replaceChar_of_not_mem {c : Char} (new : Text) {t : Text} (h : c ∉ t) :
    replaceChar c new t = t := by
  induction t with
  | nil => rfl
  | cons d r ih =>
    rw [List.mem_cons, not_or] at h
    rw [replaceChar_cons_of_ne new (Ne.symm h.1), ih h.2]

theorem not_mem_replaceChar {c : Char} {new : Text} (h : c ∉ new) (t : Text) :
    c ∉ replaceChar c new t := by
  intro hm
  obtain ⟨d, -, hd⟩ := List.mem_flatMap.mp hm
  split at hd
  · exact h hd
  · rename_i other
    exact other (List.mem_singleton.mp hd).symm

end Text

namespace Markdown

/-- A line in which no fence, no sentinel and no other line begins. -/
structure PlainLine (t : Text) : Prop where
  line : '\n' ∉ t
  guarded : Guarded t

theorem plainLine_nil : PlainLine [] :=
  ⟨by simp, trivial⟩

theorem PlainLine.append {t u : Text} (ht : PlainLine t) (hu : PlainLine u) :
    PlainLine (t ++ u) :=
  ⟨by simp [ht.line, hu.line], ht.guarded.append hu.guarded⟩

theorem plainLine_flatMap {α : Type} {g : α → Text} {as : List α}
    (h : ∀ a ∈ as, PlainLine (g a)) : PlainLine (as.flatMap g) := by
  refine ⟨fun hm => ?_, guarded_flatMap fun a ha => (h a ha).guarded⟩
  obtain ⟨a, ha, hc⟩ := List.mem_flatMap.mp hm
  exact (h a ha).line hc

theorem plainLine_joinWith {sep : Text} (hs : PlainLine sep) {ts : List Text}
    (h : ∀ t ∈ ts, PlainLine t) : PlainLine (Text.joinWith sep ts) := by
  induction ts with
  | nil => exact plainLine_nil
  | cons t ts ih =>
    have ht := h t (by simp)
    cases ts with
    | nil => exact ht
    | cons u us => exact (ht.append hs).append (ih fun v hv => h v (by simp [hv]))

theorem plainLine_marker {d : Text} (h : IsNumeral d) : PlainLine (Piece.marker d).render := by
  refine ⟨?_, ?_⟩
  · simp [Piece.render, h.not_mem (c := '\n') (Text.not_isDecimal_of_gap (by decide))]
  · have guarded : Guarded ((Piece.marker d).render ++ []) := (guardedAfter_marker h).mpr trivial
    rwa [List.append_nil] at guarded

theorem PlainLine.strip {t : Text} (h : PlainLine t) : PlainLine (Text.strip t) :=
  ⟨fun hm => h.line (Text.mem_of_mem_strip hm), h.guarded.strip⟩

theorem PlainLine.relabel {t : Text} (h : PlainLine t) {f : Text → Text}
    (hf : ∀ d, IsNumeral d → IsNumeral (f d)) : PlainLine (relabel f t) :=
  ⟨newline_not_mem_relabel hf h.line, h.guarded.relabel hf⟩

theorem escapeFrom_mem {before : Option Char} {t : Text} {c : Char} (h : c ∈ escapeFrom before t) :
    c = '\\' ∨ c ∈ t := by
  induction t generalizing before with
  | nil => exact Or.inr h
  | cons d r ih =>
    rw [escapeFrom] at h
    split at h
    · simp only [List.mem_cons] at h
      rcases h with h | h | h
      · exact Or.inl h
      · exact Or.inr (by simp [h])
      · exact (ih h).imp_right fun hr => by simp [hr]
    · rcases List.mem_cons.mp h with h | h
      · exact Or.inr (by simp [h])
      · exact (ih h).imp_right fun hr => by simp [hr]

theorem plainLine_escape {t : Text} (h : '\n' ∉ t) : PlainLine (escape t) := by
  refine ⟨fun hm => ?_, guarded_escape t⟩
  rcases escapeFrom_mem hm with hc | hc
  · revert hc
    decide
  · exact h hc

theorem isBlank_escape (t : Text) : Text.isBlank (escape t) = Text.isBlank t :=
  (spells_escape t).isBlank

theorem PlainLine.escapeBlockStart {t : Text} (h : PlainLine t) :
    PlainLine (escapeBlockStart t) := by
  rcases escapeBlockStart_cases t with he | ⟨a, c, b, ht, he, -⟩
  · rw [he]
    exact h
  · rw [he]
    have hl := h.line
    have hg := h.guarded
    rw [ht] at hl hg
    refine ⟨?_, hg.insert⟩
    simpa using hl

theorem dropBreaks_of_not_suffix {t : Text} (whole : ¬ hardBreak <:+ t) : dropBreaks t = t := by
  rw [dropBreaks, dropBreaks.go.eq_def]
  split
  · rename_i r he
    apply absurd _ whole
    refine ⟨r.reverse, ?_⟩
    rw [← List.reverse_inj, he, List.reverse_append, List.reverse_reverse]
    rfl
  · exact List.reverse_reverse t

theorem dropBreaks_of_getLast?_ne {t : Text} (h : t.getLast? ≠ some '\n') : dropBreaks t = t := by
  apply dropBreaks_of_not_suffix
  intro broken
  obtain ⟨r, rfl⟩ := broken
  apply h
  rw [hardBreak, List.append_cons]
  exact List.getLast?_concat

theorem dropBreaks_of_not_mem {t : Text} (h : '\n' ∉ t) : dropBreaks t = t :=
  dropBreaks_of_getLast?_ne fun last => h (List.mem_of_getLast? last)

theorem replaceBreaks_cons (new : Text) {c : Char} {r : Text}
    (h : c ≠ '\\' ∨ r.head? ≠ some '\n') : replaceBreaks new (c :: r) = c :: replaceBreaks new r := by
  rw [replaceBreaks]
  intro s slash feed
  rcases h with h | h
  · exact h slash
  · apply h
    rw [feed]
    rfl

theorem replaceBreaks_of_not_mem (new : Text) {t : Text} (h : '\n' ∉ t) :
    replaceBreaks new t = t := by
  induction t with
  | nil => rfl
  | cons c r ih =>
    rw [List.mem_cons, not_or] at h
    rw [replaceBreaks_cons new (Or.inr fun head => h.2 (List.mem_of_mem_head? head)), ih h.2]

/-- What a paragraph makes of a single line. -/
theorem paragraphText_of_line {t : Text} (h : '\n' ∉ t) :
    Convert.paragraphText true t = escapeBlockStart (Text.strip t) := by
  have stripped : '\n' ∉ Text.strip t := fun hm => h (Text.mem_of_mem_strip hm)
  rw [Convert.paragraphText]
  simp only [dropBreaks_of_not_mem h, Text.lines_of_not_mem stripped, ↓reduceIte, List.map_cons,
    List.map_nil]
  rfl

theorem PlainLine.paragraphText {t : Text} (h : PlainLine t) :
    PlainLine (Convert.paragraphText true t) := by
  rw [paragraphText_of_line h.line]
  exact h.strip.escapeBlockStart

theorem isBlank_paragraphText {t : Text} (h : '\n' ∉ t) :
    Text.isBlank (Convert.paragraphText true t) = Text.isBlank t := by
  rw [paragraphText_of_line h, isBlank_escapeBlockStart, Text.isBlank_strip]

end Markdown

end Docmark
