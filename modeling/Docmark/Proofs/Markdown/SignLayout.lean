import Docmark.Proofs.Admonition.ReadBack
import Docmark.Proofs.Markdown.ItemLayout
import Docmark.Proofs.Markdown.Spelling
import Docmark.Proofs.Text.Signs

/-!
Signs under the layout of Markdown: quoting, indenting, list markers, switched list markers, escapes
at the start of a line and collapsed blank lines take no sign away and bring none.
-/

namespace Docmark

open Text

namespace Markdown

theorem exists_dropBreaks (t : Text) : ∃ b, t = dropBreaks t ++ b ∧ ∀ c ∈ b, Parts c := by
  have reversed (r : Text) : ∃ b, r.reverse = dropBreaks.go r ++ b ∧ ∀ c ∈ b, Parts c := by
    fun_induction dropBreaks.go r with
    | case1 r ih =>
      obtain ⟨b, hb, hi⟩ := ih
      refine ⟨b ++ ['\\', '\n'], by simp [hb], fun c hc => ?_⟩
      rcases List.mem_append.mp hc with hc | hc
      · exact hi c hc
      · rcases List.mem_cons.mp hc with rfl | hc
        · exact parts_backslash
        · exact List.mem_singleton.mp hc ▸ parts_newline
    | case2 r => exact ⟨[], by simp, by simp⟩
  have := reversed t.reverse
  rwa [List.reverse_reverse] at this

/-- The characters before the place where a line is escaped. -/
theorem not_mem_openerPosition {o : Char} (foreign : Foreign o) {t : Text} {n : Nat}
    (h : openerPosition? t = some n) : o ∉ t.take n := by
  rcases openerPosition?_cases h with ⟨rfl, -⟩ | ordered | ⟨like, -⟩
  · exact List.not_mem_nil
  · obtain ⟨ds, c, rest, rfl, rfl, digits, -⟩ := exists_of_orderedDelimiter ordered
    rw [List.take_left]
    exact not_mem_of_all foreign.decimal digits
  · have line := foreign.ne_of_isBlankChar (c := '\n') (by decide)
    intro hm
    exact not_mem_of_isRuleLike foreign.rule line.symm like (List.mem_of_mem_take hm)

end Markdown

namespace Text.Signs

open Markdown

variable {α : Type} {o : Char} {μ : Text → List α} (h : Signs o μ)

include h

theorem indentBlock (t : Text) {indent : Text} (none : o ∉ indent) :
    μ (Markdown.indentBlock t indent) = μ t := by
  refine h.mapLines (fun l => ?_) t
  split
  · rename_i hb
    rw [h.of_isBlank hb, h.empty]
  · exact h.of_not_mem_append none l

theorem switchMarker (kind : ListKind) (line : Text) :
    μ (Markdown.switchMarker kind line) = μ line := by
  rcases switchMarker_cases kind line with he | ⟨front, back, quiet, other⟩
  · rw [he]
  · have closed : o ∉ front := by
      intro hm
      rcases quiet _ hm with blank | decimal
      · rw [h.foreign.blank] at blank
        cases blank
      · rw [h.foreign.decimal] at decimal
        cases decimal
    rcases other with ⟨hl, he⟩ | ⟨hl, he⟩
    · rw [he, hl, h.of_not_mem_append closed, h.of_not_mem_append closed,
        h.skip (h.foreign.ne_of_isRuleChar (by decide)),
        h.skip (h.foreign.ne_of_isRuleChar (by decide))]
    · rw [he, hl, h.of_not_mem_append closed, h.of_not_mem_append closed,
        h.skip (h.foreign.ne_of_mem_layout (by simp)),
        h.skip (h.foreign.ne_of_mem_layout (by simp))]

theorem switchMarkers (kind : ListKind) (t : Text) :
    μ (Markdown.switchMarkers kind t) = μ t := by
  refine h.mapLines (fun l => ?_) t
  split
  · exact h.switchMarker kind l
  · rfl

/-- Blocks that are left out have no signs, and the others keep theirs and their places. -/
theorem flatMap_separateFrom {β : Type} {g : Nat → List α → List β} (hg : ∀ i, g i [] = [])
    (index : Nat) (before : Option ListKind × Bool) (blocks : List Block) :
    (separateFrom index before blocks).flatMap (fun b => g b.1 (μ b.2)) =
      (blocks.zipIdx index).flatMap fun b => g b.2 (μ b.1.markdown) := by
  induction blocks generalizing index before with
  | nil => rfl
  | cons b rest ih =>
    rw [separateFrom]
    dsimp only
    split
    · rename_i hb
      have := h.of_isBlank hb
      rw [h.trimNewlines] at this
      simp [ih, this, hg]
    · rw [List.flatMap_cons, List.zipIdx_cons, List.flatMap_cons, ih]
      congr 2
      split
      · split
        · rw [h.switchMarkers, h.trimNewlines]
        · exact h.trimNewlines _
      · exact h.trimNewlines _

theorem separateLists (blocks : List Block) :
    (Markdown.separateLists blocks).flatMap (fun b => μ b.2) =
      blocks.flatMap fun b => μ b.markdown := by
  rw [Markdown.separateLists, h.flatMap_separateFrom (g := fun _ ms => ms) (fun _ => rfl)]
  have := List.flatMap_map Prod.fst (fun b : Block => μ b.markdown) blocks.zipIdx
  rw [List.zipIdx_map_fst] at this
  exact this.symm

theorem joinedLists (blocks : List Block) :
    μ (Markdown.joinBlocks blocks) = blocks.flatMap fun b => μ b.markdown := by
  rw [Markdown.joinBlocks, h.joinBlocks, List.flatMap_map]
  exact h.separateLists blocks

theorem dropBreaks (t : Text) : μ (Markdown.dropBreaks t) = μ t := by
  obtain ⟨b, hb, parts⟩ := exists_dropBreaks t
  have := h.append_of_parts (Markdown.dropBreaks t) parts
  rw [← hb] at this
  exact this.symm

theorem escapeBlockStart (line : Text) : μ (Markdown.escapeBlockStart line) = μ line := by
  have pad : isPad o = false := by
    cases hp : isPad o with
    | false => rfl
    | true =>
      have := h.foreign.blank
      simp only [isPad, Bool.or_eq_true, beq_iff_eq] at hp
      rcases hp with rfl | rfl <;> simp [isBlankChar] at this
  have indent : o ∉ line.takeWhile isPad := not_mem_takeWhile pad line
  unfold Markdown.escapeBlockStart
  dsimp only
  split
  · rename_i n hn
    have front := not_mem_openerPosition h.foreign hn
    have whole := List.takeWhile_append_dropWhile (p := isPad) (l := line)
    calc μ (line.takeWhile isPad ++ insertBackslash (line.dropWhile isPad) n)
      _ = μ ((line.dropWhile isPad).drop n) := by
        rw [h.of_not_mem_append indent, insertBackslash, h.of_not_mem_append front,
          h.skip (h.foreign.ne_of_mem_layout (by simp))]
      _ = μ line := by
        rw [← h.of_not_mem_append front, List.take_append_drop, ← h.of_not_mem_append indent,
          whole]
  · rfl

theorem paragraphText (escaping : Bool) (content : Text) :
    μ (Convert.paragraphText escaping content) = μ content := by
  unfold Convert.paragraphText
  dsimp only
  split
  · rw [h.mapLines h.escapeBlockStart, h.strip, h.dropBreaks]
  · rw [h.strip, h.dropBreaks]

theorem quoteLines (t : Text) :
    μ (Text.unlines ((Text.lines t).map Convert.quoteLine)) = μ t := by
  refine h.mapLines (fun l => ?_) t
  unfold Convert.quoteLine
  split
  · rename_i he
    rw [List.isEmpty_iff.mp he, h.skip (h.foreign.ne_of_mem_layout (by simp))]
  · rw [h.skip (h.foreign.ne_of_mem_layout (by simp)),
      h.skip (h.foreign.ne_of_isBlankChar (by decide))]

/-- An admonition has the signs of its body, and those of its title. -/
theorem admonition (kind : AdmonitionKind) (body : Text) (title : Option Text) :
    ((∀ t u, (μ t ++ μ u).Sublist (μ (t ++ u))) →
        (μ body).Sublist (μ (Admonition.render kind.tag body title))) ∧
      ((∀ t, title = some t → o ∉ t) → μ (Admonition.render kind.tag body title) = μ body) := by
  have name : o ∉ kind.tag := by
    intro hm
    have := h.foreign.letter
    rw [AdmonitionKind.isAlpha_of_mem_tag hm] at this
    cases this
  have mark : o ∉ Admonition.marker := by
    have := h.foreign.ne_of_mem_layout (c := '!') (by simp)
    simp [Admonition.marker, this.symm]
  have space : ' ' ≠ o := h.foreign.ne_of_isBlankChar (by decide)
  have quote : '\x22' ≠ o := h.foreign.ne_of_mem_layout (by simp)
  have newline : '\n' ≠ o := h.foreign.ne_of_isBlankChar (by decide)
  have inner := h.indentBlock body (h.foreign.not_mem_spaces Admonition.bodyIndent)
  unfold Admonition.render
  dsimp only
  generalize he : Admonition.marker ++ ' ' :: kind.tag ++ _ = header
  have plain (untitled : ∀ t, title = some t → o ∉ t) : o ∉ header := by
    rw [← he]
    cases title with
    | none => simp [mark, name, space.symm]
    | some t =>
      have := untitled t rfl
      dsimp only
      split <;> simp [mark, name, this, space.symm, quote.symm]
  constructor
  · intro grows
    split
    · rename_i none
      rw [List.isEmpty_iff.mp none, h.empty]
      exact List.nil_sublist _
    · rw [← inner]
      exact (List.sublist_append_right _ _).trans (grows _ _)
  · intro untitled
    split
    · rename_i none
      rw [List.isEmpty_iff.mp none, h.empty, h.of_not_mem (plain untitled)]
    · rw [List.append_assoc, h.of_not_mem_append (plain untitled), List.cons_append,
        List.singleton_append, h.skip newline, h.skip newline, inner]

section ListItem

variable (item : ListItem) {marker : Text}

/-- The lines of an item keep their signs, wherever its own marker is written. -/
theorem layOut (none : o ∉ marker) (started : Bool) (index : Nat) (ls : List Text) :
    (item.layOut marker started index ls).flatMap μ = ls.flatMap μ := by
  induction ls generalizing started index with
  | nil => rfl
  | cons l ls ih =>
    have indent : o ∉ item.indent := h.foreign.not_mem_spaces _
    have shift : o ∉ item.shift marker := h.foreign.not_mem_spaces _
    have continuation : o ∉ item.continuation marker := by
      simp [ListItem.continuation, indent, h.foreign.not_mem_spaces]
    have front : o ∉ item.indent ++ marker := by simp [indent, none]
    rw [ListItem.layOut, List.flatMap_cons]
    split
    · rename_i hb
      rw [h.of_isBlank hb]
      split
      · rw [List.flatMap_cons, ih, h.empty]
      · rw [ih]
        rfl
    · have written : ((if item.nested.contains index then
          (if started then [] else [item.indent ++ marker]) ++ [item.shift marker ++ l]
        else if started then [item.continuation marker ++ l]
        else [item.indent ++ marker ++ ' ' :: Text.strip l]).flatMap μ) = μ l := by
        split
        · split
          · simp [h.of_not_mem_append shift]
          · simp [h.of_not_mem_append shift, h.of_not_mem front]
        · split
          · simp [h.of_not_mem_append continuation]
          · rw [List.flatMap_singleton, h.of_not_mem_append front,
              h.skip (h.foreign.ne_of_isBlankChar (by decide)), h.strip]
      dsimp only
      rw [List.flatMap_append, written, ih]

theorem dropEmpty (ls : List Text) :
    ((ls.reverse.dropWhile List.isEmpty).reverse).flatMap μ = ls.flatMap μ := by
  have split_off := List.takeWhile_append_dropWhile (p := List.isEmpty) (l := ls.reverse)
  have whole : ls = (ls.reverse.dropWhile List.isEmpty).reverse ++
      (ls.reverse.takeWhile List.isEmpty).reverse := by
    rw [← List.reverse_append, split_off, List.reverse_reverse]
  have none : ((ls.reverse.takeWhile List.isEmpty).reverse).flatMap μ = [] := by
    rw [List.flatMap_eq_nil_iff]
    intro l hl
    have := List.all_eq_true.mp List.all_takeWhile l (List.mem_reverse.mp hl)
    rw [List.isEmpty_iff.mp this, h.empty]
  have := congrArg (List.flatMap μ) whole
  rw [List.flatMap_append, none, List.append_nil] at this
  exact this.symm

theorem renderItem (none : o ∉ marker) : μ (item.render marker) = μ item.text := by
  have lines := h.layOut item none false 0 (Text.lines item.text)
  rw [h.lines] at lines
  unfold ListItem.render
  dsimp only
  split
  · rename_i he
    rw [List.isEmpty_iff.mp he] at lines
    rw [← lines]
    exact h.of_not_mem (by simp [ListItem.indent, h.foreign.not_mem_spaces, none])
  · rw [h.unlines, h.dropEmpty, lines]

end ListItem

theorem collapseLines (fence : Option Text) (blank : Bool) (ls : List Text) :
    (Markdown.collapseLines fence blank ls).flatMap μ = ls.flatMap μ := by
  induction ls generalizing fence blank with
  | nil => rfl
  | cons l ls ih =>
    unfold Markdown.collapseLines
    split
    · rw [List.flatMap_cons, ih, List.flatMap_cons]
    · split
      · rename_i hb
        have none := h.of_isBlank hb
        split
        · rw [ih, List.flatMap_cons, none]
          rfl
        · rw [List.flatMap_cons, ih, List.flatMap_cons, none]
          rw [h.empty]
      · rw [List.flatMap_cons, ih, List.flatMap_cons]
    · rw [List.flatMap_cons, ih, List.flatMap_cons]
    · rw [List.flatMap_cons, ih, List.flatMap_cons]

theorem collapseBlankLines (t : Text) : μ (Markdown.collapseBlankLines t) = μ t := by
  rw [Markdown.collapseBlankLines, h.unlines, h.collapseLines, h.lines]

end Text.Signs

end Docmark
