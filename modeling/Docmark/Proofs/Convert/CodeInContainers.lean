import Docmark.Proofs.Convert.CodeLines
import Docmark.Proofs.Convert.ItemContent
import Docmark.Proofs.Convert.OwnMarkers

/-!
Containers keep the code blocks of their children: quotes, panels, sections that expand, lists and
their items and annotated blocks write the lines of each code block one after the other.
-/

namespace Docmark

open Markdown

namespace HoldsCode

variable {ns : List Node} {t : Text}

theorem dropNewlines (h : HoldsCode ns (Text.lines t)) :
    HoldsCode ns (Text.lines (t.dropWhile (· == '\n'))) := by
  induction t with
  | nil => exact h
  | cons c r ih =>
    rw [List.dropWhile_cons]
    split
    · rename_i newline
      rw [beq_iff_eq.mp newline, Text.lines, if_pos rfl] at h
      exact ih (h.of_cons rfl)
    · exact h

theorem dropEndNewlines (h : HoldsCode ns (Text.lines t)) :
    HoldsCode ns (Text.lines (Text.dropEndWhile (· == '\n') t)) := by
  induction t using List.reverseRecOn with
  | nil => exact h
  | append_singleton r c ih =>
    rw [Text.dropEndWhile, List.reverse_append, List.reverse_singleton, List.singleton_append,
      List.dropWhile_cons]
    split
    · rename_i newline
      have cut : Text.lines (r ++ [c]) = Text.lines r ++ [[]] := by
        rw [beq_iff_eq.mp newline, Text.lines_append_newline]
        rfl
      rw [cut] at h
      exact ih (h.of_concat rfl)
    · simpa using h

theorem trimNewlines (h : HoldsCode ns (Text.lines t)) :
    HoldsCode ns (Text.lines (Text.trimNewlines t)) :=
  h.dropNewlines.dropEndNewlines

/-- What is done to each line of a text. -/
theorem mapLines (h : HoldsCode ns (Text.lines t)) {g : Text → Text}
    (line : ∀ l, '\n' ∉ l → '\n' ∉ g l) (edits : ∀ l m, Edited l m → Edited l (g m)) :
    HoldsCode ns (Text.lines (Text.unlines ((Text.lines t).map g))) := by
  rw [Text.lines_mapLines line]
  exact h.map edits

theorem eq_nil_of_isBlank (h : HoldsCode ns (Text.lines t)) (blank : Text.isBlank t = true) :
    ns = [] :=
  h.eq_nil_of_blank fun _ hl => Text.isBlank_of_mem_lines blank hl

/-- Where an empty text holds all code there is, any lines do. -/
theorem of_empty (h : HoldsCode ns (Text.lines t)) (empty : t = []) (ls : List Text) :
    HoldsCode ns ls := by
  have none : ns = [] := h.eq_nil_of_isBlank (by rw [empty]; rfl)
  rw [none]
  exact texts ls

theorem switchMarkers (h : HoldsCode ns (Text.lines t)) (kind : ListKind) :
    HoldsCode ns (Text.lines (Markdown.switchMarkers kind t)) := by
  apply h.mapLines
  · intro l hl
    split
    · exact newline_not_mem_switchMarker kind hl
    · exact hl
  · intro l m hm
    split
    · exact hm.switch kind
    · exact hm

/-- Blocks with the code blocks that each of them holds. -/
def Each {α : Type} (text : α → Text) (nss : List (List Node)) (bs : List α) : Prop :=
  List.Forall₂ (fun ns b => HoldsCode ns (Text.lines (text b))) nss bs

theorem each_map {α : Type} {text : α → Text} {nss : List (List Node)} {bs : List α} :
    Each id nss (bs.map text) ↔ Each text nss bs :=
  List.forall₂_map_right_iff

theorem joinBlocks {nss : List (List Node)} {bs : List Text} (h : Each id nss bs) :
    HoldsCode nss.flatten (Text.lines (Text.joinBlocks bs)) := by
  induction h with
  | nil => exact texts _
  | @cons ns b nss bs first rest ih =>
    cases bs with
    | nil =>
      cases rest
      simpa [Text.joinBlocks, Text.joinWith] using first
    | cons c cs =>
      rw [Text.lines_joinBlocks_cons b (List.cons_ne_nil c cs), List.flatten_cons]
      exact first.append (.text [] ih)

theorem unlines {nss : List (List Node)} {bs : List Text} (h : Each id nss bs) :
    HoldsCode nss.flatten (Text.lines (Text.unlines bs)) := by
  induction h with
  | nil => exact texts _
  | @cons ns b nss bs first rest ih =>
    cases bs with
    | nil =>
      cases rest
      simpa [Text.unlines, Text.joinWith] using first
    | cons c cs =>
      rw [Text.unlines_cons b (List.cons_ne_nil c cs), Text.lines_append_newline, List.flatten_cons]
      exact first.append ih

/-- A block holds its code blocks under either of its markers. -/
theorem written {b : Block} (h : HoldsCode ns (Text.lines b.markdown)) (switched : Bool) :
    HoldsCode ns (Text.lines (b.written switched)) := by
  have trimmed := h.trimNewlines
  rw [Block.written]
  split
  · split
    · exact trimmed.switchMarkers _
    · exact trimmed
  · exact trimmed

/-- The blocks that are kept apart hold all code blocks. -/
theorem separateFrom {nss : List (List Node)} {fs : List Fragment}
    (h : Each Fragment.markdown nss fs) (index : Nat) (before : Option ListKind × Bool) :
    ∃ nss', nss'.flatten = nss.flatten ∧
      Each Prod.snd nss' (Markdown.separateFrom index before (fs.map Fragment.block)) := by
  induction h generalizing index before with
  | nil => exact ⟨[], rfl, .nil⟩
  | @cons ns f nss fs first rest ih =>
    rw [List.map_cons]
    cases blank : Text.isBlank f.markdown with
    | true =>
      obtain ⟨nss', same, each⟩ := ih (index + 1) before
      rw [separateFrom_cons_of_blank blank, first.eq_nil_of_isBlank blank]
      exact ⟨nss', same, each⟩
    | false =>
      obtain ⟨nss', same, each⟩ := ih (index + 1) (f.block.list, f.block.switches before)
      rw [separateFrom_cons_of_shown blank]
      exact ⟨ns :: nss', by rw [List.flatten_cons, same, List.flatten_cons],
        .cons (written first _) each⟩

theorem joinedBlocks {nss : List (List Node)} {fs : List Fragment}
    (h : Each Fragment.markdown nss fs) :
    HoldsCode nss.flatten (Text.lines (Fragment.joinedBlocks fs)) := by
  obtain ⟨nss', same, each⟩ := separateFrom h 0 (none, false)
  rw [Fragment.joinedBlocks, Markdown.joinBlocks, ← same]
  exact joinBlocks (each_map.mpr each)

theorem quote (h : HoldsCode ns (Text.lines t)) :
    HoldsCode ns (Text.lines (Text.unlines ((Text.lines t).map Convert.quoteLine))) := by
  apply h.mapLines
  · intro l hl
    rw [Convert.quoteLine]
    split
    · simp
    · simpa using hl
  · intro l m hm
    exact hm.quote

theorem admonition (h : HoldsCode ns (Text.lines t)) (name : Text) (title : Option Text) :
    HoldsCode ns (Text.lines (Admonition.render name t title)) := by
  unfold Admonition.render
  dsimp only
  split
  · rename_i empty
    exact h.of_empty (List.isEmpty_iff.mp empty) _
  · have body := h.mapLines (fun l hl => Text.newline_not_mem_indentLine hl Admonition.bodyIndent)
      fun l m hm => hm.indent Admonition.bodyIndent
    rw [Text.lines_append_gap]
    exact (texts _).append (.text [] body)

/-- The content of an item after a block is added. -/
theorem add {item item' : Convert.ItemText} {n : Node} {block : Text} {ms : List Node}
    (h : HoldsCode ns (Text.lines item.text)) (h' : HoldsCode ms (Text.lines block))
    (added : item.add n block = .ok item') : HoldsCode (ns ++ ms) (Text.lines item'.text) := by
  obtain ⟨gap, written, text, -⟩ := Convert.ItemText.add_ok added
  rw [text]
  by_cases empty : item.text = []
  · rw [if_pos empty] at written
    rw [h.eq_nil_of_isBlank (by rw [empty]; rfl), empty, written]
    exact h'
  · rw [if_neg empty] at written
    rcases written with rfl | rfl
    · rw [List.append_assoc, List.singleton_append, Text.lines_append_newline]
      exact h.append h'
    · rw [Text.lines_append_gap]
      exact h.append (.text [] h')

theorem addAll {item item' : Convert.ItemText} {bs : List (Node × Text)} {nss : List (List Node)}
    (h : HoldsCode ns (Text.lines item.text)) (each : Each Prod.snd nss bs)
    (run : item.addAll bs = .ok item') : HoldsCode (ns ++ nss.flatten) (Text.lines item'.text) := by
  induction each generalizing item ns with
  | nil =>
    cases run
    simpa using h
  | @cons ms b nss bs first _ ih =>
    obtain ⟨next, added, rest⟩ := Convert.ItemText.addAll_cons_ok.mp run
    rw [List.flatten_cons, ← List.append_assoc]
    exact ih (h.add first added) rest

section ListItem

variable (item : ListItem) (marker : Text)

theorem edited_place (nested : Bool) {l m : Text} (h : Edited l m) :
    Edited l (item.place marker nested m) := by
  rw [place_eq_indentLine]
  exact h.indent _

theorem edited_placed {ls own : List Text} (h : List.Forall₂ Edited ls own) (index : Nat) :
    List.Forall₂ Edited ls
      ((Markdown.mapLines (item.place marker) (markFrom item.nested index own)).map Prod.snd) := by
  induction h generalizing index with
  | nil => exact .nil
  | cons first _ ih => exact .cons (edited_place item marker _ first) (ih (index + 1))

/-- The lines of a code block in an item, behind its marker or below. -/
theorem layOut_code (mark : IsListMarker marker) {n : Node} {own : List Text}
    (shows : ShowsCode n own) (started : Bool) (index : Nat) :
    HoldsCode [n] (item.layOut marker started index own) := by
  have whole {ls : List Text} (h : ShowsCode n ls) : HoldsCode [n] ls := by
    simpa using HoldsCode.code h .nil
  cases started with
  | true =>
    rw [layOut_started]
    exact whole (edited_placed item marker shows index)
  | false =>
    obtain ⟨first, rest, rfl⟩ := List.exists_cons_of_ne_nil shows.ne_nil
    have shown := shows.framed.first first rfl
    obtain ⟨c, cs, head, tail, code⟩ := List.forall₂_cons_right_iff.mp shows
    have below := edited_placed item marker tail (index + 1)
    rw [layOut_first item marker shown, layOut_started]
    -- A first line that counts as nested goes below the marker, where its list would begin.
    split
    · refine .text _ (whole ?_)
      have placed : item.shift marker ++ first = item.place marker true first := by
        simp [ListItem.place, shown]
      rw [placed, ShowsCode, code]
      exact .cons (edited_place item marker true head) below
    · refine whole ?_
      rw [ShowsCode, code]
      exact .cons (head.beside _ mark) below

theorem layOut (mark : IsListMarker marker) {ls : List Text} (h : HoldsCode ns ls)
    (started : Bool) (index : Nat) : HoldsCode ns (item.layOut marker started index ls) := by
  induction h generalizing started index with
  | nil => exact .nil
  | @text ns rest line _ ih =>
    rw [← List.singleton_append, layOut_append]
    exact (texts _).append (ih _ _)
  | @code n ns own rest shows _ ih =>
    rw [layOut_append]
    exact (layOut_code item marker mark shows started index).append (ih _ _)

theorem dropEmpty {ls : List Text} (h : HoldsCode ns ls) :
    HoldsCode ns (ls.rdropWhile List.isEmpty) := by
  induction ls using List.reverseRecOn with
  | nil => exact h
  | append_singleton ls l ih =>
    rw [List.rdropWhile_concat]
    split
    · rename_i empty
      exact ih (h.of_concat (by rw [List.isEmpty_iff.mp empty]; rfl))
    · exact h

/-- An item keeps the code blocks of its content. -/
theorem render (mark : IsListMarker marker) (h : HoldsCode ns (Text.lines item.text)) :
    HoldsCode ns (Text.lines (item.render marker)) := by
  have output := layOut item marker mark h false 0
  have cut : ∀ l ∈ Text.lines item.text, '\n' ∉ l :=
    fun l hl => Text.newline_not_mem_of_mem_lines hl
  have clean : ∀ l ∈ item.layOut marker false 0 (Text.lines item.text), '\n' ∉ l :=
    fun l hl => newline_not_mem_layOut item marker mark.newline cut hl
  rw [ListItem.render]
  generalize item.layOut marker false 0 (Text.lines item.text) = ls at output clean ⊢
  split
  · rename_i empty
    rw [List.isEmpty_iff] at empty
    rw [output.eq_nil_of_blank (by simp [empty])]
    exact texts _
  · have kept := dropEmpty output
    rw [List.rdropWhile] at kept
    by_cases none : (ls.reverse.dropWhile List.isEmpty).reverse = []
    · rw [none] at kept ⊢
      rw [kept.eq_nil_of_blank (by simp)]
      exact texts _
    · rw [Text.lines_unlines none fun l hl => clean l ?_]
      · exact kept
      · exact (List.rdropWhile_prefix List.isEmpty ls).subset hl

end ListItem

end HoldsCode

end Docmark
