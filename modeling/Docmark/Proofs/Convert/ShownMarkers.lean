import Docmark.Proofs.Convert.CodeLines
import Docmark.Proofs.Convert.MarkerColumn
import Docmark.Proofs.Convert.OwnMarkers
import Docmark.Proofs.Markdown.BlocksInRow

/-!
The markers of a list among the lines that containers write: they keep their order, and each
container moves all of them by the same number of columns.
-/

namespace Docmark

open Markdown Text

/--
Lines among which the markers of a list stand at a column, in their order. `own` are the lines of
the markers before any container took them.
-/
def ShowsMarkers (l : Node) (own : List Text) (column : Nat) (ls : List Text) : Prop :=
  ∃ other ms shown, HasMarkers l other ms ∧ shown.Sublist ls ∧ List.Forall₂ Edited own shown ∧
    List.Forall₂ (StandsAt column) ms shown

namespace ShowsMarkers

variable {l : Node} {own : List Text} {column : Nat} {ls ls' : List Text}

theorem mono (h : ShowsMarkers l own column ls) (sub : ls.Sublist ls') :
    ShowsMarkers l own column ls' := by
  obtain ⟨other, ms, shown, markers, inside, edited, stands⟩ := h
  exact ⟨other, ms, shown, markers, inside.trans sub, edited, stands⟩

theorem shown_of_stands {ms : List Text} (stands : List.Forall₂ (StandsAt column) ms ls) :
    ∀ line ∈ ls, isBlank line = false := by
  have each : List.Forall₂ (fun line (_ : Text) => isBlank line = false ∧ True) ls ms :=
    stands.flip.imp fun _ _ h => ⟨h.shown, trivial⟩
  exact ((List.forall₂_and_left _ _).mp each).1

/-- Blank lines have no markers. -/
theorem mono_shown (h : ShowsMarkers l own column ls)
    (sub : (ls.filter fun line => !isBlank line).Sublist ls') : ShowsMarkers l own column ls' := by
  obtain ⟨other, ms, shown, markers, inside, edited, stands⟩ := h
  refine ⟨other, ms, shown, markers, ?_, edited, stands⟩
  have all : ∀ line ∈ shown, (!isBlank line) = true := by
    intro line hl
    rw [shown_of_stands stands line hl]
    rfl
  rw [← List.filter_eq_self.mpr all]
  exact (inside.filter _).trans sub

/-- Where blank lines show all markers of a list there are none. -/
theorem of_blank (h : ShowsMarkers l own column ls) (blank : ∀ line ∈ ls, isBlank line = true)
    (column' : Nat) (ls' : List Text) : ShowsMarkers l own column' ls' := by
  obtain ⟨other, ms, shown, markers, inside, edited, stands⟩ := h
  cases shown with
  | nil =>
    rw [List.forall₂_nil_right_iff] at stands
    rw [stands] at markers
    exact ⟨other, [], [], markers, List.nil_sublist _, edited, .nil⟩
  | cons line shown =>
    have one := shown_of_stands stands line List.mem_cons_self
    rw [blank line (inside.subset List.mem_cons_self)] at one
    cases one

/-- What is done to each line. -/
theorem map (h : ShowsMarkers l own column ls) {g : Text → Text} {column' : Nat}
    (stands : ∀ m line, StandsAt column m line → StandsAt column' m (g line))
    (edits : ∀ k line, Edited k line → Edited k (g line)) :
    ShowsMarkers l own column' (ls.map g) := by
  obtain ⟨other, ms, shown, markers, inside, edited, stand⟩ := h
  exact ⟨other, ms, shown.map g, markers, inside.map g,
    List.forall₂_map_right_iff.mpr (edited.imp edits),
    List.forall₂_map_right_iff.mpr (stand.imp stands)⟩

/-- What is done to the lines, the first of them apart. -/
theorem map_cons {line : Text} (h : ShowsMarkers l own column (line :: ls)) {g : Text → Text}
    {first : Text} {column' : Nat}
    (stands : ∀ m line, StandsAt column m line → StandsAt column' m (g line))
    (edits : ∀ k line, Edited k line → Edited k (g line))
    (stands' : ∀ m, StandsAt column m line → StandsAt column' m first)
    (edits' : ∀ k, Edited k line → Edited k first) :
    ShowsMarkers l own column' (first :: ls.map g) := by
  obtain ⟨other, ms, shown, markers, inside, edited, stand⟩ := h
  cases inside with
  | cons _ inside =>
    exact (map ⟨other, ms, shown, markers, inside, edited, stand⟩ stands edits).mono
      (List.sublist_cons_self _ _)
  | cons_cons _ inside =>
    obtain ⟨k, ks, edit, others, rfl⟩ := List.forall₂_cons_right_iff.mp edited
    obtain ⟨m, ms, place, below, rfl⟩ := List.forall₂_cons_right_iff.mp stand
    exact ⟨other, m :: ms, _, markers, (inside.map g).cons_cons first,
      .cons (edits' _ edit) (List.forall₂_map_right_iff.mpr (others.imp edits)),
      .cons (stands' _ place) (List.forall₂_map_right_iff.mpr (below.imp stands))⟩

section text

variable {t : Text}

theorem of_isBlank (h : ShowsMarkers l own column (lines t)) (blank : isBlank t = true)
    (column' : Nat) (ls : List Text) : ShowsMarkers l own column' ls :=
  h.of_blank (fun _ hl => isBlank_of_mem_lines blank hl) column' ls

theorem of_empty (h : ShowsMarkers l own column (lines t)) (empty : t = []) (column' : Nat)
    (ls : List Text) : ShowsMarkers l own column' ls :=
  h.of_isBlank (by rw [empty]; rfl) column' ls

theorem trimNewlines (h : ShowsMarkers l own column (lines t)) :
    ShowsMarkers l own column (lines (trimNewlines t)) := by
  obtain ⟨j, k, cut⟩ := exists_lines_trimNewlines t
  have empty (n : Nat) : (List.replicate n ([] : Text)).filter (fun line => !isBlank line) = [] :=
    List.filter_eq_nil_iff.mpr fun line hl => by rw [List.eq_of_mem_replicate hl]; decide
  refine h.mono_shown ?_
  rw [cut, List.filter_append, List.filter_append, empty, empty, List.nil_append, List.append_nil]
  exact List.filter_sublist

theorem mapLines (h : ShowsMarkers l own column (lines t)) {g : Text → Text} {column' : Nat}
    (line : ∀ k, '\n' ∉ k → '\n' ∉ g k)
    (stands : ∀ m line, StandsAt column m line → StandsAt column' m (g line))
    (edits : ∀ k line, Edited k line → Edited k (g line)) :
    ShowsMarkers l own column' (lines (unlines ((lines t).map g))) := by
  rw [lines_mapLines line]
  exact h.map stands edits

theorem joinBlocks (h : ShowsMarkers l own column (lines t)) {bs : List Text} (ht : t ∈ bs) :
    ShowsMarkers l own column (lines (joinBlocks bs)) := by
  induction bs with
  | nil => cases ht
  | cons b bs ih =>
    by_cases last : bs = []
    · rw [last] at ht ⊢
      obtain rfl := List.mem_singleton.mp ht
      exact h
    · rw [lines_joinBlocks_cons b last]
      rcases List.mem_cons.mp ht with rfl | ht
      · exact h.mono (List.sublist_append_left _ _)
      · exact (ih ht).mono
          ((List.sublist_cons_self _ _).trans (List.sublist_append_right _ _))

theorem quote (h : ShowsMarkers l own column (lines t)) :
    ShowsMarkers l own (column + 2) (lines (unlines ((lines t).map Convert.quoteLine))) := by
  refine h.mapLines (fun k hk => ?_) (fun _ _ stand => stand.quoteLine) fun _ _ edit => edit.quote
  rw [Convert.quoteLine]
  split
  · simp
  · simpa using hk

theorem admonition (h : ShowsMarkers l own column (lines t)) (name : Text) (title : Option Text) :
    ShowsMarkers l own (column + Admonition.bodyIndent)
      (lines ( Admonition.render name t title)) := by
  unfold Admonition.render
  dsimp only
  split
  · rename_i empty
    exact h.of_empty (List.isEmpty_iff.mp empty) _ _
  · have body := h.mapLines (fun k hk => newline_not_mem_indentLine hk Admonition.bodyIndent)
      (fun _ _ stand => stand.indentLine _) fun _ _ edit => edit.indent _
    rw [lines_append_gap]
    exact body.mono ((List.sublist_cons_self _ _).trans (List.sublist_append_right _ _))

theorem writtenBlock {b : Bool × Text} (h : ShowsMarkers l own column (lines b.2)) (base : Nat)
    (names : List Text) :
    ShowsMarkers l own column (lines (Convert.writtenBlock base names b)) := by
  rw [Convert.writtenBlock]
  split
  · exact h
  · rw [ Annotation.lines_relabel fun d _ => Annotation.isNumeral_numeralIn base names d]
    exact h.map (fun _ _ stand => stand.relabel _) fun _ _ edit => edit.renumber base names

theorem blockFragment {parts : List Text}
    (h : ShowsMarkers l own column (lines (Text.joinBlocks parts))) (emitting : Bool)
    (definitions : List Text) : ShowsMarkers l own column
      (lines (Convert.blockFragment emitting parts definitions).markdown) := by
  by_cases empty : Text.joinBlocks parts = []
  · exact h.of_empty empty _ _
  · have filled : (Text.joinBlocks parts).isEmpty = false := by simpa using empty
    rw [Convert.blockFragment, filled]
    simp only [Bool.false_and, Bool.false_eq_true, ↓reduceIte, Convert.blockMarkdown, filled]
    exact h.joinBlocks (by simp)

end text

section row

variable {f : Fragment} {fs : List Fragment}
  (h : ∀ switched, ShowsMarkers l own column (lines (f.block.written switched))) (hf : f ∈ fs)

include h hf

/-- A block that is not blank is one of those that are set apart. -/
theorem separated (shown : isBlank f.markdown = false) :
    ∃ x ∈ separateLists (fs.map Fragment.block), ShowsMarkers l own column (lines x.2) := by
  have block := List.mem_map_of_mem (f := Fragment.block) hf
  obtain ⟨x, hx, switched, form⟩ := exists_mem_separateLists block shown
  exact ⟨x, hx, form ▸ h switched⟩

/-- One of the blocks in a row. -/
theorem joinedBlocks : ShowsMarkers l own column (lines (Fragment.joinedBlocks fs)) := by
  cases blank : isBlank f.markdown with
  | true => exact (h false).of_isBlank (by rw [Block.isBlank_written]; exact blank) _ _
  | false =>
    obtain ⟨x, hx, shows⟩ := separated h hf blank
    exact shows.joinBlocks (List.mem_map_of_mem hx)

/-- One of the children of an annotated block. -/
theorem childBlocks (base : Nat) (names : List Text) : ShowsMarkers l own column (lines
    (Text.joinBlocks ((Convert.childBlocks fs).map (Convert.writtenBlock base names)))) := by
  cases blank : isBlank f.markdown with
  | true => exact (h false).of_isBlank (by rw [Block.isBlank_written]; exact blank) _ _
  | false =>
    obtain ⟨x, hx, shows⟩ := separated h hf blank
    have child := List.mem_map_of_mem (f := fun x : Nat × Text =>
      ((fs[x.1]?.map Convert.isAnnotatedBlock).getD false, x.2)) hx
    exact (writtenBlock (b := (_, x.2)) shows base names).joinBlocks (List.mem_map_of_mem child)

end row

section item

variable {item : ListItem} {marker : Text} {nested : Bool}

/-- Below the first line of an item lines are moved to the right only. -/
theorem placed (h : ShowsMarkers l own column ls) :
    ShowsMarkers l own (column + item.offset marker nested)
      (ls.map (item.place marker nested)) := by
  rw [place_eq_indentLine]
  exact h.map (fun _ _ stand => stand.indentLine _) fun _ _ edit => edit.indent _

/-- Lines of a block that does not come first in an item. -/
theorem below (h : ShowsMarkers l own column ls) {x : Bool × Text} {front back : MarkedLines} :
    ShowsMarkers l own (column + item.offset marker nested)
      (belowMarker (Markdown.mapLines (item.place marker)
        (x :: (front ++ ls.map (nested, ·) ++ back)))) := by
  refine h.placed.mono (List.Sublist.trans ?_ (sublist_belowMarker _ _))
  rw [List.map_map, List.map_append, List.map_append, List.map_map]
  exact (List.sublist_append_right _ _).trans (List.sublist_append_left _ _)

/-- Lines of a list that comes first in an item: it begins below the marker. -/
theorem below_of_nested (h : ShowsMarkers l own column ls) {back : MarkedLines} :
    ShowsMarkers l own (column + item.offset marker true)
      (belowMarker (Markdown.mapLines (item.place marker) (ls.map (true, ·) ++ back))) := by
  cases ls with
  | nil => exact h.of_blank (by simp) _ _
  | cons line ls =>
    refine h.placed.mono ?_
    have whole : belowMarker (Markdown.mapLines (item.place marker)
        ((line :: ls).map (true, ·) ++ back)) =
        (line :: ls).map (item.place marker true) ++
          (Markdown.mapLines (item.place marker) back).map Prod.snd := by
      simp [belowMarker, Markdown.mapLines, Function.comp_def]
    rw [whole]
    exact List.sublist_append_left _ _

/-- Lines of a block that comes first in an item: its first line stands beside the marker. -/
theorem beside {line : Text} (h : ShowsMarkers l own column (line :: ls)) (mark : IsMarker marker)
    (form : IsListMarker marker) (first : ∀ c, line.head? = some c → isBlankChar c = false)
    {back : MarkedLines} : ShowsMarkers l own (column + item.offset marker false)
      (itemLines (2 * item.level).toNat marker (Markdown.mapLines (item.place marker)
        ((false, line) :: (ls.map (false, ·) ++ back)))) := by
  have width : item.offset marker false = (2 * item.level).toNat + marker.length + 1 := by
    simp [ListItem.offset, ListItem.continuation, ListItem.indent, spaces, Nat.add_assoc]
  have lines : ShowsMarkers l own (column + item.offset marker false)
      ((spaces (2 * item.level).toNat ++ marker ++ ' ' :: strip line) ::
        ls.map (item.place marker false)) := h.map_cons
    (fun m line stand => by rw [place_eq_indentLine]; exact stand.indentLine _)
    (fun k line edit => by rw [place_eq_indentLine]; exact edit.indent _)
    (fun m stand => by rw [width]; exact stand.beside first _ mark)
    (fun k edit => edit.beside _ form)
  refine lines.mono ?_
  rw [itemLines, besideMarker_mapLines (strip_place item marker)]
  refine List.Sublist.cons_cons _ ?_
  simp [belowMarker, Markdown.mapLines, Function.comp_def]

/-- An item keeps the markers that a block of its content shows. -/
theorem written (h : ShowsMarkers l own column ls) (mark : IsMarker marker)
    (form : IsListMarker marker) {front back : MarkedLines}
    (content : item.shown =
      (front ++ ls.map (nested, ·) ++ back).dropWhile fun x => isBlank x.2)
    (begins : nested = false → ∃ c r rest, ls = (c :: r) :: rest ∧ isBlankChar c = false) :
    ShowsMarkers l own (column + item.offset marker nested) (item.written marker) := by
  suffices ShowsMarkers l own (column + item.offset marker nested)
      (itemLines (2 * item.level).toNat marker
        (Markdown.mapLines (item.place marker) item.shown)) by
    refine this.mono_shown ?_
    rw [ListItem.written, ← filter_rdropWhile (p := List.isEmpty) fun a empty => by
      rw [List.isEmpty_iff.mp empty]
      rfl]
    exact List.filter_sublist
  rw [content, List.append_assoc, List.dropWhile_append]
  split
  · -- Nothing is shown above the block.
    cases nested with
    | true =>
      rw [List.dropWhile_append, List.dropWhile_map]
      split
      · rename_i none
        have blank : ∀ line ∈ ls, isBlank line = true := by
          rw [List.isEmpty_iff, List.map_eq_nil_iff, List.dropWhile_eq_nil_iff] at none
          exact none
        exact h.of_blank blank _ _
      · have shown : ShowsMarkers l own column (ls.dropWhile isBlank) := by
          refine h.mono_shown ?_
          rw [← filter_dropWhile (p := isBlank) fun line blank => by rw [blank]; rfl]
          exact List.filter_sublist
        exact shown.below_of_nested.mono (List.sublist_cons_self _ _)
    | false =>
      obtain ⟨c, r, rest, rfl, shown⟩ := begins rfl
      have line : isBlank (c :: r) = false := by
        rw [isBlank, List.all_cons, shown, Bool.false_and]
      rw [List.map_cons, List.cons_append, List.dropWhile_cons_of_neg (by simp [line])]
      refine h.beside mark form fun d hd => ?_
      cases hd
      exact shown
  · rename_i filled
    obtain ⟨x, above, cut⟩ := List.exists_cons_of_ne_nil (mt List.isEmpty_iff.mpr filled)
    rw [cut, List.cons_append, ← List.append_assoc]
    exact h.below.mono (List.sublist_cons_self _ _)

end item

end ShowsMarkers

end Docmark
