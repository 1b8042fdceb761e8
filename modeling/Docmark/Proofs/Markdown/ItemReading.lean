import Docmark.Proofs.Markdown.ItemLayout

/-!
The layout of an item loses no line of its content. What it puts in front of the lines can be taken
off again, and the lines of the content are left, from the first to the last one that is not blank.
-/

namespace Docmark.Markdown

/-- The content as it is read back: white space around its first line is lost beside the marker. -/
def firstStripped : MarkedLines → List Text
  | (false, line) :: rest => Text.strip line :: rest.map Prod.snd
  | body => body.map Prod.snd

section ListItem

variable (item : ListItem) (marker : Text)

/-- The lines of the content between the blank lines at its ends. -/
def ListItem.core : MarkedLines :=
  item.shown.rdropWhile fun x => Text.isBlank x.2

/-- The lines of the content between the blank lines at its ends, where blank lines are empty. -/
def ListItem.content : MarkedLines :=
  mapLines (fun _ => Text.clearBlank) item.core

/-- A line below the marker without the space before it; an empty line has none. -/
def ListItem.unplace? (nested : Bool) (line : Text) : Option Text :=
  if line.isEmpty then some []
  else Text.after? (if nested then item.shift marker else item.continuation marker) line

/-- Reads as many lines as there are marks, which are set for lines of nested lists. -/
def ListItem.readBelow : List Bool → List Text → Option (List Text)
  | [], [] => some []
  | nested :: marks, line :: below => do
    let first ← item.unplace? marker nested line
    let rest ← ListItem.readBelow marks below
    return first :: rest
  | _, _ => none

/-- Reads the lines of an item; where a nested list begins its content the marker stands alone. -/
def ListItem.readBack (marks : List Bool) : List Text → Option (List Text)
  | [] => none
  | line :: below =>
    match marks with
    | false :: marks => do
      let first ← Text.after? (item.indent ++ marker ++ [' ']) line
      let rest ← item.readBelow marker marks below
      return first :: rest
    | _ => if line = item.indent ++ marker then item.readBelow marker marks below else none

theorem isBlank_head?_shown {x : Bool × Text} (h : item.shown.head? = some x) :
    Text.isBlank x.2 = false := by
  have first := List.head?_dropWhile_not (fun x : Bool × Text => Text.isBlank x.2)
    (markFrom item.nested 0 (Text.lines item.text))
  rw [ListItem.shown] at h
  rw [h] at first
  simpa using first

/-- The first line stays when blank lines at the end are left out. -/
theorem core_cons {x : Bool × Text} {body : MarkedLines} (h : item.shown = x :: body) :
    item.core = x :: body.rdropWhile fun x => Text.isBlank x.2 := by
  have first := isBlank_head?_shown item (x := x) (by rw [h]; rfl)
  rw [ListItem.core, h, Text.rdropWhile_cons, if_neg (by simp [first])]

theorem rdropWhile_place (body : MarkedLines) :
    ((mapLines (item.place marker) body).map Prod.snd).rdropWhile List.isEmpty =
      (mapLines (item.place marker) (body.rdropWhile fun x => Text.isBlank x.2)).map Prod.snd := by
  have same : List.isEmpty ∘ (fun x : Bool × Text => item.place marker x.1 x.2) =
      fun x => Text.isBlank x.2 := by
    funext x
    rw [Function.comp_apply, ListItem.place]
    split
    · rename_i blank
      rw [blank]
      rfl
    · rename_i shown
      have filled := Text.ne_nil_of_not_isBlank (Bool.eq_false_iff.mpr shown)
      rw [Bool.eq_false_iff.mpr shown]
      split <;> simp [filled]
  rw [mapLines, List.map_map, mapLines, List.map_map]
  exact (Text.rdropWhile_map _ _ body).trans (by rw [← same]; rfl)

/-- The lines of an item are the marker and the lines of its content, none of them left out. -/
theorem written_eq_itemLines (filled : marker ≠ []) :
    item.written marker =
      itemLines (2 * item.level).toNat marker (mapLines (item.place marker) item.core) := by
  rw [written_eq item marker filled, itemLines, besideMarker_mapLines (strip_place item marker)]
  have whole := rdropWhile_place item marker item.shown
  rw [← ListItem.core] at whole
  cases h : item.shown with
  | nil =>
    rw [ListItem.core, h]
    rfl
  | cons x body =>
    obtain ⟨nested, line⟩ := x
    rw [h, core_cons item h] at whole
    rw [core_cons item h]
    cases nested with
    | true => exact congrArg (_ :: ·) whole
    | false => exact congrArg (_ :: ·) (rdropWhile_place item marker body)

theorem unplace?_place (nested : Bool) (line : Text) :
    item.unplace? marker nested (item.place marker nested line) = some (Text.clearBlank line) := by
  rw [ListItem.place, Text.clearBlank]
  split
  · rfl
  · rename_i shown
    have filled := Text.ne_nil_of_not_isBlank (Bool.eq_false_iff.mpr shown)
    cases nested with
    | true => simp [ListItem.unplace?, Text.after?_append, filled]
    | false => simp [ListItem.unplace?, Text.after?_append, filled]

theorem readBelow_place (body : MarkedLines) :
    item.readBelow marker (body.map Prod.fst) ((mapLines (item.place marker) body).map Prod.snd) =
      some ((mapLines (fun _ => Text.clearBlank) body).map Prod.snd) := by
  induction body with
  | nil => rfl
  | cons x body ih =>
    rw [List.map_cons, mapLines, List.map_cons, List.map_cons, ListItem.readBelow,
      unplace?_place item marker x.1 x.2]
    exact congrArg (· >>= fun rest => some (Text.clearBlank x.2 :: rest)) ih

/-- The lines of an item are read back as those of its content. -/
theorem readBack_itemLines :
    item.readBack marker (item.content.map Prod.fst)
        (itemLines (2 * item.level).toNat marker (mapLines (item.place marker) item.core)) =
      some (firstStripped item.content) := by
  have marks : item.content.map Prod.fst = item.core.map Prod.fst := by
    rw [ListItem.content, mapLines, List.map_map]
    rfl
  rw [marks, ListItem.content]
  have below := readBelow_place item marker item.core
  cases h : item.core with
  | nil =>
    simp [itemLines, mapLines, besideMarker, belowMarker, ListItem.readBack, ListItem.readBelow,
      ListItem.indent, firstStripped]
  | cons x body =>
    obtain ⟨nested, line⟩ := x
    cases nested with
    | true =>
      rw [h] at below
      have alone : Text.spaces (2 * item.level).toNat ++ marker ++ [] = item.indent ++ marker := by
        rw [List.append_nil, ListItem.indent]
      exact (if_pos alone).trans below
    | false =>
      have first : Text.after? (item.indent ++ marker ++ [' '])
          (Text.spaces (2 * item.level).toNat ++ marker ++
            ' ' :: Text.strip (item.place marker false line)) = some (Text.strip line) := by
        rw [strip_place, List.append_cons (Text.spaces _ ++ marker)]
        exact Text.after?_append _ _
      have rest := readBelow_place item marker body
      simp only [itemLines, mapLines, besideMarker, belowMarker, ListItem.readBack, firstStripped,
        List.map_cons, first, Text.strip_clearBlank]
      exact congrArg (· >>= fun rest => some (Text.strip line :: rest)) rest

theorem isBlank_getLast?_core {x : Bool × Text} (h : item.core.getLast? = some x) :
    Text.isBlank x.2 = false := by
  have ne : item.core ≠ [] := by
    intro none
    rw [none] at h
    cases h
  have stays := List.rdropWhile_last_not (fun x : Bool × Text => Text.isBlank x.2) item.shown ne
  rw [List.getLast?_eq_some_getLast ne] at h
  rw [← Option.some.inj h]
  exact Bool.eq_false_iff.mpr stays

/-- Below the first line an item ends as its content does. -/
theorem isBlank_of_getLast?_place {body : MarkedLines} (ending : body <:+ item.core) {l : Text}
    (h : ((mapLines (item.place marker) body).map Prod.snd).getLast? = some l) :
    Text.isBlank l = false := by
  rw [mapLines, List.map_map, List.getLast?_map] at h
  obtain ⟨x, hx, rfl⟩ := Option.map_eq_some_iff.mp h
  obtain ⟨front, whole⟩ := ending
  rw [Function.comp_apply, isBlank_place]
  exact isBlank_getLast?_core item (by rw [← whole, List.getLast?_append, hx, Option.some_or])

/-- The last line of an item is blank only where there is nothing but a blank marker. -/
theorem getLast?_itemLines (filled : marker ≠ []) {l : Text}
    (h : (itemLines (2 * item.level).toNat marker
      (mapLines (item.place marker) item.core)).getLast? = some l) :
    l ≠ [] ∧ (Text.isBlank l = true → item.content = [] ∧ Text.isBlank marker = true) := by
  have ofShown (shown : Text.isBlank l = false) :
      l ≠ [] ∧ (Text.isBlank l = true → item.content = [] ∧ Text.isBlank marker = true) := by
    refine ⟨Text.ne_nil_of_not_isBlank shown, fun blank => ?_⟩
    rw [shown] at blank
    cases blank
  match core : item.core with
  | [] =>
    rw [core] at h
    obtain rfl : Text.spaces (2 * item.level).toNat ++ marker ++ [] = l := Option.some.inj h
    refine ⟨by simp [filled], fun blank => ⟨by rw [ListItem.content, core]; rfl, ?_⟩⟩
    rwa [List.append_nil, Text.isBlank_spaces_append] at blank
  | (true, line) :: body =>
    rw [core] at h
    have ending : (true, line) :: body <:+ item.core := ⟨[], core.symm⟩
    exact ofShown (isBlank_of_getLast?_place item marker ending h)
  | [(false, line)] =>
    have stays : Text.isBlank line = false := isBlank_getLast?_core item (by rw [core]; rfl)
    rw [core] at h
    obtain rfl : Text.spaces (2 * item.level).toNat ++ marker ++
      ' ' :: Text.strip (item.place marker false line) = l := Option.some.inj h
    have beside : Text.isBlank (' ' :: Text.strip line) = false :=
      (Text.isBlank_append [' '] (Text.strip line)).trans (by simp [Text.isBlank_strip, stays])
    refine ofShown ?_
    rw [strip_place, Text.isBlank_append, beside, Bool.and_false]
  | (false, line) :: next :: body =>
    rw [core] at h
    have ending : next :: body <:+ item.core := ⟨[(false, line)], core.symm⟩
    exact ofShown (isBlank_of_getLast?_place item marker ending h)

/--
The layout of an item loses nothing. An item without content is its marker; otherwise the marker and
the space before the lines can be taken off again, and what is left are the lines of the content, of
which the first has lost the white space around it if it stands beside the marker. The last line is
never empty, nor is it blank unless there is only a marker that is blank itself.
-/
theorem render_readBack (item : ListItem) {marker : Text} (filled : marker ≠ []) :
    ∃ out, item.render marker = Text.unlines out ∧
      ('\n' ∉ marker → Text.lines (item.render marker) = out) ∧
      (item.content = [] → item.render marker = item.indent ++ marker) ∧
      item.readBack marker (item.content.map Prod.fst) out = some (firstStripped item.content) ∧
      ∀ l, out.getLast? = some l →
        l ≠ [] ∧ (Text.isBlank l = true → item.content = [] ∧ Text.isBlank marker = true) := by
  have same := written_eq_itemLines item marker filled
  have rendered := render_eq item marker filled
  refine ⟨item.written marker, rendered, fun line => ?_, fun none => ?_, ?_, fun l last => ?_⟩
  · rw [rendered]
    refine Text.lines_unlines ?_ fun l hl => newline_not_mem_written item marker filled line hl
    simp [same, itemLines]
  · have empty : item.core = [] := List.map_eq_nil_iff.mp none
    rw [rendered, same, empty]
    simp [itemLines, mapLines, besideMarker, belowMarker, ListItem.indent, Text.unlines,
      Text.joinWith]
  · rw [same]
    exact readBack_itemLines item marker
  · rw [same] at last
    exact getLast?_itemLines item marker filled last

/-- Content with blank lines around it and inside it, and with a line of a nested list. -/
def looseItem : ListItem :=
  ⟨"\n  a \n\t\n  - b\nc \n \n".toList, 1, [3]⟩

theorem looseItem_readBack :
    "10.".toList ≠ [] ∧ ∃ out, looseItem.render "10.".toList = Text.unlines out ∧
      looseItem.readBack "10.".toList [false, false, true, false] out =
        some ["a".toList, [], "  - b".toList, "c ".toList] := by
  have filled : "10.".toList ≠ [] := by decide
  have marks : looseItem.content.map Prod.fst = [false, false, true, false] := by decide
  have lines : firstStripped looseItem.content =
      ["a".toList, [], "  - b".toList, "c ".toList] := by decide
  obtain ⟨out, rendered, -, -, read, -⟩ := render_readBack looseItem filled
  rw [marks, lines] at read
  exact ⟨filled, out, rendered, read⟩

end ListItem

end Docmark.Markdown
