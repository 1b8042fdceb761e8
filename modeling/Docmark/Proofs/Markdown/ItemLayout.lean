import Docmark.Markdown.ListLayout
import Docmark.Proofs.Markdown.Framed
import Docmark.Proofs.Text.Indent
import Mathlib.Data.List.DropRight

/-!
Items of lists as lines under a marker. The lines of the content are marked by whether they belong
to a nested list, which is what the layout looks up by their indices.
-/

namespace Docmark.Markdown

/-- Lines with a mark on those of nested lists. -/
abbrev MarkedLines := List (Bool × Text)

/-- What stands behind the marker of an item; a nested list begins on the next line. -/
def besideMarker : MarkedLines → Text
  | (false, line) :: _ => ' ' :: Text.strip line
  | _ => []

/-- The lines below the marker of an item. -/
def belowMarker : MarkedLines → List Text
  | (false, _) :: rest => rest.map Prod.snd
  | body => body.map Prod.snd

/-- The lines of an item whose marker stands at a column. -/
def itemLines (column : Nat) (marker : Text) (body : MarkedLines) : List Text :=
  (Text.spaces column ++ marker ++ besideMarker body) :: belowMarker body

theorem mem_belowMarker {body : MarkedLines} {l : Text} (h : l ∈ belowMarker body) :
    ∃ nested, (nested, l) ∈ body := by
  unfold belowMarker at h
  split at h
  · obtain ⟨⟨nested, m⟩, hm, rfl⟩ := List.mem_map.mp h
    exact ⟨nested, List.mem_cons_of_mem _ hm⟩
  · obtain ⟨⟨nested, m⟩, hm, rfl⟩ := List.mem_map.mp h
    exact ⟨nested, hm⟩

theorem sublist_belowMarker (x : Bool × Text) (body : MarkedLines) :
    (body.map Prod.snd).Sublist (belowMarker (x :: body)) := by
  obtain ⟨nested, line⟩ := x
  cases nested with
  | true => exact List.sublist_cons_self _ _
  | false => exact List.Sublist.refl _

/-- Lines changed in their white space only. -/
def mapLines (g : Bool → Text → Text) (body : MarkedLines) : MarkedLines :=
  body.map fun (nested, line) => (nested, g nested line)

theorem besideMarker_mapLines {g : Bool → Text → Text}
    (h : ∀ nested line, Text.strip (g nested line) = Text.strip line) (body : MarkedLines) :
    besideMarker (mapLines g body) = besideMarker body := by
  match body with
  | [] => rfl
  | (true, _) :: _ => rfl
  | (false, line) :: _ => simp [mapLines, besideMarker, h]

theorem belowMarker_mapLines (g : Text → Text) (body : MarkedLines) :
    belowMarker (mapLines (fun _ => g) body) = (belowMarker body).map g := by
  match body with
  | [] => rfl
  | (true, _) :: _ => simp [mapLines, belowMarker, Function.comp_def]
  | (false, _) :: _ => simp [mapLines, belowMarker, Function.comp_def]

/-- The lines of an item move to the right with the item. -/
theorem map_indentLine_itemLines {marker : Text} (shown : Text.isBlank marker = false)
    (column : Nat) (body : MarkedLines) (k : Nat) :
    (itemLines column marker body).map (Text.indentLine k) =
      itemLines (column + k) marker (mapLines (fun _ => Text.indentLine k) body) := by
  have first : Text.isBlank (Text.spaces column ++ marker ++ besideMarker body) = false := by
    rw [List.append_assoc, Text.isBlank_spaces_append, Text.isBlank_append, shown, Bool.false_and]
  rw [itemLines, itemLines, List.map_cons, Text.indentLine_of_shown first,
    besideMarker_mapLines (fun _ line => Text.strip_indentLine k line), belowMarker_mapLines,
    ← List.append_assoc, ← List.append_assoc, Text.spaces_append, Nat.add_comm]

/-- Marks lines by a record of indices. -/
def markFrom (nested : List Nat) (index : Nat) : List Text → MarkedLines
  | [] => []
  | line :: rest => (nested.contains index, line) :: markFrom nested (index + 1) rest

theorem markFrom_append (nested : List Nat) (index : Nat) (ls ms : List Text) :
    markFrom nested index (ls ++ ms) =
      markFrom nested index ls ++ markFrom nested (index + ls.length) ms := by
  induction ls generalizing index with
  | nil => rfl
  | cons l ls ih =>
    rw [List.cons_append, markFrom, markFrom, ih, List.length_cons, Nat.add_right_comm]
    rfl

theorem markFrom_congr {nested nested' : List Nat} {index : Nat} {ls : List Text}
    (h : ∀ i, index ≤ i → i < index + ls.length → (i ∈ nested ↔ i ∈ nested')) :
    markFrom nested index ls = markFrom nested' index ls := by
  induction ls generalizing index with
  | nil => rfl
  | cons l ls ih =>
    rw [List.length_cons] at h
    have first : nested.contains index = nested'.contains index := by
      rw [Bool.eq_iff_iff, List.contains_iff_mem, List.contains_iff_mem]
      exact h index (Nat.le_refl _) (by omega)
    rw [markFrom, markFrom, first, ih fun i low high => h i (by omega) (by omega)]

theorem markFrom_const {nested : List Nat} {index : Nat} {ls : List Text} {mark : Bool}
    (h : ∀ i, index ≤ i → i < index + ls.length → nested.contains i = mark) :
    markFrom nested index ls = ls.map (mark, ·) := by
  induction ls generalizing index with
  | nil => rfl
  | cons l ls ih =>
    rw [List.length_cons] at h
    rw [markFrom, h index (Nat.le_refl _) (by omega),
      ih fun i low high => h i (by omega) (by omega), List.map_cons]

theorem map_snd_markFrom (nested : List Nat) (index : Nat) (ls : List Text) :
    (markFrom nested index ls).map Prod.snd = ls := by
  induction ls generalizing index with
  | nil => rfl
  | cons l ls ih => rw [markFrom, List.map_cons, ih]

/-- An item begins with its marker, and ends as its content does. -/
theorem framed_itemLines {marker : Text} (shown : Text.isBlank marker = false) (column : Nat)
    {body : MarkedLines} (framed : Framed (body.map Prod.snd)) :
    Framed (itemLines column marker body) := by
  have first : Text.isBlank (Text.spaces column ++ marker ++ besideMarker body) = false := by
    rw [List.append_assoc, Text.isBlank_spaces_append, Text.isBlank_append, shown, Bool.false_and]
  obtain ⟨front, whole⟩ : ∃ front, body.map Prod.snd = front ++ belowMarker body := by
    match body with
    | [] => exact ⟨[], rfl⟩
    | (true, _) :: _ => exact ⟨[], rfl⟩
    | (false, line) :: _ => exact ⟨[line], rfl⟩
  refine ⟨fun l hl => ?_, fun l hl => ?_⟩
  · cases hl
    exact first
  · by_cases none : belowMarker body = []
    · rw [itemLines, none] at hl
      cases hl
      exact first
    · rw [itemLines, List.getLast?_cons, List.getLast?_eq_some_getLast none, Option.getD_some] at hl
      refine framed.last l ?_
      rw [whole, List.getLast?_append, List.getLast?_eq_some_getLast none, Option.some_or, hl]

/--
Switching the marker of a line writes one character for another at most, behind white space and
digits.
-/
theorem switchMarker_cases (kind : ListKind) (line : Text) : switchMarker kind line = line ∨
    ∃ front back, (∀ c ∈ front, Text.isBlankChar c = true ∨ Text.isDecimal c = true) ∧
      ((line = front ++ '-' :: back ∧ switchMarker kind line = front ++ '*' :: back) ∨
        (line = front ++ '.' :: back ∧ switchMarker kind line = front ++ ')' :: back)) := by
  have whole := List.takeWhile_append_dropWhile (p := Text.isBlankChar) (l := line)
  have digits := List.takeWhile_append_dropWhile (p := Text.isDecimal)
    (l := line.dropWhile Text.isBlankChar)
  have blank : ∀ c ∈ line.takeWhile Text.isBlankChar, Text.isBlankChar c = true :=
    List.all_eq_true.mp List.all_takeWhile
  have decimal : ∀ c ∈ (line.dropWhile Text.isBlankChar).takeWhile Text.isDecimal,
      Text.isDecimal c = true := List.all_eq_true.mp List.all_takeWhile
  unfold switchMarker
  split
  · dsimp only
    split
    · rename_i rest body
      split
      · rw [body] at whole
        exact Or.inr ⟨_, rest, fun c hc => Or.inl (blank c hc), Or.inl ⟨whole.symm, rfl⟩⟩
      · exact Or.inl rfl
    · exact Or.inl rfl
  all_goals
    dsimp only
    split
    · rename_i rest body
      split
      · rw [body] at digits
        rw [← digits, ← List.append_assoc] at whole
        refine Or.inr ⟨_, rest, fun c hc => ?_, Or.inr ⟨whole.symm, rfl⟩⟩
        exact (List.mem_append.mp hc).imp (blank c) (decimal c)
      · exact Or.inl rfl
    · exact Or.inl rfl

theorem isBlank_switchMarker (kind : ListKind) (line : Text) :
    Text.isBlank (switchMarker kind line) = Text.isBlank line := by
  have shown (front : Text) {c : Char} (hc : Text.isBlankChar c = false) (back : Text) :
      Text.isBlank (front ++ c :: back) = false := by
    rw [Text.isBlank_append, Bool.and_eq_false_iff, Text.isBlank, Text.isBlank, List.all_cons, hc]
    exact Or.inr (Bool.false_and _)
  rcases switchMarker_cases kind line with he | ⟨front, back, -, ⟨hl, he⟩ | ⟨hl, he⟩⟩
  · rw [he]
  · rw [he, hl, shown front (by decide), shown front (by decide)]
  · rw [he, hl, shown front (by decide), shown front (by decide)]

theorem newline_not_mem_switchMarker (kind : ListKind) {line : Text} (h : '\n' ∉ line) :
    '\n' ∉ switchMarker kind line := by
  rcases switchMarker_cases kind line with he | ⟨front, back, -, ⟨hl, he⟩ | ⟨hl, he⟩⟩
  · rwa [he]
  all_goals
    rw [hl] at h
    rw [he]
    simpa using h

section ListItem

variable (item : ListItem) (marker : Text)

/-- How a line of the content stands in the item, its first line apart. -/
def ListItem.place (nested : Bool) (line : Text) : Text :=
  if Text.isBlank line then []
  else if nested then item.shift marker ++ line
  else item.continuation marker ++ line

/-- How far a line of the content moves to the right in the item. -/
def ListItem.offset (nested : Bool) : Nat :=
  if nested then (item.shift marker).length else (item.continuation marker).length

theorem place_eq_indentLine (nested : Bool) :
    item.place marker nested = Text.indentLine (item.offset marker nested) := by
  funext line
  rw [ListItem.place, Text.indentLine, ListItem.offset, ListItem.shift, ListItem.continuation,
    ListItem.indent, Text.spaces_append]
  cases nested
  all_goals simp [Text.spaces]

theorem offset_eq {level : Nat} (h : item.level = level) (nested : Bool) :
    item.offset marker nested =
      if nested then marker.length - 1 else 2 * level + marker.length + 1 := by
  rw [ListItem.offset, ListItem.shift, ListItem.continuation, ListItem.indent, h,
    Text.spaces_append]
  simp only [Text.spaces, List.length_replicate]
  split <;> omega

theorem layOut_started (index : Nat) (ls : List Text) :
    item.layOut marker true index ls =
      (mapLines (item.place marker) (markFrom item.nested index ls)).map Prod.snd := by
  induction ls generalizing index with
  | nil => rfl
  | cons l ls ih =>
    have rest := ih (index + 1)
    simp only [mapLines] at rest
    simp only [ListItem.layOut, markFrom, mapLines, List.map_cons, ListItem.place, rest]
    split
    · rfl
    · simp only [↓reduceIte, List.nil_append]
      split <;> rfl

theorem layOut_first {line : Text} (shown : Text.isBlank line = false) (index : Nat)
    (ls : List Text) :
    item.layOut marker false index (line :: ls) =
      (if item.nested.contains index then [item.indent ++ marker, item.shift marker ++ line]
        else [item.indent ++ marker ++ ' ' :: Text.strip line]) ++
        item.layOut marker true (index + 1) ls := by
  rw [ListItem.layOut, shown]
  simp only [Bool.false_eq_true, ↓reduceIte]
  split <;> rfl

/-- Lines are laid out as those behind a part that is laid out already. -/
theorem layOut_append (started : Bool) (index : Nat) (ls ms : List Text) :
    item.layOut marker started index (ls ++ ms) = item.layOut marker started index ls ++
      item.layOut marker (started || ls.any fun l => !Text.isBlank l) (index + ls.length) ms := by
  induction ls generalizing started index with
  | nil => simp [ListItem.layOut]
  | cons l ls ih =>
    have next : index + (l :: ls).length = index + 1 + ls.length := by
      rw [List.length_cons]
      omega
    rw [List.cons_append, ListItem.layOut, ListItem.layOut, List.any_cons, next]
    cases blank : Text.isBlank l with
    | true =>
      cases started with
      | true =>
        simp only [↓reduceIte, ih]
        simp
      | false =>
        simp only [↓reduceIte, ih]
        simp
    | false =>
      simp only [Bool.false_eq_true, ↓reduceIte, ih]
      simp

/-- What the lines of an item are made of. -/
theorem mem_layOut {started : Bool} {index : Nat} {ls : List Text} {l : Text}
    (h : l ∈ item.layOut marker started index ls) :
    l = [] ∨ l = item.indent ++ marker ∨ ∃ k ∈ ls, l = item.shift marker ++ k ∨
      l = item.continuation marker ++ k ∨ l = item.indent ++ marker ++ ' ' :: Text.strip k := by
  induction ls generalizing started index with
  | nil => cases h
  | cons k ks ih =>
    have below {started : Bool} (h : l ∈ item.layOut marker started (index + 1) ks) :
        l = [] ∨ l = item.indent ++ marker ∨ ∃ m ∈ k :: ks, l = item.shift marker ++ m ∨
          l = item.continuation marker ++ m ∨ l = item.indent ++ marker ++ ' ' :: Text.strip m :=
      (ih h).imp_right (Or.imp_right fun ⟨m, hm, line⟩ => ⟨m, List.mem_cons_of_mem k hm, line⟩)
    rw [ListItem.layOut] at h
    split at h
    · split at h
      · rcases List.mem_cons.mp h with rfl | h
        · exact Or.inl rfl
        · exact below h
      · exact below h
    · rcases List.mem_append.mp h with here | h
      · split at here
        · rcases List.mem_append.mp here with alone | nested
          · split at alone
            · cases alone
            · exact Or.inr (Or.inl (List.mem_singleton.mp alone))
          · exact Or.inr (Or.inr ⟨k, List.mem_cons_self, Or.inl (List.mem_singleton.mp nested)⟩)
        · refine Or.inr (Or.inr ⟨k, List.mem_cons_self, Or.inr ?_⟩)
          split at here
          · exact Or.inl (List.mem_singleton.mp here)
          · exact Or.inr (List.mem_singleton.mp here)
      · exact below h

theorem newline_not_mem_layOut (line : '\n' ∉ marker) {ls : List Text} (cut : ∀ l ∈ ls, '\n' ∉ l)
    {started : Bool} {index : Nat} {l : Text} (h : l ∈ item.layOut marker started index ls) :
    '\n' ∉ l := by
  have indent : '\n' ∉ item.indent := Text.newline_not_mem_spaces _
  have shift : '\n' ∉ item.shift marker := Text.newline_not_mem_spaces _
  have continuation : '\n' ∉ item.continuation marker := by
    simp [ListItem.continuation, indent, Text.newline_not_mem_spaces]
  rcases mem_layOut item marker h with rfl | rfl | ⟨k, hk, rfl | rfl | rfl⟩
  · simp
  · simp [indent, line]
  · simp [shift, cut k hk]
  · simp [continuation, cut k hk]
  · have stripped : '\n' ∉ Text.strip k := fun hn => cut k hk (Text.mem_of_mem_strip hn)
    simp [indent, line, stripped]

theorem strip_place (nested : Bool) (line : Text) :
    Text.strip (item.place marker nested line) = Text.strip line := by
  rw [ListItem.place]
  split
  · rename_i blank
    rw [Text.strip_eq_nil_iff.mpr blank]
    rfl
  · split
    · exact Text.strip_spaces_append _ line
    · rw [ListItem.continuation, ListItem.indent, Text.spaces_append, Text.strip_spaces_append]

theorem isBlank_place (nested : Bool) (line : Text) :
    Text.isBlank (item.place marker nested line) = Text.isBlank line := by
  rw [Bool.eq_iff_iff, ← Text.strip_eq_nil_iff, strip_place, Text.strip_eq_nil_iff]

/-- The lines of the content, none where it is empty. -/
def ListItem.body : MarkedLines :=
  if item.text.isEmpty then [] else markFrom item.nested 0 (Text.lines item.text)

/-- The lines of the content from the first one that is not blank. -/
def ListItem.shown : MarkedLines :=
  (markFrom item.nested 0 (Text.lines item.text)).dropWhile fun x => Text.isBlank x.2

theorem layOut_shown {line : Text} (shown : Text.isBlank line = false) (index : Nat)
    (ls : List Text) :
    item.layOut marker false index (line :: ls) = itemLines (2 * item.level).toNat marker
      (mapLines (item.place marker) (markFrom item.nested index (line :: ls))) := by
  rw [layOut_first item marker shown, layOut_started, markFrom]
  cases nested : item.nested.contains index with
  | true =>
    have placed : item.place marker true line = item.shift marker ++ line := by
      simp [ListItem.place, shown]
    simp [itemLines, mapLines, besideMarker, belowMarker, placed, ListItem.indent]
  | false =>
    simp [itemLines, mapLines, besideMarker, belowMarker, strip_place, ListItem.indent]

/-- Blank lines in front are passed over. -/
theorem layOut_eq (index : Nat) (ls : List Text) :
    item.layOut marker false index ls =
      match (markFrom item.nested index ls).dropWhile fun x => Text.isBlank x.2 with
      | [] => []
      | x :: body => itemLines (2 * item.level).toNat marker
          (mapLines (item.place marker) (x :: body)) := by
  induction ls generalizing index with
  | nil => rfl
  | cons l ls ih =>
    cases blank : Text.isBlank l with
    | true =>
      rw [ListItem.layOut, if_pos blank, if_neg Bool.false_ne_true, ih, markFrom,
        List.dropWhile_cons_of_pos (by exact blank)]
    | false =>
      rw [layOut_shown item marker blank, markFrom,
        List.dropWhile_cons_of_neg (by simp [blank])]

/-- The lines of an item, without blank lines at the end. -/
def ListItem.written : List Text :=
  (itemLines (2 * item.level).toNat marker (mapLines (item.place marker) item.shown)).rdropWhile
    List.isEmpty

theorem render_eq (filled : marker ≠ []) :
    item.render marker = Text.unlines (item.written marker) := by
  rw [ListItem.render, layOut_eq, ListItem.written, ListItem.shown]
  cases content : (markFrom item.nested 0 (Text.lines item.text)).dropWhile
      fun x => Text.isBlank x.2 with
  | nil =>
    have first : (item.indent ++ marker).isEmpty = false := by simp [filled]
    have alone : itemLines (2 * item.level).toNat marker (mapLines (item.place marker) []) =
        [item.indent ++ marker] := by
      simp [itemLines, mapLines, besideMarker, belowMarker, ListItem.indent]
    rw [alone, List.rdropWhile_singleton, first]
    rfl
  | cons x body => rfl

/-- The first line of an item is that of its marker. -/
theorem written_eq (filled : marker ≠ []) :
    item.written marker =
      (Text.spaces (2 * item.level).toNat ++ marker ++ besideMarker item.shown) ::
        (belowMarker (mapLines (item.place marker) item.shown)).rdropWhile List.isEmpty := by
  have first : (Text.spaces (2 * item.level).toNat ++ marker ++
      besideMarker item.shown).isEmpty = false := by simp [filled]
  rw [ListItem.written, itemLines, besideMarker_mapLines (strip_place item marker),
    List.rdropWhile, List.reverse_cons, List.dropWhile_append, List.rdropWhile]
  split
  · rename_i none
    rw [List.isEmpty_iff.mp none,
      List.dropWhile_cons_of_neg (by rw [first]; exact Bool.false_ne_true)]
    rfl
  · rw [List.reverse_append]
    rfl

theorem mem_written {l : Text} (filled : marker ≠ []) (h : l ∈ item.written marker) :
    l = Text.spaces (2 * item.level).toNat ++ marker ++ besideMarker item.shown ∨
      ∃ x ∈ item.shown, l = item.place marker x.1 x.2 := by
  rw [written_eq item marker filled] at h
  refine (List.mem_cons.mp h).imp_right fun below => ?_
  obtain ⟨nested, hx⟩ := mem_belowMarker ((List.rdropWhile_prefix _ _).subset below)
  obtain ⟨⟨mark, line⟩, hm, he⟩ := List.mem_map.mp hx
  obtain ⟨rfl, rfl⟩ := Prod.mk.inj he
  exact ⟨_, hm, rfl⟩

/-- An item ends with a line that is not blank. -/
theorem framed_written (shown : Text.isBlank marker = false) :
    Framed (item.written marker) := by
  have first : Text.isBlank (Text.spaces (2 * item.level).toNat ++ marker ++
      besideMarker item.shown) = false := by
    rw [List.append_assoc, Text.isBlank_spaces_append, Text.isBlank_append, shown, Bool.false_and]
  have filled : marker ≠ [] := Text.ne_nil_of_not_isBlank shown
  refine ⟨fun l hl => ?_, fun l hl => ?_⟩
  · rw [written_eq item marker filled] at hl
    cases hl
    exact first
  · rcases mem_written item marker filled (List.mem_of_getLast? hl) with rfl | ⟨x, -, rfl⟩
    · exact first
    · rw [isBlank_place, Bool.eq_false_iff]
      intro blank
      have empty : item.place marker x.1 x.2 = [] := by rw [ListItem.place, if_pos blank]
      have ne : item.written marker ≠ [] := by simp [written_eq item marker filled]
      rw [List.getLast?_eq_some_getLast ne, Option.some_inj, empty] at hl
      exact List.rdropWhile_last_not _ _ ne (List.isEmpty_iff.mpr hl)

theorem newline_not_mem_written (filled : marker ≠ []) (line : '\n' ∉ marker)
    {l : Text} (h : l ∈ item.written marker) : '\n' ∉ l := by
  have content : ∀ x ∈ item.shown, '\n' ∉ x.2 := by
    intro x hx
    have mem : x.2 ∈ (markFrom item.nested 0 (Text.lines item.text)).map Prod.snd :=
      List.mem_map_of_mem ((List.dropWhile_sublist _).subset hx)
    rw [map_snd_markFrom] at mem
    exact Text.newline_not_mem_of_mem_lines mem
  rcases mem_written item marker filled h with rfl | ⟨x, hx, rfl⟩
  · have beside : '\n' ∉ besideMarker item.shown := by
      match hs : item.shown with
      | [] => simp [besideMarker]
      | (true, _) :: _ => simp [besideMarker]
      | (false, m) :: _ =>
        have := content (false, m) (by simp [hs])
        simpa [besideMarker] using fun hm => this (Text.mem_of_mem_strip hm)
    simp [Text.newline_not_mem_spaces, line, beside]
  · rw [ListItem.place]
    split
    · simp
    · split
      all_goals simp [ListItem.shift, ListItem.continuation, ListItem.indent,
        Text.newline_not_mem_spaces, content x hx]

/-- An item whose content neither begins nor ends with a blank line keeps all its lines. -/
theorem render_of_framed (shown : Text.isBlank marker = false)
    (framed : Framed (item.body.map Prod.snd)) :
    item.render marker = Text.unlines (itemLines (2 * item.level).toNat marker
      (mapLines (item.place marker) item.body)) := by
  have whole : item.shown = item.body := by
    rw [ListItem.shown, ListItem.body]
    split
    · rename_i empty
      rw [List.isEmpty_iff.mp empty]
      rfl
    · rename_i filled
      rw [ListItem.body, if_neg filled, map_snd_markFrom] at framed
      obtain ⟨line, rest, cut⟩ := List.exists_cons_of_ne_nil (Text.lines_ne_nil item.text)
      have first := framed.first line (by rw [cut]; rfl)
      rw [cut, markFrom, List.dropWhile_cons_of_neg (by simp [first])]
  have placed : Framed ((mapLines (item.place marker) item.body).map Prod.snd) := by
    rw [mapLines, List.map_map]
    exact framed.map_of_map fun a => isBlank_place item marker a.1 a.2
  have last := (framed_itemLines shown (2 * item.level).toNat placed).last
  rw [render_eq item marker (Text.ne_nil_of_not_isBlank shown), ListItem.written, whole, List.rdropWhile_eq_self_iff.mpr]
  intro ne
  simpa using Text.ne_nil_of_not_isBlank (last _ (List.getLast?_eq_some_getLast ne))

end ListItem

end Docmark.Markdown
