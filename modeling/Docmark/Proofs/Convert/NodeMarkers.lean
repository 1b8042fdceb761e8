import Docmark.Convert.Document
import Docmark.Proofs.Convert.Conversion
import Docmark.Proofs.Convert.ItemContent
import Docmark.Proofs.Convert.ShownMarkers

/-!
What one node makes of the markers of a list inside it: a list and an item move them to the right by
what stands in front of them, and a container by the columns that it puts before its content.
-/

namespace Docmark

open Markdown Text Conversion

/-- The columns that a container puts in front of its content. -/
def Node.inset? (n : Node) : Option Nat :=
  match n.kind with
  | .blockquote => some 2
  | .panel | .expand | .nestedExpand => some Admonition.bodyIndent
  | _ => if n.isAnnotatedBlock then some 0 else none

/-- The level of lists inside a container at a level: all but annotated blocks start again. -/
def Node.innerLevel (n : Node) (level : Nat) : Nat :=
  if n.isAnnotatedBlock then level else 0

theorem Node.inset?_cases {n : Node} {offset : Nat} (h : n.inset? = some offset) :
    (n.kind = .blockquote ∧ offset = 2) ∨
      ((n.kind = .panel ∨ n.kind = .expand ∨ n.kind = .nestedExpand) ∧
        offset = Admonition.bodyIndent) ∨
      (n.isAnnotatedBlock = true ∧ offset = 0) := by
  rw [inset?] at h
  split at h
  all_goals rename_i kind
  · exact Or.inl ⟨kind, (Option.some.inj h).symm⟩
  · exact Or.inr (Or.inl ⟨Or.inl kind, (Option.some.inj h).symm⟩)
  · exact Or.inr (Or.inl ⟨Or.inr (Or.inl kind), (Option.some.inj h).symm⟩)
  · exact Or.inr (Or.inl ⟨Or.inr (Or.inr kind), (Option.some.inj h).symm⟩)
  · split at h
    · rename_i block
      exact Or.inr (Or.inr ⟨block, (Option.some.inj h).symm⟩)
    · cases h

theorem Node.isList_of_inset? {n : Node} {offset : Nat} (h : n.inset? = some offset) :
    n.kind.isList = false := by
  rcases n.inset?_cases h with ⟨kind, -⟩ | ⟨kind | kind | kind, -⟩ | ⟨block, -⟩
  case inr.inr => rw [kind_of_isAnnotatedBlock block]; rfl
  all_goals
    rw [kind]
    rfl

/-- The lines of the markers of a list as it is converted at a level, before a node takes them. -/
def IsOwn (l : Node) (level : Nat) (g : Fragment) (own : List Text) : Prop :=
  own.Sublist (lines g.markdown) ∧
    ∃ ms, HasMarkers l false ms ∧ List.Forall₂ (StandsAt (2 * level)) ms own

/-- A fragment that shows the markers of a list, whichever of its own markers it is given. -/
def Fragment.Shows (f : Fragment) (l : Node) (own : List Text) (column : Nat) : Prop :=
  ∀ switched, ShowsMarkers l own column (lines (f.block.written switched))

theorem Fragment.shows_of_plain {f : Fragment} {l : Node} {own : List Text} {column : Nat}
    (fact : f.fact.listKind? = none) (h : ShowsMarkers l own column (lines f.markdown)) :
    f.Shows l own column := by
  intro switched
  rw [Block.written_of_plain fact]
  exact h.trimNewlines

theorem HasMarkers.isListMarker {n : Node} {ms : List Text} (h : HasMarkers n false ms) {m : Text}
    (hm : m ∈ ms) : IsListMarker m := by
  cases h with
  | bullet =>
    obtain ⟨-, -, rfl⟩ := List.mem_map.mp hm
    exact Or.inl rfl
  | ordered =>
    obtain ⟨number, -, rfl⟩ := List.mem_map.mp hm
    exact Or.inr ⟨number, rfl⟩

section conversion

variable {ctx : Context} {level : Nat} {n : Node} {f : Fragment}

/-- The lines of a list with its markers as they are or switched. -/
theorem IsConversion.lines_list (h : IsConversion ctx level n f) (list : n.kind.isList = true) :
    ∃ fs ms, List.Forall₂ (IsConversion ctx level) n.children fs ∧ HasMarkers n false ms ∧
      ms.length = fs.length ∧ ∃ kind, listKindOf n.kind = some kind ∧
        (listLines level ms fs ≠ [] → lines f.markdown = listLines level ms fs ∧
          lines (f.block.written false) = listLines level ms fs ∧
          lines (f.block.written true) =
            (listLines level ms fs).map (switchLine (2 * level) kind)) := by
  obtain ⟨fs, ms, children, markers, length, markdown, fact⟩ := h.list list
  obtain ⟨kind, made⟩ : ∃ kind, listKindOf n.kind = some kind := by
    rcases kind_of_isList list with hk | hk
    all_goals
      rw [hk]
      exact ⟨_, rfl⟩
  refine ⟨fs, ms, children, markers, length, kind, made, fun ne => ?_⟩
  have width : (2 * (level : Int)).toNat = 2 * level := by omega
  have whole := lines_unlines_listLines markers _ fs ne
  refine ⟨by rw [markdown, whole], ?_, ?_⟩
  · rw [Block.written_false, Fragment.block, markdown, trimNewlines_listLines markers, whole]
  · rw [Block.written_of_list (fact.trans made), if_pos rfl, Fragment.block, markdown,
      trimNewlines_listLines markers, switchMarkers_listLines markers _ _ ne, width,
      lines_unlines (by simpa using ne)]
    intro line hl
    obtain ⟨k, hk, rfl⟩ := List.mem_map.mp hl
    have cut := newline_not_mem_listLines markers _ _ hk
    rw [switchLine]
    split
    · exact newline_not_mem_switchMarker kind cut
    · exact cut

/-- The line of the marker of an item. -/
def markerLine (level : Nat) (x : Text × Fragment) : Text :=
  spaces (2 * level) ++ x.1 ++ besideMarker (Convert.itemOf level x.2).shown

theorem edited_switchLine (column : Nat) (kind : ListKind) (line : Text) :
    Edited line (switchLine column kind line) := by
  rw [switchLine]
  split
  · exact .switch (.refl line) kind
  · exact .refl line

/-- A list shows its own markers at the column of its level. -/
theorem IsConversion.shows_own (h : IsConversion ctx level n f) (list : n.kind.isList = true) :
    ∃ own, IsOwn n level f own ∧ f.Shows n own (2 * level) := by
  obtain ⟨fs, ms, children, markers, length, kind, made, written⟩ := h.lines_list list
  have mem {x : Text × Fragment} (hx : x ∈ ms.zip fs) : x.1 ∈ ms := (List.of_mem_zip hx).1
  have inside : ((ms.zip fs).map (markerLine level)).Sublist (listLines level ms fs) := by
    rw [List.map_eq_flatMap]
    refine List.Sublist.flatMap_right _ fun x hx => List.singleton_sublist.mpr ?_
    have width : (2 * (level : Int)).toNat = 2 * level := by omega
    rw [written_eq _ _ (markers.filled (mem hx)), Convert.level_itemOf, width]
    exact List.mem_cons_self
  have firsts : (ms.zip fs).map Prod.fst = ms := List.map_fst_zip length.le
  have stands : List.Forall₂ (StandsAt (2 * level)) ms ((ms.zip fs).map (markerLine level)) := by
    nth_rewrite 1 [← firsts]
    rw [List.forall₂_map_left_iff, List.forall₂_map_right_iff, List.forall₂_same]
    exact fun x hx => .intro (List.length_replicate ..) (isFront_spaces _)
      (markers.isMarker (mem hx)) (isMarkerEnd_besideMarker _)
  by_cases none : listLines level ms fs = []
  · rw [none, List.sublist_nil] at inside
    rw [inside] at stands
    exact ⟨[], ⟨List.nil_sublist _, ms, markers, stands⟩,
      fun _ => ⟨false, ms, [], markers, List.nil_sublist _, .nil, stands⟩⟩
  · obtain ⟨plain, unswitched, switched⟩ := written none
    refine ⟨_, ⟨by rw [plain]; exact inside, ms, markers, stands⟩, fun form => ?_⟩
    cases form with
    | false =>
      rw [unswitched]
      exact ⟨false, ms, _, markers, inside, List.forall₂_same.mpr fun _ _ => .refl _, stands⟩
    | true =>
      rw [switched]
      refine ⟨true, ms.map otherMarker, _, markers.other, inside.map _, ?_, ?_⟩
      · rw [List.forall₂_map_right_iff, List.forall₂_same]
        exact fun line _ => edited_switchLine _ _ line
      · nth_rewrite 1 [← firsts]
        rw [List.map_map, List.map_map, List.forall₂_map_left_iff, List.forall₂_map_right_iff,
          List.forall₂_same]
        intro x hx
        have other := markers.other.isMarker (List.mem_map_of_mem (f := otherMarker) (mem hx))
        rw [Function.comp_apply, Function.comp_apply, markerLine, markers.switchLine (mem hx) made]
        exact .intro (List.length_replicate ..) (isFront_spaces _) other
          (isMarkerEnd_besideMarker _)

/-- A list shows what its items show to the right of its own markers. -/
theorem IsConversion.shows_of_item (h : IsConversion ctx level n f) {m : Text} {ms : List Text}
    (markers : HasMarkers n false ms) {i : Node} (place : (i, m) ∈ n.children.zip ms) :
    ∃ g, IsConversion ctx level i g ∧ ∀ l own column, 2 * level < column →
      ShowsMarkers l own column ((Convert.itemOf level g).written m) → f.Shows l own column := by
  have list : n.kind.isList = true := by
    cases markers with
    | bullet kind => rw [kind]; rfl
    | ordered kind => rw [kind]; rfl
  obtain ⟨fs, ms', children, markers', length, kind, made, written⟩ := h.lines_list list
  obtain rfl := markers.unique markers'
  obtain ⟨j, hj, he⟩ := List.mem_iff_getElem.mp place
  rw [List.length_zip] at hj
  have hf : j < fs.length := by omega
  obtain ⟨rfl, rfl⟩ := Prod.mk.inj (List.getElem_zip.symm.trans he)
  refine ⟨fs[j], (List.forall₂_iff_get.mp children).2 j (by omega) hf, ?_⟩
  intro l own column lt shows
  have mem : (ms[j], fs[j]) ∈ ms.zip fs := by
    refine List.mem_iff_getElem.mpr ⟨j, by rw [List.length_zip]; omega, ?_⟩
    exact List.getElem_zip
  have part : ((Convert.itemOf level fs[j]).written ms[j]).Sublist (listLines level ms fs) := by
    have one := (List.singleton_sublist.mpr mem).flatMap
      fun x => (Convert.itemOf level x.2).written x.1
    rwa [List.flatMap_singleton] at one
  have whole := shows.mono part
  have ne : listLines level ms fs ≠ [] := by
    intro none
    have := part.length_le
    rw [none, written_eq _ _ (markers.filled (List.getElem_mem _))] at this
    simp at this
  obtain ⟨-, unswitched, switched⟩ := written ne
  intro form
  cases form with
  | false =>
    rw [unswitched]
    exact whole
  | true =>
    rw [switched]
    exact whole.map (fun _ _ stand => stand.switchLine lt kind) fun k line edit => by
      rw [switchLine]
      split
      · exact edit.switch kind
      · exact edit

/-- A fragment that begins without white space in both of its forms. -/
def Fragment.BeginsShown (f : Fragment) : Prop :=
  ∀ switched c, (f.block.written switched).head? = some c → isBlankChar c = false

theorem exists_lines_of_head {t : Text} (ne : t ≠ [])
    (first : ∀ c, t.head? = some c → isBlankChar c = false) :
    ∃ c r rest, lines t = (c :: r) :: rest ∧ isBlankChar c = false := by
  obtain ⟨c, r, rfl⟩ := List.exists_cons_of_ne_nil ne
  have shown := first c rfl
  have other : c ≠ '\n' := fun feed => by
    rw [isBlankChar_of_eq_newline feed] at shown
    cases shown
  obtain ⟨m, ms, cut⟩ := List.exists_cons_of_ne_nil (lines_ne_nil r)
  exact ⟨c, m, ms, by rw [lines, if_neg other, cut]; rfl, shown⟩

/-- The content of an item has the lines of each child that is not blank. -/
theorem IsConversion.exists_body_of_child (h : IsConversion ctx level n f)
    (kind : n.kind = .listItem) {c : Node} (child : c ∈ n.children) :
    ∃ (g : Fragment) (item : Convert.ItemText), IsConversion ctx (level + 1 : Nat) c g ∧
      f = ⟨item.text, .listItem item.nested⟩ ∧
      (isBlank g.markdown = false → ∃ switched above below,
        item.body = above ++ (lines (g.block.written switched)).map (c.kind.isList, ·) ++ below) := by
  obtain ⟨fs, item, children, rfl, added⟩ := h.item kind
  obtain ⟨before, after, split⟩ := List.append_of_mem child
  rw [split] at children
  obtain ⟨gs, rest, rfl, front, behind⟩ := forall₂_append_left children
  obtain ⟨g, hs, converted, -, rfl⟩ := List.forall₂_cons_left_iff.mp behind
  refine ⟨g, item, converted, rfl, fun filled => ?_⟩
  have shown : ∀ b ∈ Convert.keptBlocks (none, false) n.children (gs ++ g :: hs), b.2 ≠ [] :=
    fun b hb => ne_nil_of_not_isBlank (Convert.isBlank_of_mem_keptBlocks hb)
  obtain ⟨as, last, blocks⟩ := Convert.exists_keptBlocks_append front.length_eq.symm (c :: after)
    (g :: hs) (none, false)
  rw [← split, Convert.keptBlocks_of_shown filled] at blocks
  rw [blocks] at added shown
  obtain ⟨above, below, body⟩ := Convert.ItemText.exists_body shown added
  exact ⟨_, above, below, body⟩

/-- An item shows what its children show. -/
theorem IsConversion.shows_of_child (h : IsConversion ctx level n f) (kind : n.kind = .listItem)
    {c : Node} (child : c ∈ n.children) {marker : Text} (mark : IsMarker marker)
    (form : IsListMarker marker) :
    ∃ g, IsConversion ctx (level + 1 : Nat) c g ∧ ∀ l own column, g.Shows l own column →
      (c.kind.isList = false → g.BeginsShown) →
      ShowsMarkers l own (column + (Convert.itemOf level f).offset marker c.kind.isList)
        ((Convert.itemOf level f).written marker) := by
  obtain ⟨g, item, converted, rfl, content⟩ := h.exists_body_of_child kind child
  refine ⟨g, converted, fun l own column shows begins => ?_⟩
  cases blank : isBlank g.markdown with
  | true => exact (shows false).of_isBlank (by rw [Block.isBlank_written]; exact blank) _ _
  | false =>
    obtain ⟨switched, above, below, body⟩ := content blank
    have filled : item.text ≠ [] := by
      intro none
      rw [Convert.ItemText.body_eq_nil_iff.mpr none] at body
      simp [List.append_eq_nil_iff, lines_ne_nil] at body
    have written : g.block.written switched ≠ [] :=
      ne_nil_of_not_isBlank (by rw [Block.isBlank_written]; exact blank)
    rw [Convert.ItemText.body_of_ne_nil filled] at body
    have whole : (Convert.itemOf level ⟨item.text, .listItem item.nested⟩).shown =
        (above ++ (lines (g.block.written switched)).map (c.kind.isList, ·) ++
          below).dropWhile fun x => isBlank x.2 := by
      rw [← body]
      rfl
    exact (shows switched).written mark form whole
      fun text => exists_lines_of_head written (begins text _)

/-- A list shows what a child of one of its items shows, where the item moves it to. -/
theorem IsConversion.shows_below (h : IsConversion ctx level n f) {m : Text} {ms : List Text}
    (markers : HasMarkers n false ms) {i c : Node} (place : (i, m) ∈ n.children.zip ms)
    (item : i.kind = .listItem) (child : c ∈ i.children) :
    ∃ g, IsConversion ctx (level + 1 : Nat) c g ∧ ∀ l own column, g.Shows l own column →
      (c.kind.isList = false → g.BeginsShown) → ∀ column',
      column' = column + (if c.kind.isList then m.length - 1 else 2 * level + m.length + 1) →
      2 * level < column' → f.Shows l own column' := by
  have mem : m ∈ ms := (List.of_mem_zip place).2
  obtain ⟨gi, converted, ofItem⟩ := h.shows_of_item markers place
  obtain ⟨g, converted, ofChild⟩ :=
    converted.shows_of_child item child (markers.isMarker mem) (markers.isListMarker mem)
  refine ⟨g, converted, fun l own column shows begins column' same right => ?_⟩
  have shown := ofChild l own column shows begins
  rw [offset_eq _ m (Convert.level_itemOf level gi), ← same] at shown
  exact ofItem l own column' right shown

theorem head?_joinWith {sep t : Text} (ne : t ≠ []) (ts : List Text) :
    (joinWith sep (t :: ts)).head? = t.head? := by
  obtain ⟨c, r, rfl⟩ := List.exists_cons_of_ne_nil ne
  cases ts with
  | nil => rfl
  | cons u us => rfl

theorem Fragment.beginsShown_of_plain (fact : f.fact.listKind? = none)
    (first : ∀ c, f.markdown.head? = some c → isBlankChar c = false) : f.BeginsShown := by
  intro switched c hc
  rw [Block.written_of_plain fact, Fragment.block] at hc
  have whole : f.markdown.dropWhile (· == '\n') = f.markdown := by
    refine dropWhile_of_not_head? fun d hd => ?_
    rw [beq_eq_false_iff_ne]
    intro feed
    have shown := first d hd
    rw [isBlankChar_of_eq_newline feed] at shown
    cases shown
  obtain ⟨b, split, -⟩ := exists_dropEndWhile (· == '\n') f.markdown
  rw [trimNewlines, dropAround, whole] at hc
  refine first c ?_
  rw [split, List.head?_append, hc]
  rfl

theorem childLevel_of_inset? {offset : Nat} (inset : n.inset? = some offset) (level : Nat) :
    n.kind.childLevel (level : Int) = (n.innerLevel level : Nat) := by
  rcases n.inset?_cases inset with ⟨kind, -⟩ | ⟨kind | kind | kind, -⟩ | ⟨block, -⟩
  case inr.inr =>
    rw [Node.innerLevel, block, Node.kind_of_isAnnotatedBlock block]
    rfl
  all_goals
    have other : n.isAnnotatedBlock = false := by simp [Node.isAnnotatedBlock, kind]
    rw [Node.innerLevel, other, kind]
    rfl

theorem isBlankChar_of_head? {t : Text} {a : Char} (ht : t.head? = some a)
    (shown : isBlankChar a = false) : ∀ c, t.head? = some c → isBlankChar c = false := by
  intro c hc
  obtain rfl := Option.some.inj (ht.symm.trans hc)
  exact shown

theorem Fragment.beginsShown_empty : Fragment.empty.BeginsShown :=
  beginsShown_of_plain rfl fun _ hc => by cases hc

theorem head?_quoteLines (t : Text) :
    (unlines ((lines t).map Convert.quoteLine)).head? = some '>' := by
  obtain ⟨line, rest, cut⟩ := List.exists_cons_of_ne_nil (lines_ne_nil t)
  have sign : (Convert.quoteLine line).head? = some '>' := by
    rw [Convert.quoteLine]
    split <;> rfl
  have filled : Convert.quoteLine line ≠ [] := by
    intro none
    rw [none] at sign
    cases sign
  rw [cut, List.map_cons, unlines, head?_joinWith filled, sign]

theorem head?_admonition (name body : Text) (title : Option Text) :
    ( Admonition.render name body title).head? = some '!' := by
  unfold Admonition.render
  dsimp only
  split <;> rfl

theorem Convert.blockFragment_cases (emitting : Bool) (parts definitions : List Text) :
    blockFragment emitting parts definitions = .empty ∨
      ∃ t, blockFragment emitting parts definitions = ⟨t, .annotatedBlock⟩ ∧
        t.head? = some '\x7b' := by
  rw [blockFragment]
  split
  · exact Or.inl rfl
  · refine Or.inr ⟨_, rfl, ?_⟩
    rw [blockMarkdown, Text.joinBlocks, List.cons_append,
      head?_joinWith (t := Annotation.sentinel) (by decide)]
    rfl

/-- A fragment of a container: it begins with a sign of its own and keeps what the children show. -/
structure Fragment.Contains (f : Fragment) (fs : List Fragment) (offset : Nat) : Prop where
  plain : f.fact.listKind? = none
  begins : f.BeginsShown
  shows : ∀ {l own column g}, g ∈ fs → g.Shows l own column →
    ShowsMarkers l own (column + offset) (lines f.markdown)

theorem contains_quote {n : Node} {fs : List Fragment} {s s' : Session}
    (run : Convert.blockquote ctx n fs level s = .ok (f, s')) : f.Contains fs 2 := by
  obtain ⟨rfl, -⟩ := pure_ok.mp run
  split
  · rename_i empty
    exact ⟨rfl, Fragment.beginsShown_empty, fun hg shows =>
      (ShowsMarkers.joinedBlocks shows hg).of_empty (List.isEmpty_iff.mp empty) _ _⟩
  · exact ⟨rfl, Fragment.beginsShown_of_plain rfl
      (isBlankChar_of_head? (head?_quoteLines _) (by decide)),
      fun hg shows => (ShowsMarkers.joinedBlocks shows hg).quote⟩

theorem contains_admonition (name : Text) (title : Option Text) (fs : List Fragment) :
    Fragment.Contains ⟨ Admonition.render name (Fragment.joinedBlocks fs) title, .plain⟩ fs
      Admonition.bodyIndent :=
  ⟨rfl, Fragment.beginsShown_of_plain rfl
    (isBlankChar_of_head? (head?_admonition _ _ _) (by decide)),
    fun hg shows => (ShowsMarkers.joinedBlocks shows hg).admonition _ _⟩

theorem contains_block {s s' : Session} (sound : s.annotations.Sound) {fs : List Fragment}
    (run : Convert.annotationBlock ctx n fs level s = .ok (f, s')) : f.Contains fs 0 := by
  rw [Convert.annotationBlock_run sound] at run
  obtain ⟨rfl, -⟩ := Prod.mk.inj (Except.ok.inj run)
  refine ⟨?_, ?_, fun hg shows => (ShowsMarkers.childBlocks shows hg _ _).blockFragment _ _⟩
  · rcases Convert.blockFragment_cases _ _ _ with none | ⟨t, some, -⟩
    · rw [none]
      rfl
    · rw [some]
      rfl
  · rcases Convert.blockFragment_cases _ _ _ with none | ⟨t, some, sign⟩
    · rw [none]
      exact Fragment.beginsShown_empty
    · rw [some]
      exact Fragment.beginsShown_of_plain rfl (isBlankChar_of_head? sign (by decide))

/-- What a container is converted to. -/
theorem IsConversion.container (h : IsConversion ctx level n f) {offset : Nat}
    (inset : n.inset? = some offset) :
    ∃ fs, List.Forall₂ (IsConversion ctx (n.innerLevel level)) n.children fs ∧
      f.Contains fs offset := by
  rw [← childLevel_of_inset? inset level]
  rcases n.inset?_cases inset with ⟨kind, rfl⟩ | ⟨kind, rfl⟩ | ⟨block, rfl⟩
  · have found : (Registry.standard.settle.get n.kind).1 = some Convert.blockquote := by
      rw [kind]
      rfl
    obtain ⟨fs, s, s', children, -, made⟩ := h.children found
    exact ⟨fs, children, contains_quote made⟩
  · rcases kind with kind | kind | kind
    all_goals
      obtain ⟨fs, s, s', children, -, made⟩ := h.children (by rw [kind]; rfl)
      obtain ⟨rfl, -⟩ := pure_ok.mp made
      exact ⟨fs, children, contains_admonition _ _ fs⟩
  · have found : (Registry.standard.settle.get n.kind).1 = some Convert.annotation := by
      rw [Node.kind_of_isAnnotatedBlock block]
      exact standard_annotation
    obtain ⟨fs, s, s', children, reached, made⟩ := h.children found
    rw [Convert.annotation_of_block ctx fs level block] at made
    exact ⟨fs, children, contains_block reached.sound made⟩

end conversion

end Docmark
