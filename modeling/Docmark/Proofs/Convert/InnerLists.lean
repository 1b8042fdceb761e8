import Docmark.Proofs.Convert.Document
import Docmark.Proofs.Convert.NodeMarkers
import Docmark.Proofs.Markdown.Collapse

/-!
Lists in containers in list items: the column at which the markers of the inner list come to stand.
Quotes, panels and sections that expand start the levels of lists again, so that the list stands at
the column of their content. An annotated block does not: below it a list is indented for the level
of the item once more.
-/

namespace Docmark

open Markdown Text Conversion

/--
A list inside a node at a level: the level of the list, and by how many columns it is moved to the
right beside what its level asks for.
-/
inductive Within : Nat → Node → Nat → Node → Nat → Prop
  | self {level : Nat} {l : Node} (list : l.kind.isList = true) : Within level l level l 0
  | block {level level' k : Nat} {n c l : Node} (kind : n.kind = .doc ∨ n.kind = .mediaSingle)
      (child : c ∈ n.children) (rest : Within level c level' l k) : Within level n level' l k
  | container {level level' k offset : Nat} {n c l : Node} (inset : n.inset? = some offset)
      (child : c ∈ n.children) (rest : Within (n.innerLevel level) c level' l k) :
    Within level n level' l (k + offset)
  | list {level level' k : Nat} {n i c l : Node} {m : Text} {ms : List Text}
      (markers : HasMarkers n false ms) (place : (i, m) ∈ n.children.zip ms)
      (item : i.kind = .listItem) (child : c ∈ i.children) (nested : c.kind.isList = true)
      (rest : Within (level + 1) c level' l k) : Within level n level' l (k + (m.length - 1))
  | item {level level' k offset : Nat} {n i c l : Node} {m : Text} {ms : List Text}
      (markers : HasMarkers n false ms) (place : (i, m) ∈ n.children.zip ms)
      (item : i.kind = .listItem) (child : c ∈ i.children) (inset : c.inset? = some offset)
      (rest : Within (level + 1) c level' l k) :
    Within level n level' l (k + (2 * level + m.length + 1))

/--
Containers inside each other around a list: the columns that they put in front of it together, and
whether one of them is no annotated block and so starts the levels of lists again.
-/
inductive Encloses : Node → Node → Nat → Bool → Prop
  | last {c l : Node} {offset : Nat} (inset : c.inset? = some offset) (child : l ∈ c.children)
      (list : l.kind.isList = true) : Encloses c l offset (!c.isAnnotatedBlock)
  | outer {c d l : Node} {offset k : Nat} {restarts : Bool} (inset : c.inset? = some offset)
      (child : d ∈ c.children) (inner : Encloses d l k restarts) :
    Encloses c l (k + offset) (restarts || !c.isAnnotatedBlock)

theorem Within.trans {level level' level'' k k' : Nat} {n l l' : Node}
    (h : Within level n level' l k) (h' : Within level' l level'' l' k') :
    Within level n level'' l' (k + k') := by
  induction h with
  | self => rwa [Nat.zero_add]
  | block kind child _ ih => exact .block kind child (ih h')
  | container inset child _ ih =>
    rw [Nat.add_right_comm]
    exact .container inset child (ih h')
  | list markers place item child nested _ ih =>
    rw [Nat.add_right_comm]
    exact .list markers place item child nested (ih h')
  | item markers place item child inset _ ih =>
    rw [Nat.add_right_comm]
    exact .item markers place item child inset (ih h')

theorem Node.innerLevel_eq (n : Node) (level : Nat) :
    n.innerLevel level = if !n.isAnnotatedBlock then 0 else level := by
  rw [innerLevel]
  cases n.isAnnotatedBlock <;> rfl

theorem Encloses.within {c l : Node} {offset : Nat} {restarts : Bool}
    (h : Encloses c l offset restarts) (level : Nat) :
    Within level c (if restarts then 0 else level) l offset := by
  induction h generalizing level with
  | @last c l offset inset child list =>
    have own : Within (c.innerLevel level) l (c.innerLevel level) l 0 := .self list
    have inner := Within.container inset child own
    rwa [Nat.zero_add, c.innerLevel_eq] at inner
  | @outer c d l offset k restarts inset child inner ih =>
    have below := Within.container inset child (ih (c.innerLevel level))
    have same : (if restarts then 0 else c.innerLevel level) =
        if restarts || !c.isAnnotatedBlock then 0 else level := by
      rw [c.innerLevel_eq]
      cases restarts <;> rfl
    rwa [same] at below

theorem Encloses.inset {c l : Node} {offset : Nat} {restarts : Bool}
    (h : Encloses c l offset restarts) : ∃ k, c.inset? = some k := by
  cases h with
  | last inset => exact ⟨_, inset⟩
  | outer inset => exact ⟨_, inset⟩

/-- What is inside a list stands at the column of its level or to the right of it. -/
theorem Within.le {level level' k : Nat} {n l : Node} (h : Within level n level' l k)
    (list : n.kind.isList = true) : 2 * level ≤ k + 2 * level' := by
  induction h with
  | self => omega
  | block kind => rcases kind with kind | kind <;> simp [kind, NodeKind.isList] at list
  | @container level level' k offset n c l inset =>
    rw [Node.isList_of_inset? inset] at list
    cases list
  | list _ _ _ _ nested _ ih =>
    have := ih nested
    omega
  | item => omega

variable {ctx : Context} {level level' k : Nat} {n l : Node} {f : Fragment}

/-- A list keeps its markers inside a node, moved to the right from the column of its level. -/
theorem Within.shows (inside : Within level n level' l k) (h : IsConversion ctx level n f) :
    ∃ g own, IsConversion ctx level' l g ∧ IsOwn l level' g own ∧
      f.Shows l own (k + 2 * level') := by
  induction inside generalizing f with
  | self list =>
    obtain ⟨own, is, shows⟩ := h.shows_own list
    exact ⟨f, own, h, is, by rwa [Nat.zero_add]⟩
  | @block level level' k n c l kind child _ ih =>
    obtain ⟨fs, children, rfl⟩ : ∃ fs, List.Forall₂ (IsConversion ctx level) n.children fs ∧
        f = ⟨Fragment.joinedBlocks fs, .plain⟩ := by
      rcases kind with kind | kind
      all_goals
        obtain ⟨fs, s, s', children, -, made⟩ := h.children (by rw [kind]; rfl)
        obtain ⟨rfl, -⟩ := pure_ok.mp made
        rw [kind] at children
        exact ⟨fs, children, rfl⟩
    obtain ⟨g, hg, converted⟩ := exists_of_mem_forall₂ children child
    obtain ⟨own', own, made, is, shows⟩ := ih converted
    exact ⟨own', own, made, is, Fragment.shows_of_plain rfl (ShowsMarkers.joinedBlocks shows hg)⟩
  | @container level level' k offset n c l inset child _ ih =>
    obtain ⟨fs, children, contains⟩ := h.container inset
    obtain ⟨g, hg, converted⟩ := exists_of_mem_forall₂ children child
    obtain ⟨own', own, made, is, shows⟩ := ih converted
    refine ⟨own', own, made, is, Fragment.shows_of_plain contains.plain ?_⟩
    rw [Nat.add_right_comm]
    exact contains.shows hg shows
  | @list level level' k n i c l m ms markers place item child nested rest ih =>
    obtain ⟨g, converted, below⟩ := h.shows_below markers place item child
    obtain ⟨own', own, made, is, shows⟩ := ih converted
    have right := rest.le nested
    rw [nested] at below
    exact ⟨own', own, made, is, below l own _ shows nofun _ (Nat.add_right_comm ..) (by omega)⟩
  | @item level level' k offset n i c l m ms markers place item child inset rest ih =>
    obtain ⟨g, converted, below⟩ := h.shows_below markers place item child
    obtain ⟨own', own, made, is, shows⟩ := ih converted
    obtain ⟨_, -, contains⟩ := converted.container inset
    rw [Node.isList_of_inset? inset] at below
    exact ⟨own', own, made, is,
      below l own _ shows (fun _ => contains.begins) _ (Nat.add_right_comm ..) (by omega)⟩

section document

/-- A text shows the markers that a list has at a level, now at a column. -/
def ShowsList (ctx : Context) (level : Nat) (l : Node) (column : Nat) (t : Text) : Prop :=
  ∃ g own, IsConversion ctx level l g ∧ IsOwn l level g own ∧ ShowsMarkers l own column (lines t)

variable {own : List Text} {column : Nat} {t : Text}

theorem ShowsMarkers.withFootnotes (h : ShowsMarkers l own column (lines t))
    (o : ConversionOptions) (s : Footnote.State) :
    ShowsMarkers l own column (lines (withFootnotes o t s)) := by
  rw [Docmark.withFootnotes]
  split
  · exact h
  · split
    · rename_i empty
      exact h.of_empty (List.isEmpty_iff.mp empty) _ _
    · rw [lines_append_gap]
      exact h.mono (List.sublist_append_left _ _)

theorem ShowsMarkers.collapseBlankLines (h : ShowsMarkers l own column (lines t)) :
    ShowsMarkers l own column (lines (collapseBlankLines t)) := by
  refine h.mono_shown ?_
  rw [Tracking.lines_collapseBlankLines, ← Tracking.filter_collapse]
  exact List.filter_sublist

/-- A document keeps the markers of a list that its body shows. -/
theorem Fragment.Shows.finishDocument (h : f.Shows l own column) (o : ConversionOptions)
    (s : Session) : ShowsMarkers l own column (lines (finishDocument o f.markdown s).markdown) := by
  have body := h false
  rw [Block.written_false] at body
  have noted := ShowsMarkers.withFootnotes body o s.footnotes
  rw [Docmark.finishDocument]
  dsimp only
  split
  · exact noted.collapseBlankLines
  · exact noted

/--
The markers of a list in containers in an item: at the column of the content of the containers where
one of them starts the levels of lists again, else two columns further for each item around.
-/
theorem convertDocument_innerList {source : Source} {options o : ConversionOptions}
    {overrides : OptionValues} {resolver : Link.Resolver} {root : Node} {out : Converted}
    (run : convertDocument source options overrides resolver = .ok out)
    (updated : options.update overrides = .ok o) (loaded : source.load o = .ok root)
    (inside : Within 0 root level n k) {m : Text} {ms : List Text} (markers : HasMarkers n false ms)
    {i c : Node} (place : (i, m) ∈ n.children.zip ms) (item : i.kind = .listItem)
    (child : c ∈ i.children) {offset : Nat} {restarts : Bool}
    (enclosed : Encloses c l offset restarts) :
    ShowsList ⟨o, resolver⟩ level n (k + 2 * level) out.markdown ∧
      ShowsList ⟨o, resolver⟩ (if restarts then 0 else level + 1) l
        (k + 2 * level + m.length + 1 + offset + if restarts then 0 else 2 * (level + 1))
        out.markdown := by
  obtain ⟨o', n', f, s, updated', loaded', walked, rfl⟩ := convertDocument_ok run
  rw [updated] at updated'
  cases updated'
  rw [loaded] at loaded'
  cases loaded'
  have made : IsConversion ⟨o, resolver⟩ (0 : Nat) root f := isConversion_of_walk walked
  have shows {level' k' : Nat} {l' : Node} (inside' : Within 0 root level' l' k') :
      ShowsList ⟨o, resolver⟩ level' l' (k' + 2 * level')
        (Docmark.finishDocument o f.markdown s).markdown := by
    obtain ⟨g, own, made', is, shown⟩ := inside'.shows made
    exact ⟨g, own, made', is, shown.finishDocument o s⟩
  refine ⟨shows inside, ?_⟩
  obtain ⟨_, inset⟩ := enclosed.inset
  have below := shows (inside.trans
    (.item markers place item child inset (enclosed.within (level + 1))))
  have column : k + 2 * level + m.length + 1 + offset +
        (if restarts then 0 else 2 * (level + 1)) =
      k + (offset + (2 * level + m.length + 1)) + 2 * if restarts then 0 else level + 1 := by
    split <;> omega
  rw [column]
  exact below

end document

/-- A list whose only item has the given content. -/
def listAround (content : List Node) : Node :=
  .bulletListOf [.listItemOf content]

/-- A document with a list in an item, whose only item has the given content. -/
def nestingDocument (content : List Node) : Node :=
  .documentOf [listAround [listAround content]]

/-- The list in the panel stands at the column of the content of the panel. -/
theorem nestingDocument_innerList :
    ∃ out, convertDocument (.tree (nestingDocument
        [.panelOf [.blockOf [listAround [.paragraphOf [.ofText "x"]]]]])) = .ok out ∧
      ShowsList {} 1 (listAround [.panelOf [.blockOf [listAround [.paragraphOf [.ofText "x"]]]]]) 2
        out.markdown ∧
      ShowsList {} 0 (listAround [.paragraphOf [.ofText "x"]]) 8 out.markdown := by
  obtain ⟨out, run⟩ := exists_ok (x := convertDocument (.tree (nestingDocument
    [.panelOf [.blockOf [listAround [.paragraphOf [.ofText "x"]]]]]))) (by decide +kernel)
  have inside : Within 0 (nestingDocument
      [.panelOf [.blockOf [listAround [.paragraphOf [.ofText "x"]]]]]) 1
      (listAround [.panelOf [.blockOf [listAround [.paragraphOf [.ofText "x"]]]]]) 0 :=
    .block (Or.inl rfl) List.mem_cons_self (.list (m := ['-']) (.bullet rfl) List.mem_cons_self rfl
      List.mem_cons_self rfl (.self rfl))
  have block : Encloses (.blockOf [listAround [.paragraphOf [.ofText "x"]]])
      (listAround [.paragraphOf [.ofText "x"]]) 0 false := .last rfl List.mem_cons_self rfl
  have enclosed : Encloses (.panelOf [.blockOf [listAround [.paragraphOf [.ofText "x"]]]])
      (listAround [.paragraphOf [.ofText "x"]]) (0 + 4) (false || true) :=
    .outer rfl List.mem_cons_self block
  exact ⟨out, run, convertDocument_innerList run rfl rfl inside (.bullet rfl) List.mem_cons_self rfl
    List.mem_cons_self enclosed⟩

/-- In an annotated block alone the list stands four columns to the right of its content. -/
theorem nestingDocument_drifts :
    (convertDocument (.tree (nestingDocument
        [.blockOf [listAround [.paragraphOf [.ofText "x"]]]]))).toOption.map
        (fun c => lines c.markdown) =
      some ["-".toList, "  - \x7b .annotate \x7d".toList, [], "        - x".toList] ∧
      ∀ line ∈ ["-".toList, "  - \x7b .annotate \x7d".toList, [], "        - x".toList],
        ¬ StandsAt 4 ['-'] line := by
  refine ⟨by decide +kernel, fun line hl h => ?_⟩
  have mark := h.prefix_drop
  simp only [List.mem_cons, List.not_mem_nil, or_false] at hl
  rcases hl with rfl | rfl | rfl | rfl <;> revert mark <;> decide

end Docmark
