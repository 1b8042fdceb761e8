import Docmark.Proofs.Convert.ItemContent
import Docmark.Proofs.Convert.ListLines
import Docmark.Proofs.Convert.Walk
import Docmark.Proofs.Markdown.FencedCode
import Mathlib.Data.List.Forall2

/-!
Trees of lists are converted to lines that stand at the columns of their lists.
-/

namespace Docmark

open Markdown Text Conversion

/-- Lists inside lists, whose items hold paragraphs and code besides. -/
inductive IsListTree : Node → Prop
  | intro {n : Node} (list : n.kind.isList = true)
      (items : ∀ i ∈ n.children, i.kind = .listItem)
      (content : ∀ i ∈ n.children, ∀ c ∈ i.children, c.kind ≠ .paragraph → c.kind ≠ .codeBlock →
        IsListTree c) : IsListTree n

section item

variable {ctx : Context}

/-- A block of an item before the item is laid out; a list stands at a column of its own. -/
structure IsItemBlock (ctx : Context) (column : Nat) (b : Node × List Text) : Prop where
  block : IsBlock b.2
  text : b.1.kind.isList = false → IsConverted ctx b.1 b.2
  list : b.1.kind.isList = true → ListAt ctx column b.1 b.2

/-- What a block of an item is converted to, with its lines. -/
inductive Written (ctx : Context) (column : Nat) (n : Node) (f : Fragment) : List Text → Prop
  | text (kind : n.kind.isList = false) (fact : f.fact.listKind? = none)
      (framed : Framed (shownLines f.markdown))
      (converted : IsConverted ctx n (shownLines f.markdown)) :
    Written ctx column n f (shownLines f.markdown)
  | list {ls : List Text} (kind : n.kind.isList = true)
      (fact : f.fact.listKind? = listKindOf n.kind) (framed : Framed ls)
      (at_column : ListAt ctx column n ls) (markdown : f.markdown = unlines ls) :
    Written ctx column n f ls

theorem isBlank_of_framed {t : Text} (h : Framed (lines t)) : isBlank t = false := by
  obtain ⟨l, ls, cut⟩ := List.exists_cons_of_ne_nil (lines_ne_nil t)
  have whole := unlines_lines t
  have shown := h.first l (by rw [cut]; rfl)
  rw [cut] at whole
  by_cases only : ls = []
  · rw [← whole, only]
    exact shown
  · rw [← whole, unlines_cons l only, isBlank_append, shown, Bool.false_and]

theorem Written.isBlock_of_blank {column : Nat} {n : Node} {f : Fragment} {ls : List Text}
    (h : Written ctx column n f ls) (blank : isBlank f.markdown = true) :
    IsItemBlock ctx column (n, []) := by
  rw [← isBlank_trimNewlines] at blank
  refine ⟨⟨framed_nil, by simp⟩, fun text => ?_, fun list => ?_⟩
  · cases h with
    | text kind fact framed converted =>
      rw [shownLines, if_pos blank] at converted
      exact converted
    | list kind => simp [kind] at text
  · cases h with
    | text kind => simp [kind] at list
    | list kind fact framed at_column markdown =>
      by_cases empty : ls = []
      · exact empty ▸ at_column
      · rw [← lines_unlines empty fun _ hl => at_column.newline hl, ← markdown] at framed
        rw [trimNewlines_of_framed framed, isBlank_of_framed framed] at blank
        cases blank

/-- A block is written as it is or, if it is a list, with its other markers. -/
theorem Written.isBlock_of_shown {column : Nat} {n : Node} {f : Fragment} {ls : List Text}
    (h : Written ctx column n f ls) (shown : isBlank f.markdown = false) (switched : Bool) :
    ∃ ms, ms ≠ [] ∧ IsItemBlock ctx column (n, ms) ∧ f.block.written switched = unlines ms := by
  rw [← isBlank_trimNewlines] at shown
  cases h with
  | text kind fact framed converted =>
    have cut : shownLines f.markdown = lines (trimNewlines f.markdown) := by
      rw [shownLines, shown]
      rfl
    rw [cut] at framed converted
    refine ⟨_, lines_ne_nil _, ⟨⟨framed, fun l hl => newline_not_mem_of_mem_lines hl⟩,
      fun _ => converted, fun list => by simp [kind] at list⟩, ?_⟩
    rw [Block.written_of_plain fact, unlines_lines]
    rfl
  | list kind fact framed at_column markdown =>
    have ne : ls ≠ [] := by
      rintro rfl
      rw [markdown] at shown
      cases shown
    have cut : lines f.markdown = ls := by
      rw [markdown]
      exact lines_unlines ne fun _ hl => at_column.newline hl
    have whole : trimNewlines f.markdown = unlines ls := by
      rw [trimNewlines_of_framed (by rw [cut]; exact framed), markdown]
    obtain ⟨k, hk⟩ : ∃ k, listKindOf n.kind = some k := by
      cases hn : n.kind <;> simp_all [NodeKind.isList, listKindOf]
    have text (b : Node × List Text) (hb : b.1 = n) : b.1.kind.isList = false → False := by
      intro hf
      simp [hb, kind] at hf
    rw [Block.written_of_list (fact.trans hk), Fragment.block, whole]
    cases switched with
    | false =>
      exact ⟨ls, ne, ⟨⟨framed, fun _ hl => at_column.newline hl⟩,
        fun hf => (text (n, ls) rfl hf).elim, fun _ => at_column⟩, rfl⟩
    | true =>
      have moved := at_column.switch hk
      refine ⟨ls.map (switchLine column k), by simpa using ne, ⟨⟨?_, fun _ hl => moved.newline hl⟩,
        fun hf => (text (n, _) rfl hf).elim, fun _ => moved⟩, at_column.switchMarkers ne k⟩
      rw [← List.map_id ls] at framed
      exact framed.map_of_map fun l => isBlank_switchLine column k l

/-- The blocks of an item that are kept apart, each with the node that it comes from. -/
theorem separate_written {column : Nat} {ns : List Node} {fs : List Fragment}
    (h : List.Forall₂ (fun n f => ∃ ls, Written ctx column n f ls) ns fs)
    (before : Option ListKind × Bool) :
    ∃ bs : List (Node × List Text), bs.map Prod.fst = ns ∧ (∀ b ∈ bs, IsItemBlock ctx column b) ∧
      Convert.keptBlocks before ns fs = shownBlocks bs := by
  induction h generalizing before with
  | nil => exact ⟨[], rfl, by simp, rfl⟩
  | @cons n f ns fs first rest ih =>
    obtain ⟨ls, written⟩ := first
    cases blank : isBlank f.markdown with
    | true =>
      obtain ⟨bs, nodes, blocks, kept⟩ := ih before
      refine ⟨(n, []) :: bs, by rw [List.map_cons, nodes], ?_, ?_⟩
      · intro b hb
        rcases List.mem_cons.mp hb with rfl | hb
        · exact written.isBlock_of_blank blank
        · exact blocks b hb
      · rw [Convert.keptBlocks_of_blank blank]
        exact kept
    | false =>
      obtain ⟨ms, ne, block, same⟩ := written.isBlock_of_shown blank (f.block.switches before)
      obtain ⟨bs, nodes, blocks, kept⟩ := ih (f.block.list, f.block.switches before)
      refine ⟨(n, ms) :: bs, by rw [List.map_cons, nodes], ?_, ?_⟩
      · intro b hb
        rcases List.mem_cons.mp hb with rfl | hb
        · exact block
        · exact blocks b hb
      · have own : shownBlocks ((n, ms) :: bs) = (n, unlines ms) :: shownBlocks bs := by
          simp [shownBlocks, ne]
        rw [own, ← kept, ← same, Convert.keptBlocks_of_shown blank]

/-- The content of an item in blocks, the nested lists at a column of their own. -/
structure ItemContent (ctx : Context) (column : Nat) (n : Node) (item : Convert.ItemText)
    (blocks : List PlacedBlock) : Prop where
  nodes : blocks.map PlacedBlock.node = n.children
  body : item.body = blocks.flatMap PlacedBlock.body
  framed : Framed (item.body.map Prod.snd)
  blocks : ∀ b ∈ blocks, IsItemBlock ctx column (b.node, b.lines)

theorem listItem_content {column : Nat} {n : Node} {fs : List Fragment}
    (h : List.Forall₂ (fun n f => ∃ ls, Written ctx column n f ls) n.children fs) {level : Int}
    {s s' : Session} {f : Fragment} (run : Convert.listItem ctx n fs level s = .ok (f, s')) :
    ∃ item blocks, f = ⟨item.text, .listItem item.nested⟩ ∧
      ItemContent ctx column n item blocks := by
  obtain ⟨bs, nodes, isBlock, kept⟩ := separate_written h (none, false)
  obtain ⟨item, rfl, folded⟩ := Convert.listItem_addAll h.length_eq.symm run
  rw [kept] at folded
  have empty : ({} : Convert.ItemText).body = [] := rfl
  have start : Framed (({} : Convert.ItemText).body.map Prod.snd) := framed_nil
  obtain ⟨blocks, same, body, framed⟩ := Convert.ItemText.body_foldlM
    (fun b hb => (isBlock b hb).block) (fun index hi => by cases hi) start folded
  refine ⟨item, blocks, rfl, ?_, ?_, framed, ?_⟩
  · rw [← nodes, ← same, List.map_map]
    rfl
  · rw [body, empty, List.nil_append]
  · intro b hb
    refine isBlock (b.node, b.lines) ?_
    rw [← same]
    exact List.mem_map_of_mem hb

/-- An item of a list whose markers stand at a column. -/
structure IsPlaced (ctx : Context) (column : Nat) (i : PlacedItem) : Prop where
  blocks : i.blocks.map PlacedBlock.node = i.node.children
  texts : ∀ b ∈ i.blocks, b.node.kind.isList = false →
    ∃ ls, IsConverted ctx b.node ls ∧ b.lines = ls.map (indentLine (i.inner column))
  lists : ∀ b ∈ i.blocks, b.node.kind.isList = true → ListAt ctx (i.inner column) b.node b.lines
  framed : Framed (i.lines column)

theorem IsPlaced.below {column : Nat} {i : PlacedItem} (h : IsPlaced ctx column i) {l : Text}
    (hl : l ∈ belowMarker i.body) : Reaches (i.inner column) l := by
  obtain ⟨nested, hx⟩ := mem_belowMarker hl
  rcases PlacedItem.mem_body hx with he | ⟨b, hb, hl⟩
  · exact Or.inl (Prod.mk.inj he).2
  · cases list : b.node.kind.isList with
    | true => exact (h.lists b hb list).reaches hl
    | false =>
      obtain ⟨ls, -, same⟩ := h.texts b hb list
      dsimp only at hl
      rw [same] at hl
      obtain ⟨m, -, rfl⟩ := List.mem_map.mp hl
      exact reaches_indentLine _ m

/-- How far the lines of an item move: those of nested lists have come some way already. -/
def moveLine (level : Nat) (marker : Text) (nested : Bool) : Text → Text :=
  indentLine (if nested then marker.length - 1 else 2 * level + marker.length + 1)

theorem place_eq_moveLine (text : Text) (level : Nat) (nested : List Nat) (marker : Text) :
    (ListItem.mk text level nested).place marker = moveLine level marker := by
  funext isNested
  rw [place_eq_indentLine, offset_eq _ marker rfl, moveLine]

/-- An item as it stands in the list that gives it a marker. -/
theorem ItemContent.placed {level : Nat} {n : Node} {item : Convert.ItemText}
    {blocks : List PlacedBlock} (h : ItemContent ctx (2 * (level + 1)) n item blocks)
    {marker : Text} (shown : isBlank marker = false) :
    ∃ i : PlacedItem, i.node = n ∧ i.marker = marker ∧ IsPlaced ctx (2 * level) i ∧
      (ListItem.mk item.text level item.nested).render marker = unlines (i.lines (2 * level)) := by
  have filled : 0 < marker.length := List.length_pos_iff.mpr (ne_nil_of_not_isBlank shown)
  have body : (PlacedItem.map (moveLine level marker) ⟨marker, n, blocks⟩).body =
      mapLines (moveLine level marker) item.body := by
    rw [PlacedItem.body_map fun _ => rfl, h.body]
    rfl
  have indent : (2 * (level : Int)).toNat = 2 * level := by omega
  have written := render_of_framed (ListItem.mk item.text level item.nested) marker shown h.framed
  rw [place_eq_moveLine, indent] at written
  refine ⟨PlacedItem.map (moveLine level marker) ⟨marker, n, blocks⟩, rfl, rfl, ?_, ?_⟩
  · refine ⟨?_, ?_, ?_, ?_⟩
    · simp only [PlacedItem.map, List.map_map]
      exact h.nodes
    · intro c hc text
      obtain ⟨b, hb, rfl⟩ := List.mem_map.mp hc
      have kind : b.node.kind.isList = false := text
      refine ⟨b.lines, (h.blocks b hb).text text, ?_⟩
      simp only [PlacedBlock.map, moveLine, kind]
      rfl
    · intro c hc list
      obtain ⟨b, hb, rfl⟩ := List.mem_map.mp hc
      have kind : b.node.kind.isList = true := list
      have column : (PlacedItem.map (moveLine level marker) ⟨marker, n, blocks⟩).inner (2 * level) =
          2 * (level + 1) + (marker.length - 1) := by
        simp only [PlacedItem.inner, PlacedItem.map]
        omega
      have moved := ((h.blocks b hb).list list).shift (marker.length - 1)
      rw [column]
      simp only [PlacedBlock.map, moveLine, kind]
      exact moved
    · refine framed_itemLines shown _ ?_
      rw [body, mapLines, List.map_map]
      exact h.framed.map_of_map fun a => isBlank_indentLine _ a.2
  · rw [written, PlacedItem.lines, body]
    rfl

/-- What an item is converted to. -/
def IsItemFragment (ctx : Context) (column : Nat) (n : Node) (f : Fragment) : Prop :=
  ∃ item blocks, f = ⟨item.text, .listItem item.nested⟩ ∧ ItemContent ctx column n item blocks

/-- The items of a list under their markers. -/
theorem exists_placed {level : Nat} {ns : List Node} {fs : List Fragment}
    (h : List.Forall₂ (IsItemFragment ctx (2 * (level + 1))) ns fs) {ms : List Text}
    (length : ms.length = ns.length) (shown : ∀ m ∈ ms, isBlank m = false) :
    ∃ items : List PlacedItem, items.map PlacedItem.node = ns ∧
      items.map PlacedItem.marker = ms ∧ (∀ i ∈ items, IsPlaced ctx (2 * level) i) ∧
      List.zipWith (fun m f => (Convert.itemOf level f).render m) ms fs =
        items.map fun i => unlines (i.lines (2 * level)) := by
  induction h generalizing ms with
  | nil =>
    rw [List.length_nil, List.length_eq_zero_iff] at length
    exact ⟨[], rfl, length.symm, by simp, by simp⟩
  | @cons n f ns fs first rest ih =>
    match ms with
    | [] => cases length
    | m :: ms =>
      obtain ⟨items, nodes, markers, placed, written⟩ :=
        ih (Nat.succ.inj length) fun k hk => shown k (by simp [hk])
      obtain ⟨item, blocks, rfl, content⟩ := first
      obtain ⟨i, node, marker, isPlaced, render⟩ := content.placed (shown m (by simp))
      refine ⟨i :: items, ?_, ?_, ?_, ?_⟩
      · rw [List.map_cons, node, nodes]
      · rw [List.map_cons, marker, markers]
      · intro j hj
        rcases List.mem_cons.mp hj with rfl | hj
        · exact isPlaced
        · exact placed j hj
      · rw [List.zipWith_cons_cons, written, List.map_cons, ← render]
        rfl

/-- The items of a list under the markers that it is first written with. -/
structure IsListing (ctx : Context) (column : Nat) (n : Node) (items : List PlacedItem) : Prop where
  nodes : items.map PlacedItem.node = n.children
  markers : HasMarkers n false (items.map PlacedItem.marker)
  placed : ∀ i ∈ items, IsPlaced ctx column i

theorem PlacedItem.lines_ne_nil (column : Nat) (i : PlacedItem) : i.lines column ≠ [] := by
  simp [lines, itemLines]

theorem IsListing.listAt {column : Nat} {n : Node} {items : List PlacedItem}
    (h : IsListing ctx column n items) :
    ListAt ctx column n (items.flatMap (PlacedItem.lines column)) :=
  .intro h.nodes h.markers (fun i hi => (h.placed i hi).blocks) (fun i hi => (h.placed i hi).texts)
    (fun i hi => (h.placed i hi).lists) fun i hi _ hl => (h.placed i hi).below hl

theorem IsListing.framed {column : Nat} {n : Node} {items : List PlacedItem}
    (h : IsListing ctx column n items) : Framed (items.flatMap (PlacedItem.lines column)) := by
  rw [List.flatMap_def]
  refine framed_flatten (fun ls hl => ?_) fun ls hl => ?_
  all_goals obtain ⟨i, hi, rfl⟩ := List.mem_map.mp hl
  · exact i.lines_ne_nil column
  · exact (h.placed i hi).framed

/-- A list whose items are placed under its markers. -/
theorem exists_listing {level : Nat} {n : Node} {fs : List Fragment}
    (h : List.Forall₂ (IsItemFragment ctx (2 * (level + 1))) n.children fs) {ms : List Text}
    (markers : HasMarkers n false ms) :
    ∃ items, IsListing ctx (2 * level) n items ∧
      unlines (List.zipWith (fun m f => (Convert.itemOf level f).render m) ms fs) =
        unlines (items.flatMap (PlacedItem.lines (2 * level))) := by
  have length : ms.length = n.children.length := by
    cases markers <;> simp
  obtain ⟨items, nodes, rfl, placed, written⟩ :=
    exists_placed h length fun m hm => markers.shown hm
  refine ⟨items, ⟨nodes, markers, placed⟩, ?_⟩
  rw [written, List.flatMap_def, unlines_flatten, List.map_map]
  · rfl
  · intro ls hl
    obtain ⟨i, -, rfl⟩ := List.mem_map.mp hl
    exact i.lines_ne_nil _

theorem walk_text {levels : Nat} {level : Int} {n : Node} (kind : n.kind = .paragraph ∨
    n.kind = .codeBlock) {s s' : Session} {f : Fragment}
    (run : walkLevels Registry.standard.settle ctx levels level n s = .ok (f, s')) (column : Nat) :
    Written ctx column n f (shownLines f.markdown) := by
  have converted : IsConverted ctx n (shownLines f.markdown) := ⟨levels, level, s, f, s', run, rfl⟩
  rcases kind with paragraph | code
  · have registered : (Registry.standard.settle.get n.kind).1 = some Convert.paragraph := by
      rw [paragraph]
      rfl
    obtain ⟨-, fs, s₁, -, -, made⟩ := walkLevels_made registered run
    obtain ⟨rfl, -⟩ := pure_ok.mp made
    exact .text (by rw [paragraph]; rfl) rfl (framed_paragraphText _ _) converted
  · have registered : (Registry.standard.settle.get n.kind).1 = some Convert.codeBlock := by
      rw [code]
      rfl
    obtain ⟨-, fs, s₁, -, -, made⟩ := walkLevels_made registered run
    obtain ⟨rfl, -⟩ := pure_ok.mp made
    exact .text (by rw [code]; rfl) rfl
      (framed_shownLines_of_framed (framed_codeMarkdown _ _)) converted

/-- An item is converted from its blocks, whose lists stand where nested lists do. -/
theorem walk_item {levels level : Nat} {n : Node} (kind : n.kind = .listItem)
    (content : ∀ c ∈ n.children, ∀ t t' g,
      walkLevels Registry.standard.settle ctx levels ((level + 1 : Nat) : Int) c t = .ok (g, t') →
        ∃ ls, Written ctx (2 * (level + 1)) c g ls)
    {s s' : Session} {f : Fragment}
    (run : walkLevels Registry.standard.settle ctx (levels + 1) level n s = .ok (f, s')) :
    IsItemFragment ctx (2 * (level + 1)) n f := by
  have registered : (Registry.standard.settle.get n.kind).1 = some Convert.listItem := by
    rw [kind]
    rfl
  have childLevel : n.kind.childLevel level = ((level + 1 : Nat) : Int) := by
    rw [kind]
    rfl
  obtain ⟨below, fs, s₁, same, walked, made⟩ := walkLevels_made registered run
  cases same
  rw [childLevel] at walked
  have written : List.Forall₂ (fun c g => ∃ ls, Written ctx (2 * (level + 1)) c g ls)
      n.children fs := by
    refine List.forall₂_iff_zip.mpr ⟨(forall₂_of_mapM_ok walked).length_eq, fun hz => ?_⟩
    obtain ⟨t, t', child⟩ := List.forall₂_zip (forall₂_of_mapM_ok walked) hz
    exact content _ (List.of_mem_zip hz).1 t t' _ child
  exact listItem_content written made

/-- What the converters of lists make of their items. -/
theorem convert_list {level : Nat} {n : Node} {fs : List Fragment}
    (items : List.Forall₂ (IsItemFragment ctx (2 * (level + 1))) n.children fs)
    (list : n.kind.isList = true) {convert : Converter}
    (found : (Registry.standard.settle.get n.kind).1 = some convert) {s s' : Session} {f : Fragment}
    (run : convert ctx n fs level s = .ok (f, s')) :
    ∃ is, IsListing ctx (2 * level) n is ∧
      f.markdown = unlines (is.flatMap (PlacedItem.lines (2 * level))) ∧
      f.fact.listKind? = listKindOf n.kind := by
  obtain ⟨ms, markers, -, markdown, fact⟩ :=
    convert_items items.length_eq.symm list found run
  obtain ⟨is, listing, written⟩ := exists_listing items markers
  exact ⟨is, listing, markdown.trans written, fact⟩

/-- A tree of lists is converted to its items at the column for its level. -/
theorem walk_listing {levels level : Nat} {n : Node} (tree : IsListTree n) {s s' : Session}
    {f : Fragment}
    (run : walkLevels Registry.standard.settle ctx levels level n s = .ok (f, s')) :
    ∃ items, IsListing ctx (2 * level) n items ∧
      f.markdown = unlines (items.flatMap (PlacedItem.lines (2 * level))) ∧
      f.fact.listKind? = listKindOf n.kind := by
  induction levels using Nat.strongRecOn generalizing level n s f s' with
  | ind levels ih =>
    cases levels with
    | zero => simp [walkLevels] at run
    | succ below =>
      obtain ⟨list, items, content⟩ := tree
      have kind := kind_of_isList list
      rcases walkLevels_ok run with ⟨none, -, -⟩ | ⟨convert, fs, s₁, found, walked, made⟩
      · rcases kind with hk | hk
        all_goals
          rw [hk] at none
          cases none
      · have childLevel : n.kind.childLevel level = level := by
          rcases kind with hk | hk
          all_goals
            rw [hk]
            rfl
        rw [childLevel] at walked
        refine convert_list (List.forall₂_iff_zip.mpr ?_) list found made
        refine ⟨(forall₂_of_mapM_ok walked).length_eq, fun hz => ?_⟩
        obtain ⟨t, t', child⟩ := List.forall₂_zip (forall₂_of_mapM_ok walked) hz
        have hi := (List.of_mem_zip hz).1
        cases below with
        | zero => simp [walkLevels] at child
        | succ below =>
          refine walk_item (items _ hi) (fun c hc u u' g inner => ?_) child
          by_cases text : c.kind = .paragraph ∨ c.kind = .codeBlock
          · exact ⟨_, walk_text text inner _⟩
          · rw [not_or] at text
            have nested := content _ hi c hc text.1 text.2
            obtain ⟨is, listing, markdown, fact⟩ := ih below (by omega) nested inner
            obtain ⟨kind, -, -⟩ := nested
            exact ⟨_, .list kind fact listing.framed listing.listAt markdown⟩

/-- A tree of lists is converted to lines at the column for its level. -/
theorem walk_listTree {levels level : Nat} {n : Node} (tree : IsListTree n) {s s' : Session}
    {f : Fragment}
    (run : walkLevels Registry.standard.settle ctx levels level n s = .ok (f, s')) :
    ∃ ls, ListAt ctx (2 * level) n ls ∧ Framed ls ∧ f.markdown = unlines ls ∧
      f.fact.listKind? = listKindOf n.kind := by
  obtain ⟨items, listing, markdown, fact⟩ := walk_listing tree run
  exact ⟨_, listing.listAt, listing.framed, markdown, fact⟩

end item

/--
The items of nested lists stand under their markers: what is below a marker reaches the column
behind it, where the markers of the lists in that item stand; blank lines are empty.
-/
theorem walk_list_columns {ctx : Context} {n : Node} (tree : IsListTree n) {s s' : Session}
    {f : Fragment} (run : walk Registry.standard ctx 0 n s = .ok (f, s')) :
    ∃ ls, ListAt ctx 0 n ls ∧ (∀ l ∈ ls, '\n' ∉ l ∧ (isBlank l = true → l = [])) ∧
      f.markdown = unlines ls := by
  have level : ((0 : Nat) : Int) = 0 := rfl
  rw [walk, ← level] at run
  obtain ⟨ls, at_column, -, markdown, -⟩ := walk_listTree tree run
  refine ⟨ls, at_column, fun l hl => ⟨at_column.newline hl, fun blank => ?_⟩, markdown⟩
  rcases at_column.reaches hl with empty | ⟨shown, -⟩
  · exact empty
  · rw [shown] at blank
    cases blank

/-- A list of two items, one with code and one without content. -/
def codeList : Node :=
  ⟨"bulletList", [],
    [Node.listItemOf [⟨"codeBlock", [], [.ofText "x\n\n\ny"], none, []⟩], Node.listItemOf []],
    none, []⟩

/-- A list whose markers grow wider, with lists at the ends of its items. -/
def wideningList : Node :=
  ⟨"orderedList", [("order", .int 9)],
    [Node.listItemOf [.paragraphOf [.ofText "a"], codeList, codeList],
     Node.listItemOf [codeList, .paragraphOf [.ofText "b"]]], none, []⟩

theorem wideningList_columns :
    IsListTree wideningList ∧ ∃ f s ls,
      walk Registry.standard {} 0 wideningList {} = .ok (f, s) ∧ ListAt {} 0 wideningList ls ∧
      (∀ l ∈ ls, '\n' ∉ l ∧ (isBlank l = true → l = [])) ∧ f.markdown = unlines ls := by
  have inner : IsListTree codeList := by
    refine .intro rfl (fun i hi => ?_) (fun i hi c hc _ code => ?_)
    · simp only [codeList, List.mem_cons, List.not_mem_nil, or_false] at hi
      rcases hi with rfl | rfl
      all_goals rfl
    · simp only [codeList, List.mem_cons, List.not_mem_nil, or_false] at hi
      rcases hi with rfl | rfl
      · obtain rfl := List.mem_singleton.mp hc
        exact absurd rfl code
      · cases hc
  have tree : IsListTree wideningList := by
    refine .intro rfl (fun i hi => ?_) (fun i hi c hc text _ => ?_)
    · simp only [wideningList, List.mem_cons, List.not_mem_nil, or_false] at hi
      rcases hi with rfl | rfl
      all_goals rfl
    · have paragraph {s : String} (hp : c = .paragraphOf [.ofText s]) : IsListTree c :=
        absurd (hp ▸ rfl) text
      simp only [wideningList, List.mem_cons, List.not_mem_nil, or_false] at hi
      rcases hi with rfl | rfl
      all_goals simp only [Node.listItemOf, List.mem_cons, List.not_mem_nil, or_false] at hc
      · rcases hc with hc | rfl | rfl
        · exact paragraph hc
        · exact inner
        · exact inner
      · rcases hc with rfl | hc
        · exact inner
        · exact paragraph hc
  obtain ⟨⟨f, s⟩, walked⟩ : ∃ r, walk Registry.standard {} 0 wideningList {} = .ok r :=
    exists_ok (by decide +kernel)
  obtain ⟨ls, at_column, clean, markdown⟩ := walk_list_columns tree walked
  exact ⟨tree, f, s, ls, walked, at_column, clean, markdown⟩

end Docmark
