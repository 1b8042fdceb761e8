import Docmark.Convert.Walk
import Docmark.Proofs.Markdown.ItemLayout
import Docmark.Proofs.Text.Decimal

/-!
Where the lines of nested lists stand: a relation between a list, the column of its markers and its
lines, which holds on when a list is moved to the right and when its markers are switched.
-/

namespace Docmark

open Markdown Text

/-- A block of an item with its lines, which stand in the list, and a blank line in front or not. -/
structure PlacedBlock where
  node : Node
  gap : Bool
  lines : List Text

structure PlacedItem where
  marker : Text
  node : Node
  blocks : List PlacedBlock

def PlacedBlock.body (b : PlacedBlock) : MarkedLines :=
  (if b.gap then [(false, [])] else []) ++ b.lines.map fun l => (b.node.kind.isList, l)

def PlacedItem.body (i : PlacedItem) : MarkedLines :=
  i.blocks.flatMap PlacedBlock.body

/-- The lines of an item: that of the marker and those below it. -/
def PlacedItem.lines (column : Nat) (i : PlacedItem) : List Text :=
  itemLines column i.marker i.body

/-- The column of the content of an item whose marker stands at a column. -/
def PlacedItem.inner (column : Nat) (i : PlacedItem) : Nat :=
  column + i.marker.length + 1

/-- The markers of a list, which come in two forms. -/
inductive HasMarkers (n : Node) (other : Bool) : List Text → Prop
  | bullet (kind : n.kind = .bulletList) :
    HasMarkers n other (n.children.map fun _ => [if other then '*' else '-'])
  | ordered (kind : n.kind = .orderedList) {start : Nat}
      (first : Convert.orderedStart n = .ok start) :
    HasMarkers n other ((List.range' start n.children.length).map fun number =>
      decimal number ++ [if other then ')' else '.'])

/-- Lines that a node is converted to somewhere in a document. -/
def IsConverted (ctx : Context) (n : Node) (ls : List Text) : Prop :=
  ∃ levels level s f s', walkLevels Registry.standard.settle ctx levels level n s = .ok (f, s') ∧
    ls = shownLines f.markdown

/--
The lines of a list whose markers stand at a column. The content of an item, all but what stands
beside its marker, is one column further to the right than the marker ends.
-/
inductive ListAt (ctx : Context) : Nat → Node → List Text → Prop
  | intro {column : Nat} {n : Node} {other : Bool} {items : List PlacedItem}
      (nodes : items.map PlacedItem.node = n.children)
      (markers : HasMarkers n other (items.map PlacedItem.marker))
      (blocks : ∀ i ∈ items, i.blocks.map PlacedBlock.node = i.node.children)
      (texts : ∀ i ∈ items, ∀ b ∈ i.blocks, b.node.kind.isList = false →
        ∃ ls, IsConverted ctx b.node ls ∧ b.lines = ls.map (indentLine (i.inner column)))
      (lists : ∀ i ∈ items, ∀ b ∈ i.blocks, b.node.kind.isList = true →
        ListAt ctx (i.inner column) b.node b.lines)
      (below : ∀ i ∈ items, ∀ l ∈ belowMarker i.body, Reaches (i.inner column) l) :
      ListAt ctx column n (items.flatMap (PlacedItem.lines column))

theorem HasMarkers.exists_cons {n : Node} {other : Bool} {ms : List Text}
    (h : HasMarkers n other ms) {m : Text} (hm : m ∈ ms) :
    ∃ c r, m = c :: r ∧ isBlankChar c = false := by
  cases h with
  | bullet =>
    obtain ⟨c, -, rfl⟩ := List.mem_map.mp hm
    exact ⟨_, [], rfl, by cases other <;> decide⟩
  | ordered =>
    obtain ⟨number, -, rfl⟩ := List.mem_map.mp hm
    obtain ⟨d, ds, hd⟩ := List.exists_cons_of_ne_nil (decimal_ne_nil number)
    have digit : isDecimal d = true :=
      isDecimal_of_isDigit (isDigit_of_mem_decimal (n := number) (by simp [hd]))
    rw [hd]
    exact ⟨d, _, rfl, not_isBlankChar_of_isDecimal digit⟩

theorem HasMarkers.shown {n : Node} {other : Bool} {ms : List Text} (h : HasMarkers n other ms)
    {m : Text} (hm : m ∈ ms) : isBlank m = false := by
  obtain ⟨c, r, rfl, shown⟩ := h.exists_cons hm
  rw [isBlank, List.all_cons, shown, Bool.false_and]

theorem HasMarkers.filled {n : Node} {other : Bool} {ms : List Text} (h : HasMarkers n other ms)
    {m : Text} (hm : m ∈ ms) : m ≠ [] :=
  ne_nil_of_not_isBlank (h.shown hm)

theorem HasMarkers.newline {n : Node} {other : Bool} {ms : List Text} (h : HasMarkers n other ms)
    {m : Text} (hm : m ∈ ms) : '\n' ∉ m := by
  cases h with
  | bullet =>
    obtain ⟨c, -, rfl⟩ := List.mem_map.mp hm
    cases other <;> decide
  | ordered =>
    obtain ⟨number, -, rfl⟩ := List.mem_map.mp hm
    intro hn
    rcases List.mem_append.mp hn with hn | hn
    · have := isDigit_of_mem_decimal hn
      revert this
      decide
    · revert hn
      cases other <;> decide

/-- The markers that a list is written with are decided by the list. -/
theorem HasMarkers.unique {n : Node} {other : Bool} {ms ms' : List Text}
    (h : HasMarkers n other ms) (h' : HasMarkers n other ms') : ms = ms' := by
  cases h with
  | bullet kind =>
    cases h' with
    | bullet => rfl
    | ordered kind' =>
      rw [kind] at kind'
      cases kind'
  | ordered kind first =>
    cases h' with
    | bullet kind' =>
      rw [kind] at kind'
      cases kind'
    | ordered kind' first' =>
      rw [first] at first'
      cases first'
      rfl

section shift

def PlacedBlock.map (g : Bool → Text → Text) (b : PlacedBlock) : PlacedBlock :=
  { b with lines := b.lines.map (g b.node.kind.isList) }

def PlacedItem.map (g : Bool → Text → Text) (i : PlacedItem) : PlacedItem :=
  { i with blocks := i.blocks.map (PlacedBlock.map g) }

theorem PlacedItem.body_map {g : Bool → Text → Text} (empty : ∀ nested, g nested [] = [])
    (i : PlacedItem) : (i.map g).body = mapLines g i.body := by
  have block (b : PlacedBlock) : (b.map g).body = mapLines g b.body := by
    rw [PlacedBlock.body, PlacedBlock.body, mapLines, List.map_append]
    congr 1
    · cases hb : b.gap with
      | true => simp [PlacedBlock.map, hb, empty]
      | false => simp [PlacedBlock.map, hb]
    · simp [PlacedBlock.map, Function.comp_def]
  rw [PlacedItem.body, PlacedItem.map, List.flatMap_map, PlacedItem.body, mapLines,
    List.map_flatMap]
  exact List.flatMap_congr fun b _ => block b

def PlacedItem.shift (k : Nat) (i : PlacedItem) : PlacedItem :=
  i.map fun _ => indentLine k

theorem PlacedItem.body_shift (k : Nat) (i : PlacedItem) :
    (i.shift k).body = mapLines (fun _ => indentLine k) i.body :=
  i.body_map fun _ => rfl

/-- A list stands as it did after it is moved to the right. -/
theorem ListAt.shift {ctx : Context} {column : Nat} {n : Node} {ls : List Text}
    (h : ListAt ctx column n ls) (k : Nat) : ListAt ctx (column + k) n (ls.map (indentLine k)) := by
  induction h with
  | @intro column n other items nodes markers blocks texts lists below ih =>
    have inner (i : PlacedItem) : (i.shift k).inner (column + k) = i.inner column + k := by
      simp only [PlacedItem.inner, PlacedItem.shift, PlacedItem.map]
      omega
    have moved : (items.flatMap (PlacedItem.lines column)).map (indentLine k) =
        (items.map (PlacedItem.shift k)).flatMap (PlacedItem.lines (column + k)) := by
      rw [List.map_flatMap, List.flatMap_map]
      refine List.flatMap_congr fun i hi => ?_
      rw [PlacedItem.lines, PlacedItem.lines, PlacedItem.body_shift,
        map_indentLine_itemLines (markers.shown (List.mem_map_of_mem hi))]
      rfl
    rw [moved]
    refine @ListAt.intro ctx _ _ other _ ?_ ?_ ?_ ?_ ?_ ?_
    · rw [List.map_map, ← nodes]
      rfl
    · rw [List.map_map]
      exact markers
    · intro j hj
      obtain ⟨i, hi, rfl⟩ := List.mem_map.mp hj
      simp only [PlacedItem.shift, PlacedItem.map, List.map_map]
      exact blocks i hi
    · intro j hj c hc text
      obtain ⟨i, hi, rfl⟩ := List.mem_map.mp hj
      obtain ⟨b, hb, rfl⟩ := List.mem_map.mp hc
      obtain ⟨ls, made, hl⟩ := texts i hi b hb text
      refine ⟨ls, made, ?_⟩
      rw [inner, PlacedBlock.map, hl, List.map_map]
      exact List.map_congr_left fun l _ => indentLine_indentLine _ _ l
    · intro j hj c hc list
      obtain ⟨i, hi, rfl⟩ := List.mem_map.mp hj
      obtain ⟨b, hb, rfl⟩ := List.mem_map.mp hc
      rw [inner]
      exact ih i hi b hb list
    · intro j hj l hl
      obtain ⟨i, hi, rfl⟩ := List.mem_map.mp hj
      rw [PlacedItem.body_shift, belowMarker_mapLines] at hl
      obtain ⟨m, hm, rfl⟩ := List.mem_map.mp hl
      rw [inner]
      exact (below i hi m hm).indentLine k

end shift

theorem PlacedItem.mem_body {i : PlacedItem} {x : Bool × Text} (h : x ∈ i.body) :
    x = (false, []) ∨ ∃ b ∈ i.blocks, x.2 ∈ b.lines := by
  obtain ⟨b, hb, hx⟩ := List.mem_flatMap.mp h
  rcases List.mem_append.mp hx with hx | hx
  · split at hx
    · exact Or.inl (List.mem_singleton.mp hx)
    · cases hx
  · obtain ⟨l, hl, rfl⟩ := List.mem_map.mp hx
    exact Or.inr ⟨b, hb, hl⟩

theorem ListAt.newline {ctx : Context} {column : Nat} {n : Node} {ls : List Text}
    (h : ListAt ctx column n ls) {l : Text} (hl : l ∈ ls) : '\n' ∉ l := by
  induction h generalizing l with
  | @intro column n other items nodes markers blocks texts lists below ih =>
    obtain ⟨i, hi, hl⟩ := List.mem_flatMap.mp hl
    have content : ∀ x ∈ i.body, '\n' ∉ x.2 := by
      intro x hx
      rcases PlacedItem.mem_body hx with rfl | ⟨b, hb, hl⟩
      · simp
      · cases hk : b.node.kind.isList with
        | true => exact ih i hi b hb hk hl
        | false =>
          obtain ⟨ms, ⟨_, _, _, f, _, _, rfl⟩, he⟩ := texts i hi b hb hk
          rw [he] at hl
          obtain ⟨m, hm, hx⟩ := List.mem_map.mp hl
          rw [← hx]
          exact newline_not_mem_indentLine (newline_not_mem_shownLines hm) _
    have beside : '\n' ∉ besideMarker i.body := by
      match hb : i.body with
      | [] => simp [besideMarker]
      | (true, _) :: _ => simp [besideMarker]
      | (false, m) :: _ =>
        have := content (false, m) (by simp [hb])
        simpa [besideMarker] using fun hm => this (mem_of_mem_strip hm)
    rcases List.mem_cons.mp hl with rfl | hl
    · simp [newline_not_mem_spaces, markers.newline (List.mem_map_of_mem hi), beside]
    · obtain ⟨nested, hx⟩ := mem_belowMarker hl
      exact content _ hx

/-- All lines of a list reach its column. -/
theorem ListAt.reaches {ctx : Context} {column : Nat} {n : Node} {ls : List Text}
    (h : ListAt ctx column n ls) {l : Text} (hl : l ∈ ls) : Reaches column l := by
  cases h with
  | intro nodes markers blocks texts lists below =>
    obtain ⟨i, hi, hl⟩ := List.mem_flatMap.mp hl
    rcases List.mem_cons.mp hl with rfl | hl
    · have shown := markers.shown (List.mem_map_of_mem hi)
      refine Or.inr ⟨?_, ?_⟩
      · rw [List.append_assoc, isBlank_spaces_append, isBlank_append, shown, Bool.false_and]
      · rw [List.append_assoc, indentWidth_spaces_append]
        omega
    · refine (below i hi l hl).le ?_
      rw [PlacedItem.inner]
      omega

section switch

/-- The other form of a marker. -/
def otherEnd (c : Char) : Char :=
  if c = '-' then '*' else if c = '.' then ')' else c

def otherMarker (m : Text) : Text :=
  m.dropLast ++ (m.getLast?.map otherEnd).toList

/-- What switching makes of a line of a list whose markers stand at a column. -/
def switchLine (column : Nat) (kind : ListKind) (line : Text) : Text :=
  if !isBlank line && indentWidth line == column then switchMarker kind line else line

theorem length_otherMarker (m : Text) : (otherMarker m).length = m.length := by
  cases hm : m.getLast? with
  | none => simp [otherMarker, List.getLast?_eq_none_iff.mp hm]
  | some c =>
    obtain ⟨front, rfl⟩ := List.getLast?_eq_some_iff.mp hm
    simp [otherMarker]

theorem HasMarkers.other {n : Node} {other : Bool} {ms : List Text} (h : HasMarkers n other ms) :
    HasMarkers n true (ms.map otherMarker) := by
  cases h with
  | bullet kind =>
    have same : (n.children.map fun _ => [if other then '*' else '-']).map otherMarker =
        n.children.map fun _ => ['*'] := by
      rw [List.map_map]
      refine List.map_congr_left fun c _ => ?_
      cases other <;> rfl
    rw [same]
    exact .bullet kind
  | @ordered kind start first =>
    have same : ((List.range' start n.children.length).map fun number =>
        decimal number ++ [if other then ')' else '.']).map otherMarker =
          (List.range' start n.children.length).map fun number => decimal number ++ [')'] := by
      rw [List.map_map]
      refine List.map_congr_left fun number _ => ?_
      cases other <;> simp [otherMarker, otherEnd]
    rw [same]
    exact .ordered kind first

theorem isMarkerEnd_besideMarker (body : MarkedLines) : isMarkerEnd (besideMarker body) = true := by
  match body with
  | [] => rfl
  | (true, _) :: _ => rfl
  | (false, _) :: _ => rfl

/-- The kind of list that a node becomes. -/
def listKindOf : NodeKind → Option ListKind
  | .bulletList => some .bullet
  | .orderedList => some .ordered
  | _ => none

theorem switchMarker_bullet (column : Nat) (c : Char) {rest : Text} (ends : isMarkerEnd rest = true)
    (shown : isBlankChar c = false) :
    Markdown.switchMarker .bullet (spaces column ++ c :: rest) =
      spaces column ++ (if c = '-' then '*' else c) :: rest := by
  have indent : (spaces column ++ c :: rest).takeWhile isBlankChar = spaces column := by
    rw [takeWhile_spaces_append, List.takeWhile_cons_of_neg (by simp [shown]), List.append_nil]
  have body : (spaces column ++ c :: rest).dropWhile isBlankChar = c :: rest := by
    rw [dropWhile_spaces_append, List.dropWhile_cons_of_neg (by simp [shown])]
  rw [Markdown.switchMarker]
  simp only [indent, body]
  split
  · rename_i he
    obtain ⟨rfl, rfl⟩ := List.cons.inj he
    rw [if_pos ends, if_pos rfl]
  · rename_i bare
    rw [if_neg fun he => bare rest (by rw [he])]

theorem switchMarker_ordered (column number : Nat) (c : Char) {rest : Text}
    (ends : isMarkerEnd rest = true) (mark : isDecimal c = false) :
    Markdown.switchMarker .ordered (spaces column ++ (decimal number ++ c :: rest)) =
      spaces column ++ (decimal number ++ (if c = '.' then ')' else c) :: rest) := by
  have digits : ∀ d ∈ decimal number, isDecimal d = true := fun d hd =>
    isDecimal_of_isDigit (isDigit_of_mem_decimal hd)
  obtain ⟨d, ds, hd⟩ := List.exists_cons_of_ne_nil (decimal_ne_nil number)
  have shown : isBlankChar d = false := not_isBlankChar_of_isDecimal (digits d (by simp [hd]))
  have indent : (spaces column ++ (decimal number ++ c :: rest)).takeWhile isBlankChar =
      spaces column := by
    rw [takeWhile_spaces_append, hd, List.cons_append, List.takeWhile_cons_of_neg (by simp [shown]),
      List.append_nil]
  have body : (spaces column ++ (decimal number ++ c :: rest)).dropWhile isBlankChar =
      decimal number ++ c :: rest := by
    rw [dropWhile_spaces_append, hd, List.cons_append, List.dropWhile_cons_of_neg (by simp [shown])]
  obtain ⟨front, back⟩ := span_stop digits mark rest
  have filled : (decimal number).isEmpty = false := by simp [hd]
  rw [Markdown.switchMarker]
  simp only [indent, body, front, back, filled]
  split
  · rename_i he
    obtain ⟨rfl, rfl⟩ := List.cons.inj he
    simp [ends]
  · rename_i bare
    rw [if_neg fun he => bare rest (by rw [he])]

/-- The line of a marker, after its list is switched. -/
theorem HasMarkers.switchMarker {n : Node} {other : Bool} {ms : List Text}
    (h : HasMarkers n other ms) {m : Text} (hm : m ∈ ms) {kind : ListKind}
    (hk : listKindOf n.kind = some kind) (column : Nat) (body : MarkedLines) :
    Markdown.switchMarker kind (spaces column ++ m ++ besideMarker body) =
      spaces column ++ otherMarker m ++ besideMarker body := by
  have ends := isMarkerEnd_besideMarker body
  cases h with
  | bullet list =>
    obtain ⟨c, -, rfl⟩ := List.mem_map.mp hm
    rw [list] at hk
    cases hk
    have line := switchMarker_bullet column (if other then '*' else '-') ends
      (by cases other <;> decide)
    cases other
    all_goals simpa [otherMarker, otherEnd] using line
  | ordered list =>
    obtain ⟨number, -, rfl⟩ := List.mem_map.mp hm
    rw [list] at hk
    cases hk
    have line := switchMarker_ordered column number (if other then ')' else '.') ends
      (by cases other <;> exact not_isDecimal_of_gap (by decide))
    cases other
    all_goals simpa [otherMarker, otherEnd] using line

theorem isBlank_switchLine (column : Nat) (kind : ListKind) (line : Text) :
    isBlank (switchLine column kind line) = isBlank line := by
  rw [switchLine]
  split
  · exact isBlank_switchMarker kind line
  · rfl

theorem switchLine_of_reaches {column far : Nat} (lt : column < far) (kind : ListKind)
    {line : Text} (h : Reaches far line) : switchLine column kind line = line := by
  rcases h with rfl | ⟨-, reach⟩
  · rfl
  · rw [switchLine, if_neg]
    simp only [Bool.and_eq_true, beq_iff_eq, not_and]
    intro _
    omega

def PlacedItem.switch (i : PlacedItem) : PlacedItem :=
  { i with marker := otherMarker i.marker }

theorem PlacedItem.inner_switch (column : Nat) (i : PlacedItem) :
    i.switch.inner column = i.inner column := by
  rw [inner, inner, switch, length_otherMarker]

theorem HasMarkers.switchLine {n : Node} {other : Bool} {ms : List Text}
    (h : HasMarkers n other ms) {m : Text} (hm : m ∈ ms) {kind : ListKind}
    (hk : listKindOf n.kind = some kind) (column : Nat) (body : MarkedLines) :
    Docmark.switchLine column kind (spaces column ++ m ++ besideMarker body) =
      spaces column ++ otherMarker m ++ besideMarker body := by
  rw [Docmark.switchLine, if_pos, h.switchMarker hm hk]
  obtain ⟨c, r, he, shown⟩ := h.exists_cons hm
  rw [List.append_assoc, isBlank_spaces_append, indentWidth_spaces_append, he]
  simp [isBlank, indentWidth, shown]

/-- Switching the lines of a list changes its own markers, as long as all else stands deeper. -/
theorem map_switchLine_items {n : Node} {other : Bool} {column : Nat} {items : List PlacedItem}
    (markers : HasMarkers n other (items.map PlacedItem.marker))
    (below : ∀ i ∈ items, ∀ l ∈ belowMarker i.body, Reaches (i.inner column) l) {kind : ListKind}
    (hk : listKindOf n.kind = some kind) :
    (items.flatMap (PlacedItem.lines column)).map (switchLine column kind) =
      (items.map PlacedItem.switch).flatMap (PlacedItem.lines column) := by
  rw [List.map_flatMap, List.flatMap_map]
  refine List.flatMap_congr fun i hi => ?_
  have first := markers.switchLine (List.mem_map_of_mem hi) hk column i.body
  have rest : (belowMarker i.body).map (switchLine column kind) = belowMarker i.body := by
    refine (List.map_congr_left fun l hl => ?_).trans (List.map_id _)
    refine switchLine_of_reaches ?_ kind (below i hi l hl)
    rw [PlacedItem.inner]
    omega
  rw [PlacedItem.lines, itemLines, List.map_cons, first, rest]
  rfl

/-- A list stands as it did, under its other markers, after these are switched. -/
theorem ListAt.switch {ctx : Context} {column : Nat} {n : Node} {ls : List Text}
    (h : ListAt ctx column n ls) {kind : ListKind} (hk : listKindOf n.kind = some kind) :
    ListAt ctx column n (ls.map (switchLine column kind)) := by
  cases h with
  | @intro _ _ other items nodes markers blocks texts lists below =>
    rw [map_switchLine_items markers below hk]
    refine @ListAt.intro ctx _ _ true _ ?_ ?_ ?_ ?_ ?_ ?_
    · rw [List.map_map, ← nodes]
      rfl
    · have switched := markers.other
      rw [List.map_map] at switched ⊢
      exact switched
    · intro j hj
      obtain ⟨i, hi, rfl⟩ := List.mem_map.mp hj
      exact blocks i hi
    · intro j hj b hb text
      obtain ⟨i, hi, rfl⟩ := List.mem_map.mp hj
      rw [PlacedItem.inner_switch]
      exact texts i hi b hb text
    · intro j hj b hb list
      obtain ⟨i, hi, rfl⟩ := List.mem_map.mp hj
      rw [PlacedItem.inner_switch]
      exact lists i hi b hb list
    · intro j hj l hl
      obtain ⟨i, hi, rfl⟩ := List.mem_map.mp hj
      rw [PlacedItem.inner_switch]
      exact below i hi l hl

/-- The first line of a list that has one. -/
theorem ListAt.indentWidth_head {ctx : Context} {column : Nat} {n : Node} {l : Text}
    {ls : List Text} (h : ListAt ctx column n (l :: ls)) : indentWidth l = column := by
  generalize hw : l :: ls = written at h
  cases h with
  | @intro _ _ other items nodes markers blocks texts lists below =>
    match items with
    | [] => cases hw
    | i :: items =>
      obtain ⟨rfl, -⟩ := List.cons.inj hw
      obtain ⟨c, r, he, shown⟩ := markers.exists_cons (List.mem_map_of_mem List.mem_cons_self)
      rw [List.append_assoc, indentWidth_spaces_append, he]
      simp [indentWidth, shown]

/-- Switching the markers of a list is done to its lines one by one. -/
theorem ListAt.switchMarkers {ctx : Context} {column : Nat} {n : Node} {ls : List Text}
    (h : ListAt ctx column n ls) (ne : ls ≠ []) (kind : ListKind) :
    Markdown.switchMarkers kind (unlines ls) = unlines (ls.map (switchLine column kind)) := by
  obtain ⟨l, rest, rfl⟩ := List.exists_cons_of_ne_nil ne
  have cut := lines_unlines ne fun _ hl => h.newline hl
  rw [Markdown.switchMarkers, cut]
  simp only [List.headD_cons, h.indentWidth_head]
  rfl

end switch

end Docmark
