import Docmark.Proofs.Convert.Readback
import Docmark.Proofs.Markdown.RowReading

/-!
Tables of plain text: their Markdown has one line for each row, and one below the first row where
that is a header; the cells are read back from the lines.
-/

namespace Docmark

open Conversion

namespace Node

/-- A cell of one paragraph without marks. -/
structure IsTextCell (n : Node) : Prop where
  kind : n.kind = .tableCell ∨ n.kind = .tableHeader
  holds : ∃ p, n.children = [p] ∧ p.IsTextParagraph

structure IsTextRow (n : Node) : Prop where
  kind : n.kind = .tableRow
  filled : n.children ≠ []
  cells : ∀ c ∈ n.children, c.IsTextCell

structure IsTextTable (n : Node) : Prop where
  kind : n.kind = .table
  filled : n.children ≠ []
  rows : ∀ r ∈ n.children, r.IsTextRow

/-- The text of the runs in the paragraphs of a cell, trimmed. -/
def cellText (n : Node) : Text :=
  Text.strip ((n.children.flatMap Node.children).flatMap content)

def rowTexts (n : Node) : List Text :=
  n.children.map cellText

/-- The Markdown of a cell. -/
def cellMarkdown (n : Node) : Text :=
  n.children.flatMap fun p => Text.strip p.paragraphLine

def cell (n : Node) : Markdown.Cell :=
  ⟨n.cellMarkdown, n.kind == .tableHeader⟩

def cellFragment (n : Node) : Fragment :=
  ⟨n.cellMarkdown, .cell n.cell (Text.occursIn Markdown.lineBreak n.cellMarkdown)⟩

def rowCells (n : Node) : List Markdown.Cell :=
  n.children.map cell

/-- A row with cells. -/
def rowFragment (n : Node) : Fragment :=
  ⟨Markdown.formatRow (n.children.map cellMarkdown), .row n.rowCells⟩

def tableFragment (n : Node) : Fragment :=
  let rows := n.children.map rowCells
  ⟨Markdown.gridTable rows, .gridTable (Markdown.hasHeader rows)⟩

end Node

namespace Markdown

/-- The line below a header of so many cells. -/
def separatorLine (width : Nat) : Text :=
  '|' :: (List.replicate width " --- |".toList).flatten

theorem separatorLine_joinWith {α : Type} {as : List α} (ne : as ≠ []) :
    ' ' :: (Text.joinWith [' ', '|', ' '] (as.map fun _ => separatorCell) ++ [' ', '|']) =
      (List.replicate as.length " --- |".toList).flatten := by
  induction as with
  | nil => exact absurd rfl ne
  | cons a as ih =>
    cases as with
    | nil => rfl
    | cons b bs =>
      rw [List.length_cons, List.replicate_succ, List.flatten_cons, ← ih (by simp), List.map_cons,
        Text.joinWith_cons _ _ (by simp)]
      simp [separatorCell]

theorem formatRow_separatorCell {α : Type} {as : List α} (ne : as ≠ []) :
    formatRow (as.map fun _ => separatorCell) = separatorLine as.length := by
  have cell : escapeCell separatorCell = separatorCell := by decide
  have cells : (as.map fun _ => separatorCell).map escapeCell = as.map fun _ => separatorCell := by
    rw [List.map_map]
    exact List.map_congr_left fun _ _ => cell
  rw [formatRow, cells, separatorLine, ← separatorLine_joinWith ne]
  rfl

/-- A cell of one line is that line, trimmed. -/
theorem joinCell_of_line {t : Text} (h : '\n' ∉ t) :
    (joinCell [t]).1 = Text.strip t ∧ (joinCell [t]).2 ≤ 1 := by
  have line : '\n' ∉ Text.strip t := fun hm => h (Text.mem_of_mem_strip hm)
  by_cases none : Text.strip t = []
  · simp [joinCell, none, Text.joinWith]
  · simp [joinCell, none, Text.joinWith, replaceBreaks_of_not_mem _ line,
      Text.replaceChar_of_not_mem _ line]

end Markdown

namespace Node

theorem IsTextCell.spells {n : Node} (h : n.IsTextCell) :
    Markdown.Spells n.cellMarkdown n.cellText := by
  obtain ⟨p, hc, hp⟩ := h.holds
  have runs : Markdown.Spells (p.children.flatMap runText) (p.children.flatMap content) := by
    refine Markdown.spells_flatMap fun c hc => ?_
    rw [runText_of_isRun (hp.runs c hc)]
    exact Markdown.spells_escape c.content
  have line := (plainLine_runs hp.marked.runs).line
  have spelled := runs.strip.escapeBlockStart.strip
  rw [← Markdown.paragraphText_of_line line] at spelled
  have once : Text.strip (Text.strip (p.children.flatMap content)) =
      Text.strip (p.children.flatMap content) := Text.dropAround_dropAround _ _
  simpa [cellMarkdown, cellText, hc, paragraphLine, once] using spelled

end Node

section walk

variable {ctx : Context} {level : Int}

theorem walk_textCell (escaping : ctx.options.escapeSpecial = true) (below : Nat) (s : Session)
    {n : Node} (h : n.IsTextCell) :
    walkLevels Registry.standard.settle ctx (below + 3) level n s = .ok (n.cellFragment, s) := by
  obtain ⟨p, hc, hp⟩ := h.holds
  have registered : (Registry.standard.settle.get n.kind).1 = some Convert.tableCell := by
    rcases h.kind with hk | hk
    all_goals
      rw [hk]
      rfl
  have children : n.children.mapM (walkLevels Registry.standard.settle ctx (below + 2)
      (n.kind.childLevel level)) s = .ok ([⟨p.paragraphLine, .plain⟩], s) := by
    rw [hc]
    exact mapM_cons_ok.mpr ⟨_, s, [], walk_paragraph escaping below s hp.marked,
      mapM_nil_ok.mpr ⟨rfl, rfl⟩, rfl⟩
  obtain ⟨text, single⟩ := Markdown.joinCell_of_line hp.marked.plainLine.line
  have markdown : n.cellMarkdown = Text.strip p.paragraphLine := by simp [Node.cellMarkdown, hc]
  have one : ¬ 1 < (Markdown.joinCell [p.paragraphLine]).2 := by omega
  rw [walkLevels_run registered children, Convert.tableCell, Node.cellFragment, Node.cell, markdown]
  simp only [List.map_cons, List.map_nil, text, one, decide_false, Bool.false_or]
  rfl

theorem walk_textRow (escaping : ctx.options.escapeSpecial = true) (below : Nat) (s : Session)
    {n : Node} (h : n.IsTextRow) :
    walkLevels Registry.standard.settle ctx (below + 4) level n s = .ok (n.rowFragment, s) := by
  have registered : (Registry.standard.settle.get n.kind).1 = some Convert.tableRow := by
    rw [h.kind]
    rfl
  have children : n.children.mapM (walkLevels Registry.standard.settle ctx (below + 3)
      (n.kind.childLevel level)) s = .ok (n.children.map Node.cellFragment, s) :=
    mapM_of_pure fun c hc => walk_textCell escaping below s (h.cells c hc)
  have cells : (n.children.map Node.cellFragment).map Convert.cellOf = n.rowCells := by
    rw [List.map_map]
    rfl
  have filled : n.rowCells.isEmpty = false := by simp [Node.rowCells, h.filled]
  have texts : n.rowCells.map Markdown.Cell.text = n.children.map Node.cellMarkdown := by
    rw [Node.rowCells, List.map_map]
    rfl
  rw [walkLevels_run registered children, Convert.tableRow, Node.rowFragment, ← texts]
  simp only [cells, filled, Bool.false_eq_true, ↓reduceIte]
  rfl

theorem walk_textTable (grid : ctx.options.propertyTables = false)
    (escaping : ctx.options.escapeSpecial = true) (below : Nat) (s : Session) {n : Node}
    (h : n.IsTextTable) :
    walkLevels Registry.standard.settle ctx (below + 5) level n s = .ok (n.tableFragment, s) := by
  have registered : (Registry.standard.settle.get n.kind).1 = some Convert.table := by
    rw [h.kind]
    rfl
  have children : n.children.mapM (walkLevels Registry.standard.settle ctx (below + 4)
      (n.kind.childLevel level)) s = .ok (n.children.map Node.rowFragment, s) :=
    mapM_of_pure fun r hr => walk_textRow escaping below s (h.rows r hr)
  have rows : ((n.children.map Node.rowFragment).map Convert.cellsOf).filter
      (fun row => !row.isEmpty) = n.children.map Node.rowCells := by
    rw [List.map_map, List.filter_eq_self.mpr]
    · rfl
    · intro row hrow
      obtain ⟨r, hr, rfl⟩ := List.mem_map.mp hrow
      simp [Convert.cellsOf, Node.rowFragment, Node.rowCells, (h.rows r hr).filled]
  have filled : (n.children.map Node.rowCells).isEmpty = false := by simp [h.filled]
  rw [walkLevels_run registered children, Convert.table, Node.tableFragment]
  simp only [rows, filled, grid, Bool.false_and, Bool.false_eq_true, ↓reduceIte]
  rfl

end walk

namespace Node

theorem covers_of_kind {n : Node} (known : n.kind ≠ .unknown)
    (below : ∀ c ∈ n.children, Registry.standard.settle.Covers c) :
    Registry.standard.settle.Covers n := by
  refine .intro ?_ below
  cases hk : n.kind with
  | unknown => exact absurd hk known
  | _ => rfl

theorem IsTextParagraph.covered {n : Node} (h : n.IsTextParagraph) :
    Registry.standard.settle.Covers n := by
  refine covers_of_kind (by simp [h.kind]) fun c hc => covers_of_kind ?_ ?_
  · simp [(h.runs c hc).kind]
  · simp [(h.runs c hc).leaf]

theorem IsTextCell.covered {n : Node} (h : n.IsTextCell) : Registry.standard.settle.Covers n := by
  obtain ⟨p, hc, hp⟩ := h.holds
  refine covers_of_kind ?_ fun c hm => ?_
  · rcases h.kind with hk | hk
    all_goals simp [hk]
  · rw [hc, List.mem_singleton] at hm
    exact hm ▸ hp.covered

theorem IsTextTable.covered {n : Node} (h : n.IsTextTable) :
    Registry.standard.settle.Covers n := by
  refine covers_of_kind (by simp [h.kind]) fun r hr => covers_of_kind ?_ fun c hc => ?_
  · simp [(h.rows r hr).kind]
  · exact ((h.rows r hr).cells c hc).covered

theorem IsTextRow.reads {n : Node} (h : n.IsTextRow) :
    Markdown.readRow (Markdown.formatRow (n.rowCells.map Markdown.Cell.text)) =
      some n.rowTexts := by
  have spelled : List.Forall₂ Markdown.Spells (n.rowCells.map Markdown.Cell.text) n.rowTexts := by
    have cells := h.cells
    rw [rowCells, List.map_map, rowTexts, List.forall₂_map_left_iff, List.forall₂_map_right_iff,
      List.forall₂_same]
    exact fun c hc => (cells c hc).spells
  rw [Markdown.readRow_formatRow (by simp [rowCells, h.filled]) spelled, rowTexts, List.map_map]
  refine congrArg some (List.map_congr_left fun c _ => ?_)
  exact Text.dropAround_dropAround _ _

theorem IsTextCell.line {n : Node} (h : n.IsTextCell) : '\n' ∉ n.cellMarkdown := by
  obtain ⟨p, hc, hp⟩ := h.holds
  simpa [cellMarkdown, hc] using hp.marked.plainLine.strip.line

/-- A cell is blank where its text is. -/
theorem IsTextCell.isBlank {n : Node} (h : n.IsTextCell) :
    Text.isBlank n.cellMarkdown = Text.isBlank n.cellText := by
  obtain ⟨p, hc, hp⟩ := h.holds
  have line := (plainLine_runs hp.marked.runs).line
  simp only [cellMarkdown, cellText, hc, List.flatMap_cons, List.flatMap_nil, List.append_nil]
  rw [Text.isBlank_strip, paragraphLine, Markdown.isBlank_paragraphText line, isBlank_runs hp.runs,
    Text.isBlank_strip]

theorem IsTextRow.line {n : Node} (h : n.IsTextRow) :
    '\n' ∉ Markdown.formatRow (n.rowCells.map Markdown.Cell.text) := by
  refine Markdown.newline_not_mem_formatRow fun t ht => ?_
  rw [rowCells, List.map_map] at ht
  obtain ⟨c, hc, rfl⟩ := List.mem_map.mp ht
  exact (h.cells c hc).line

/-- The line below the first row, where that is a header. -/
def headerLines (row : Node) : List Text :=
  if row.rowTexts.all fun t => !Text.isBlank t then [Markdown.separatorLine row.children.length]
  else []

theorem IsTextRow.headerLines {n : Node} (h : n.IsTextRow) (rest : List (List Markdown.Cell)) :
    (if Markdown.hasHeader (n.rowCells :: rest) then
      [Markdown.formatRow (n.rowCells.map fun _ => Markdown.separatorCell)] else []) =
      n.headerLines := by
  have header : Markdown.hasHeader (n.rowCells :: rest) =
      n.rowTexts.all fun t => !Text.isBlank t := by
    have cells : n.rowCells.all (fun c => !Text.isBlank c.text) =
        n.children.all fun c => !Text.isBlank c.cellMarkdown := List.all_map
    have texts : n.rowTexts.all (fun t => !Text.isBlank t) =
        n.children.all fun c => !Text.isBlank c.cellText := List.all_map
    rw [Markdown.hasHeader, List.headD_cons, cells, texts, Bool.eq_iff_iff, List.all_eq_true,
      List.all_eq_true]
    exact forall₂_congr fun c hc => by rw [(h.cells c hc).isBlank]
  rw [header, Node.headerLines, Markdown.formatRow_separatorCell (by simp [rowCells, h.filled]),
    rowCells, List.length_map]

theorem newline_not_mem_headerLines {n : Node} {l : Text} (h : l ∈ n.headerLines) : '\n' ∉ l := by
  rw [Node.headerLines] at h
  split at h
  · rw [List.mem_singleton.mp h, Markdown.separatorLine]
    intro hm
    rcases List.mem_cons.mp hm with hm | hm
    · cases hm
    · obtain ⟨t, ht, hc⟩ := List.mem_flatten.mp hm
      rw [List.eq_of_mem_replicate ht] at hc
      revert hc
      decide
  · cases h

theorem IsTextTable.lines {n : Node} (h : n.IsTextTable) {first : Node} {rest : List Node}
    (rows : n.children = first :: rest) :
    Text.lines n.tableFragment.markdown =
      Markdown.formatRow (first.rowCells.map Markdown.Cell.text) :: first.headerLines ++
        rest.map fun row => Markdown.formatRow (row.rowCells.map Markdown.Cell.text) := by
  have isRow (r : Node) (hr : r ∈ first :: rest) : r.IsTextRow := h.rows r (rows ▸ hr)
  simp only [tableFragment, rows, List.map_cons, Markdown.gridTable,
    (isRow first (by simp)).headerLines, List.map_map]
  refine Text.lines_unlines (by simp) fun l hl => ?_
  rcases List.mem_append.mp hl with hl | hl
  · rcases List.mem_cons.mp hl with rfl | hl
    · exact (isRow first (by simp)).line
    · exact newline_not_mem_headerLines hl
  · obtain ⟨r, hr, rfl⟩ := List.mem_map.mp hl
    exact (isRow r (by simp [hr])).line

end Node

/--
A table of plain text has a line for each row, from which the cells are read back, and a line below
the first row just where no cell of that is blank.
-/
theorem walk_table_reads {ctx : Context} (grid : ctx.options.propertyTables = false)
    (escaping : ctx.options.escapeSpecial = true) {n : Node} (h : n.IsTextTable) (level : Int)
    (s : Session) :
    (5 ≤ ctx.ceiling.levels → ∃ f, walk Registry.standard ctx level n s = .ok (f, s)) ∧
    ∀ f s', walk Registry.standard ctx level n s = .ok (f, s') →
      ∃ first rest top under, n.children = first :: rest ∧
        Text.lines f.markdown = top :: first.headerLines ++ under ∧
        Markdown.readRow top = some first.rowTexts ∧
        under.map Markdown.readRow = rest.map fun row => some row.rowTexts := by
  have walked (below : Nat) : walkLevels Registry.standard.settle ctx (below + 5) level n s =
      .ok (n.tableFragment, s) := walk_textTable grid escaping below s h
  refine ⟨fun deep => ?_, fun f s' run => ?_⟩
  · obtain ⟨below, hb⟩ := Nat.exists_eq_add_of_le' deep
    refine ⟨n.tableFragment, ?_⟩
    rw [walk, hb]
    exact walked below
  · have more := h.covered.walkLevels_le (Nat.le_add_right ctx.ceiling.levels 5) run
    rw [walked ctx.ceiling.levels] at more
    cases more
    obtain ⟨first, rest, rows⟩ := List.exists_cons_of_ne_nil h.filled
    have row (r : Node) (hr : r ∈ first :: rest) := (h.rows r (rows ▸ hr)).reads
    refine ⟨first, rest, _, _, rows, h.lines rows, row first (by simp), ?_⟩
    rw [List.map_map]
    exact List.map_congr_left fun r hr => row r (by simp [hr])

/-- Bars and backslashes in the cells, and a row that is no header. -/
def barredTable : Node :=
  let cell (tag : String) (s : String) : Node := ⟨tag, [], [.paragraphOf [.ofText s]], none, []⟩
  let row (cells : List Node) : Node := ⟨"tableRow", [], cells, none, []⟩
  ⟨"table", [],
    [row [cell "tableHeader" "a|b", cell "tableHeader" "# c\\"],
     row [cell "tableCell" "\\|\\\\| *d*", cell "tableCell" " "]], none, []⟩

theorem barredTable_reads :
    barredTable.IsTextTable ∧ ∃ f first rest top under,
      walk Registry.standard { options := { propertyTables := false } } 0 barredTable {} =
        .ok (f, {}) ∧ barredTable.children = first :: rest ∧
      Text.lines f.markdown = top :: first.headerLines ++ under ∧
      Markdown.readRow top = some first.rowTexts ∧
      under.map Markdown.readRow = rest.map fun row => some row.rowTexts := by
  have cell {tag s : String} (kind : NodeKind.ofTag tag = .tableCell ∨
      NodeKind.ofTag tag = .tableHeader) (line : '\n' ∉ s.toList) :
      Node.IsTextCell ⟨tag, [], [.paragraphOf [.ofText s]], none, []⟩ := by
    refine ⟨kind, _, rfl, rfl, fun c hc => ?_⟩
    exact List.mem_singleton.mp hc ▸ Node.isRun_ofText line
  have isTable : barredTable.IsTextTable := by
    refine ⟨rfl, List.cons_ne_nil _ _, fun r hr => ?_⟩
    simp only [barredTable, List.mem_cons, List.not_mem_nil, or_false] at hr
    rcases hr with rfl | rfl
    · refine ⟨rfl, List.cons_ne_nil _ _, fun c hc => ?_⟩
      simp only [List.mem_cons, List.not_mem_nil, or_false] at hc
      rcases hc with rfl | rfl
      · exact cell (Or.inr rfl) (by decide)
      · exact cell (Or.inr rfl) (by decide)
    · refine ⟨rfl, List.cons_ne_nil _ _, fun c hc => ?_⟩
      simp only [List.mem_cons, List.not_mem_nil, or_false] at hc
      rcases hc with rfl | rfl
      · exact cell (Or.inl rfl) (by decide)
      · exact cell (Or.inl rfl) (by decide)
  obtain ⟨runs, reads⟩ := @walk_table_reads
    { options := { propertyTables := false } } rfl rfl _ isTable 0 {}
  obtain ⟨f, walked⟩ := runs (by decide)
  obtain ⟨first, rest, top, under, rows, lines, header, others⟩ := reads f {} walked
  exact ⟨isTable, f, first, rest, top, under, walked, rows, lines, header, others⟩

end Docmark
