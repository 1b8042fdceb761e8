import Docmark.Convert.Fragment
import Docmark.Markdown.Table

/-!
Tables. Rows hand their cells to the table as they are, not as Markdown to be split again.
-/

namespace Docmark.Convert

def tableCell : Converter := fun _ n children _ =>
  let (content, count) := Markdown.joinCell (children.map Fragment.markdown)
  let multiline := 1 < count || Text.occursIn Markdown.lineBreak content
  return ⟨content, .cell ⟨content, n.kind == .tableHeader⟩ multiline⟩

/-- A child that is no cell becomes one. -/
def cellOf (f : Fragment) : Markdown.Cell :=
  match f.fact with
  | .cell cell _ => cell
  | _ => ⟨Text.strip f.markdown, false⟩

def tableRow : Converter := fun _ _ children _ =>
  let cells := children.map cellOf
  let row := if cells.isEmpty then [] else Markdown.formatRow (cells.map Markdown.Cell.text)
  return ⟨row, .row cells⟩

def cellsOf (f : Fragment) : List Markdown.Cell :=
  match f.fact with
  | .row cells => cells
  | _ => []

def table : Converter := fun ctx _ children _ =>
  let rows := (children.map cellsOf).filter fun row => !row.isEmpty
  return if rows.isEmpty then .empty
    else if ctx.options.propertyTables && Markdown.isPropertyTable rows then
      ⟨Markdown.propertyTable rows, .propertyTable⟩
    else ⟨Markdown.gridTable rows, .gridTable (Markdown.hasHeader rows)⟩

end Docmark.Convert
