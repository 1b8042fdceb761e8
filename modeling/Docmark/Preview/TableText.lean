import Docmark.Preview.Block
import Docmark.Preview.Line

/-!
Tables of bars: a line of headings, a line that aligns the columns, and rows with as many cells.
-/

namespace Docmark.Preview

/-- Cuts a row at the bars without a backslash; `held` is the cell so far, last first. -/
def cutRow (held : Text) : Text → List Text
  | [] => [held.reverse]
  | c :: r =>
    if c = '|' && held.head? != some '\\' then held.reverse :: cutRow [] r else cutRow (c :: held) r

def cells (row : Text) : List Text :=
  (cutRow [] (Text.strip row)).map Text.strip

/-- What stands between the bars at both ends of a line. -/
def barred? (line : Text) : Option Text := do
  let body ← body? maxIndent line
  let inner ← Text.after? ['|'] (Text.dropEndWhile Text.isPad body)
  if Text.endsWith ['|'] inner then some inner.dropLast else none

def isAlignmentChar (c : Char) : Bool :=
  c == '-' || c == ':' || c == '|' || c == ' '

/-- A line that aligns the columns holds nothing but hyphens, colons and bars. -/
def isAlignmentText (t : Text) : Bool :=
  t.all isAlignmentChar && (t.dropWhile (· == ' ')).head?.any fun c => c == '-' || c == ':'

/-- Colons tell the side; a column without hyphens or colons is not aligned. -/
def alignmentOf (cell : Text) : Option Alignment :=
  let left := Text.startsWith [':'] cell
  let right := Text.endsWith [':'] cell
  let core := (if left then cell.drop 1 else cell)
  let core := if right then core.dropLast else core
  if core.isEmpty || !core.all (· == '-') then none
  else match left, right with
    | true, true => some .center
    | true, false => some .left
    | false, true => some .right
    | false, false => none

/-- The rows of a table: every kind of line break ends one, not only a line feed. -/
def rowsOf (lines : List Text) : List Text :=
  lines.flatMap Text.anyLines

/-- A table of rows that have as many cells as there are columns. -/
def tableOf? (header alignment : Text) (rows : List Text) : Option (Block Text) :=
  let header := cells header
  let alignments := cells alignment
  let rows := rows.map cells
  if header.length == alignments.length && rows.all fun row => row.length == header.length then
    some (.table (alignments.map alignmentOf) header rows)
  else none

/-- A table with bars around its lines, and the lines after it. -/
def barredTable? (line : Text) (rest : List Text) : Option (Block Text × List Text) := do
  let header ← barred? line
  let next ← rest.head?
  let alignment ← barred? next
  if header.isEmpty || !isAlignmentText alignment then none
  let rows := (rest.drop 1).takeWhile fun row => (barred? row).isSome
  let inner ← (rowsOf rows).mapM barred?
  if inner.any List.isEmpty then none
  let table ← tableOf? header alignment inner
  return (table, (rest.drop (1 + rows.length)).dropWhile List.isEmpty)

/-- A table with bars between the cells only, and the lines after it. -/
def openTable? (line : Text) (rest : List Text) : Option (Block Text × List Text) := do
  let header ← body? maxIndent line
  let next ← rest.head?
  let alignment ← body? maxIndent next
  let first := alignment.takeWhile fun c => c == '-' || c == ':'
  let afterFirst := (alignment.drop first.length).dropWhile (· == ' ')
  if header.head?.all Text.isBlankChar || !(header.drop 1).contains '|' then none
  if first.isEmpty || afterFirst.head? != some '|' || !alignment.all isAlignmentChar then none
  let rows := (rest.drop 1).takeWhile fun row => row.contains '|'
  let table ← tableOf? header alignment (rowsOf rows)
  return (table, (rest.drop (1 + rows.length)).dropWhile List.isEmpty)

end Docmark.Preview
