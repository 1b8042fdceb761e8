import Docmark.Markdown.Escape
import Docmark.Markdown.Inline

/-!
Tables: as lines with a bold key and a value, or as a grid of bars.
-/

namespace Docmark.Markdown

structure Cell where
  text : Text
  header : Bool := false
  deriving DecidableEq, Repr

/-- A header cell, or one with text, can be the key of a property. -/
def Cell.isKey (c : Cell) : Bool :=
  c.header || !Text.isBlank c.text

def lineBreak : Text := "<br>".toList

/-- The blocks of a cell on one line. -/
def joinCell (blocks : List Text) : Text × Nat :=
  let full := (blocks.map Text.strip).filter fun b => !b.isEmpty
  let single := full.map fun b => Text.replaceChar '\n' lineBreak (replaceBreaks lineBreak b)
  (Text.joinWith lineBreak single, single.length)

def formatRow (texts : List Text) : Text :=
  ['|', ' '] ++ Text.joinWith [' ', '|', ' '] (texts.map escapeCell) ++ [' ', '|']

/-- Two cells in every row, the first of them a key and the second not blank. -/
def isPropertyTable (rows : List (List Cell)) : Bool :=
  !rows.isEmpty && rows.all fun
    | [key, value] => key.isKey && !Text.isBlank value.text
    | _ => false

def propertyLine (row : List Cell) : Text :=
  match row with
  | key :: value :: _ =>
    ['*', '*'] ++ stripStrong key.text ++ [':', '*', '*', ' '] ++ escapeCell value.text
  | _ => []

def propertyTable (rows : List (List Cell)) : Text :=
  Text.joinBlocks (rows.map propertyLine)

/-- The first row is a header when none of its cells is blank. -/
def hasHeader (rows : List (List Cell)) : Bool :=
  (rows.headD []).all fun c => !Text.isBlank c.text

def separatorCell : Text := ['-', '-', '-']

def gridTable (rows : List (List Cell)) : Text :=
  match rows with
  | [] => []
  | first :: rest =>
    let separator := if hasHeader rows then [formatRow (first.map fun _ => separatorCell)] else []
    Text.unlines (formatRow (first.map Cell.text) :: separator ++
      rest.map fun row => formatRow (row.map Cell.text))

end Docmark.Markdown
