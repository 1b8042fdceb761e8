import Docmark.Preview.Block
import Docmark.Preview.Line

/-!
Definitions of footnotes: where they end, and the blocks that they show.
-/

namespace Docmark.Preview

/-- The indentation that a definition may have. -/
def maxNoteIndent : Nat := 4

/-- A definition: its label and all its lines. -/
structure NoteText where
  label : Text
  content : List Text
  deriving DecidableEq, Repr

/-- A line that goes on with a definition is indented by one to four spaces more than it. -/
def continuesNote (lead : Nat) (line : Text) : Bool :=
  let spaces := spaceCount line
  lead < spaces && spaces ≤ lead + 4

/-- The lines of a definition after its first, with the empty ones among and after them. -/
def noteLines (lead : Nat) (lines : List Text) : List Text :=
  lines.takeWhile fun line => line.isEmpty || continuesNote lead line

/-- The definition that begins with a line, and the lines after it. -/
def noteText? (line : Text) (rest : List Text) : Option (NoteText × List Text) := do
  let lead := spaceCount line
  let body ← body? maxNoteIndent line
  let label ← noteLabel? body
  let afterColon ← Text.after? [':'] (body.drop (label.length + 3))
  let (first, rest) ← match afterColon with
    | c :: r => if Text.isPad c then some (r, rest) else none
    | [] => some (rest.headD [], rest.drop 1)
  let lines := noteLines lead rest
  return (⟨label, first :: lines⟩, rest.drop lines.length)

/-- Takes the indentation of the second line off all lines that have it. -/
def unindentNote (lines : List Text) : List Text :=
  match (lines.drop 1).find? fun line => !line.isEmpty with
  | none => lines
  | some second =>
    let width := Text.indentWidth second
    lines.map fun line => if width ≤ spaceCount line then line.dropWhile (· == ' ') else line

/-- Runs of lines that are not empty, at least one. -/
def paragraphsOf : List Text → List (List Text)
  | [] => [[]]
  | line :: rest =>
    if line.isEmpty then
      match paragraphsOf rest with
      | [] :: ps => [] :: ps
      | ps => [] :: ps
    else (paragraphsOf rest).modifyHead (line :: ·)

/-- The paragraphs of a definition. -/
def noteParagraphs (lines : List Text) : List (Block Text) :=
  let text := Text.strip (Text.unlines (unindentNote lines))
  (paragraphsOf (Text.lines text)).map fun ls => .paragraph (Text.unlines ls)

end Docmark.Preview
