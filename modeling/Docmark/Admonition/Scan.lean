import Docmark.Admonition.Header

/-!
Admonitions in a source text: the header line, and the lines below it that are blank or indented.
-/

namespace Docmark.Admonition

/-- `stop` is the offset after the last line taken; the lines are counted from 0 on. -/
structure Scanned where
  header : Header
  body : Text
  stop : Nat
  firstLine : Nat
  lastLine : Nat
  deriving DecidableEq, Repr

/-- A line of a body without its indentation. -/
def dedent? (line : Text) : Option Text :=
  if Text.isBlank line then some []
  else match Text.after? (Text.spaces bodyIndent) line with
    | some rest => some rest
    | none => Text.after? ['\t'] line

/-- The lines of the body and the characters that they take, line feeds included. -/
def takeBody : List Text → List Text × Nat
  | [] => ([], 0)
  | [last] =>
    if last.isEmpty then ([], 0)
    else match dedent? last with
      | some line => ([line], last.length)
      | none => ([], 0)
  | next :: rest =>
    match dedent? next with
    | some line =>
      let (lines, size) := takeBody rest
      (line :: lines, next.length + 1 + size)
    | none => ([], 0)

def trimBlankLines (lines : List Text) : List Text :=
  ((lines.dropWhile Text.isBlank).reverse.dropWhile Text.isBlank).reverse

/-- A text of lines that all end in a line feed. -/
def bodyText (lines : List Text) : Text :=
  if lines.isEmpty then [] else Text.unlines lines ++ ['\n']

/-- The lines in a text, the last of which may lack its line feed. -/
def countLines (t : Text) : Nat :=
  t.count '\n' + if Text.endsWith ['\n'] t then 0 else 1

/-- The admonition at the head of a text, with its length. -/
def scanHead (t : Text) : Option (Header × Text × Nat) := do
  let line := t.takeWhile (· != '\n')
  let header ← Header.parse line
  match t.dropWhile (· != '\n') with
  | [] => return (header, [], line.length)
  | _ :: rest =>
    let (lines, size) := takeBody (Text.lines rest)
    return (header, bodyText (trimBlankLines lines), line.length + 1 + size)

/-- The admonition whose header begins at an offset, which is the start of a line. -/
def scan (source : Text) (start : Nat) : Option Scanned := do
  let rest := source.drop start
  let (header, body, size) ← scanHead rest
  let firstLine := (source.take start).count '\n'
  return ⟨header, body, start + size, firstLine, firstLine + countLines (rest.take size)⟩

end Docmark.Admonition
