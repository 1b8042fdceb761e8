import Docmark.Text.Blank
import Docmark.Text.Case

/-!
Fenced code: fences longer than the backticks inside, the language of the code, and the blank lines
of a text, which are collapsed outside fences only.
-/

namespace Docmark.Markdown

def backtick : Char := '\x60'

/-- The longest run so far, and the length of the run at the end. -/
def runLengths (t : Text) : Nat × Nat :=
  t.foldl (fun (longest, run) c =>
    if c = backtick then (max longest (run + 1), run + 1) else (longest, 0)) (0, 0)

def longestRun (t : Text) : Nat :=
  (runLengths t).1

/-- A fence that no line of the code closes. -/
def fenceFor (code : Text) : Text :=
  if longestRun code < 3 then List.replicate 3 backtick
  else List.replicate (longestRun code + 1) backtick

def diagramLanguage : Text := "mermaid".toList

/-- Words that a diagram begins with. -/
def diagramWords : List Text :=
  ["graph", "flowchart", "sequenceDiagram", "classDiagram", "stateDiagram", "stateDiagram-v2",
   "erDiagram", "journey", "gantt", "pie", "quadrantChart", "requirementDiagram", "gitGraph",
   "mindmap", "timeline", "C4Context", "sankey-beta", "xychart-beta", "block-beta"].map
    String.toList

/-- True when the first line that is not blank begins with the word for a kind of diagram. -/
def isDiagram (code : Text) : Bool :=
  match (Text.anyLines code).find? fun line => !Text.isBlank line with
  | some line => (Text.words line).head?.any diagramWords.contains
  | none => false

/-- The language to write after a fence. -/
def languageFor (declared code : Text) : Text :=
  let name := Text.strip (declared.filter (· != backtick))
  if name.isEmpty then if isDiagram code then diagramLanguage else []
  else if Text.occursIn diagramLanguage (Text.toSmallAscii name) then diagramLanguage
  else name

/-- The run of three or more backticks or tildes that a line begins with, white space apart. -/
def fenceOf (line : Text) : Option Text :=
  let body := Text.stripStart line
  let run := match body with
    | c :: _ => if c = backtick || c = '~' then body.takeWhile (· == c) else []
    | [] => []
  if run.length < 3 then none else some run

def closesFence (fence run line : Text) : Bool :=
  Text.startsWith fence run && (Text.strip line).length == run.length

/-- `fence` is the open fence, `blank` tells that the line before is a blank one. -/
def collapseLines (fence : Option Text) (blank : Bool) : List Text → List Text
  | [] => []
  | line :: rest =>
    match fence, fenceOf line with
    | none, some run => line :: collapseLines (some run) false rest
    | none, none =>
      if Text.isBlank line then
        if blank then collapseLines none true rest else [] :: collapseLines none true rest
      else line :: collapseLines none false rest
    | some fence, some run =>
      line :: collapseLines (if closesFence fence run line then none else some fence) false rest
    | some fence, none => line :: collapseLines (some fence) false rest

/-- Leaves one blank line of several, and code as it is. -/
def collapseBlankLines (t : Text) : Text :=
  Text.unlines (collapseLines none false (Text.lines t))

end Docmark.Markdown
