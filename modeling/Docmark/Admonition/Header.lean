import Docmark.Admonition.Kind
import Docmark.Markdown.ListLayout

/-!
Header lines of admonitions, such as `!!! note "Title"`, and admonitions written out.
-/

namespace Docmark.Admonition

structure Header where
  kind : AdmonitionKind
  title : Text
  deriving DecidableEq, Repr

def marker : Text := ['!', '!', '!']

/-- The columns by which a body is indented. -/
def bodyIndent : Nat := 4

/-- The title in double quotes that ends a header; its own quotes stand as they are. -/
def quotedTitle? (t : Text) : Option Text :=
  match t with
  | '\x22' :: r =>
    let body := Text.dropEndWhile Text.isPad r
    if Text.endsWith ['\x22'] body then some body.dropLast else none
  | _ => none

/-- What follows the name in a header: nothing, or blanks and a title. -/
def titlePart? (t : Text) : Option Text :=
  if t.all Text.isPad then some []
  else if t.head?.any Text.isPad then quotedTitle? (t.dropWhile Text.isPad)
  else none

def isNameChar (c : Char) : Bool :=
  Text.isWordChar c || c == '-'

/-- What follows the marker and the blanks after it. -/
def afterMarker? (line : Text) : Option Text := do
  let rest ← Text.after? marker line
  if rest.head?.any Text.isPad then some (rest.dropWhile Text.isPad) else none

/-- Reads a header line; one of an unknown kind or of another form is none. -/
def Header.parse (line : Text) : Option Header := do
  let rest ← afterMarker? (Text.dropEndWhile (· == '\n') line)
  if !rest.head?.any Char.isAlpha then none
  let title ← titlePart? (rest.dropWhile isNameChar)
  if title.contains '\n' then none
  let kind ← AdmonitionKind.named? (rest.takeWhile isNameChar)
  let title := Text.strip title
  return ⟨kind, if title.isEmpty then kind.title else title⟩

/-- An admonition without a title shows the default title of its kind. -/
def render (name body : Text) (title : Option Text) : Text :=
  let header := marker ++ ' ' :: name ++ match title with
    | some t => if t.isEmpty then [] else ' ' :: '\x22' :: t ++ ['\x22']
    | none => []
  if body.isEmpty then header
  else header ++ ['\n', '\n'] ++ Markdown.indentBlock body (Text.spaces bodyIndent)

end Docmark.Admonition
