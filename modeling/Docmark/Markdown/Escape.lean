import Docmark.Text.Digit

/-!
Backslashes that keep text from being read as Markdown: in a run of text, at the start of a line, at
the end of a heading, in a table cell; and character references for HTML.
-/

namespace Docmark.Markdown

/-- Characters that are escaped wherever they stand. -/
def isActive (c : Char) : Bool :=
  c == '\\' || c == '\x60' || c == '*' || c == '\x7b' || c == '\x7d' || c == '[' || c == ']' ||
    c == '~' || c == '<'

/-- True for an underscore inside a word. -/
def isInsideWord (before after : Option Char) : Bool :=
  before.any Text.isAlphanumeric && after.any Text.isAlphanumeric

/-- `before` is the character in front, none at the start of the run. -/
def needsEscape (before : Option Char) (c : Char) (after : Option Char) : Bool :=
  isActive c || (c == '#' && before.isNone) || (c == '_' && !isInsideWord before after)

def escapeFrom (before : Option Char) : Text → Text
  | [] => []
  | c :: r =>
    if needsEscape before c r.head? then '\\' :: c :: escapeFrom (some c) r
    else c :: escapeFrom (some c) r

/-- Escapes a run of text. -/
def escape (t : Text) : Text :=
  escapeFrom none t

/-- True where a list marker may end: before a space or tab, or at the end. -/
def endsMarker (rest : Text) : Bool :=
  rest.head?.any Text.isPad || Text.atEnd rest

def isRuleChar (c : Char) : Bool :=
  c == '-' || c == '=' || c == '_' || c == '*' || c == ':' || c == '|' || c == ' ' || c == '\t'

/-- A line of rule characters only, the line feed at its end apart. -/
def isRuleLike (t : Text) : Bool :=
  let body := if Text.endsWith ['\n'] t then t.dropLast else t
  !body.isEmpty && body.all isRuleChar

/-- The position of the delimiter of an ordered list marker that a line begins with. -/
def orderedDelimiter? (t : Text) : Option Nat :=
  let digits := t.takeWhile Text.isDecimal
  match t.dropWhile Text.isDecimal with
  | c :: rest =>
    if (c = '.' || c = ')') && 1 ≤ digits.length && digits.length ≤ 9 && endsMarker rest then
      some digits.length
    else none
  | [] => none

def isBulletMarker : Text → Bool
  | c :: rest => (c == '-' || c == '+' || c == '*') && endsMarker rest
  | [] => false

/-- The position of the character that makes a line without indentation another block. -/
def openerPosition? (t : Text) : Option Nat :=
  match orderedDelimiter? t with
  | some n => some n
  | none =>
    if t.head? == some '#' || t.head? == some '>' || Text.startsWith "!!!".toList t then some 0
    else if isBulletMarker t then some 0
    else if isRuleLike t then
      if t.head?.any fun c => c == '-' || c == '=' || c == '_' || c == '*' then some 0
      else (t.findIdx? (· == '-')).or (t.findIdx? (· == '|'))
    else none

def insertBackslash (t : Text) (position : Nat) : Text :=
  t.take position ++ '\\' :: t.drop position

/-- Keeps a line of a paragraph from opening another block. -/
def escapeBlockStart (line : Text) : Text :=
  let indent := line.takeWhile Text.isPad
  let body := line.dropWhile Text.isPad
  match openerPosition? body with
  | some n => indent ++ insertBackslash body n
  | none => line

/-- Keeps a heading from losing a run of number signs at its end. -/
def escapeHeading (t : Text) : Text :=
  let body := if Text.endsWith ['\n'] t then t.dropLast else t
  let core := Text.dropEndWhile Text.isPad body
  let closer := Text.takeEndWhile (· == '#') core
  let front := Text.dropEndWhile (· == '#') core
  if closer.isEmpty || !(front.isEmpty || front.getLast?.any Text.isPad) then t
  else insertBackslash t front.length

/-- `odd` tells that an odd number of backslashes stands in front. -/
def escapePipesFrom (odd : Bool) : Text → Text
  | [] => []
  | c :: r =>
    if c = '\\' then c :: escapePipesFrom (!odd) r
    else if c = '|' && !odd then '\\' :: c :: escapePipesFrom false r
    else c :: escapePipesFrom false r

/-- Escapes the bars in a table cell and trims it. -/
def escapeCell (t : Text) : Text :=
  Text.strip (escapePipesFrom false t)

/-- Takes a pair of asterisks off each end. -/
def stripStrong (t : Text) : Text :=
  let body := Text.strip t
  let body := (Text.after? ['*', '*'] body).getD body
  let body := if Text.endsWith ['*', '*'] body then body.dropLast.dropLast else body
  Text.strip body

def htmlReference (quotes : Bool) (c : Char) : Text :=
  if c = '&' then "&amp;".toList
  else if c = '<' then "&lt;".toList
  else if c = '>' then "&gt;".toList
  else if quotes && c = '\x22' then "&quot;".toList
  else if quotes && c = '\x27' then "&#x27;".toList
  else [c]

/-- Escapes text for HTML, quotes only where the text goes into an attribute. -/
def escapeHtml (t : Text) (quotes : Bool := true) : Text :=
  t.flatMap (htmlReference quotes)

end Docmark.Markdown
