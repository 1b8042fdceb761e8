import Docmark.Preview.Backslash
import Docmark.Text.Digit

/-!
Lines that begin blocks: headings and the lines under them, rules, fences, quotes, items of lists.
A line stands without its line feed, and most of these may be indented by a few spaces.
-/

namespace Docmark.Preview

/-- The indentation that most lines may have. -/
def maxIndent : Nat := 3

def isEmptyLine (line : Text) : Bool :=
  line.all fun c => c == ' ' || c == '\t' || c == '\x0b' || c == '\x0c'

/-- The number of spaces that a line begins with. -/
def spaceCount (line : Text) : Nat :=
  (line.takeWhile (· == ' ')).length

/-- A line without its spaces in front, if they are not too many. -/
def body? (limit : Nat) (line : Text) : Option Text :=
  if spaceCount line ≤ limit then some (line.drop (spaceCount line)) else none

/-- Writes spaces for a tab that follows three spaces at most: `new` of them for no spaces. -/
def replaceTab (new : Nat → Nat) (line : Text) : Text :=
  let spaces := spaceCount line
  match line.drop spaces with
  | '\t' :: r => if spaces ≤ 3 then Text.spaces (spaces + new spaces) ++ r else line
  | _ => line

/-- A tab in front goes to the next of the columns that are `width` apart. -/
def alignTab (width : Nat) (line : Text) : Text :=
  replaceTab (fun spaces => width - spaces) line

/-- A tab in front counts four spaces. -/
def expandTab (line : Text) : Text :=
  replaceTab (fun _ => 4) line

/-- A line of code without fence: four spaces or a tab, and something after them. -/
def isIndented (line : Text) : Bool :=
  let spaces := spaceCount line
  (Text.startsWith (Text.spaces 4) line && 4 < line.length) ||
    (line.drop spaces).head? == some '\t' && spaces + 1 < line.length

/-- Level and text of a heading. Number signs at its end belong to the mark. -/
def heading? (limit : Nat) (line : Text) : Option (Nat × Text) := do
  let body ← body? limit line
  let level := (body.takeWhile (· == '#')).length
  let rest := body.drop level
  if level < 1 || 6 < level || !(rest.isEmpty || rest.head?.any Text.isPad) then none
  let text := Text.dropAround Text.isPad rest
  let core := Text.stripEnd text
  let front := Text.dropEndWhile (· == '#') core
  if front.length < core.length && (front.isEmpty || front.getLast?.any Text.isBlankChar) then
    some (level, Text.stripEnd front)
  else some (level, text)

/-- The level that a line gives to the paragraph above it. -/
def underline? (line : Text) : Option Nat := do
  let body ← body? maxIndent line
  let signs := Text.dropEndWhile Text.isPad body
  if !signs.isEmpty && signs.all fun c => c == '=' || c == '-' then
    some (if signs.getLast? == some '=' then 1 else 2)
  else none

/-- Three or more hyphens, underscores or asterisks, and nothing else. -/
def isRule (limit : Nat) (line : Text) : Bool :=
  match body? limit line with
  | some (c :: r) =>
    (c == '-' || c == '_' || c == '*') && (c :: r).all (fun d => d == c || Text.isPad d) &&
      3 ≤ (c :: r).count c
  | _ => false

/-- True for a line that begins with three backticks or tildes, though it may be no fence. -/
def looksLikeFence (limit : Nat) (line : Text) : Bool :=
  (body? limit line).any fun body =>
    Text.startsWith (List.replicate 3 '\x60') body || Text.startsWith (List.replicate 3 '~') body

structure Fence where
  indent : Nat
  mark : Char
  length : Nat
  info : Text
  deriving DecidableEq, Repr

/-- A fence of backticks has no backtick after it. -/
def fence? (limit : Nat) (line : Text) : Option Fence := do
  let body ← body? limit line
  let mark ← body.head?
  let length := (body.takeWhile (· == mark)).length
  let info := (body.drop length).dropWhile Text.isPad
  if (mark = '\x60' && !info.contains '\x60' || mark = '~') && 3 ≤ length then
    some ⟨spaceCount line, mark, length, info⟩
  else none

def Fence.closedBy (f : Fence) (line : Text) : Bool :=
  match body? maxIndent line with
  | some body =>
    let run := body.takeWhile (· == f.mark)
    f.length ≤ run.length && (body.drop run.length).all Text.isPad
  | none => false

/-- Takes off as many spaces as the fence is indented by. -/
def Fence.unindent (f : Fence) (line : Text) : Text :=
  line.drop (min f.indent (spaceCount line))

/-- What follows the sign of a quote. -/
def quoted? (limit : Nat) (line : Text) : Option Text :=
  match body? limit line with
  | some ('>' :: r) => some r
  | _ => none

/-- The first line of an item. `mark` is its bullet or the delimiter after its number. -/
structure ItemHead where
  indent : Nat
  number : Option Nat
  mark : Char
  /-- The length of the marker. -/
  width : Nat
  text : Text
  deriving DecidableEq, Repr

/-- What follows a marker is empty or begins with a blank. -/
def endsItemMarker (rest : Text) : Bool :=
  rest.isEmpty || rest.head?.any Text.isPad

/-- The first line of an item, or none. Numbers have nine digits at most. -/
def itemHead? (limit : Nat) (line : Text) : Option ItemHead := do
  let body ← body? limit line
  let indent := spaceCount line
  let digits := body.takeWhile Text.isDecimal
  match body.drop digits.length with
  | c :: rest =>
    if !endsItemMarker rest then none
    else if digits.isEmpty then
      if c = '-' || c = '*' || c = '+' then some ⟨indent, none, c, 1, rest⟩ else none
    else if (c = '.' || c = ')') && digits.length ≤ 9 then
      let number := Text.ofDigits (digits.filterMap Text.digitValue?)
      some ⟨indent, some number, c, digits.length + 1, rest⟩
    else none
  | [] => none

/-- Two items belong to one list when their markers end alike. -/
def ItemHead.continues (h before : ItemHead) : Bool :=
  h.mark == before.mark

/-- The column after the marker. -/
def ItemHead.lead (h : ItemHead) : Nat :=
  h.indent + h.width

end Docmark.Preview
