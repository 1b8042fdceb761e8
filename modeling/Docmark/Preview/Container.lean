import Docmark.Preview.Line
import Docmark.Preview.Tag

/-!
Lines of lists and quotes: which lines belong to an item or a quote, also without its indentation or
sign, and what they are without it.
-/

namespace Docmark.Preview

/-- True for a line where a block begins that ends an item or a quote before it. -/
def breaksText (limit : Nat) (line : Text) : Bool :=
  isRule limit line || (fence? limit line).isSome || (body? limit line).any breaksAsHtml

/-- True for a line where a block begins that ends an item. -/
def breaksItem (limit : Nat) (line : Text) : Bool :=
  breaksText limit line || (heading? limit line).isSome || (quoted? limit line).isSome

/-- True for a blank line and one where a block begins that ends a quote. -/
def breaksQuote (line : Text) : Bool :=
  isEmptyLine line || breaksText maxIndent line || (itemHead? maxIndent line).isSome

/-- The text after a marker with its tabs written as spaces. -/
def ItemHead.plainText (h : ItemHead) : Text :=
  expandTab (alignTab 3 h.text)

/-- The spaces between a marker and its text; more than four belong to the text but for one. -/
def ItemHead.gap (h : ItemHead) : Nat :=
  let text := h.plainText
  if Text.isBlank text || Text.startsWith (Text.spaces 5) text then 1
  else Text.indentWidth text

/-- The column where the text of an item begins. -/
def ItemHead.column (h : ItemHead) : Nat :=
  h.lead + h.gap

/-- The first line of an item, none if nothing follows the marker. -/
def ItemHead.firstLine (h : ItemHead) : List Text :=
  if Text.isBlank h.plainText then [] else [h.plainText.drop h.gap]

/-- What a line is to the item that is being read. -/
inductive ItemLine
  | inside (line : Text)
  | blank
  | next (head : ItemHead)
  /-- A block begins that ends the list. -/
  | broken
  | outside
  deriving DecidableEq, Repr

/-- True while an item has no text yet. -/
def ItemHead.isBare (h : ItemHead) (lines : List Text) : Bool :=
  h.firstLine.isEmpty && lines.all Text.isBlank

/-- The next item of a list, which may lack the number before its delimiter. -/
def ItemHead.next? (h : ItemHead) (limit : Nat) (line : Text) : Option ItemHead :=
  match itemHead? limit line, body? limit line with
  | some next, _ => if next.continues h then some next else none
  | none, some (c :: rest) =>
    if c = h.mark && (c = '.' || c = ')') && endsItemMarker rest then
      some ⟨spaceCount line, none, c, 1, rest⟩
    else none
  | none, _ => none

/--
Lines are indented to the column of the text. Others go on with a paragraph if no blank line is
before them and nothing else begins with them. An item that begins with a blank line has no second.
-/
def ItemHead.classify (h : ItemHead) (afterBlank bare : Bool) (line : Text) : ItemLine :=
  if isEmptyLine line then .blank
  else
    let aligned := alignTab 4 line
    let limit := min maxIndent h.lead
    if Text.startsWith (Text.spaces h.column) aligned then
      if afterBlank && bare then .outside else .inside (expandTab (aligned.drop h.column))
    else if isRule limit line then .broken
    else
      match h.next? limit line with
      | some next => .next next
      | none =>
        if breaksItem limit line then .broken
        else if afterBlank || (itemHead? limit line).isSome then .outside
        else .inside aligned

/-- The lines of an item, and what comes after it. -/
structure ItemText where
  lines : List Text
  next : Option ItemHead
  /-- A blank line stands before the next item. -/
  loose : Bool
  /-- A block ends the list. -/
  broken : Bool
  rest : List Text

/-- The lines read so far are held last first. -/
def ItemHead.read (h : ItemHead) (held : List Text) (afterBlank : Bool) : List Text → ItemText
  | [] => ⟨held.reverse, none, false, false, []⟩
  | line :: rest =>
    match h.classify afterBlank (h.isBare held) line with
    | .blank => h.read ([] :: held) true rest
    | .inside text => h.read (text :: held) false rest
    | .next next => ⟨held.reverse, some next, afterBlank, false, rest⟩
    | .broken => ⟨held.reverse, none, false, true, line :: rest⟩
    | .outside => ⟨held.reverse, none, false, false, line :: rest⟩

/-- Drops the blank lines at the end, but leaves one if there is nothing else. -/
def dropLastBlanks (lines : List Text) : List Text :=
  let kept := (lines.reverse.dropWhile Text.isBlank).reverse
  if kept.isEmpty then lines.take 1 else kept

def ItemHead.allLines (h : ItemHead) (item : ItemText) : List Text :=
  dropLastBlanks (h.firstLine ++ item.lines)

/-- The lines of all items of a list, of which so many at most are left. -/
structure ListText where
  items : List (List Text)
  loose : Bool
  /-- The next line begins a block that ends the list. -/
  broken : Bool
  rest : List Text

def ItemHead.readList : Nat → ItemHead → List Text → ListText
  | 0, h, lines => ⟨[h.firstLine], false, false, lines⟩
  | fuel + 1, h, lines =>
    let item := h.read [] false lines
    match item.next with
    | none => ⟨[h.allLines item], false, item.broken, item.rest⟩
    | some next =>
      let others := readList fuel next item.rest
      ⟨h.allLines item :: others.items, item.loose || others.loose, others.broken, others.rest⟩

/-- A line of a quote without its sign; a space after the sign is not of the line. -/
def unquote (text : Text) : Text :=
  let aligned := alignTab 3 text
  (Text.after? [' '] aligned).getD aligned

/-- The lines of a quote without their signs. -/
structure QuoteText where
  lines : List Text
  /-- The next line begins a block that ends the quote. -/
  broken : Bool
  rest : List Text

def QuoteText.push (line : Text) (q : QuoteText) : QuoteText :=
  { q with lines := line :: q.lines }

/-- Lines of a quote that go on as long as the sign stands before them. -/
def signedLines : List Text → QuoteText
  | [] => ⟨[], false, []⟩
  | line :: rest =>
    match quoted? maxIndent line with
    | some text => (signedLines rest).push (unquote text)
    | none => ⟨[], false, line :: rest⟩

/-- Lines of a quote, of which those that go on with a paragraph need no sign. -/
def laxLines (afterBlank : Bool) : List Text → QuoteText
  | [] => ⟨[], false, []⟩
  | line :: rest =>
    match quoted? maxIndent line with
    | some text => (laxLines (isEmptyLine (unquote text)) rest).push (unquote text)
    | none =>
      if afterBlank then ⟨[], false, line :: rest⟩
      else if breaksQuote line then ⟨[], true, line :: rest⟩
      else (laxLines false rest).push (alignTab 3 line)

/-- A quote and the lines after it; one that begins with no paragraph needs all signs. -/
def quoteText (first : Text) (rest : List Text) : QuoteText :=
  let first := unquote first
  let others :=
    if isEmptyLine first || isIndented first || looksLikeFence maxIndent first then
      signedLines rest
    else laxLines false rest
  { others with lines := (first :: others.lines).map expandTab }

end Docmark.Preview
