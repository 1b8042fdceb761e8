import Docmark.Admonition.Host
import Docmark.Preview.Container
import Docmark.Preview.NoteText
import Docmark.Preview.TableText

/-!
Reading the blocks of a text: at every line the first rule that fits decides what begins there, and
a line that fits none belongs to a paragraph. Quotes, items and admonitions are read as texts of
their own.
-/

namespace Docmark.Preview

inductive Rule
  | admonition
  | fence
  | indented
  | heading
  | underline
  | rule
  | quote
  | list
  | note
  | html
  | blank
  | barredTable
  | openTable
  deriving DecidableEq, Repr

namespace Rule

/-- The rules of plain Markdown, in the order in which they are tried. -/
def plain : List Rule :=
  [fence, indented, heading, underline, rule, quote, list, html, blank]

/-- The rules for a text in an item or a quote. -/
def nested : List Rule :=
  admonition :: plain

/-- The rules for a block that ends a quote. -/
def afterQuote : List Rule :=
  [blank, rule, fence, list, html]

/-- The rules for a block that ends a list. -/
def afterList : List Rule :=
  [rule, fence, heading, quote, html]

def full : List Rule :=
  [admonition, fence, indented, heading, underline, rule, quote, list, note, html, blank,
   barredTable, openTable]

end Rule

/-- The rules of a document, and those for texts in its items and quotes. -/
structure Dialect where
  document : List Rule
  nested : List Rule
  deriving DecidableEq, Repr

namespace Dialect

/-- Markdown with admonitions, tables and footnotes. -/
def full : Dialect := ⟨Rule.full, Rule.nested⟩

def plain : Dialect := ⟨Rule.plain, Rule.plain⟩

def hasNotes (d : Dialect) : Bool :=
  d.document.contains .note

end Dialect

/-- Where a text lies and what it is read by. -/
structure Level where
  dialect : Dialect
  rules : List Rule
  depth : Nat := 0
  deriving DecidableEq, Repr

/-- The depth that blocks of one kind do not go beyond. -/
def maxDepth : Nat := 6

/-- The level of the text in a block. -/
def Level.within (l : Level) (kind : Rule) : Level :=
  let rules := if kind = .admonition then l.dialect.document else l.dialect.nested
  { l with rules := Admonition.rulesWithin maxDepth l.depth kind rules, depth := l.depth + 1 }

/-- What has been read: blocks, last first, the definitions of footnotes, the number of lines. -/
structure Progress where
  blocks : List (Block Text) := []
  notes : Dictionary Text (List Text) := []
  line : Nat := 0

namespace Progress

def inParagraph (p : Progress) : Bool :=
  p.blocks.head?.any Block.isParagraph

/-- A line goes on with the paragraph before it, or begins one. -/
def addLine (p : Progress) (line : Text) : Progress :=
  match p.blocks with
  | .paragraph t :: bs =>
    { p with blocks := .paragraph (t ++ '\n' :: line) :: bs, line := p.line + 1 }
  | bs => { p with blocks := .paragraph line :: bs, line := p.line + 1 }

/-- Puts a block before the last ones, of which there are so many. -/
def addBefore (p : Progress) (last : Nat) (b : Block Text) : Progress :=
  { p with blocks := p.blocks.take last ++ b :: p.blocks.drop last }

def skip (p : Progress) (lines : Nat) : Progress :=
  { p with line := p.line + lines }

def add (p : Progress) (b : Block Text) (lines : Nat) : Progress :=
  (p.addBefore 0 b).skip lines

/-- Makes a heading of the paragraph. -/
def underline (p : Progress) (level : Nat) : Progress :=
  match p.blocks with
  | .paragraph t :: bs => { p with blocks := .heading level t :: bs, line := p.line + 1 }
  | _ => p

/-- The first definition of a footnote counts. -/
def define (p : Progress) (note : NoteText) (lines : Nat) : Progress :=
  let key := labelKey note.label
  let notes := if p.notes.has key then p.notes else p.notes.put key note.content
  { p with notes, line := p.line + lines }

end Progress

/-- What begins at a line, with the lines after it. -/
inductive Opening
  /-- The line goes on with a paragraph or begins one, whatever other rules say. -/
  | plainLine
  | block (b : Block Text) (rest : List Text)
  /-- What is left of the line that ends a block has no indentation and begins a paragraph. -/
  | blockBefore (b : Block Text) (line : Text) (rest : List Text)
  | underline (level : Nat)
  | note (text : NoteText) (rest : List Text)
  | quote (text : QuoteText)
  | list (head : ItemHead) (text : ListText)
  | admonition (header : Admonition.Header) (body rest : List Text)

/-- Lines with a line feed after each. -/
def endedLines (lines : List Text) : Text :=
  lines.flatMap (· ++ ['\n'])

/-- A line that only looks like the header of an admonition is plain. -/
def openAdmonition (line : Text) (rest : List Text) : Option Opening :=
  match Admonition.Header.parse line with
  | some header =>
    let (body, _) := Admonition.takeBody (rest ++ [[]])
    some (.admonition header (Admonition.trimBlankLines body) (rest.drop body.length))
  | none => (Admonition.afterMarker? line).map fun _ => .plainLine

/-- A line that only looks like a fence is plain. -/
def openFence (line : Text) (rest : List Text) : Option Opening :=
  match fence? maxIndent line with
  | some fence =>
    let code := rest.takeWhile fun l => !fence.closedBy l
    let info := Text.strip (unescape fence.info)
    some (.block (.code (endedLines (code.map fence.unindent)) (if fence.info.isEmpty then none
      else some info)) (rest.drop (code.length + 1)))
  | none => if looksLikeFence maxIndent line then some .plainLine else none

/-- A line of code without a tab, and with four spaces less. -/
def unindentCode (line : Text) : Text :=
  let aligned := alignTab 4 line
  aligned.drop (min 4 (spaceCount aligned))

/-- The white space in front of the first line that is not of the code goes to the code. -/
def openIndented (inParagraph : Bool) (line : Text) (rest : List Text) : Option Opening :=
  if !isIndented line then none
  else if inParagraph then some .plainLine
  else
    let more := rest.takeWhile fun l => isIndented l || Text.isBlank l
    let block (lines : List Text) : Block Text :=
      .code (Text.trimNewlines (Text.unlines (lines.map unindentCode))) none
    match rest.drop more.length with
    | last :: others =>
      let width := Text.indentWidth last
      if width = 0 then some (.block (block (line :: more)) (last :: others))
      else some (.blockBefore (block (line :: more ++ [last.take width])) (last.drop width) others)
    | [] => some (.block (block (line :: more)) [])

def openList (inParagraph : Bool) (line : Text) (rest : List Text) : Option Opening := do
  let head ← itemHead? maxIndent line
  if inParagraph && (Text.isBlank head.text || head.number.any (· != 1)) then return .plainLine
  return .list head (head.readList (rest.length + 1) rest)

/-- The lines of a block of HTML after its first. -/
def htmlLines (body : Text) (rest : List Text) : HtmlExtent → List Text
  | .toBlank => rest.takeWhile fun l => !isEmptyLine l
  | .through marker skipped =>
    if Text.occursIn marker (body.drop skipped) then []
    else
      let before := rest.takeWhile fun l => !Text.occursIn marker l
      rest.take (before.length + 1)

/-- A line that begins with a tag and no block is plain. -/
def openHtml (inParagraph : Bool) (line : Text) (rest : List Text) : Option Opening := do
  let body ← body? maxIndent line
  match htmlStart? body with
  | some start =>
    if inParagraph && !start.interrupts then return .plainLine
    let more := htmlLines body rest start.extent
    return .block (.html (endedLines (line :: more))) (rest.drop more.length)
  | none => if beginsTag body then return .plainLine else none

def openBlank (line : Text) (rest : List Text) : Option Opening :=
  if isEmptyLine line then some (.block .blank (rest.dropWhile isEmptyLine)) else none

def tableOpening (table : Block Text × List Text) : Opening :=
  .block table.1 table.2

/-- What a rule finds at a line. -/
def Rule.opening (inParagraph : Bool) (line : Text) (rest : List Text) : Rule → Option Opening
  | admonition => openAdmonition line rest
  | fence => openFence line rest
  | indented => openIndented inParagraph line rest
  | heading => (heading? maxIndent line).map fun (level, t) => .block (.heading level t) rest
  | underline => if inParagraph then (underline? line).map .underline else none
  | rule => if isRule maxIndent line then some (.block .rule rest) else none
  | quote => (quoted? maxIndent line).map fun first => .quote (quoteText first rest)
  | list => openList inParagraph line rest
  | note => (noteText? line rest).map fun (text, others) => .note text others
  | html => openHtml inParagraph line rest
  | blank => openBlank line rest
  | barredTable => (barredTable? line rest).map tableOpening
  | openTable => (openTable? line rest).map tableOpening

/-- A list is loose with a blank line between items, or between the blocks of one. -/
def isLoose (items : List (List (Block Text))) : Bool :=
  items.any fun blocks => blocks.any Block.isBlank || 1 < blocks.countP Block.isParagraph

/-- The number that a list counts its items from. -/
def ItemHead.start (h : ItemHead) : Option Nat :=
  h.number

def listBlock (head : ItemHead) (loose : Bool) (items : List (List (Block Text))) : Block Text :=
  let loose := loose || isLoose items
  .list head.start (items.map fun blocks =>
    .item (if loose then blocks else blocks.map Block.tighten))

/-- Reads the texts of items one after the other. -/
def readItems (read : Progress → List Text → Progress) (notes : Dictionary Text (List Text)) :
    List (List Text) → List (List (Block Text)) × Dictionary Text (List Text)
  | [] => ([], notes)
  | lines :: rest =>
    let inner := read { notes } lines
    let (items, notes) := readItems read inner.notes rest
    (inner.blocks.reverse :: items, notes)

mutual

/--
Reads what begins at a line. A block that ends a quote or a list at once is read with it: the list
comes before that block, and the quote before the last block that has been read.
-/
def readBlock : Nat → Level → Progress → Text → List Text → Progress × List Text
  | 0, _, p, line, rest => (p.addLine line, rest)
  | fuel + 1, l, p, line, rest =>
    let taken (others : List Text) := 1 + rest.length - others.length
    match l.rules.findSome? (Rule.opening p.inParagraph line rest) with
    | none | some .plainLine => (p.addLine line, rest)
    | some (.block b others) => (p.add b (taken others), others)
    | some (.blockBefore b last others) => ((p.add b (taken others - 1)).addLine last, others)
    | some (.underline level) => (p.underline level, rest)
    | some (.note text others) => (p.define text (taken others), others)
    | some (.quote text) =>
      let (after, others) := readBreak fuel text.broken { l with rules := Rule.afterQuote }
        (p.skip (taken text.rest)) text.rest
      let inner := readLines fuel (l.within .quote) { notes := after.notes } text.lines
      let last := if text.broken then 1 else 0
      ({ after.addBefore last (.quote inner.blocks.reverse) with notes := inner.notes }, others)
    | some (.list head text) =>
      let (items, notes) :=
        readItems (readLines fuel (l.within .list)) p.notes text.items
      let (after, others) := readBreak fuel text.broken { l with rules := Rule.afterList }
        ({ p with notes }.skip (taken text.rest)) text.rest
      (after.addBefore (after.blocks.length - p.blocks.length) (listBlock head text.loose items),
        others)
    | some (.admonition header body others) =>
      let inner := readLines fuel (l.within .admonition) { notes := p.notes } body
      let p := { p with notes := inner.notes }
      (p.add (.admonition header.kind.tag (p.line, p.line + taken others) header.title
        inner.blocks.reverse) (taken others), others)

/-- Reads the block that ends another, if one does. -/
def readBreak : Nat → Bool → Level → Progress → List Text → Progress × List Text
  | fuel + 1, true, l, p, line :: rest => readBlock fuel l p line rest
  | _, _, _, p, lines => (p, lines)

/-- Reads one block after the other. Each takes a line at least, so that the steps suffice. -/
def readLines : Nat → Level → Progress → List Text → Progress
  | 0, _, p, _ => p
  | _ + 1, _, p, [] => p
  | fuel + 1, l, p, line :: rest =>
    let (p, others) := readBlock fuel l p line rest
    readLines fuel l p others

end

/-- The steps that suffice for lines: one for each character and each line. -/
def sizeOfLines (lines : List Text) : Nat :=
  lines.foldl (fun size line => size + line.length + 1) 0

/-- The lines of a text, the last of which need not be ended. -/
def documentLines (t : Text) : List Text :=
  let lines := Text.lines (unifyLineEnds t)
  if Text.endsWith ['\n'] (unifyLineEnds t) then lines.dropLast else lines

/-- The blocks of a document and its footnotes, in which no runs have been read. -/
def readBlocks (d : Dialect) (t : Text) : Progress :=
  let lines := documentLines t
  readLines (2 * sizeOfLines lines + 1) ⟨d, d.document, 0⟩ {} lines

/-- The footnotes that are referenced, as the block that ends a document. -/
def notesBlock (notes : Dictionary Text (List Text)) (keys : List Text) : List (Block Text) :=
  if keys.isEmpty then []
  else [.notes (keys.zipIdx.map fun (key, i) =>
    .noteItem key (i + 1) (noteParagraphs ((notes.get? key).getD [])))]

/-- The blocks of a document with its footnotes at the end, and the sources of all footnotes. -/
structure Document where
  blocks : List (Block (List Inline))
  notes : List (Text × Text)

def readDocument (d : Dialect) (t : Text) : Document :=
  let read := readBlocks d t
  let order : NoteOrder := { defined := read.notes.keys }
  let (body, order) := (Block.readAllRuns (readInline d.hasNotes) read.blocks.reverse).run order
  let notes := notesBlock read.notes order.referenced
  let (ending, _) := (Block.readAllRuns (readInline d.hasNotes) notes).run order
  {
    blocks := body ++ ending
    notes := read.notes.map fun (key, lines) => (key, Text.strip (Text.unlines lines)) }

end Docmark.Preview
