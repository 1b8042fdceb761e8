import Docmark.Text.Digit

/-!
Layout of lists: items under their markers, with the lines of nested lists shifted only as far as a
wide marker asks, and markers that keep two lists in a row apart.
-/

namespace Docmark.Markdown

/-- All but bullet lists have numbers as markers. -/
inductive ListKind
  | bullet
  | ordered
  | named (name : Text)
  deriving DecidableEq, Repr

/-- The content of an item without marker; `nested` are the indices of lines of nested lists. -/
structure ListItem where
  text : Text
  level : Int
  nested : List Nat

/-- The space before the marker of an item. -/
def ListItem.indent (item : ListItem) : Text :=
  Text.spaces (2 * item.level).toNat

/-- The space before the content of an item. -/
def ListItem.continuation (item : ListItem) (marker : Text) : Text :=
  item.indent ++ Text.spaces (marker.length + 1)

/-- The space before lines of nested lists, which are indented by two for each level. -/
def ListItem.shift (item : ListItem) (marker : Text) : Text :=
  Text.spaces (((item.continuation marker).length : Int) - 2 * (item.level + 1)).toNat

/-- Lays out the lines from an index on; `started` tells that the marker is written. -/
def ListItem.layOut (item : ListItem) (marker : Text) (started : Bool) (index : Nat) :
    List Text → List Text
  | [] => []
  | line :: rest =>
    if Text.isBlank line then
      if started then [] :: item.layOut marker true (index + 1) rest
      else item.layOut marker false (index + 1) rest
    else
      let written :=
        if item.nested.contains index then
          (if started then [] else [item.indent ++ marker]) ++ [item.shift marker ++ line]
        else if started then [item.continuation marker ++ line]
        else [item.indent ++ marker ++ ' ' :: Text.strip line]
      written ++ item.layOut marker true (index + 1) rest

def ListItem.render (item : ListItem) (marker : Text) : Text :=
  let output := item.layOut marker false 0 (Text.lines item.text)
  if output.isEmpty then item.indent ++ marker
  else Text.unlines (output.reverse.dropWhile List.isEmpty).reverse

/-- True where white space or the end follows a marker. -/
def isMarkerEnd (rest : Text) : Bool :=
  rest.isEmpty || rest.head?.any Text.isBlankChar

/-- Writes the other marker for the one that stands first in a line, if it is of the kind. -/
def switchMarker (kind : ListKind) (line : Text) : Text :=
  let indent := line.takeWhile Text.isBlankChar
  let body := line.dropWhile Text.isBlankChar
  match kind with
  | .bullet =>
    match body with
    | '-' :: rest => if isMarkerEnd rest then indent ++ '*' :: rest else line
    | _ => line
  | .ordered | .named _ =>
    let digits := body.takeWhile Text.isDecimal
    match body.dropWhile Text.isDecimal with
    | '.' :: rest =>
      if !digits.isEmpty && isMarkerEnd rest then indent ++ digits ++ ')' :: rest else line
    | _ => line

/-- Switches the markers of a list but not those of lists inside it, which stand deeper. -/
def switchMarkers (kind : ListKind) (list : Text) : Text :=
  let lines := Text.lines list
  let depth := Text.indentWidth (lines.headD [])
  Text.unlines (lines.map fun line =>
    if !Text.isBlank line && Text.indentWidth line == depth then switchMarker kind line else line)

/-- True for a line that begins with a list marker and white space. -/
def isMarkerLine (line : Text) : Bool :=
  let body := Text.stripStart line
  let afterMarker := match body with
    | c :: rest =>
      if c = '-' || c = '*' || c = '+' then some rest
      else if Text.isDecimal c then
        match rest.dropWhile Text.isDecimal with
        | d :: rest => if d = '.' || d = ')' then some rest else none
        | [] => none
      else none
    | [] => none
  afterMarker.any fun rest => rest.head?.any Text.isBlankChar

/-- Without a record of nested lists, every line after the first with a marker counts as nested. -/
def markerLines (text : Text) : List Nat :=
  (Text.lines text).zipIdx.filterMap fun (line, i) =>
    if 0 < i && isMarkerLine line then some i else none

/-- A block of Markdown, and the kind of list that it is. -/
structure Block where
  markdown : Text
  list : Option ListKind := none

/--
The blocks that are not blank, with their positions. Of lists of one kind in a row every other one
has its markers switched; `before` is the kind of the last block and whether it was switched.
-/
def separateFrom (index : Nat) (before : Option ListKind × Bool) : List Block → List (Nat × Text)
  | [] => []
  | b :: rest =>
    let block := Text.trimNewlines b.markdown
    if Text.isBlank block then separateFrom (index + 1) before rest
    else
      let switched := b.list.isSome && b.list == before.1 && !before.2
      let written := match b.list with
        | some kind => if switched then switchMarkers kind block else block
        | none => block
      (index, written) :: separateFrom (index + 1) (b.list, switched) rest

def separateLists (blocks : List Block) : List (Nat × Text) :=
  separateFrom 0 (none, false) blocks

/-- The blocks with a blank line between each two. -/
def joinBlocks (blocks : List Block) : Text :=
  Text.joinBlocks ((separateLists blocks).map Prod.snd)

/-- Indents all lines but the blank ones, which become empty. -/
def indentBlock (text indent : Text) : Text :=
  Text.unlines ((Text.lines text).map fun line => if Text.isBlank line then [] else indent ++ line)

end Docmark.Markdown
