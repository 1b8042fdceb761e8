/-!
Kinds of nodes and marks, and the tags that name them. A tag that names no kind stands for the
unknown one.
-/

namespace Docmark

inductive NodeKind
  | doc | paragraph | text | heading | hardBreak | rule | blockquote
  | bulletList | orderedList | listItem | codeBlock
  | table | tableRow | tableHeader | tableCell
  | link | inlineCard | blockCard | panel | expand | nestedExpand
  | emoji | status | mention | date | mediaSingle | media
  | annotation | footnote | unknown
  deriving DecidableEq, Repr

namespace NodeKind

def tag : NodeKind → String
  | doc => "doc"
  | paragraph => "paragraph"
  | text => "text"
  | heading => "heading"
  | hardBreak => "hardBreak"
  | rule => "rule"
  | blockquote => "blockquote"
  | bulletList => "bulletList"
  | orderedList => "orderedList"
  | listItem => "listItem"
  | codeBlock => "codeBlock"
  | table => "table"
  | tableRow => "tableRow"
  | tableHeader => "tableHeader"
  | tableCell => "tableCell"
  | link => "link"
  | inlineCard => "inlineCard"
  | blockCard => "blockCard"
  | panel => "panel"
  | expand => "expand"
  | nestedExpand => "nestedExpand"
  | emoji => "emoji"
  | status => "status"
  | mention => "mention"
  | date => "date"
  | mediaSingle => "mediaSingle"
  | media => "media"
  | annotation => "annotation"
  | footnote => "footnote"
  | unknown => "unknown"

def all : List NodeKind :=
  [doc, paragraph, text, heading, hardBreak, rule, blockquote, bulletList, orderedList, listItem,
   codeBlock, table, tableRow, tableHeader, tableCell, link, inlineCard, blockCard, panel, expand,
   nestedExpand, emoji, status, mention, date, mediaSingle, media, annotation, footnote, unknown]

def ofTag (t : String) : NodeKind :=
  (all.find? fun k => k.tag == t).getD unknown

def isList : NodeKind → Bool
  | bulletList | orderedList => true
  | _ => false

/-- Containers that write their content on its own and then put something before each line. -/
def restartsLists : NodeKind → Bool
  | blockquote | panel | expand | nestedExpand | tableHeader | tableCell => true
  | _ => false

/-- The list level of the children of a node at a level. -/
def childLevel (k : NodeKind) (level : Int) : Int :=
  if k = listItem then level + 1 else if k.restartsLists then 0 else level

theorem ofTag_tag (k : NodeKind) : ofTag k.tag = k := by
  cases k <;> decide

end NodeKind

inductive MarkKind
  | code | strong | em | strike | link | unknown
  deriving DecidableEq, Repr

namespace MarkKind

def tag : MarkKind → String
  | code => "code"
  | strong => "strong"
  | em => "em"
  | strike => "strike"
  | link => "link"
  | unknown => "unknown"

def all : List MarkKind :=
  [code, strong, em, strike, link, unknown]

/-- Emphasis has two tags. -/
def ofTag (t : String) : MarkKind :=
  if t == "emphasis" then em else (all.find? fun k => k.tag == t).getD unknown

theorem ofTag_tag (k : MarkKind) : ofTag k.tag = k := by
  cases k <;> decide

end MarkKind
end Docmark
