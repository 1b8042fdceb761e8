import Docmark.Preview.InlineReader

/-!
Blocks of a text that is read as Markdown. `α` is what stands in them: first the text as it is, then
its runs, which are read when all footnotes of the document are known.
-/

namespace Docmark.Preview

inductive Alignment
  | left
  | center
  | right
  deriving DecidableEq, Repr

inductive Block (α : Type)
  | blank
  | paragraph (content : α)
  /-- A paragraph of a list without blank lines. -/
  | tightText (content : α)
  | heading (level : Nat) (content : α)
  | code (code : Text) (info : Option Text)
  | rule
  | quote (blocks : List (Block α))
  /-- The items of a list that is numbered from a number on, or not. -/
  | list (start : Option Nat) (items : List (Block α))
  | item (blocks : List (Block α))
  | admonition (name : Text) (lines : Nat × Nat) (title : α) (blocks : List (Block α))
  | html (raw : Text)
  | table (alignments : List (Option Alignment)) (header : List α) (rows : List (List α))
  | notes (items : List (Block α))
  | noteItem (key : Text) (number : Nat) (blocks : List (Block α))

namespace Block

def isBlank : Block α → Bool
  | blank => true
  | _ => false

def isParagraph : Block α → Bool
  | paragraph _ => true
  | _ => false

/-- Paragraphs of a tight list are no paragraphs of their own. -/
def tighten : Block α → Block α
  | paragraph content => tightText content
  | b => b

mutual

/-- Reads the runs of text in a block. -/
def readRuns (read : Text → StateM NoteOrder (List Inline)) :
    Block Text → StateM NoteOrder (Block (List Inline))
  | blank => return blank
  | paragraph t => return paragraph (← read t)
  | tightText t => return tightText (← read t)
  | heading level t => return heading level (← read t)
  | code c info => return code c info
  | rule => return rule
  | quote blocks => return quote (← readAllRuns read blocks)
  | list start items => return list start (← readAllRuns read items)
  | item blocks => return item (← readAllRuns read blocks)
  | admonition name lines title blocks => do
    let title ← read title
    return admonition name lines title (← readAllRuns read blocks)
  | html raw => return html raw
  | table alignments header rows => do
    let header ← header.mapM read
    return table alignments header (← rows.mapM fun row => row.mapM read)
  | notes items => return notes (← readAllRuns read items)
  | noteItem key number blocks => return noteItem key number (← readAllRuns read blocks)

def readAllRuns (read : Text → StateM NoteOrder (List Inline)) :
    List (Block Text) → StateM NoteOrder (List (Block (List Inline)))
  | [] => return []
  | b :: bs => do
    let b ← readRuns read b
    return b :: (← readAllRuns read bs)

end

/-- The name of a kind of block among tokens. -/
def kindTag : Block α → String
  | blank => "blank_line"
  | paragraph _ => "paragraph"
  | tightText _ => "block_text"
  | heading .. => "heading"
  | code .. => "block_code"
  | rule => "thematic_break"
  | quote _ => "block_quote"
  | list .. => "list"
  | item _ => "list_item"
  | admonition .. => "admonition"
  | html _ => "block_html"
  | table .. => "table"
  | notes _ => "footnotes"
  | noteItem .. => "footnote_item"

/-- An admonition has a token for its title and one that holds its content. -/
def admonitionToken (name : Text) (lines : Nat × Nat) (title : List Inline)
    (content : List PreviewToken) : PreviewToken :=
  { Inline.branchToken "admonition"
      [Inline.branchToken "admonition_title" (Inline.tokens title),
       Inline.branchToken "admonition_content" content] with label := ⟨name, lines⟩ }

mutual

def token : Block (List Inline) → PreviewToken
  | paragraph content => Inline.branchToken "paragraph" (Inline.tokens content)
  | tightText content => Inline.branchToken "block_text" (Inline.tokens content)
  | heading _ content => Inline.branchToken "heading" (Inline.tokens content)
  | code c _ => Inline.leafToken "block_code" (some c)
  | quote blocks => Inline.branchToken "block_quote" (tokens blocks)
  | list _ items => Inline.branchToken "list" (tokens items)
  | item blocks => Inline.branchToken "list_item" (tokens blocks)
  | admonition name lines title blocks => admonitionToken name lines title (tokens blocks)
  | html raw => Inline.leafToken "block_html" (some raw)
  | notes items => Inline.branchToken "footnotes" (tokens items)
  | noteItem _ _ blocks => Inline.branchToken "footnote_item" (tokens blocks)
  | blank => Inline.leafToken "blank_line" none
  | rule => Inline.leafToken "thematic_break" none
  | table _ header rows =>
    Inline.branchToken "table" (((header :: rows).flatten).flatMap Inline.tokens)

def tokens : List (Block (List Inline)) → List PreviewToken
  | [] => []
  | b :: bs => token b :: tokens bs

end

end Block
end Docmark.Preview
