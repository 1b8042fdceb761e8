import Docmark.Annotation.Marker
import Docmark.Preview.Block

/-!
The HTML of blocks. Code goes through a highlighter, and in paragraphs the markers of annotations
become places that show them.
-/

namespace Docmark.Preview

/-- Writes code in a language, if one is named, as HTML. -/
abbrev Highlighter := Text → Option Text → Text

/-- How blocks are written: whether raw HTML is escaped, code with its info, paragraphs. -/
structure Renderer where
  escaping : Bool
  code : Text → Option Text → Text
  paragraph : Text → Text

/-- The name of the class that code in a language has. -/
def languageClass (language : Text) : Text :=
  " class=\"language-".toList ++ language ++ ['\x22']

def codeElement (attributes content : Text) : Text :=
  "<pre><code".toList ++ attributes ++ '>' :: content ++ "</code></pre>\n".toList

/-- Code without colours. -/
def plainHighlight : Highlighter := fun code language =>
  let shown := (language.getD [])
  codeElement (if shown.isEmpty then [] else languageClass (Markdown.escapeHtml shown))
    (Markdown.escapeHtml code false)

/-- The language is the first word of the info. -/
def languageOf (info : Option Text) : Option Text :=
  info.bind fun t => (Text.words t).head?

def plainParagraph (html : Text) : Text :=
  element "p" html ++ ['\n']

/-- The place in a text that shows an annotation. -/
def annotationPlace (id : Text) : Text :=
  "<span class=\"md-annotation\" tabindex=\"0\" data-md-visible=\"\">".toList ++
    "<span class=\"md-annotation__index\" tabindex=\"-1\">".toList ++
    "<span data-md-annotation-id=\"".toList ++ id ++ "\"></span></span></span>".toList

def placeMarker (ids : List Text) : Annotation.Piece → Text
  | .marker id =>
    if ids.contains id then annotationPlace id else Annotation.Piece.render (.marker id)
  | p => p.render

/-- The sentinel of an annotated block vanishes, and known markers become places. -/
def annotatedParagraph (ids : List Text) (html : Text) : Text :=
  if Annotation.isSentinel (Text.strip html) then []
  else plainParagraph <| ( Annotation.pieces html).flatMap (placeMarker ids)

/-- The renderer of previews. -/
def Renderer.preview (escaping : Bool) (highlight : Highlighter) (ids : List Text) : Renderer where
  escaping
  code := fun code info => highlight code (languageOf info)
  paragraph := annotatedParagraph ids

/-- The renderer of texts that hold no annotations of their own. -/
def Renderer.plain (escaping : Bool) : Renderer where
  escaping
  code := fun code info =>
    let language := languageOf (info.map fun t => normalizeText (Text.strip t))
    codeElement ((language.map languageClass).getD []) (escapeText code)
  paragraph := plainParagraph

/-- The list of footnotes that ends a document. -/
def notesHtml (items : Text) : Text :=
  "<div class=\"footnote\">\n<hr />\n<ol>\n".toList ++ items ++ "</ol>\n</div>\n".toList

/-- The way back from a footnote to its reference. -/
def backReference (id : Text) : Text :=
  "<a href=\"#fnref:".toList ++ id ++ "\" class=\"footnote-backref\">&#8617;</a>".toList

/-- A footnote: the way back stands in its last paragraph, or after all that it holds. -/
def noteItemHtml (content key : Text) : Text :=
  let id := Markdown.escapeHtml key
  let body := Text.stripEnd content
  let paragraphEnd := "</p>".toList
  let whole :=
    if Text.endsWith paragraphEnd body then
      body.take (body.length - paragraphEnd.length) ++ ' ' :: backReference id ++ paragraphEnd
    else body ++ '\n' :: backReference id
  "<li id=\"fn:".toList ++ id ++ "\">".toList ++ whole ++ "</li>\n".toList

def admonitionHtml (name title content : Text) : Text :=
  "<div class=\"admonition ".toList ++ Markdown.escapeHtml name ++
    "\">\n<p class=\"admonition-title\">".toList ++ title ++ "</p>\n".toList ++ content ++
    "</div>\n".toList

def alignmentStyle : Option Alignment → Text
  | none => []
  | some .left => " style=\"text-align:left\"".toList
  | some .center => " style=\"text-align:center\"".toList
  | some .right => " style=\"text-align:right\"".toList

def cellHtml (tag : String) (alignment : Option Alignment) (content : Text) : Text :=
  ' ' :: ' ' :: '<' :: tag.toList ++ alignmentStyle alignment ++ '>' :: content ++
    '<' :: '/' :: tag.toList ++ ['>', '\n']

def rowHtml (tag : String) (alignments : List (Option Alignment)) (cells : List Text) : Text :=
  "<tr>\n".toList ++ (List.zipWith (cellHtml tag) alignments cells).flatten ++ "</tr>\n".toList

def tableHtml (alignments : List (Option Alignment)) (header : List Text)
    (rows : List (List Text)) : Text :=
  "<table>\n<thead>\n".toList ++ rowHtml "th" alignments header ++ "</thead>\n<tbody>\n".toList ++
    rows.flatMap (rowHtml "td" alignments) ++ "</tbody>\n</table>\n".toList

def listHtml (start : Option Nat) (items : Text) : Text :=
  match start with
  | none => "<ul>\n".toList ++ items ++ "</ul>\n".toList
  | some n =>
    let number := if n = 1 then [] else " start=\"".toList ++ Text.decimal n ++ ['\x22']
    "<ol".toList ++ number ++ ">\n".toList ++ items ++ "</ol>\n".toList

def headingHtml (level : Nat) (content : Text) : Text :=
  element ("h" ++ toString level) content ++ ['\n']

/-- Raw HTML, or a paragraph that shows it. -/
def rawHtml (escaping : Bool) (raw : Text) : Text :=
  if escaping then plainParagraph (escapeText (Text.strip raw)) else raw ++ ['\n']

namespace Block

mutual

def toHtml (r : Renderer) : Block (List Inline) → Text
  | blank => []
  | paragraph content => r.paragraph (Inline.allToHtml r.escaping content)
  | tightText content => Inline.allToHtml r.escaping content
  | heading level content => headingHtml level (Inline.allToHtml r.escaping content)
  | code c info => r.code c info
  | rule => "<hr />\n".toList
  | quote blocks => "<blockquote>\n".toList ++ allToHtml r blocks ++ "</blockquote>\n".toList
  | list start items => listHtml start (allToHtml r items)
  | item blocks => "<li>".toList ++ allToHtml r blocks ++ "</li>\n".toList
  | admonition name _ title blocks =>
    admonitionHtml name (Inline.allToHtml r.escaping title) (allToHtml r blocks)
  | html raw => rawHtml r.escaping raw
  | table alignments header rows =>
    tableHtml alignments (header.map (Inline.allToHtml r.escaping))
      (rows.map fun row => row.map (Inline.allToHtml r.escaping))
  | notes items => notesHtml (allToHtml r items)
  | noteItem key _ blocks => noteItemHtml (allToHtml r blocks) key

def allToHtml (r : Renderer) : List (Block (List Inline)) → Text
  | [] => []
  | b :: bs => toHtml r b ++ allToHtml r bs

end

end Block
end Docmark.Preview
