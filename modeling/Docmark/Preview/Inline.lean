import Docmark.Admonition.Event
import Docmark.Markdown.Escape
import Docmark.Preview.Html

/-!
Runs of text as they are read from Markdown, and the HTML for them.
-/

namespace Docmark.Preview

inductive Inline
  | text (t : Text)
  | code (t : Text)
  | emphasis (content : List Inline)
  | strong (content : List Inline)
  | strike (content : List Inline)
  | link (content : List Inline) (url : Text) (title : Option Text)
  | image (content : List Inline) (url : Text) (title : Option Text)
  | html (raw : Text)
  | hardBreak
  | softBreak
  /-- A reference to a footnote, with its place in the order of first references. -/
  | note (label : Text) (number : Nat)

/-- A token whose label is that of an admonition, if it is one. -/
abbrev PreviewToken := Token Admonition.Label

namespace Inline

def titleAttribute : Option Text → Text
  | some t => " title=\"".toList ++ normalizeText t ++ ['\x22']
  | none => []

/-- The sign in the text that leads to a footnote. -/
def noteReference (label number : Text) : Text :=
  let id := Markdown.escapeHtml label
  "<sup id=\"fnref:".toList ++ id ++ "\"><a href=\"#fn:".toList ++ id ++
    "\" class=\"footnote-ref\" data-footnote-id=\"".toList ++ id ++ "\">".toList ++
    number ++ "</a></sup>".toList

def linkHtml (content url : Text) (title : Option Text) : Text :=
  "<a href=\"".toList ++ urlAttribute url ++ '\x22' :: titleAttribute title ++ '>' :: content ++
    "</a>".toList

/-- An image shows its content, without tags, where it cannot be shown itself. -/
def imageHtml (content url : Text) (title : Option Text) : Text :=
  "<img src=\"".toList ++ urlAttribute url ++ "\" alt=\"".toList ++
    escapeText (stripTags content) ++ '\x22' :: titleAttribute title ++ " />".toList

mutual

/-- The HTML of a run; `escaping` tells that raw HTML and references are shown, not used. -/
def toHtml (escaping : Bool) : Inline → Text
  | text t => if escaping then escapeText t else normalizeText t
  | code t => element "code" (escapeText t)
  | emphasis content => element "em" (allToHtml escaping content)
  | strong content => element "strong" (allToHtml escaping content)
  | strike content => element "del" (allToHtml escaping content)
  | link content url title => linkHtml (allToHtml escaping content) url title
  | image content url title => imageHtml (allToHtml escaping content) url title
  | html raw => if escaping then escapeText raw else raw
  | hardBreak => "<br />\n".toList
  | softBreak => ['\n']
  | note label number => noteReference label (Text.decimal number)

def allToHtml (escaping : Bool) : List Inline → Text
  | [] => []
  | x :: xs => toHtml escaping x ++ allToHtml escaping xs

end

def leafToken (kind : String) (raw : Option Text) : PreviewToken :=
  ⟨kind.toList, {}, none, raw, none⟩

def branchToken (kind : String) (children : List PreviewToken) : PreviewToken :=
  ⟨kind.toList, {}, none, none, some children⟩

mutual

def token : Inline → PreviewToken
  | text t => leafToken "text" (some t)
  | code t => leafToken "codespan" (some t)
  | emphasis content => branchToken "emphasis" (tokens content)
  | strong content => branchToken "strong" (tokens content)
  | strike content => branchToken "strikethrough" (tokens content)
  | link content _ _ => branchToken "link" (tokens content)
  | image content _ _ => branchToken "image" (tokens content)
  | html raw => leafToken "inline_html" (some raw)
  | hardBreak => leafToken "linebreak" none
  | softBreak => leafToken "softbreak" none
  | note label _ => leafToken "footnote_ref" (some label)

def tokens : List Inline → List PreviewToken
  | [] => []
  | x :: xs => token x :: tokens xs

end

end Inline
end Docmark.Preview
