import Docmark.Text.Blank
import Docmark.Text.Case

/-!
Raw HTML in Markdown: tags, comments, instructions and declarations inside a line, and the lines
that begin a block of HTML.
-/

namespace Docmark.Preview

def isTagChar (c : Char) : Bool :=
  c.isAlphanum || c == '-'

/-- The name of a tag and what follows it. -/
def tagName? (t : Text) : Option (Text × Text) :=
  if t.head?.any Char.isAlpha then some (t.takeWhile isTagChar, t.dropWhile isTagChar) else none

def isAttributeStart (c : Char) : Bool :=
  c.isAlpha || c == '_' || c == ':'

def isAttributeChar (c : Char) : Bool :=
  c.isAlphanum || c == '_' || c == '.' || c == ':' || c == '-'

/-- Characters that a value without quotes may hold. -/
def isBareValueChar (c : Char) : Bool :=
  !(Text.isBlankChar c || c == '!' || c == '\x22' || c == '\x27' || c == '=' || c == '<' || c == '>' ||
    c == '\x60')

/-- What follows a value in quotes. -/
def afterQuoted? (quote : Char) (t : Text) : Option Text :=
  match t.dropWhile (· != quote) with
  | _ :: r => some r
  | [] => none

/-- What follows the value of an attribute. -/
def afterValue? : Text → Option Text
  | c :: r =>
    if c = '\x22' || c = '\x27' then afterQuoted? c r
    else if isBareValueChar c then some (r.dropWhile isBareValueChar)
    else none
  | [] => none

/-- What follows an attribute with white space before it, its value included if it has one. -/
def afterAttribute? (t : Text) : Option Text :=
  let body := Text.stripStart t
  if t.head?.any Text.isBlankChar && body.head?.any isAttributeStart then
    let rest := body.dropWhile isAttributeChar
    let valued := match Text.stripStart rest with
      | '=' :: r => afterValue? (Text.stripStart r)
      | _ => none
    some (valued.getD rest)
  else none

/-- What follows the attributes of a tag; each takes a character at least. -/
def afterAttributes : Nat → Text → Text
  | 0, t => t
  | n + 1, t =>
    match afterAttribute? t with
    | some rest => afterAttributes n rest
    | none => t

/-- What follows the end of an opening tag, the name of which has been read. -/
def afterOpenTag? (t : Text) : Option Text :=
  match Text.stripStart (afterAttributes t.length t) with
  | '/' :: '>' :: r => some r
  | '>' :: r => some r
  | _ => none

def afterCloseTag? (t : Text) : Option Text :=
  match Text.stripStart t with
  | '>' :: r => some r
  | _ => none

/-- What follows the first occurrence of a text. -/
def afterFirst? (p : Text) : Text → Option Text
  | [] => none
  | c :: r =>
    match Text.after? p (c :: r) with
    | some rest => some rest
    | none => afterFirst? p r

/-- What follows a comment; two hyphens in a row can only end it. -/
def afterComment? (t : Text) : Option Text :=
  if Text.startsWith ['>'] t || Text.startsWith ['-', '>'] t || Text.startsWith ['-', '-'] t then
    none
  else
    match afterFirst? ['-', '-'] t with
    | some ('>' :: r) => some r
    | _ => none

/-- What follows a declaration, an instruction or a section of plain characters. -/
def afterOther? (t : Text) : Option Text :=
  match t with
  | '?' :: r => afterFirst? ['?', '>'] (r.drop 1)
  | '!' :: c :: r => if 'A' ≤ c && c ≤ 'Z' then afterFirst? ['>'] (r.drop 1) else
    match Text.after? "[CDATA[".toList (c :: r) with
    | some s => afterFirst? "]]>".toList (s.drop 1)
    | none => none
  | _ => none

/-- What follows a piece of raw HTML, its opening bracket having been read. -/
def afterHtml? (t : Text) : Option Text :=
  match t with
  | '/' :: r => (tagName? r).bind fun (_, rest) => afterCloseTag? rest
  | '!' :: '-' :: '-' :: r => afterComment? r
  | _ =>
    match tagName? t with
    | some (_, rest) => afterOpenTag? rest
    | none => afterOther? t

/-- The length of the raw HTML that a text begins with. -/
def htmlLength? : Text → Option Nat
  | '<' :: r => (afterHtml? r).map fun rest => r.length + 1 - rest.length
  | _ => none

/-- The address between angle brackets that a text begins with. -/
def bracketedAddress? : Text → Option Text
  | '<' :: r =>
    let scheme := r.takeWhile fun c => c.isAlphanum || c == '.' || c == '+' || c == '-'
    let body := r.takeWhile fun c => !(c == '<' || c == '>' || c.toNat ≤ 32)
    if r.head?.any Char.isAlpha && 2 ≤ scheme.length && scheme.length ≤ 32 &&
        (r.drop scheme.length).head? == some ':' && (r.drop body.length).head? == some '>' then
      some body
    else none
  | _ => none

/-- Characters of a mail address in front of its host. -/
def isMailChar (c : Char) : Bool :=
  c.isAlphanum || ".!#$%&\x27*+/=?^_\x60\x7b|\x7d~-".toList.contains c

/-- A part of the name of a host: letters, digits and inner hyphens, 63 at most. -/
def isHostLabel (t : Text) : Bool :=
  t.all isTagChar && t.head?.any Char.isAlphanum && t.getLast?.any Char.isAlphanum && t.length ≤ 63

/-- The mail address between angle brackets that a text begins with. -/
def bracketedMail? : Text → Option Text
  | '<' :: r =>
    let box := r.takeWhile isMailChar
    match r.drop box.length with
    | '@' :: rest =>
      let host := rest.takeWhile (· != '>')
      if !box.isEmpty && host.length < rest.length && (Text.splitOn '.' host).all isHostLabel then
        some (box ++ '@' :: host)
      else none
    | _ => none
  | _ => none

/-- Elements that make a block. -/
def blockTags : List Text :=
  ["address", "article", "aside", "base", "basefont", "blockquote", "body", "caption", "center",
   "col", "colgroup", "dd", "details", "dialog", "dir", "div", "dl", "dt", "fieldset",
   "figcaption", "figure", "footer", "form", "frame", "frameset", "h1", "h2", "h3", "h4", "h5",
   "h6", "head", "header", "hr", "html", "iframe", "legend", "li", "link", "main", "menu",
   "menuitem", "meta", "nav", "noframes", "ol", "optgroup", "option", "p", "param", "section",
   "source", "summary", "table", "tbody", "td", "tfoot", "th", "thead", "title", "tr", "track",
   "ul"].map String.toList

/-- Elements whose content is no Markdown. -/
def verbatimTags : List Text :=
  ["pre", "script", "style", "textarea"].map String.toList

/--
How far a block of HTML goes: through the line with a text in it, which is looked for after so many
characters, or to the next blank line.
-/
inductive HtmlExtent
  | through (marker : Text) (skipped : Nat)
  | toBlank
  deriving DecidableEq, Repr

/-- A line that begins a block of HTML; one of a lone tag leaves a paragraph before it whole. -/
structure HtmlStart where
  extent : HtmlExtent
  interrupts : Bool
  deriving DecidableEq, Repr

/-- True for a text that begins with a tag, which need not be whole. -/
def beginsTag (t : Text) : Bool :=
  match t with
  | '<' :: r => (tagName? ((Text.after? ['/'] r).getD r)).isSome
  | _ => false

/-- True where a tag whose name and attributes have been read ends, and its line with it. -/
def endsLine (t : Text) : Bool :=
  match t.dropWhile Text.isPad with
  | '>' :: r => r.all Text.isPad
  | _ => false

/--
The start of a block at a tag that is neither for blocks nor verbatim. It is alone in its line, and
does not close itself.
-/
def loneTag? (rest : Text) : Option HtmlStart :=
  if endsLine rest then some ⟨.toBlank, false⟩ else none

/-- The start of a block that a line without its indentation makes. -/
def htmlStart? (line : Text) : Option HtmlStart :=
  let through (marker : String) (skipped : Nat) : Option HtmlStart :=
    some ⟨.through marker.toList skipped, true⟩
  match line with
  | '<' :: '!' :: '-' :: '-' :: _ => through "-->" 4
  | '<' :: '?' :: _ => through "?>" 2
  | '<' :: '!' :: r =>
    if r.head?.any fun c => 'A' ≤ c && c ≤ 'Z' then through ">" 3
    else if Text.startsWith "[CDATA[".toList r then through "]]>" 9
    else none
  | '<' :: '/' :: r =>
    match tagName? r with
    | none => none
    | some (name, rest) =>
      if blockTags.contains (Text.toSmallAscii name) then some ⟨.toBlank, true⟩
      else loneTag? rest
  | '<' :: r =>
    match tagName? r with
    | none => none
    | some (name, rest) =>
      let name := Text.toSmallAscii name
      if verbatimTags.contains name then
        some ⟨.through ('<' :: '/' :: name ++ ['>']) (name.length + 1), true⟩
      else if blockTags.contains name then some ⟨.toBlank, true⟩
      else loneTag? (afterAttributes rest.length rest)
  | _ => none

/-- True for a line that begins a block of HTML also where the text of an item or a quote goes on. -/
def breaksAsHtml (line : Text) : Bool :=
  match line with
  | '<' :: '!' :: _ | '<' :: '?' :: _ => (htmlStart? line).isSome
  | '<' :: r =>
    match tagName? ((Text.after? ['/'] r).getD r) with
    | some (name, rest) =>
      (blockTags.contains name || verbatimTags.contains name && r.head? != some '/') &&
        (rest.isEmpty || rest.head?.any Text.isPad)
    | none => false
  | _ => false

end Docmark.Preview
