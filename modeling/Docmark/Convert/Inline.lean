import Docmark.Convert.Fragment
import Docmark.Date
import Docmark.Markdown.Inline

/-!
Inline nodes: runs of text with their marks, links, breaks, emoji, status, mentions and dates.
-/

namespace Docmark.Convert

/-- The marks of a run that has no code mark; strike goes around strong and emphasis. -/
def emphasize (n : Node) (t : Text) : Text :=
  let strong := n.hasMark .strong
  let em := n.hasMark .em
  let t :=
    if strong && em then Markdown.wrap ['*', '*', '*'] t
    else if strong then Markdown.wrap ['*', '*'] t
    else if em then Markdown.wrap ['*'] t
    else t
  if n.hasMark .strike then Markdown.wrap ['~', '~'] t else t

/-- A run without its link. Code takes the text as it is and no other mark. -/
def runMarkdown (ctx : Context) (n : Node) (t : Text) : Text :=
  if n.hasMark .code then Markdown.codeSpan t
  else emphasize n (if ctx.options.escapeSpecial then Markdown.escape t else t)

def text : Converter := fun ctx n _ _ => do
  match n.text with
  | none => return .empty
  | some s =>
    if s.isEmpty then return .empty
    let run := runMarkdown ctx n s.toList
    match n.findMark .link with
    | none => return ⟨run, .plain⟩
    | some mark =>
      match (mark.attributes.get? "href").bind Json.string? with
      | none => return ⟨run, .plain⟩
      | some href =>
        let target ← resolveLink ctx href.toList mark.attributes
        return ⟨Link.format run target.url, .plain⟩

def hardBreak : Converter := fun _ _ _ _ =>
  return ⟨Markdown.hardBreak, .plain⟩

/-- A name without picture is written between colons, unless the node has a text. -/
def emoji : Converter := fun _ n _ _ =>
  let name := Text.dropAround (· == ':') (n.attr "shortName").displayIfTruthy
  let fallback := if name.isEmpty then [] else ':' :: name ++ [':']
  let own := n.attr "text"
  return ⟨(Markdown.icon? name).getD (if own.isTruthy then own.display else fallback), .plain⟩

def status : Converter := fun _ n _ _ =>
  let label := Text.strip (n.attr "text").displayIfTruthy
  let colour := n.attr "color"
  let icon := Markdown.icon? (if colour.isTruthy then colour.display else "neutral".toList)
  let strong := ['*', '*'] ++ label ++ ['*', '*']
  return if label.isEmpty then .empty
    else match icon with
      | some picture => ⟨picture ++ ' ' :: strong, .plain⟩
      | none => ⟨strong, .plain⟩

def mention : Converter := fun _ n _ _ =>
  let name := Text.strip (Link.firstTruthy [n.attr "text", n.attr "displayName", n.attr "id"] [])
  return if name.isEmpty then .empty
    else ⟨if Text.startsWith ['@'] name then name else '@' :: name, .plain⟩

/-- A timestamp that stands for no date is shown as it is. -/
def date : Converter := fun _ n _ _ =>
  let stamp := n.attr "timestamp"
  return match (Date.milliseconds? stamp).bind Date.ofMilliseconds, stamp with
    | some d, _ => ⟨d.render, .plain⟩
    | none, .null => .empty
    | none, v => ⟨v.display, .plain⟩

def link : Converter := fun ctx n children _ => do
  let href := ((n.attr "href").string?.getD "").toList
  let target ← resolveLink ctx href n.attributes
  let own := Fragment.joined children
  let label := if Text.isBlank own then target.text else own
  return ⟨Link.format label target.url, .link target.metadata⟩

/-- The URL of a card is an attribute of its own or part of its data. -/
def cardUrl (n : Node) : Text :=
  let own := if (n.attr "url").isTruthy then n.attr "url" else n.attr "href"
  match own with
  | .str s => s.toList
  | _ => match (n.attr "data").object?.bind fun members => members.lookup "url" with
    | some (.str s) => s.toList
    | _ => []

def card : Converter := fun ctx n _ _ => do
  let url := cardUrl n
  if Text.isBlank url then return .empty
  let target ← resolveLink ctx url n.attributes
  return ⟨Link.format target.text target.url, .link target.metadata⟩

/-- Media with a URL is an image, other media stands for its description. -/
def media : Converter := fun ctx n _ _ => do
  let alt := Text.replaceChar ']' ['\\', ']'] (n.attr "alt").displayIfTruthy
  match n.attr "url" with
  | .str s =>
    if Text.isBlank s.toList then return ⟨alt, .plain⟩
    let target ← resolveLink ctx s.toList n.attributes
    return ⟨'!' :: '[' :: alt ++ ']' :: '(' :: Link.escapeDestination target.url ++ [')'], .plain⟩
  | _ => return ⟨alt, .plain⟩

end Docmark.Convert
