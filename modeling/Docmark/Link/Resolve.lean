import Docmark.Json.Display
import Docmark.Link.Url

/-!
What a link points to and what it is called, and how an inline link is written.
-/

namespace Docmark.Link

/-- `base` is what the reference may be relative to, if it counts as true. -/
structure Request where
  href : Text
  attributes : Attributes
  base : Json

/-- `text` is for links that have none of their own. -/
structure Resolved where
  text : Text
  url : Text
  metadata : Dictionary String Json := []

abbrev Resolver := Request → Except UrlError Resolved

/-- True for a reference that has no scheme and does not point into the page. -/
def isRelative (url : Text) : Except UrlError Bool := do
  let u ← Url.split url []
  return u.scheme.isEmpty && url.head? != some '#'

def firstTruthy (values : List Json) (otherwise : Text) : Text :=
  match values.find? Json.isTruthy with
  | some v => v.display
  | none => otherwise

/-- A base has to be a text. -/
def joinOnto (base : Json) (url : Text) : Except UrlError Text :=
  match base with
  | .str b => Url.join b.toList url
  | _ => .error .noTextAsBase

/-- Relative references are joined onto the base, if there is one. -/
def resolve : Resolver := fun request => do
  let url := Text.strip request.href
  let relative ← if url.isEmpty || !request.base.isTruthy then pure false else isRelative url
  let target ← if relative then joinOnto request.base url else pure url
  let value (name : String) := (request.attributes.get? name).getD .null
  return {
    text := firstTruthy [value "title", value "text"] target
    url := target
    metadata := if relative then [("source_href", .str (String.ofList url))] else [] }

/-- Puts a backslash before each closing bracket that follows none. -/
def escapeBrackets (before : Option Char) : Text → Text
  | [] => []
  | c :: r =>
    if c = ')' && before != some '\\' then '\\' :: c :: escapeBrackets (some c) r
    else c :: escapeBrackets (some c) r

def escapeDestination (url : Text) : Text :=
  Text.replaceChar ' ' "%20".toList (escapeBrackets none (Text.strip url))

def format (text url : Text) : Text :=
  '[' :: text ++ ']' :: '(' :: escapeDestination url ++ [')']

end Docmark.Link
