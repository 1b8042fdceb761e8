import Docmark.Folder
import Docmark.Preview.CharacterReference
import Docmark.Text.Case
import Docmark.Text.Quoted

/-!
Text and addresses as HTML: what is escaped, what a URL may hold, and which URLs are refused.
-/

namespace Docmark.Preview

def escapeChar (c : Char) : Text :=
  if c = '&' then "&amp;".toList
  else if c = '<' then "&lt;".toList
  else if c = '>' then "&gt;".toList
  else if c = '\x22' then "&quot;".toList
  else [c]

/-- Single quotes stand as they are. -/
def escapeText (t : Text) : Text :=
  t.flatMap escapeChar

/-- Escapes a text with its character references resolved first. -/
def normalizeText (t : Text) : Text :=
  escapeText (resolveReferences t)

/-- Characters of a URL that keep their form. -/
def isUrlChar (c : Char) : Bool :=
  c.isAlphanum || "_.-~:/?#@!$&()*+,;=%".toList.contains c

def percentEncode (c : Char) : Text :=
  (utf8 [c]).flatMap fun b => '%' :: (Text.hexDigits 2 b.toNat).map Char.toUpper

/-- A URL in the form that a browser takes. -/
def encodeUrl (url : Text) : Text :=
  (resolveReferences url).flatMap fun c => if isUrlChar c then [c] else percentEncode c

def harmfulSchemes : List Text :=
  ["javascript:", "vbscript:", "file:", "data:"].map String.toList

/-- Data that is an image does no harm. -/
def harmlessData : List Text :=
  ["data:image/gif;", "data:image/png;", "data:image/jpeg;", "data:image/webp;"].map String.toList

def isHarmful (url : Text) : Bool :=
  let url := Text.toSmallAscii url
  harmfulSchemes.any (Text.startsWith · url) && !harmlessData.any (Text.startsWith · url)

/-- The value of an attribute that holds a URL. -/
def urlAttribute (url : Text) : Text :=
  if isHarmful url then "#harmful-link".toList else escapeText url

/-- Takes out the tags; `hidden` holds what stands in a tag so far, last first. -/
def stripTagsFrom : Option Text → Text → Text
  | none, [] => []
  | some hidden, [] => hidden.reverse
  | none, c :: r => if c = '<' then stripTagsFrom (some [c]) r else c :: stripTagsFrom none r
  | some hidden, c :: r =>
    if c = '>' then stripTagsFrom none r else stripTagsFrom (some (c :: hidden)) r

def stripTags (html : Text) : Text :=
  stripTagsFrom none html

/-- A text between the tags of an element. -/
def element (name : String) (content : Text) : Text :=
  '<' :: name.toList ++ '>' :: content ++ '<' :: '/' :: name.toList ++ ['>']

end Docmark.Preview
