import Docmark.Markdown.Fence

/-!
Marks around runs of text, code spans, and the small pictures that stand for names.
-/

namespace Docmark.Markdown

/-- A backslash at the end of a line breaks it. -/
def hardBreak : Text := ['\\', '\n']

/-- Writes a new text for every hard break. -/
def replaceBreaks (new : Text) : Text → Text
  | [] => []
  | '\\' :: '\n' :: r => new ++ replaceBreaks new r
  | c :: r => c :: replaceBreaks new r

/-- Takes the hard breaks off the end. -/
def dropBreaks (t : Text) : Text :=
  go t.reverse
where
  go : Text → Text
    | '\n' :: '\\' :: r => go r
    | r => r.reverse

/-- Puts marks around a text but inside its outer white space. -/
def wrap (mark t : Text) : Text :=
  let core := Text.strip t
  if core.isEmpty then t
  else t.takeWhile Text.isBlankChar ++ mark ++ core ++ mark ++ Text.takeEndWhile Text.isBlankChar t

def codeSpan (t : Text) : Text :=
  if t.contains backtick then
    [backtick, backtick, ' '] ++ t ++ [' ', backtick, backtick]
  else backtick :: t ++ [backtick]

/-- Pictures for the names of emoji and for the colours of a status. -/
def icons : List (Text × Text) :=
  [("custom", "📝"), ("warning", "⚠️"), ("success", "✅"), ("error", "⛔"), ("info", "💡"),
   ("note", "📝"), ("neutral", "⚪"), ("blue", "🔵"), ("green", "🟢"), ("yellow", "🟡"),
   ("red", "🔴"), ("purple", "🟣"), ("x", "❌"), ("check_mark", "✔️"), ("smile", "😃"),
   ("sad", "😢"), ("wink", "😉"), ("laugh", "😆"), ("angry", "😠"), ("thumbs_up", "👍"),
   ("thumbs_down", "👎"), ("blush", "😊"), ("surprised", "😮"), ("cry", "😭"), ("cool", "😎")].map
    fun (name, picture) => (name.toList, picture.toList)

def icon? (name : Text) : Option Text :=
  icons.lookup name

end Docmark.Markdown
