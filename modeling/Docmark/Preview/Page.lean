import Docmark.Folder
import Docmark.Options
import Docmark.Preview.Rendered

/-!
Pages that show a preview by themselves: the style is written into them, and the contents of the
annotations stand at the end.
-/

namespace Docmark.Preview

/-- The style of pages for which no other is at hand. -/
def minimalStyle : Text :=
  ("body \x7b font-family: system-ui, sans-serif; line-height: 1.6; max-width: 48rem; " ++
    "margin: 2rem auto; padding: 0 1rem; \x7d\n" ++
    "pre \x7b background: #f5f5f5; padding: 0.75rem; overflow-x: auto; \x7d\n" ++
    "code \x7b font-family: ui-monospace, monospace; \x7d\n" ++
    "table \x7b border-collapse: collapse; \x7d\n" ++
    "th, td \x7b border: 1px solid #ccc; padding: 0.25rem 0.5rem; \x7d\n" ++
    "blockquote \x7b border-left: 4px solid #ddd; margin-left: 0; padding-left: 1rem; " ++
    "color: #555; \x7d\n" ++
    ".admonition \x7b border-left: 4px solid #448aff; background: #f7f9ff; margin: 1rem 0; " ++
    "padding: 0.5rem 1rem; \x7d\n" ++
    ".admonition-title \x7b font-weight: bold; margin: 0 0 0.5rem; \x7d\n" ++
    ".admonition.warning, .admonition.danger, .admonition.failure, .admonition.bug " ++
    "\x7b border-color: #ff9100; \x7d\n" ++
    ".admonition.success, .admonition.tip \x7b border-color: #00c853; \x7d\n" ++
    ".md-annotation__index [data-md-annotation-id]::before " ++
    "\x7b content: \"+\"; font-weight: bold; \x7d\n" ++
    ".footnote \x7b font-size: 0.9em; \x7d\n" ++
    ".md-annotation-tooltips \x7b display: none; \x7d\n").toList

/-- Why a style is not used. -/
inductive StyleError
  | unreadable (cause : FileError)
  | notText
  deriving DecidableEq, Repr

def StyleError.message : StyleError → Text
  | unreadable cause => cause.message
  | notText => "not a text in UTF-8".toList

/-- The style in a file, its lines ended by line feeds. -/
def readStyle (read : Text → Except FileError Bytes) (path : Text) : Except StyleError Text :=
  match read (Folder.normalize path) with
  | .error e => .error (.unreadable e)
  | .ok bytes =>
    match ofUtf8? bytes with
    | some t => .ok (unifyLineEnds t)
    | none => .error .notText

/--
The style of a page, with the reason if the one asked for is not used. Only a path that can be none
at all fails.
-/
def loadStyle (read : Text → Except FileError Bytes) (path : Json) :
    Except Failure (Text × Option StyleError) :=
  match path with
  | .null => .ok (minimalStyle, none)
  | .str path =>
    match readStyle read path.toList with
    | .ok style => .ok (style, none)
    | .error (.unreadable .zeroInName) => .error (.file .zeroInName)
    | .error e => .ok (minimalStyle, some e)
  | v => .error (.notAPath v.kindName)

def titleOf : Json → Except Failure Text
  | .str t => .ok t.toList
  | v => .error (.notAText v.kindName)

def tooltipItem (id content : Text) : Text :=
  "<div data-md-annotation-content=\"".toList ++ Markdown.escapeHtml id ++ "\">".toList ++
    content ++ "</div>\n".toList

def tooltipSection (annotations : List (Text × Text)) : Text :=
  if annotations.isEmpty then []
  else "<div class=\"md-annotation-tooltips\" hidden>\n".toList ++
    annotations.flatMap (fun (id, content) => tooltipItem id content) ++ "</div>\n".toList

def page (title style : Text) (r : Rendered) : Text :=
  "<!DOCTYPE html>\n<html lang=\"en\">\n<head>\n<meta charset=\"utf-8\">\n<title>".toList ++
    Markdown.escapeHtml title ++ "</title>\n<style>\n".toList ++ style ++
    "</style>\n</head>\n<body>\n".toList ++ r.html ++ tooltipSection r.annotations ++
    "</body>\n</html>\n".toList

/-- The page for a preview, with the reason why its style is not the one asked for. -/
def buildPage (options : PreviewOptions) (read : Text → Except FileError Bytes) (r : Rendered) :
    Except Failure (Text × Option StyleError) := do
  let (style, problem) ← loadStyle read options.stylesheetPath
  return (page (← titleOf options.title) style r, problem)

def writeFailure (path : Text) : FileError → Failure
  | .zeroInName => .file .zeroInName
  | e => .unwritable path e

/-- Writes a page to a path. -/
def writePage [Monad m] (files : Files m) (path : Text) (page : Text) :
    m (Except Failure Unit) := do
  let path := Folder.normalize path
  return orFail (writeFailure path) (← files.write path (utf8 page))

end Docmark.Preview
