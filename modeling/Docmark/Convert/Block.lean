import Docmark.Admonition.Header
import Docmark.Convert.Fragment
import Docmark.Markdown.Escape
import Docmark.Markdown.Inline

/-!
Block nodes other than lists, tables and notes: paragraphs, headings, rules, quotes, panels, code.
-/

namespace Docmark.Convert

/-- Joins the blocks inside a node. -/
def blocks : Converter := fun _ _ children _ =>
  return ⟨Fragment.joinedBlocks children, .plain⟩

/-- The text of a paragraph, each line kept from opening another block. -/
def paragraphText (escaping : Bool) (content : Text) : Text :=
  let t := Text.strip (Markdown.dropBreaks content)
  if escaping then Text.unlines ((Text.lines t).map Markdown.escapeBlockStart) else t

def paragraph : Converter := fun ctx _ children _ =>
  return ⟨paragraphText ctx.options.escapeSpecial (Fragment.joined children), .plain⟩

/-- Levels are whole numbers from 1 to 6; all that is no number counts as 1. -/
def headingLevel (n : Node) : Nat :=
  match n.attr? "level" with
  | some (.int level) => (max 1 (min 6 level)).toNat
  | _ => 1

def headingText (escaping : Bool) (content : Text) : Text :=
  let t := Text.strip (Text.replaceChar '\n' [' '] (Markdown.replaceBreaks [' '] content))
  if escaping then Markdown.escapeHeading t else t

def heading : Converter := fun ctx n children _ =>
  let t := headingText ctx.options.escapeSpecial (Fragment.joined children)
  let signs := List.replicate (headingLevel n) '#'
  return ⟨if t.isEmpty then signs else signs ++ ' ' :: t, .plain⟩

def rule : Converter := fun _ _ _ _ =>
  return ⟨['-', '-', '-'], .plain⟩

def quoteLine (line : Text) : Text :=
  if line.isEmpty then ['>'] else '>' :: ' ' :: line

def blockquote : Converter := fun _ _ children _ =>
  let body := Fragment.joinedBlocks children
  return if body.isEmpty then .empty
    else ⟨Text.unlines ((Text.lines body).map quoteLine), .plain⟩

def panel : Converter := fun _ n children _ =>
  let type := n.attr "panelType"
  let kind := AdmonitionKind.ofPanel (if type.isTruthy then type.display else "info".toList)
  return ⟨Admonition.render kind.tag (Fragment.joinedBlocks children) none, .plain⟩

/-- The title of a section that expands, on one line. -/
def expandTitle (n : Node) : Text :=
  Text.joinWith [' '] (Text.words (n.attr "title").displayIfTruthy)

def expand : Converter := fun _ n children _ =>
  let title := expandTitle n
  return ⟨Admonition.render AdmonitionKind.note.tag (Fragment.joinedBlocks children) (some title),
    .plain⟩

/-- The code is the text of the children, whatever their marks, or that of the node itself. -/
def codeOf (n : Node) : Text :=
  let pieces := if n.children.isEmpty then [n.text] else n.children.map Node.text
  pieces.flatMap fun t => (t.getD "").toList

def codeMarkdown (language code : Text) : Text :=
  let fence := Markdown.fenceFor code
  let body := Text.dropEndWhile (· == '\n') code
  fence ++ language ++ '\n' :: (if body.isEmpty then [] else body ++ ['\n']) ++ fence

def codeBlock : Converter := fun _ n _ _ =>
  let code := codeOf n
  let language := Markdown.languageFor ((n.attr "language").string?.getD "").toList code
  return ⟨codeMarkdown language code, .code language⟩

end Docmark.Convert
