import Docmark.Annotation.Processor
import Docmark.Footnote.State
import Docmark.Options
import Docmark.Preview.Reader
import Docmark.Preview.Renderer

/-!
Previews of Markdown: its HTML with annotations and footnotes, what the annotations hold, and the
orphans among the notes.
-/

namespace Docmark.Preview

structure Rendered where
  html : Text
  /-- The HTML of each annotation by its number. -/
  annotations : List (Text × Text) := []
  /-- The sources of the footnotes by their labels. -/
  footnotes : List (Text × Text) := []
  findings : List Text := []
  deriving DecidableEq, Repr

/-- The tokens of a text. -/
def tokens (markdown : Text) : List PreviewToken :=
  Block.tokens (readDocument Dialect.full markdown).blocks

/-- The HTML of what an annotation holds. -/
def tooltipHtml (escaping : Bool) (content : Text) : Text :=
  Block.allToHtml (Renderer.plain escaping) (readDocument Dialect.plain content).blocks

/-- Numbers that have a marker or a definition. -/
def knownIds (s : Annotation.State) : List Text :=
  s.referenced.map Text.decimalInt ++ s.definitions.keys

/-- The text and the annotations after the annotated blocks of a text, and given definitions. -/
def annotate (markdown : Text) (given : List (Text × Text)) :
    Except Failure (Text × Annotation.State) :=
  let (source, p) := ({} : Annotation.Processor).process markdown
  match p.state.addDefinitions given with
  | (s, none) => .ok (source, s)
  | (_, some e) => .error (.number e)

/-- Renders a text; the annotations given are those that it does not define itself. -/
def render (markdown : Text) (options : PreviewOptions := {})
    (highlight : Highlighter := plainHighlight) (given : List (Text × Text) := []) :
    Except Failure Rendered := do
  let (source, s) ← if options.processAnnotations then annotate markdown given
    else pure (markdown, ({} : Annotation.State))
  let document := readDocument Dialect.full source
  let renderer := Renderer.preview options.escapeHtml highlight (knownIds s)
  return {
    html := Block.allToHtml renderer document.blocks
    annotations := s.tooltips.map fun (id, content) =>
      (id, tooltipHtml options.escapeHtml content)
    footnotes := document.notes
    findings := Footnote.validate markdown ++ s.findings }

end Docmark.Preview
