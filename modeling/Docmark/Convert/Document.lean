import Docmark.Convert.Walk

/-!
Converting a document: its Markdown with the footnotes at the end, the notes by number, and the
orphans among the notes.
-/

namespace Docmark

/-- A document comes as a loaded tree or as a JSON value. -/
inductive Source
  | tree (n : Node)
  | json (v : Json)

structure Converted where
  markdown : Text
  annotations : List (Text × Text)
  footnotes : List (Text × Text)
  findings : List Text
  /-- The links asked for, in order. -/
  requests : List Link.Request

def Source.load (options : ConversionOptions) : Source → Except Failure Node
  | .tree n => .ok n
  | .json (.object members) =>
    orFail .tooDeep (Node.load options.maxNestingDepth.ceiling members)
  | .json v => .error (.unsupportedDocument v.kindName)

/-- The body with the definitions of the footnotes after it. -/
def withFootnotes (options : ConversionOptions) (body : Text) (s : Footnote.State) : Text :=
  let definitions := s.renderDefinitions
  if !options.includeFootnotes || definitions.isEmpty then body
  else if body.isEmpty then definitions
  else body ++ ['\n', '\n'] ++ definitions

def finishDocument (options : ConversionOptions) (body : Text) (s : Session) : Converted :=
  let markdown := withFootnotes options (Text.trimNewlines body) s.footnotes
  {
    markdown := if options.collapseBlankLines then Markdown.collapseBlankLines markdown else markdown
    annotations := s.annotations.tooltips
    footnotes := s.footnotes.tooltips
    findings := Text.distinct (s.footnotes.findings ++ s.annotations.findings)
    requests := s.requests }

def convertTree (registry : Registry Converter) (ctx : Context) (n : Node) :
    Except Failure Converted := do
  let (fragment, session) ← (walk registry ctx 0 n).run {}
  return finishDocument ctx.options fragment.markdown session

/-- Converts a document with options, some of which are overridden by name. -/
def convertDocument (source : Source) (options : ConversionOptions := {})
    (overrides : OptionValues := []) (resolver : Link.Resolver := Link.resolve)
    (registry : Registry Converter := Registry.standard) : Except Failure Converted := do
  if let .json .null := source then throw .noDocument
  let options ← orFail .override (options.update overrides)
  let n ← source.load options
  convertTree registry ⟨options, resolver⟩ n

end Docmark
