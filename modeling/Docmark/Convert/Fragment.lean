import Docmark.Annotation.State
import Docmark.Failure
import Docmark.Footnote.State
import Docmark.Link.Resolve
import Docmark.Markdown.ListLayout
import Docmark.Markdown.Table
import Docmark.Options

/-!
What a conversion of a node gives, what it is given, and what it changes.
-/

namespace Docmark

/-- What the nodes above may have to know of a node beside its Markdown. -/
inductive Fact
  | plain
  | link (metadata : Dictionary String Json)
  | annotationReference (name : Text)
  | annotationDefinition (content : Text) (name : Json)
  | annotatedBlock
  | footnoteReference (id : Text) (number : Nat)
  | footnoteDefinition (id : Text) (number : Nat)
  | listItem (nested : List Nat)
  | bulletList (items : Nat)
  | orderedList (items start : Nat)
  | code (language : Text)
  | cell (cell : Markdown.Cell) (multiline : Bool)
  | row (cells : List Markdown.Cell)
  | propertyTable
  | gridTable (header : Bool)

structure Fragment where
  markdown : Text
  fact : Fact := .plain

def Fragment.empty : Fragment := ⟨[], .plain⟩

def Fact.listKind? : Fact → Option Markdown.ListKind
  | bulletList _ => some .bullet
  | orderedList _ _ => some .ordered
  | _ => none

def Fragment.block (f : Fragment) : Markdown.Block :=
  ⟨f.markdown, f.fact.listKind?⟩

/-- The Markdown of fragments, one after the other. -/
def Fragment.joined (fs : List Fragment) : Text :=
  fs.flatMap Fragment.markdown

def Fragment.joinedBlocks (fs : List Fragment) : Text :=
  Markdown.joinBlocks (fs.map Fragment.block)

/-- The Markdown of fragments that are not blank, with spaces between. -/
def Fragment.joinedWords (fs : List Fragment) : Text :=
  Text.joinWith [' '] ((fs.map fun f => Text.strip f.markdown).filter fun t => !t.isEmpty)

structure Context where
  options : ConversionOptions := {}
  resolver : Link.Resolver := Link.resolve

/-- The deepest level that may be converted. -/
def Context.ceiling (ctx : Context) : Ceiling :=
  ctx.options.maxNestingDepth.ceiling

/-- What grows through a conversion: the numbers given so far and the links asked for. -/
structure Session where
  annotations : Annotation.State := {}
  footnotes : Footnote.State := {}
  requests : List Link.Request := []

abbrev Conversion := StateT Session (Except Failure)

/-- Converts a node at a list level, given the fragments of its children. -/
abbrev Converter := Context → Node → List Fragment → Int → Conversion Fragment

def Conversion.fail (e : Failure) : Conversion α :=
  fun _ => .error e

def Conversion.lift (wrap : ε → Failure) (r : Except ε α) : Conversion α :=
  match r with
  | .ok a => pure a
  | .error e => Conversion.fail (wrap e)

/-- Asks for the target of a link. -/
def resolveLink (ctx : Context) (href : Text) (attributes : Attributes) :
    Conversion Link.Resolved := do
  let request : Link.Request := ⟨href, attributes, ctx.options.baseUrl⟩
  modify fun s => { s with requests := s.requests ++ [request] }
  Conversion.lift .url (ctx.resolver request)

end Docmark
