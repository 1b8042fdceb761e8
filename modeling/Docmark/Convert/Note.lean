import Docmark.Convert.Fragment

/-!
Annotations and footnotes. An annotated block gets document-wide numbers for the markers inside it
and keeps the definitions that belong to them; footnotes are numbered through the document.
-/

namespace Docmark.Convert

/-- The text of a name, none if it is absent or blank. -/
def nameOf (v : Json) : Option Text :=
  match v with
  | .null => none
  | v => if Text.isBlank v.display then none else some (Text.strip v.display)

def annotationReference : Converter := fun _ n _ _ =>
  let name := (nameOf (n.attr "localId")).getD ['1']
  return ⟨'(' :: name ++ [')'], .annotationReference name⟩

def annotationDefinition : Converter := fun _ n children _ =>
  return ⟨[], .annotationDefinition (Fragment.joinedWords children) (n.attr "localId")⟩

/-- Names and contents of the definitions in a block; one without a name is called by its place. -/
def definitionsFrom (place : Nat) : List Fragment → List (Text × Text)
  | [] => []
  | f :: fs =>
    match f.fact with
    | .annotationDefinition content name =>
      ((nameOf name).getD (Text.decimal place), content) :: definitionsFrom (place + 1) fs
    | _ => definitionsFrom place fs

def isAnnotatedBlock (f : Fragment) : Bool :=
  match f.fact with
  | .annotatedBlock => true
  | _ => false

/-- Renumbers the markers in the blocks, apart from annotated blocks, whose markers have numbers. -/
def renumberBlocks (s : Annotation.State) : List (Bool × Text) → List Text × Annotation.State
  | [] => ([], s)
  | (numbered, block) :: rest =>
    let (written, s) := if numbered then (block, s) else s.renumber block
    let (others, s) := renumberBlocks s rest
    (written :: others, s)

/-- Stores definitions, and gives the lines that show them. -/
def storeDefinitions (s : Annotation.State) : List (Text × Text) → List Text × Annotation.State
  | [] => ([], s)
  | (name, content) :: rest =>
    let (n, s) := s.define name content
    let (lines, s) := storeDefinitions s rest
    ((Text.decimalInt n ++ '.' :: ' ' :: content) :: lines, s)

/-- The Markdown of a block, from its body and the lines of its definitions. -/
def blockMarkdown (emitting : Bool) (body : Text) (lines : List Text) : Text :=
  let body := if body.isEmpty then [] else [body]
  let shown := if emitting && !lines.isEmpty then [Text.unlines lines] else []
  Text.joinBlocks <| Annotation.sentinel :: body ++ shown

def annotationBlock : Converter := fun ctx _ children _ => do
  let opened := (← get).annotations.closeBlock
  let blocks := (Markdown.separateLists (children.map Fragment.block)).map
    fun (i, block) => ((children[i]?.map isAnnotatedBlock).getD false, block)
  let (parts, renumbered) := renumberBlocks opened blocks
  let (lines, stored) := storeDefinitions renumbered (definitionsFrom 1 children)
  modify fun s => { s with annotations := stored.closeBlock }
  let body := Text.joinBlocks parts
  return if body.isEmpty && lines.isEmpty then .empty
    else ⟨blockMarkdown ctx.options.emitAnnotationDefinitions body lines, .annotatedBlock⟩

def annotation : Converter := fun ctx n children level =>
  match n.attr "annotationType" with
  | .str "reference" => annotationReference ctx n children level
  | .str "definition" => annotationDefinition ctx n children level
  | _ => annotationBlock ctx n children level

def footnote : Converter := fun _ n children _ => do
  match nameOf (n.attr "id") with
  | none => return .empty
  | some id =>
    let s ← get
    if (n.attr "footnoteType").string? == some "definition" then
      let (number, footnotes) := s.footnotes.define id (Fragment.joinedWords children)
      set { s with footnotes }
      return ⟨[], .footnoteDefinition id number⟩
    else
      let (number, footnotes) := s.footnotes.reference id
      set { s with footnotes }
      return ⟨'[' :: '^' :: Text.decimal number ++ [']'], .footnoteReference id number⟩

end Docmark.Convert
