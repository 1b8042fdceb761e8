import Docmark.Annotation.State

/-!
Annotated blocks in Markdown, line by line. A sentinel line opens a block. In a block markers get
their document-wide numbers, and definition lines of names in use are taken out together with the
indented lines that follow. A blank line closes the block when the next line neither begins with a
bracket nor is a definition. Text comes in chunks, and a blank line that ends a chunk is judged by
the first line of the next.
-/

namespace Docmark.Annotation

structure Processor where
  state : State := {}
  inBlock : Bool := false
  hasContent : Bool := false
  /-- The last chunk ended in a blank line that may close the block. -/
  pending : Bool := false
  deriving DecidableEq, Repr

/-- A definition whose continuation lines are being read. -/
structure Capture where
  name : Text
  parts : List Text
  deriving DecidableEq, Repr

/-- What comes of a line: the line to write, if any, or a definition that it begins. -/
structure Step where
  written : Option Text
  capture : Option Capture
  after : Processor

namespace Processor

def close (p : Processor) : Processor :=
  { p with inBlock := false, hasContent := false, state := p.state.closeBlock }

/-- True for a line before which a blank line closes the block. -/
def closesBlock (next : Text) : Bool :=
  let line := Text.strip next
  !Text.startsWith ['('] line && (definition? line).isNone

/-- True for a line that continues the definition before it. -/
def continuesDefinition (line : Text) : Bool :=
  !Text.isBlank line && (Text.startsWith (Text.spaces 4) line || Text.startsWith ['\t'] line)

/-- A line of a block that is neither a sentinel nor a definition to take out. -/
def bodyLine (p : Processor) (line : Text) (next : Option Text) : Step :=
  let (written, state) := p.state.renumber line
  let p := { p with state }
  let p :=
    if !Text.isBlank line then { p with hasContent := true }
    else if p.hasContent then
      match next with
      | some n => if closesBlock n then p.close else p
      | none => { p with pending := true }
    else p
  ⟨some written, none, p⟩

def step (p : Processor) (line : Text) (next : Option Text) : Step :=
  let stripped := Text.strip line
  if hasSentinel stripped then
    let p := if p.inBlock then p.close else p
    ⟨some line, none, { p with inBlock := true, hasContent := false }⟩
  else if !p.inBlock then ⟨some line, none, p⟩
  else
    match definition? stripped with
    | some (name, content) =>
      if p.state.isKnown name then ⟨none, some ⟨name, [Text.strip content]⟩, p⟩
      else p.bodyLine line next
    | none => p.bodyLine line next

def commit (p : Processor) : Option Capture → Processor
  | none => p
  | some c => { p with state := (p.state.define c.name (Text.unlines c.parts)).2 }

/-- Runs over lines, `capture` being the definition that the line before belongs to. -/
def run (p : Processor) (capture : Option Capture) : List Text → List Text × Processor
  | [] => ([], p.commit capture)
  | line :: rest =>
    match capture with
    | some c =>
      if continuesDefinition line then
        p.run (some { c with parts := c.parts ++ [Text.strip line] }) rest
      else
        let s := (p.commit capture).step line rest.head?
        let (written, p) := s.after.run s.capture rest
        (s.written.toList ++ written, p)
    | none =>
      let s := p.step line rest.head?
      let (written, p) := s.after.run s.capture rest
      (s.written.toList ++ written, p)

/-- Judges a blank line that ended the chunk before. -/
def resume (p : Processor) (first : Option Text) : Processor :=
  if p.pending then
    let p := { p with pending := false }
    match first with
    | some line => if closesBlock line then p.close else p
    | none => p
  else p

def feedLines (p : Processor) (lines : List Text) : List Text × Processor :=
  (p.resume lines.head?).run none lines

def feed (p : Processor) (chunk : Text) : Text × Processor :=
  let (lines, p) := p.feedLines (Text.lines chunk)
  (Text.unlines lines, p)

def finish (p : Processor) : Processor :=
  let p := { p with pending := false }
  if p.inBlock then p.close else p

/-- Processes a whole text. -/
def process (p : Processor) (t : Text) : Text × Processor :=
  let (written, p) := p.feed t
  (written, p.finish)

end Processor
end Docmark.Annotation
