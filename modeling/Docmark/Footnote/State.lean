import Docmark.Dictionary
import Docmark.Text.Digit

/-!
Numbers of footnotes: a name gets the next number when it is first seen, in a reference or in a
definition, and keeps it.
-/

namespace Docmark.Footnote

structure Definition where
  id : Text
  content : Text
  number : Nat
  deriving DecidableEq, Repr

structure State where
  counter : Nat := 0
  numbers : Dictionary Text Nat := []
  definitions : Dictionary Text Definition := []
  referenced : List Text := []
  deriving DecidableEq, Repr

namespace State

def numberFor (s : State) (id : Text) : Nat × State :=
  match s.numbers.get? id with
  | some n => (n, s)
  | none =>
    let n := s.counter + 1
    (n, { s with counter := n, numbers := s.numbers.put id n })

def reference (s : State) (id : Text) : Nat × State :=
  let referenced := if s.referenced.contains id then s.referenced else s.referenced ++ [id]
  { s with referenced }.numberFor id

/-- A later definition of a name takes the place of the earlier one. -/
def define (s : State) (id content : Text) : Nat × State :=
  let (n, s) := s.numberFor id
  (n, { s with definitions := s.definitions.put id ⟨id, Text.strip content, n⟩ })

def ordered (s : State) : List Definition :=
  Text.sortByKey (fun d => d.number) s.definitions.values

end State

def Definition.render (d : Definition) : Text :=
  '[' :: '^' :: Text.decimal d.number ++ ']' :: ':' :: ' ' :: d.content

namespace State

/-- The definitions as the blocks that end a document. -/
def renderDefinitions (s : State) : Text :=
  Text.joinBlocks (s.ordered.map Definition.render)

def tooltips (s : State) : List (Text × Text) :=
  s.ordered.map fun d => (Text.decimal d.number, d.content)

/-- The number of a name, zero if it has none. -/
def numberOf (s : State) (id : Text) : Nat :=
  (s.numbers.get? id).getD 0

def undefinedNames (s : State) : List Text :=
  Text.sortByKey (fun id => s.numberOf id) (s.referenced.filter fun id => !s.definitions.has id)

def unreferenced (s : State) : List Definition :=
  s.ordered.filter fun d => !s.referenced.contains d.id

end State

def orphanedReference (id : Text) : Text :=
  "Orphaned footnote reference: [^".toList ++ id ++ [']']

def orphanedDefinition (id : Text) : Text :=
  "Orphaned footnote definition: [^".toList ++ id ++ [']']

def State.findings (s : State) : List Text :=
  s.undefinedNames.map (fun id => orphanedReference (Text.decimal (s.numberOf id))) ++
    s.unreferenced.map fun d => orphanedDefinition (Text.decimal d.number)

/-- The name of a footnote sign that a text begins with, the length of the sign and what follows. -/
def sign? : Text → Option (Text × Nat × Text)
  | '[' :: '^' :: r =>
    let name := r.takeWhile (· != ']')
    match r.dropWhile (· != ']') with
    | ']' :: rest => if name.isEmpty then none else some (name, name.length + 3, rest)
    | _ => none
  | _ => none

/-- A sign that no colon follows. -/
def reference? (_before : Option Char) (t : Text) : Option (Text × Nat) :=
  match sign? t with
  | some (_, _, ':' :: _) => none
  | some (name, size, _) => some (name, size)
  | none => none

/-- A sign at the start of a line with a colon after it; white space is skipped over line ends. -/
def definition? (before : Option Char) (t : Text) : Option (Text × Nat) :=
  if before.any (· != '\n') then none
  else match sign? t with
    | some (name, size, ':' :: r) =>
      let content := (Text.stripStart r).takeWhile (· != '\n')
      some (name, size + 1 + Text.indentWidth r + content.length)
    | _ => none

/-- The orphans among the footnote signs of a text. -/
def validate (t : Text) : List Text :=
  let references := Text.distinct (Text.findAll reference? none 0 t)
  let definitions := Text.distinct (Text.findAll definition? none 0 t)
  (references.filter fun id => !definitions.contains id).map orphanedReference ++
    (definitions.filter fun id => !references.contains id).map orphanedDefinition

end Docmark.Footnote
