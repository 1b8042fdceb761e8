import Docmark.Annotation.Marker
import Docmark.Dictionary

/-!
Numbers of annotations. Every block has local names, which get numbers that count through the whole
document; the definitions are kept for all blocks.
-/

namespace Docmark.Annotation

structure Definition where
  id : Text
  content : Text
  number : Int
  deriving DecidableEq, Repr

/--
`block` holds the local names of the open block, `counter` the last number given. Numbers count up
from whatever number the counter begins with.
-/
structure State where
  counter : Int := 0
  definitions : Dictionary Text Definition := []
  block : Dictionary Text Int := []
  referenced : List Int := []
  deriving DecidableEq, Repr

namespace State

def isKnown (s : State) (name : Text) : Bool :=
  s.block.has name

/-- A name gets its number when the open block uses it for the first time. -/
def resolve (s : State) (name : Text) : Int × State :=
  match s.block.get? name with
  | some n => (n, s)
  | none =>
    let n := s.counter + 1
    (n, { s with counter := n, block := s.block.put name n })

def reference (s : State) (name : Text) : Int × State :=
  let (n, s) := s.resolve name
  (n, { s with referenced := if s.referenced.contains n then s.referenced else s.referenced ++ [n] })

def define (s : State) (name content : Text) : Int × State :=
  let (n, s) := s.resolve name
  let id := Text.decimalInt n
  (n, { s with definitions := s.definitions.put id ⟨id, Text.strip content, n⟩ })

/-- Known definitions stand, and names that are no numbers are skipped. -/
def addDefinition (s : State) (id content : Text) : Except Text.NumberError State :=
  if s.definitions.has id || id.isEmpty || !id.all Text.isDigit then .ok s
  else do
    let n ← Text.readInt id
    return { s with definitions := s.definitions.put id ⟨id, Text.strip content, n⟩ }

/-- The definitions before one with an unreadable number are added all the same. -/
def addDefinitions (s : State) : List (Text × Text) → State × Option Text.NumberError
  | [] => (s, none)
  | (id, content) :: rest =>
    match s.addDefinition id content with
    | .ok s => s.addDefinitions rest
    | .error e => (s, some e)

def renumberPieces (s : State) : List Piece → List Piece × State
  | [] => ([], s)
  | .char c :: ps =>
    let (qs, s) := s.renumberPieces ps
    (.char c :: qs, s)
  | .marker name :: ps =>
    let (n, s) := s.reference name
    let (qs, s) := s.renumberPieces ps
    (.marker (Text.decimalInt n) :: qs, s)

/-- Puts into each marker the number of its local name. -/
def renumber (s : State) (t : Text) : Text × State :=
  let (ps, s) := s.renumberPieces (pieces t)
  (renderPieces ps, s)

def closeBlock (s : State) : State :=
  { s with block := [] }

/-- The contents of the definitions in the order of their numbers. -/
def tooltips (s : State) : List (Text × Text) :=
  (Text.sortByKey Definition.number s.definitions.values).map fun d => (d.id, d.content)

/-- Numbers with a marker and without a definition. -/
def undefinedNumbers (s : State) : List Int :=
  Text.sortByKey id (s.referenced.filter fun n => !s.definitions.has (Text.decimalInt n))

/-- Definitions without a marker. -/
def unreferenced (s : State) : List Definition :=
  Text.sortByKey Definition.number
    (s.definitions.values.filter fun d => !(s.referenced.map Text.decimalInt).contains d.id)

end State

def orphanedReference (id : Text) : Text :=
  "Orphaned annotation reference: (".toList ++ id ++ [')']

def orphanedDefinition (id : Text) : Text :=
  "Orphaned annotation definition: ".toList ++ id ++ ['.']

def State.findings (s : State) : List Text :=
  s.undefinedNumbers.map (fun n => orphanedReference (Text.decimalInt n)) ++
    s.unreferenced.map fun d => orphanedDefinition d.id

/-- Texts of digits in the order of their numbers, all of which have to be readable. -/
def inNumberOrder (ids : List Text) : Except Text.NumberError (List Text) := do
  let numbered ← ids.mapM fun id => return (← Text.readInt id, id)
  return (Text.sortByKey Prod.fst numbered).map Prod.snd

/-- The orphans among the markers and definition lines of a text, block by block or not. -/
def validate (t : Text) : Except Text.NumberError (List Text) := do
  let references := Text.distinct (markersOf t)
  let definitions := Text.distinct
    ((Text.lines t).filterMap fun line => (definition? (Text.strip line)).map Prod.fst)
  let undefined ← inNumberOrder (references.filter fun id => !definitions.contains id)
  let unreferenced ← inNumberOrder (definitions.filter fun id => !references.contains id)
  return undefined.map orphanedReference ++ unreferenced.map orphanedDefinition

end Docmark.Annotation
