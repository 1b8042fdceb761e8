import Docmark.Admonition.Scan

/-!
The parser of blocks that admonitions are found in. It parses their bodies too, as texts of their
own, and its place in the text around is kept meanwhile.
-/

namespace Docmark.Admonition

/-- A parser with states `σ`, whose places `κ` can be kept; it makes tokens `τ` or fails by `ε`. -/
structure Host (σ κ τ ε : Type) where
  snapshot : σ → κ × σ
  restore : κ → σ → σ
  tokenize : Text → σ → Except ε (List τ) × σ

/-- An admonition with the tokens of its body. -/
structure Parsed (τ : Type) where
  header : Header
  firstLine : Nat
  lastLine : Nat
  content : List τ

/-- Parses the body, if there is one, and returns to the place before, also when parsing fails. -/
def Host.parseBody (host : Host σ κ τ ε) (a : Scanned) (s : σ) : Except ε (Parsed τ) × σ :=
  let (place, s) := host.snapshot s
  let (content, s) := if a.body.isEmpty then (.ok [], s) else host.tokenize a.body s
  (content.map fun tokens => ⟨a.header, a.firstLine, a.lastLine, tokens⟩, host.restore place s)

/-- Where a parser stands: the offset, the end of the text, whether the list around is tight. -/
structure Place where
  cursor : Nat
  limit : Nat
  tight : Bool
  deriving DecidableEq, Repr

/-- The parser of a text that lies `depth` levels deep; `rules` are tried in order. -/
structure Engine where
  place : Place
  depth : Int
  maxDepth : Int
  rules : List Text
  deriving DecidableEq, Repr

/-- The rules for a text inside a block: near the greatest depth without the one for that block. -/
def rulesWithin [BEq ρ] (maxDepth depth : Int) (rule : ρ) (rules : List ρ) : List ρ :=
  if maxDepth - 1 ≤ depth then rules.erase rule else rules

/-- `parse` may do with the place what it likes. -/
def Engine.host (rule : Text) (parse : Text → List Text → Place → Except ε (List τ) × Place) :
    Host Engine Place τ ε where
  snapshot e := (e.place, e)
  restore place e := { e with place }
  tokenize text e :=
    let (result, place) := parse text (rulesWithin e.maxDepth e.depth rule e.rules) e.place
    (result, { e with place })

end Docmark.Admonition
