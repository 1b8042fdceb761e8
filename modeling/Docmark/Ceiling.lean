import Docmark.Json.Display
import Docmark.Json.Reader

/-!
Ceilings on depth. A ceiling is a number of any form, and is shown in the form in which it was given;
levels are counted from 0.
-/

namespace Docmark

inductive Ceiling
  | whole (n : Int)
  | flag (b : Bool)
  | real (x : Binary64)
  deriving DecidableEq, Repr

namespace Ceiling

/-- The value of a flag as a number. -/
def ofFlag (b : Bool) : Int :=
  if b then 1 else 0

/-- None for a value that is no number. -/
def ofJson? : Json → Option Ceiling
  | .int n => some (whole n)
  | .bool b => some (flag b)
  | .real x => some (real x)
  | _ => none

def shown : Ceiling → Text
  | whole n => Text.decimalInt n
  | flag b => Json.display (.bool b)
  | real x => x.toText

def isLess : Ceiling → Int → Bool
  | whole n, k => n < k
  | flag b, k => ofFlag b < k
  | real x, k => x.isLess k

def isGreater : Ceiling → Int → Bool
  | whole n, k => k < n
  | flag b, k => k < ofFlag b
  | real x, k => x.isGreater k

/-- What is left of a ceiling below a level. -/
def below (c : Ceiling) (level : Nat) : Ceiling :=
  match c with
  | whole n => whole (n - level)
  | flag b => whole (ofFlag b - level)
  | real x => real (x.minus level)

/--
How many levels there are up to a ceiling. Where it is no finite number there are as many as a
document can have.
-/
def levels : Ceiling → Nat
  | whole n => (n + 1).toNat
  | flag b => (ofFlag b + 1).toNat
  | real x =>
    match x.floor? with
    | some n => (n + 1).toNat
    | none => if x.isLess 0 then 0 else Json.maxNesting + 1

end Ceiling
end Docmark
