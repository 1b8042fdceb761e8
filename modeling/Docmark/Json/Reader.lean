import Docmark.Json.Basic

/-!
Reading JSON text. Beside the standard it takes `NaN` and the two infinities as numbers; of two
members with one name the later value stands.
-/

namespace Docmark.Json

inductive ReadError
  | malformed
  | tooDeep
  deriving DecidableEq, Repr

/-- The most lists and objects that may stand inside one another. -/
def maxNesting : Nat := 980

def isPad (c : Char) : Bool :=
  c == ' ' || c == '\t' || c == '\n' || c == '\r'

def skipPad (t : Text) : Text :=
  t.dropWhile isPad

def hexValue? (c : Char) : Option Nat :=
  if c.isDigit then some (c.toNat - 48)
  else if 'a' ≤ c && c ≤ 'f' then some (c.toNat - 87)
  else if 'A' ≤ c && c ≤ 'F' then some (c.toNat - 55)
  else none

def hexUnit? (a b c d : Char) : Option Nat := do
  return ((← hexValue? a) * 16 + (← hexValue? b)) * 256 + (← hexValue? c) * 16 + (← hexValue? d)

def escaped? : Char → Option Nat
  | '\x22' => some 0x22
  | '\\' => some 0x5C
  | '/' => some 0x2F
  | 'b' => some 8
  | 'f' => some 12
  | 'n' => some 10
  | 'r' => some 13
  | 't' => some 9
  | _ => none

/-- The code points and units of a string up to its closing quote, and what follows it. -/
def stringUnits : Text → Option (List Nat × Text)
  | [] => none
  | '\x22' :: r => some ([], r)
  | '\\' :: 'u' :: a :: b :: c :: d :: r => do
    let unit ← hexUnit? a b c d
    let (units, rest) ← stringUnits r
    return (unit :: units, rest)
  | '\\' :: e :: r => do
    let unit ← escaped? e
    let (units, rest) ← stringUnits r
    return (unit :: units, rest)
  | c :: r =>
    if c = '\\' || c.toNat < 32 then none
    else do
      let (units, rest) ← stringUnits r
      return (c.toNat :: units, rest)

/-- Joins the two halves of characters beyond the first plane; a lone half is unreadable. -/
def joinUnits : List Nat → Text
  | [] => []
  | [u] => [if 0xD800 ≤ u && u < 0xE000 then '\uFFFD' else Char.ofNat u]
  | u :: v :: us =>
    if 0xD800 ≤ u && u < 0xDC00 && 0xDC00 ≤ v && v < 0xE000 then
      Char.ofNat (0x10000 + (u - 0xD800) * 0x400 + (v - 0xDC00)) :: joinUnits us
    else (if 0xD800 ≤ u && u < 0xE000 then '\uFFFD' else Char.ofNat u) :: joinUnits (v :: us)

def readString (t : Text) : Option (String × Text) := do
  let (units, rest) ← stringUnits t
  return (String.ofList (joinUnits units), rest)

def natOf (digits : Text) : Nat :=
  digits.foldl (fun n c => 10 * n + (c.toNat - 48)) 0

/-- The whole part: a lone zero, or digits that begin with another one. -/
def wholePart (t : Text) : Option (Text × Text) :=
  match t with
  | '0' :: r => some (['0'], r)
  | c :: _ => if c.isDigit then some (t.takeWhile Char.isDigit, t.dropWhile Char.isDigit) else none
  | [] => none

/-- Digits after a point, if any stand there. -/
def fractionPart (t : Text) : Text × Text :=
  match t with
  | '.' :: r => if (r.takeWhile Char.isDigit).isEmpty then ([], t)
    else (r.takeWhile Char.isDigit, r.dropWhile Char.isDigit)
  | _ => ([], t)

/-- The power of ten after the mark `e`, if digits stand there. -/
def exponentPart (t : Text) : Option Int × Text :=
  match t with
  | c :: r =>
    if c = 'e' || c = 'E' then
      let (negative, digits) := match r with
        | '-' :: s => (true, s)
        | '+' :: s => (false, s)
        | s => (false, s)
      let read := digits.takeWhile Char.isDigit
      if read.isEmpty then (none, t)
      else
        let size := min (natOf (read.dropWhile (· == '0') |>.take 12)) 1000000
        (some (if negative then -(size : Int) else size), digits.dropWhile Char.isDigit)
    else (none, t)
  | [] => (none, t)

def readNumber (negative : Bool) (t : Text) : Option (Json × Text) := do
  let (whole, r) ← wholePart t
  let (fraction, r) := fractionPart r
  let (exponent, r) := exponentPart r
  if fraction.isEmpty && exponent.isNone then
    if whole.length > Text.maxDigits then none
    else some (int (if negative then -(natOf whole : Int) else natOf whole), r)
  else
    let e : Int := exponent.getD 0 - fraction.length
    some (real (Binary64.ofDecimal negative (natOf (whole ++ fraction)) e), r)

def words : List (Text × Json) :=
  [("null".toList, null), ("true".toList, bool true), ("false".toList, bool false),
   ("NaN".toList, real .notANumber), ("Infinity".toList, real (.infinite false)),
   ("-Infinity".toList, real (.infinite true))]

def readWord (t : Text) : Option (Json × Text) :=
  words.findSome? fun (word, value) => (Text.after? word t).map fun rest => (value, rest)

/-- A value that is neither a list nor an object. -/
def readScalar : Text → Option (Json × Text)
  | '\x22' :: r => (readString r).map fun (s, rest) => (str s, rest)
  | '-' :: r => readNumber true r <|> readWord ('-' :: r)
  | t => readWord t <|> readNumber false t

def orMalformed : Option α → Except ReadError α
  | some a => .ok a
  | none => .error .malformed

mutual

/-- Reads the value at the head of a text in which `depth` containers are open. -/
def readValue (fuel depth : Nat) (t : Text) : Except ReadError (Json × Text) :=
  match fuel with
  | 0 => .error .malformed
  | fuel + 1 =>
    match t with
    | '[' :: r =>
      if depth ≥ maxNesting then .error .tooDeep
      else match skipPad r with
        | ']' :: rest => .ok (list [], rest)
        | r => readItems fuel (depth + 1) r []
    | '\x7b' :: r =>
      if depth ≥ maxNesting then .error .tooDeep
      else match skipPad r with
        | '\x7d' :: rest => .ok (object [], rest)
        | r => readMembers fuel (depth + 1) r []
    | t => orMalformed (readScalar t)

/-- Reads the items from the next one on; those before it are given last first. -/
def readItems (fuel depth : Nat) (t : Text) (before : List Json) :
    Except ReadError (Json × Text) :=
  match fuel with
  | 0 => .error .malformed
  | fuel + 1 => do
    let (value, r) ← readValue fuel depth t
    match skipPad r with
    | ']' :: rest => return (list (value :: before).reverse, rest)
    | ',' :: r => readItems fuel depth (skipPad r) (value :: before)
    | _ => .error .malformed

/-- Reads the members from the next one on. -/
def readMembers (fuel depth : Nat) (t : Text) (before : List (String × Json)) :
    Except ReadError (Json × Text) :=
  match fuel with
  | 0 => .error .malformed
  | fuel + 1 => do
    let (name, r) ← match t with
      | '\x22' :: r => orMalformed (readString r)
      | _ => .error .malformed
    match skipPad r with
    | ':' :: r =>
      let (value, r) ← readValue fuel depth (skipPad r)
      let members := Dictionary.put name value before
      match skipPad r with
      | '\x7d' :: rest => return (object members, rest)
      | ',' :: r => readMembers fuel depth (skipPad r) members
      | _ => .error .malformed
    | _ => .error .malformed

end

/-- Reads a text that holds one value and white space around it. -/
def read (t : Text) : Except ReadError Json := do
  let (value, rest) ← readValue (t.length + 1) 0 (skipPad t)
  if (skipPad rest).isEmpty then return value else .error .malformed

end Docmark.Json
