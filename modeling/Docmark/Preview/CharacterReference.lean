import Docmark.Preview.CharacterName

/-!
Character references of HTML, such as `&amp;` and `&#38;`: what they stand for in a text. All of them
end in a semicolon.
-/

namespace Docmark.Preview

/-- What the numbers from 128 to 159 stand for. -/
def controlMeanings : List Nat :=
  [8364, 129, 8218, 402, 8222, 8230, 8224, 8225, 710, 8240, 352, 8249, 338, 141, 381, 143, 144,
   8216, 8217, 8220, 8221, 8226, 8211, 8212, 732, 8482, 353, 8250, 339, 157, 382, 376]

/-- Numbers that stand for no character. -/
def isVoidNumber (n : Nat) : Bool :=
  (1 ≤ n && n ≤ 8) || n == 11 || (14 ≤ n && n ≤ 31) || n == 127 || (0xFDD0 ≤ n && n ≤ 0xFDEF) ||
    (0xFFFE ≤ n % 0x10000)

def replacement : Text := ['\ufffd']

/-- The text that a number stands for. -/
def numbered (n : Nat) : Text :=
  if n = 0 || (0xD800 ≤ n && n ≤ 0xDFFF) || 0x10FFFF < n then replacement
  else if 128 ≤ n && n ≤ 159 then [Char.ofNat (controlMeanings.getD (n - 128) 0)]
  else if n = 13 then ['\r']
  else if isVoidNumber n then []
  else [Char.ofNat n]

/-- The most digits of a reference by number in base ten. -/
def numberLimit : Nat := 7

/-- True for what may stand in a reference, with a semicolon after it. -/
def isEnded (body rest : Text) (limit : Nat) : Bool :=
  !body.isEmpty && body.length ≤ limit && rest.head? == some ';'

/-- The text for a reference by number, and the length of what follows `&#`. -/
def numeric? (t : Text) : Option (Text × Nat) :=
  match t with
  | [] => none
  | c :: r =>
    if c = 'x' || c = 'X' then
      let digits := r.takeWhile fun d => (hexValue? d).isSome
      if isEnded digits (r.drop digits.length) r.length then
        some (numbered (valueOf 16 digits), digits.length + 2)
      else none
    else
      let digits := t.takeWhile Char.isDigit
      if isEnded digits (t.drop digits.length) numberLimit then
        some (numbered (valueOf 10 digits), digits.length + 1)
      else none

/-- A name goes up to white space, a number sign, another reference or a semicolon. -/
def isNameChar (c : Char) : Bool :=
  !(c == '\t' || c == '\n' || c == '\x0c' || c == ' ' || c == '<' || c == '&' || c == '#' || c == ';')

def nameLimit : Nat := 32

/-- An unknown name with the longest known name at its beginning resolved. -/
def resolvePrefix? (name : Text) : Option Text :=
  (List.range (name.length + 1)).reverse.findSome? fun n =>
    if shortTable.contains (name.take n) then
      (named? (name.take n)).map fun t => t ++ name.drop n ++ [';']
    else none

/-- The text for a reference by name, and the length of what follows the ampersand. -/
def byName? (t : Text) : Option (Text × Nat) :=
  let name := t.takeWhile isNameChar
  if isEnded name (t.drop name.length) nameLimit then
    (named? name <|> resolvePrefix? name).map fun text => (text, name.length + 1)
  else none

/-- The text for a reference, and its length less the ampersand. -/
def reference? : Text → Option (Text × Nat)
  | '#' :: r => (numeric? r).map fun (t, n) => (t, n + 1)
  | t => byName? t

/-- `skip` characters belong to a reference that is written already. -/
def resolveFrom (skip : Nat) : Text → Text
  | [] => []
  | c :: r =>
    match skip with
    | k + 1 => resolveFrom k r
    | 0 =>
      if c = '&' then
        match reference? r with
        | some (t, n) => t ++ resolveFrom n r
        | none => c :: resolveFrom 0 r
      else c :: resolveFrom 0 r

/-- Writes out the character references of a text. -/
def resolveReferences (t : Text) : Text :=
  resolveFrom 0 t

end Docmark.Preview
