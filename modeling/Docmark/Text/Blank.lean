import Docmark.Text.Basic

/-!
White space: the characters that Unicode gives the property, and the separators of the first
control block.
-/

namespace Docmark.Text

def isBlankChar (c : Char) : Bool :=
  let n := c.toNat
  (9 ≤ n && n ≤ 13) || (28 ≤ n && n ≤ 32) || n == 0x85 || n == 0xA0 || n == 0x1680 ||
    (0x2000 ≤ n && n ≤ 0x200A) || n == 0x2028 || n == 0x2029 || n == 0x202F || n == 0x205F ||
    n == 0x3000

/-- Space or tab. -/
def isPad (c : Char) : Bool :=
  c == ' ' || c == '\t'

def isBlank (t : Text) : Bool :=
  t.all isBlankChar

def stripStart (t : Text) : Text :=
  t.dropWhile isBlankChar

def stripEnd (t : Text) : Text :=
  dropEndWhile isBlankChar t

def strip (t : Text) : Text :=
  dropAround isBlankChar t

/-- The length of the white space that a text begins with. -/
def indentWidth (t : Text) : Nat :=
  (t.takeWhile isBlankChar).length

/-- The maximal runs without white space. -/
def words (t : Text) : List Text :=
  go t
where
  go : Text → List Text
    | [] => []
    | c :: r =>
      if isBlankChar c then go r
      else match r with
        | [] => [[c]]
        | d :: _ => if isBlankChar d then [c] :: go r else (go r).modifyHead (c :: ·)

/-- True for a character that ends a line in every convention in use. -/
def isLineBreak (c : Char) : Bool :=
  let n := c.toNat
  (10 ≤ n && n ≤ 13) || (28 ≤ n && n ≤ 30) || n == 0x85 || n == 0x2028 || n == 0x2029

/-- The lines between all kinds of line breaks; a carriage return and a line feed are one. -/
def anyLines (t : Text) : List Text :=
  go t
where
  go : Text → List Text
    | [] => []
    | '\r' :: '\n' :: r => [] :: go r
    | [c] => if isLineBreak c then [[]] else [[c]]
    | c :: d :: r => if isLineBreak c then [] :: go (d :: r) else (go (d :: r)).modifyHead (c :: ·)

end Docmark.Text
