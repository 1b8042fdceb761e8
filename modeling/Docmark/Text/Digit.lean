import Docmark.Text.Blank
import Docmark.Text.Letter

/-!
Digits of every script, and reading and writing whole numbers in base ten.
-/

namespace Docmark.Text

/-- The zero of each set of decimal digits; the other nine follow it. -/
def decimalZeros : List Nat :=
  [48, 1632, 1776, 1984, 2406, 2534, 2662, 2790, 2918, 3046, 3174, 3302, 3430, 3558, 3664,
   3792, 3872, 4160, 4240, 6112, 6160, 6470, 6608, 6784, 6800, 6992, 7088, 7232, 7248, 42528,
   43216, 43264, 43472, 43504, 43600, 44016, 65296, 66720, 68912, 69734, 69872, 69942, 70096,
   70384, 70736, 70864, 71248, 71360, 71472, 71904, 72016, 72784, 73040, 73120, 92768, 92864,
   93008, 120782, 120792, 120802, 120812, 120822, 123200, 123632, 125264, 130032]

/-- Digits that do not combine to numbers, such as superscripts and circled digits. -/
def lesserDigits : List (Nat × Nat) :=
  [(178, 179), (185, 185), (4969, 4977), (6618, 6618), (8304, 8304), (8308, 8313),
   (8320, 8329), (9312, 9320), (9332, 9340), (9352, 9360), (9450, 9450), (9461, 9469),
   (9471, 9471), (10102, 10110), (10112, 10120), (10122, 10130), (68160, 68163),
   (69216, 69224), (69714, 69722), (127232, 127242)]

def digitValue? (c : Char) : Option Nat :=
  let n := c.toNat
  (decimalZeros.find? fun z => z ≤ n && n ≤ z + 9).map (n - ·)

/-- A decimal digit of some script. -/
def isDecimal (c : Char) : Bool :=
  (digitValue? c).isSome

/-- A decimal digit, or one that does not combine to numbers. -/
def isDigit (c : Char) : Bool :=
  isDecimal c || inRanges lesserDigits c.toNat

def decimal (n : Nat) : Text :=
  Nat.toDigits 10 n

def decimalInt : Int → Text
  | .ofNat n => decimal n
  | .negSucc n => '-' :: decimal (n + 1)

/-- The most digits that a number is read from or written with. -/
def maxDigits : Nat := 4300

/-- Why a number is not read or not written. -/
inductive NumberError
  | notANumber (source : Text)
  | tooManyDigits (count : Nat)
  | tooLongToWrite

/--
The digits that a text begins with, single underscores between them, and what follows them; the flag
tells that a digit has to come next.
-/
def leadingDigits : Bool → Text → Option (List Nat × Text)
  | needed, [] => if needed then none else some ([], [])
  | needed, c :: r =>
    if c = '_' then if needed then none else leadingDigits true r
    else match digitValue? c with
      | some d => (leadingDigits false r).map fun (ds, rest) => (d :: ds, rest)
      | none => if needed then none else some ([], c :: r)

def ofDigits (ds : List Nat) : Nat :=
  ds.foldl (fun n d => 10 * n + d) 0

/-- White space around a number; the separators of the first control block are none. -/
def isNumberPad (c : Char) : Bool :=
  isBlankChar c && !(28 ≤ c.toNat && c.toNat ≤ 31)

/-- The sign that a text begins with, and what follows it. -/
def cutSign : Text → Bool × Text
  | '-' :: r => (true, r)
  | '+' :: r => (false, r)
  | r => (false, r)

/--
Reads a whole number: white space around it is ignored, a sign may stand before the digits, which
are of any script and may have single underscores between them. That there are too many digits is
found before what follows them is looked at.
-/
def readInt (t : Text) : Except NumberError Int :=
  let (negative, body) := cutSign (t.dropWhile isNumberPad)
  match leadingDigits true body with
  | none => .error (.notANumber t)
  | some (ds, rest) =>
    if ds.length > maxDigits then .error (.tooManyDigits ds.length)
    else if rest.all isNumberPad then
      .ok (if negative then -(ofDigits ds : Int) else ofDigits ds)
    else .error (.notANumber t)

/-- The decimal form of a number, unless it is too long. -/
def writeNat (n : Nat) : Except NumberError Text :=
  let digits := decimal n
  if digits.length > maxDigits then .error .tooLongToWrite else .ok digits

end Docmark.Text
