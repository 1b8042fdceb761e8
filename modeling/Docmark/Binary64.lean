import Docmark.Text.Digit

/-!
Floating-point numbers of double width: the nearest one to a decimal numeral, and the shortest
decimal numeral that reads back.
-/

namespace Docmark

/-- A finite number is `mantissa * 2 ^ exponent` with its sign; the mantissa has at most 53 bits. -/
inductive Binary64
  | finite (negative : Bool) (mantissa : Nat) (exponent : Int)
  | infinite (negative : Bool)
  | notANumber
  deriving DecidableEq, Repr

namespace Binary64

def minExponent : Int := -1074
def maxExponent : Int := 971

def isZero : Binary64 → Bool
  | finite _ 0 _ => true
  | _ => false

/-- The quotient rounded to the nearest whole number, a half to the even one. -/
def roundDiv (num den : Nat) : Nat :=
  let q := num / den
  let twice := 2 * (num % den)
  if twice > den || (twice == den && q % 2 == 1) then q + 1 else q

/-- A power; a negative exponent counts as zero. -/
def power (base : Nat) (e : Int) : Nat :=
  Nat.pow base e.toNat

/-- Mantissas are less than the 53rd power of two. -/
def mantissaLimit : Nat :=
  power 2 53

/-- `num / den * 2 ^ -e`, as a quotient. -/
def scaled (num den : Nat) (e : Int) : Nat × Nat :=
  if 0 ≤ e then (num, den * power 2 e) else (num * power 2 (-e), den)

/-- The number nearest to a positive quotient. -/
def ofQuotient (negative : Bool) (num den : Nat) : Binary64 :=
  let guess : Int := (num.log2 : Int) - den.log2 - 53
  let fits (e : Int) : Bool := let (n, d) := scaled num den e; n / d < mantissaLimit
  let lowest := if fits guess then guess else if fits (guess + 1) then guess + 1 else guess + 2
  let e := max minExponent lowest
  let (n, d) := scaled num den e
  let m := roundDiv n d
  let (m, e) := if m == mantissaLimit then (mantissaLimit / 2, e + 1) else (m, e)
  if e > maxExponent then infinite negative else finite negative m e

/-- The number nearest to `digits * 10 ^ exponent`. -/
def ofDecimal (negative : Bool) (digits : Nat) (exponent : Int) : Binary64 :=
  if digits == 0 then finite negative 0 minExponent
  else
    let size := ((Nat.toDigits 10 digits).length : Int) + exponent
    if size > 400 then infinite negative
    else if size < -400 then finite negative 0 minExponent
    else if 0 ≤ exponent then ofQuotient negative (digits * power 10 exponent) 1
    else ofQuotient negative digits (power 10 (-exponent))

/-- The whole part of a finite number. -/
def truncate? : Binary64 → Option Int
  | finite negative m e =>
    let n := if 0 ≤ e then m * power 2 e else m / power 2 (-e)
    some (if negative then -n else n)
  | _ => none

/-- A finite number as a quotient with a positive denominator. -/
def quotient? : Binary64 → Option (Int × Nat)
  | finite negative m e =>
    let n : Int := m * power 2 e
    some (if negative then -n else n, power 2 (-e))
  | _ => none

/-- The greatest whole number that is not above a finite number. -/
def floor? (x : Binary64) : Option Int :=
  x.quotient?.map fun (n, d) => n.fdiv d

def isLess (x : Binary64) (k : Int) : Bool :=
  match x.quotient? with
  | some (n, d) => n < k * d
  | none => x == infinite true

def isGreater (x : Binary64) (k : Int) : Bool :=
  match x.quotient? with
  | some (n, d) => k * d < n
  | none => x == infinite false

/-- The number nearest to the difference. -/
def minus (x : Binary64) (k : Int) : Binary64 :=
  match x.quotient? with
  | some (n, d) =>
    let n := n - k * d
    if n = 0 then finite false 0 minExponent else ofQuotient (n < 0) n.natAbs d
  | none => x

/-- A range of reals with a common denominator; the ends belong to it if `closed`. -/
structure Interval where
  low : Nat
  mid : Nat
  high : Nat
  den : Nat
  closed : Bool

/-- The reals that round to a positive number. -/
def interval (m : Nat) (e : Int) : Interval :=
  let unit := e - 2
  let up := power 2 unit
  let low := if m == mantissaLimit / 2 && e > minExponent then 4 * m - 1 else 4 * m - 2
  ⟨low * up, 4 * m * up, (4 * m + 2) * up, power 2 (-unit), m % 2 == 0⟩

/-- True when `c * 10 ^ p` lies in the interval. -/
def Interval.holds (i : Interval) (c : Nat) (p : Int) : Bool :=
  let value := c * power 10 p * i.den
  let scale := power 10 (-p)
  if i.closed then i.low * scale ≤ value && value ≤ i.high * scale
  else i.low * scale < value && value < i.high * scale

/-- The multiple of `10 ^ p` nearest to the middle, if the interval holds one next to it. -/
def Interval.onGrid (i : Interval) (p : Int) : Option Nat :=
  let num := i.mid * power 10 (-p)
  let den := i.den * power 10 p
  let below := num / den
  let nearest := roundDiv num den
  let other := if nearest == below then below + 1 else below
  if i.holds nearest p then some nearest else if i.holds other p then some other else none

/-- The power of ten above the middle. -/
def Interval.magnitude (i : Interval) : Int :=
  if i.den ≤ i.mid then (Nat.toDigits 10 (i.mid / i.den)).length
  else 1 - ((Nat.toDigits 10 ((i.den - 1) / i.mid)).length : Int)

/-- Digits and power of ten of the shortest numeral in the interval. -/
def Interval.shortest (i : Interval) : Nat × Int :=
  let k := i.magnitude
  let grids := (List.range 18).map fun n : Nat => k - n
  (grids.findSome? fun p => (i.onGrid p).map (·, p)).getD (0, 0)

/-- Where numerals change from plain notation to a power of ten. -/
structure Layout where
  leastPoint : Int
  greatestPoint : Int

/-- From a ten-thousandth up to below ten to the sixteenth, numerals are plain. -/
def layout : Layout := ⟨-3, 16⟩

def exponentText (e : Int) : Text :=
  let digits := Text.decimal e.natAbs
  (if e < 0 then '-' else '+') :: (if digits.length < 2 then '0' :: digits else digits)

/-- Writes digits with the point after the first `point` of them. -/
def numeral (digits : Text) (point : Int) : Text :=
  if layout.leastPoint ≤ point && point ≤ layout.greatestPoint then
    if point ≤ 0 then '0' :: '.' :: List.replicate (-point).toNat '0' ++ digits
    else
      let n := point.toNat
      let whole := digits.take n ++ List.replicate (n - digits.length) '0'
      let fraction := digits.drop n
      whole ++ '.' :: (if fraction.isEmpty then ['0'] else fraction)
  else
    match digits with
    | [] => []
    | d :: r => d :: (if r.isEmpty then [] else '.' :: r) ++ 'e' :: exponentText (point - 1)

/-- The shortest numeral that reads back as the number. -/
def toText : Binary64 → Text
  | notANumber => ['n', 'a', 'n']
  | infinite negative => (if negative then ['-'] else []) ++ ['i', 'n', 'f']
  | finite negative m e =>
    let body :=
      if m == 0 then ['0', '.', '0']
      else
        let (c, p) := (interval m e).shortest
        let digits := Text.decimal c
        numeral (Text.dropEndWhile (· == '0') digits) (digits.length + p)
    (if negative then ['-'] else []) ++ body

end Binary64
end Docmark
