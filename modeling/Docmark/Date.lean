import Docmark.Json.Display

/-!
Dates from numbers of milliseconds since the beginning of 1970, in the Gregorian calendar of the
years 1 to 9999.
-/

namespace Docmark

structure Date where
  year : Nat
  month : Nat
  day : Nat
  deriving DecidableEq, Repr

namespace Date

def isLeap (year : Nat) : Bool :=
  year % 4 == 0 && (year % 100 != 0 || year % 400 == 0)

def daysIn (year : Nat) : List Nat :=
  [31, if isLeap year then 29 else 28, 31, 30, 31, 30, 31, 31, 30, 31, 30, 31]

/-- Days in the years before one. -/
def daysBefore (year : Nat) : Nat :=
  let y := year - 1
  365 * y + y / 4 - y / 100 + y / 400

/-- Month and day of the day with a number, from 0 on, in a list of months. -/
def inMonths (month : Nat) (day : Nat) : List Nat → Nat × Nat
  | [] => (month, day + 1)
  | n :: ns => if day < n then (month, day + 1) else inMonths (month + 1) (day - n) ns

/-- The date of the day with a number, counted from the first day of the year 1. -/
def ofDay (n : Nat) : Date :=
  let guess := n / 366 + 1
  let year := (List.range 30).foldl
    (fun y _ => if daysBefore (y + 1) ≤ n then y + 1 else y) (guess)
  let (month, day) := inMonths 1 (n - daysBefore year) (daysIn year)
  ⟨year, month, day⟩

/-- Days from the first day of the year 1 to the first of 1970. -/
def epochDay : Int := 719162

/-- None outside the years 1 to 9999. -/
def ofMilliseconds (ms : Int) : Option Date :=
  let day := ms.fdiv 86400000 + epochDay
  if day < 0 || 3652059 ≤ day then none else some (ofDay day.toNat)

def padded (width n : Nat) : Text :=
  let digits := Text.decimal n
  List.replicate (width - digits.length) '0' ++ digits

def render (d : Date) : Text :=
  padded 4 d.year ++ '-' :: padded 2 d.month ++ '-' :: padded 2 d.day

/-- The number of milliseconds that a value stands for. -/
def milliseconds? : Json → Option Int
  | .bool b => some (if b then 1 else 0)
  | .int n => some n
  | .real x => x.truncate?
  | .str s => (Text.readInt s.toList).toOption
  | _ => none

end Date
end Docmark
