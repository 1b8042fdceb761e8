import Docmark.Json.Reader

/-!
JSON as bytes: the encoding shows in a byte order mark or in the zeros among the first four bytes.
-/

namespace Docmark.Json

inductive Encoding
  | utf8
  | utf16 (bigEndian : Bool)
  | utf32 (bigEndian : Bool)
  deriving DecidableEq, Repr

/-- The encoding and how many bytes the mark in front takes. -/
def encodingOf : List UInt8 → Encoding × Nat
  | 0 :: 0 :: 0xFE :: 0xFF :: _ => (.utf32 true, 4)
  | 0xFF :: 0xFE :: 0 :: 0 :: _ => (.utf32 false, 4)
  | 0xFE :: 0xFF :: _ => (.utf16 true, 2)
  | 0xFF :: 0xFE :: _ => (.utf16 false, 2)
  | 0xEF :: 0xBB :: 0xBF :: _ => (.utf8, 3)
  | 0 :: b :: _ :: _ :: _ => (if b = 0 then .utf32 true else .utf16 true, 0)
  | _ :: 0 :: c :: d :: _ => (if c = 0 && d = 0 then .utf32 false else .utf16 false, 0)
  | [0, _] => (.utf16 true, 0)
  | [_, 0] => (.utf16 false, 0)
  | _ => (.utf8, 0)

/-- The value of the byte that continues a sequence. -/
def continuation? (b : UInt8) : Option Nat :=
  if 0x80 ≤ b.toNat && b.toNat < 0xC0 then some (b.toNat - 0x80) else none

/-- A sequence of bytes that is not complete: how many are missing, and what those before give. -/
structure OpenSequence where
  missing : Nat
  value : Nat
  /-- Smaller values have a shorter sequence. -/
  least : Nat

/-- What the first byte of a sequence gives. -/
def leadOf? (b : UInt8) : Option OpenSequence :=
  let n := b.toNat
  if n < 0x80 then some ⟨0, n, 0⟩
  else if n < 0xC0 then none
  else if n < 0xE0 then some ⟨1, n - 0xC0, 0x80⟩
  else if n < 0xF0 then some ⟨2, n - 0xE0, 0x800⟩
  else if n < 0xF8 then some ⟨3, n - 0xF0, 0x10000⟩
  else none

/--
Code points in sequences of up to four bytes, none longer than it has to be. The halves of a pair may
stand as sequences of their own.
-/
def pointsFrom : Option OpenSequence → List UInt8 → Option (List Nat)
  | none, [] => some []
  | some _, [] => none
  | none, b :: r =>
    match leadOf? b with
    | some ⟨0, point, _⟩ => (pointsFrom none r).map (point :: ·)
    | some p => pointsFrom (some p) r
    | none => none
  | some p, b :: r =>
    match continuation? b with
    | none => none
    | some bits =>
      let point := p.value * 64 + bits
      if 1 < p.missing then pointsFrom (some ⟨p.missing - 1, point, p.least⟩) r
      else if point < p.least || 0x110000 ≤ point then none
      else (pointsFrom none r).map (point :: ·)

/-- Numbers of two bytes each. -/
def pairsOf (bigEndian : Bool) : List UInt8 → Option (List Nat)
  | [] => some []
  | a :: b :: r =>
    (pairsOf bigEndian r).map
      ((if bigEndian then a.toNat * 256 + b.toNat else b.toNat * 256 + a.toNat) :: ·)
  | [_] => none

/-- Numbers of four bytes each. -/
def quadsOf (bigEndian : Bool) : List UInt8 → Option (List Nat)
  | [] => some []
  | a :: b :: c :: d :: r =>
    let high := if bigEndian then a.toNat * 256 + b.toNat else d.toNat * 256 + c.toNat
    let low := if bigEndian then c.toNat * 256 + d.toNat else b.toNat * 256 + a.toNat
    (quadsOf bigEndian r).map ((high * 65536 + low) :: ·)
  | _ => none

def decode (encoding : Encoding) (bytes : List UInt8) : Option Text :=
  match encoding with
  | .utf8 => (pointsFrom none bytes).map joinUnits
  | .utf16 bigEndian => (pairsOf bigEndian bytes).map joinUnits
  | .utf32 bigEndian => do
    let points ← quadsOf bigEndian bytes
    if points.all (· < 0x110000) then some (joinUnits points) else none

def readBytes (bytes : List UInt8) : Except ReadError Json :=
  let (encoding, mark) := encodingOf bytes
  match decode encoding (bytes.drop mark) with
  | some t => read t
  | none => .error .malformed

end Docmark.Json
