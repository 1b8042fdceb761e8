import Docmark.Text.Basic

/-!
Addresses in square brackets as the host of a URL: version 6 of the Internet Protocol, or a future
version.
-/

namespace Docmark.Link

def isHexDigit (c : Char) : Bool :=
  c.isDigit || ('a' ≤ c && c ≤ 'f') || ('A' ≤ c && c ≤ 'F')

/-- A number up to 255 without a leading zero. -/
def isOctet (t : Text) : Bool :=
  !t.isEmpty && t.all Char.isDigit && t.length ≤ 3 && (t.length == 1 || t.head? != some '0') &&
    t.foldl (fun n c => 10 * n + (c.toNat - 48)) 0 ≤ 255

def isVersion4 (t : Text) : Bool :=
  let octets := Text.splitOn '.' t
  octets.length == 4 && octets.all isOctet

/-- Up to four hexadecimal digits. -/
def isGroup (t : Text) : Bool :=
  !t.isEmpty && t.length ≤ 4 && t.all isHexDigit

/-- A zone follows a percent sign. -/
def withoutZone? (t : Text) : Option Text :=
  match Text.splitOn '%' t with
  | [a] => some a
  | [a, zone] => if zone.isEmpty then none else some a
  | _ => none

/-- The groups, where a version 4 address at the end counts for two. -/
def groupsOf (t : Text) : List Text :=
  let parts := Text.splitOn ':' t
  match parts.getLast? with
  | some l => if isVersion4 l then parts.dropLast ++ [['0'], ['0']] else parts
  | none => parts

/-- Eight groups, or fewer with one gap of two colons. -/
def isVersion6 (t : Text) : Bool :=
  match withoutZone? t with
  | none => false
  | some t =>
    let groups := groupsOf t
    let inner := groups.tail.dropLast
    let gaps := inner.filter List.isEmpty
    if (Text.splitOn ':' t).length < 3 || groups.length > 9 || gaps.length > 1 then false
    else if gaps.isEmpty then groups.length == 8 && groups.all isGroup
    else
      let before := (groups.takeWhile fun g => !g.isEmpty)
      let before := if groups.head? == some [] then [] else before
      let after := (groups.reverse.takeWhile fun g => !g.isEmpty)
      let after := if groups.getLast? == some [] then [] else after
      let leading := groups.head? != some [] || inner.head? == some []
      let trailing := groups.getLast? != some [] || inner.getLast? == some []
      leading && trailing && before.length + after.length < 8 && before.all isGroup &&
        after.all isGroup

/-- A version number, a point and something after it. -/
def isFuture (t : Text) : Bool :=
  match t with
  | 'v' :: r =>
    !(r.takeWhile isHexDigit).isEmpty &&
      match r.dropWhile isHexDigit with
      | '.' :: rest => !rest.isEmpty && rest.all (· != '\n')
      | _ => false
  | _ => false

end Docmark.Link
