import Docmark.Text.Basic

/-!
Backslashes in Markdown that is read: before punctuation they make it plain and vanish.
-/

namespace Docmark.Preview

/-- The punctuation of ASCII. -/
def isPunctuation (c : Char) : Bool :=
  let n := c.toNat
  (33 ≤ n && n ≤ 47) || (58 ≤ n && n ≤ 64) || (91 ≤ n && n ≤ 96) || (123 ≤ n && n ≤ 126)

/-- Takes the backslashes off escaped punctuation. -/
def unescape : Text → Text
  | '\\' :: c :: r =>
    if isPunctuation c then c :: unescape r else '\\' :: unescape (c :: r)
  | c :: r => c :: unescape r
  | [] => []

/-- The escaped punctuation that a text begins with, without its backslashes. -/
def escapedRun : Text → Text
  | '\\' :: c :: r => if isPunctuation c then c :: escapedRun r else []
  | _ => []

end Docmark.Preview
