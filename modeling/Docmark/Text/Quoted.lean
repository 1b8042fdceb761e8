import Docmark.Text.Printable

/-!
Texts in quotes, as messages show them: control characters and all without a visible form are
written as escapes.
-/

namespace Docmark.Text

def hexDigits (width n : Nat) : Text :=
  let digits := Nat.toDigits 16 n
  List.replicate (width - digits.length) '0' ++ digits

/-- Double quotes only around a text that holds single but no double ones. -/
def quoteFor (t : Text) : Char :=
  if t.contains '\x27' && !t.contains '\x22' then '\x22' else '\x27'

def escapeIn (quote c : Char) : Text :=
  if c = quote || c = '\\' then ['\\', c]
  else if c = '\n' then ['\\', 'n']
  else if c = '\r' then ['\\', 'r']
  else if c = '\t' then ['\\', 't']
  else if isPrintable c then [c]
  else
    let n := c.toNat
    if n < 0x100 then '\\' :: 'x' :: hexDigits 2 n
    else if n < 0x10000 then '\\' :: 'u' :: hexDigits 4 n
    else '\\' :: 'U' :: hexDigits 8 n

def quoted (t : Text) : Text :=
  let quote := quoteFor t
  quote :: t.flatMap (escapeIn quote) ++ [quote]

end Docmark.Text
