import Docmark.Json.Basic
import Docmark.Text.Quoted

/-!
The text of a value: a text stands for itself, every other value is written out.
-/

namespace Docmark.Json

mutual

/-- The written form of a value, with texts in quotes. -/
def written : Json → Text
  | null => "None".toList
  | bool true => "True".toList
  | bool false => "False".toList
  | int n => Text.decimalInt n
  | real x => x.toText
  | str s => Text.quoted s.toList
  | list items => '[' :: Text.joinWith [',', ' '] (writtenItems items) ++ [']']
  | object members => '\x7b' :: Text.joinWith [',', ' '] (writtenMembers members) ++ ['\x7d']

def writtenItems : List Json → List Text
  | [] => []
  | v :: vs => written v :: writtenItems vs

def writtenMembers : List (String × Json) → List Text
  | [] => []
  | (k, v) :: ms => (Text.quoted k.toList ++ ':' :: ' ' :: written v) :: writtenMembers ms

end

def display : Json → Text
  | str s => s.toList
  | v => written v

/-- The text of a value that counts as true, nothing for the others. -/
def displayIfTruthy (v : Json) : Text :=
  if v.isTruthy then v.display else []

end Docmark.Json
