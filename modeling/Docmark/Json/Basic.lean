import Docmark.Binary64
import Docmark.Dictionary
import Docmark.Text.Printable

/-!
Values of the JSON data format. Whole numbers and floating-point numbers are different values, and
an object keeps its members in the order in which their names came.
-/

namespace Docmark

inductive Json
  | null
  | bool (b : Bool)
  | int (n : Int)
  | real (x : Binary64)
  | str (s : String)
  | list (items : List Json)
  | object (members : List (String × Json))

/-- The attributes of a node: a map from names to values. -/
abbrev Attributes := Dictionary String Json

namespace Json

/-- False for null, false, zero and all that is empty. -/
def isTruthy : Json → Bool
  | null => false
  | bool b => b
  | int n => n != 0
  | real x => !x.isZero
  | str s => s != ""
  | list items => !items.isEmpty
  | object members => !members.isEmpty

def string? : Json → Option String
  | str s => some s
  | _ => none

def list? : Json → Option (List Json)
  | list items => some items
  | _ => none

def object? : Json → Option (List (String × Json))
  | object members => some members
  | _ => none

/-- The word for the kind of a value in messages. -/
def kindName : Json → String
  | null => "NoneType"
  | bool _ => "bool"
  | int _ => "int"
  | real _ => "float"
  | str _ => "str"
  | list _ => "list"
  | object _ => "dict"

end Json
end Docmark
