import Docmark.Failure

/-!
Converters by the kind of node that they are for. The built-in ones join a registry when it is first
asked, and give way to those registered before and after.
-/

namespace Docmark

structure Registry (α : Type) where
  builtins : Dictionary NodeKind α
  own : Dictionary NodeKind α := []
  settled : Bool := false

namespace Registry

variable {α : Type}

/-- A registry that the built-in converters never join. -/
def bare : Registry α :=
  { builtins := [], settled := true }

/-- Joins the built-in converters, once. -/
def settle (r : Registry α) : Registry α :=
  if r.settled then r
  else
    let joined := r.builtins.foldl (fun d (k, c) => d.put k c) r.own
    { r with own := r.own.foldl (fun d (k, c) => d.put k c) joined, settled := true }

/-- The converter for a kind, and the registry after being asked. -/
def get (r : Registry α) (k : NodeKind) : Option α × Registry α :=
  (r.settle.own.get? k, r.settle)

def isRegistered (r : Registry α) (k : NodeKind) : Bool × Registry α :=
  (r.settle.own.has k, r.settle)

/-- The kinds with a converter, in the order of their tags. -/
def kinds (r : Registry α) : List NodeKind × Registry α :=
  (r.settle.own.keys.mergeSort fun a b => a.tag ≤ b.tag, r.settle)

/-- Where a registration comes in two steps, the first has the kind alone, and changes nothing. -/
def announce (k : NodeKind) (shown : Text) : Except Failure NodeKind :=
  if k = .unknown then .error (.unknownKind shown) else .ok k

/-- The last converter registered for a kind counts; `shown` names the kind in the message. -/
def register (r : Registry α) (k : NodeKind) (shown : Text) (c : α) :
    Except Failure (Registry α) :=
  if k = .unknown then .error (.unknownKind shown) else .ok { r with own := r.own.put k c }

/-- Registers under a tag as it is written in a document. -/
def registerTag (r : Registry α) (tag : String) (c : α) : Except Failure (Registry α) :=
  r.register (NodeKind.ofTag tag) (Text.quoted tag.toList) c

/-- The unknown kind in messages, where it is not given by a tag. -/
def shownUnknown : Text := "<NodeType.UNKNOWN: 'unknown'>".toList

def registerKind (r : Registry α) (k : NodeKind) (c : α) : Except Failure (Registry α) :=
  r.register k shownUnknown c

end Registry
end Docmark
