import Docmark.Convert.Fragment
import Docmark.Markdown.ListLayout

/-!
Lists. Items come without markers; the list that owns them lays them out.
-/

namespace Docmark.Convert

/-- The number that one attribute gives as the start of a list, if it gives any. -/
def startValue? : Json → Except Text.NumberError (Option Nat)
  | .int n => .ok (if 0 ≤ n then some n.toNat else none)
  | .str s =>
    if !s.toList.isEmpty && s.toList.all Text.isDigit then
      (Text.readInt s.toList).map fun n => some n.toNat
    else .ok none
  | _ => .ok none

/-- The number of the first item, 1 unless an attribute gives it. -/
def orderedStart (n : Node) : Except Text.NumberError Nat := do
  match ← startValue? (n.attr "order") with
  | some start => return start
  | none =>
    match ← startValue? (n.attr "start") with
    | some start => return start
    | none => return 1

/-- True for a block that may follow a paragraph without a blank line. -/
def interruptsParagraph (n : Node) : Except Text.NumberError Bool :=
  match n.kind with
  | .codeBlock | .bulletList => .ok true
  | .orderedList => (orderedStart n).map (· == 1)
  | _ => .ok false

/-- The content of an item so far and the lines of it that belong to lists. -/
structure ItemText where
  text : Text := []
  nested : List Nat := []

/-- What stands before a block of an item. Before the first one nothing does. -/
def ItemText.gap (item : ItemText) (n : Node) : Except Text.NumberError Text :=
  if item.text.isEmpty then .ok []
  else (interruptsParagraph n).map fun follows => if follows then ['\n'] else ['\n', '\n']

def ItemText.add (item : ItemText) (n : Node) (block : Text) :
    Except Text.NumberError ItemText := do
  let gap ← item.gap n
  let front := item.text ++ gap
  let first := front.count '\n'
  return {
    text := front ++ block
    nested := item.nested ++
      if n.kind.isList then List.range' first (block.count '\n' + 1) else [] }

def listItem : Converter := fun _ n children _ => do
  let blocks := (Markdown.separateLists (children.map Fragment.block)).filterMap
    fun (i, block) => n.children[i]?.map (·, block)
  let item ← Conversion.lift .number
    (blocks.foldlM (fun (item : ItemText) (child, block) => item.add child block) {})
  return ⟨item.text, .listItem item.nested⟩

/-- A child that is no item is laid out as one, its nested lists found by their markers. -/
def itemOf (level : Int) (f : Fragment) : Markdown.ListItem :=
  match f.fact with
  | .listItem nested => ⟨f.markdown, level, nested⟩
  | _ => ⟨f.markdown, level, Markdown.markerLines f.markdown⟩

def bulletMarker : Text := ['-']

def orderedMarker (n : Nat) : Except Text.NumberError Text :=
  (Text.writeNat n).map (· ++ ['.'])

def bulletList : Converter := fun _ _ children level =>
  let items := children.map fun f => (itemOf level f).render bulletMarker
  return ⟨Text.unlines items, .bulletList items.length⟩

/-- The items of an ordered list from a number on. -/
def numberedItems (level : Int) (number : Nat) :
    List Fragment → Except Text.NumberError (List Text)
  | [] => .ok []
  | f :: fs => do
    let marker ← orderedMarker number
    return (itemOf level f).render marker :: (← numberedItems level (number + 1) fs)

/-- Items are numbered from the start on, whatever they hold. -/
def orderedList : Converter := fun _ n children level => do
  let start ← Conversion.lift .number (orderedStart n)
  let items ← Conversion.lift .number (numberedItems level start children)
  return ⟨Text.unlines items, .orderedList items.length start⟩

end Docmark.Convert
