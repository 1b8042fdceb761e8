import Docmark.Ceiling
import Docmark.Document.Kind

/-!
Documents as trees of nodes, the nodes below one in document order, and loading a tree from JSON.
Loading keeps what has the right form and drops the rest; only a tree that is too deep is refused.
-/

namespace Docmark

structure Mark where
  tag : String
  attributes : Attributes

def Mark.kind (m : Mark) : MarkKind :=
  MarkKind.ofTag m.tag

structure Node where
  tag : String
  attributes : Attributes
  children : List Node
  text : Option String
  marks : List Mark

/-- A tree has a node at a level that is not allowed; the tag is that of this node. -/
structure TooDeep where
  limit : Ceiling
  tag : String
  deriving DecidableEq, Repr

namespace Node

def kind (n : Node) : NodeKind :=
  NodeKind.ofTag n.tag

def attr? (n : Node) (name : String) : Option Json :=
  n.attributes.get? name

/-- An absent attribute counts as null. -/
def attr (n : Node) (name : String) : Json :=
  (n.attr? name).getD .null

def findMark (n : Node) (k : MarkKind) : Option Mark :=
  n.marks.find? fun m => m.kind == k

def hasMark (n : Node) (k : MarkKind) : Bool :=
  n.marks.any fun m => m.kind == k

mutual

/-- The nodes below a node, each before its own children. -/
def descendants : Node → List Node
  | ⟨_, _, children, _, _⟩ => forest children

/-- The nodes of a list of trees in document order. -/
def forest : List Node → List Node
  | [] => []
  | n :: ns => n :: descendants n ++ forest ns

end

mutual

/-- The number of levels below a node. -/
def height : Node → Nat
  | ⟨_, _, children, _, _⟩ => heightOf children

/-- The number of levels of a list of trees. -/
def heightOf : List Node → Nat
  | [] => 0
  | n :: ns => max (height n + 1) (heightOf ns)

end

/-- An absent tag is empty, and one that is no text is written out. -/
def tagOf (members : List (String × Json)) : String :=
  match members.lookup "type" with
  | none => ""
  | some v => String.ofList v.display

def attributesOf (members : List (String × Json)) : Attributes :=
  ((members.lookup "attrs").bind Json.object?).getD []

/-- The objects in the list that a member holds. -/
def objectsOf (name : String) (members : List (String × Json)) : List (List (String × Json)) :=
  (((members.lookup name).bind Json.list?).getD []).filterMap Json.object?

def loadMark (members : List (String × Json)) : Mark :=
  ⟨tagOf members, attributesOf members⟩

/-- Loads a tree of at most so many levels. -/
def loadLevels (limit : Ceiling) : Nat → List (String × Json) → Except TooDeep Node
  | 0, members => .error ⟨limit, tagOf members⟩
  | levels + 1, members => do
    let children ← (objectsOf "content" members).mapM (loadLevels limit levels)
    return {
      tag := tagOf members
      attributes := attributesOf members
      children
      text := (members.lookup "text").bind Json.string?
      marks := (objectsOf "marks" members).map loadMark }

/-- The root is at level 0, and `limit` is the last level allowed. -/
def load (limit : Ceiling) (members : List (String × Json)) : Except TooDeep Node :=
  loadLevels limit limit.levels members

/-- The limit on levels where none is given. -/
def defaultLimit : Ceiling := .whole 64

def isTextBlock (n : Node) : Bool :=
  n.kind == .paragraph || n.kind == .heading

/-- The text of the leaves, with `separator` after each paragraph and heading. -/
def extractLevels (limit : Ceiling) (separator : Text) : Nat → Node → Except TooDeep Text
  | 0, n => .error ⟨limit, n.tag⟩
  | levels + 1, n =>
    match n.text, n.children with
    | some t, [] => .ok t.toList
    | _, children => do
      let parts ← children.mapM fun child => do
        let part ← extractLevels limit separator levels child
        return if child.isTextBlock then part ++ separator else part
      return parts.flatten

def extractText (n : Node) (separator : Text) (limit : Ceiling) : Except TooDeep Text :=
  extractLevels limit separator limit.levels n

end Node
end Docmark
