import Docmark.Text.Basic

/-!
Admonitions as a stream of events: each opens, tells its title, holds the events of those nested in
it, and closes.
-/

namespace Docmark

/-- A token of a parsed text. The label of an admonition goes with all its events. -/
structure Token (α : Type) where
  kind : Text
  label : α
  text : Option Text
  raw : Option Text
  children : Option (List (Token α))

namespace Admonition

inductive EventKind
  | opens
  | titleOpens
  | title
  | titleCloses
  | closes
  deriving DecidableEq, Repr

def EventKind.tag : EventKind → String
  | opens => "open"
  | titleOpens => "title_open"
  | title => "inline_title"
  | titleCloses => "title_close"
  | closes => "close"

structure Event (α : Type) where
  kind : EventKind
  label : α
  text : Text := []
  deriving DecidableEq, Repr

/-- What an admonition is called and the lines that it covers. -/
structure Label where
  name : Text := []
  lines : Nat × Nat := (0, 0)
  deriving DecidableEq, Repr

variable {α : Type}

def admonitionTag : Text := "admonition".toList
def titleTag : Text := "admonition_title".toList
def contentTag : Text := "admonition_content".toList

mutual

/-- The text of a title: its own, or that of the tokens in it. -/
def titleText : Token α → Text
  | ⟨_, _, some text, _, _⟩ => text
  | ⟨_, _, none, _, children⟩ => titleTextOf children

def titleTextOf : Option (List (Token α)) → Text
  | none => []
  | some children => titleTexts children

def titleTexts : List (Token α) → Text
  | [] => []
  | ⟨_, _, _, some raw, _⟩ :: rest => raw ++ titleTexts rest
  | ⟨k, l, t, none, some children⟩ :: rest =>
    titleText ⟨k, l, t, none, some children⟩ ++ titleTexts rest
  | ⟨_, _, _, none, none⟩ :: rest => titleTexts rest

end

mutual

/-- The events of a token: of an admonition its own, of another token those of its children. -/
def eventsOf : Token α → List (Event α)
  | ⟨kind, label, _, _, children⟩ =>
    if kind == admonitionTag then
      ⟨.opens, label, []⟩ :: partEvents label children ++ [⟨.closes, label, []⟩]
    else eventsIn children

def eventsIn : Option (List (Token α)) → List (Event α)
  | none => []
  | some tokens => events tokens

/-- The events of tokens in order. -/
def events : List (Token α) → List (Event α)
  | [] => []
  | t :: ts => eventsOf t ++ events ts

def partEvents (label : α) : Option (List (Token α)) → List (Event α)
  | none => []
  | some parts => partsEvents label parts

/-- The events of the parts of an admonition: titles, and whatever holds other tokens. -/
def partsEvents (label : α) : List (Token α) → List (Event α)
  | [] => []
  | ⟨kind, l, t, r, children⟩ :: rest =>
    (if kind == titleTag then
      [⟨.titleOpens, label, []⟩,
       ⟨.title, label, titleText ⟨kind, l, t, r, children⟩⟩,
       ⟨.titleCloses, label, []⟩]
    else eventsIn children) ++ partsEvents label rest

end

end Admonition
end Docmark
