import Docmark.Text.Case

/-!
Kinds of admonitions: the names that each kind goes by, its own name and its default title.
-/

namespace Docmark

inductive AdmonitionKind
  | note | abstract | info | tip | success | question
  | warning | failure | danger | bug | sample | quote
  deriving DecidableEq, Repr

namespace AdmonitionKind

def tag : AdmonitionKind → Text
  | note => "note".toList
  | abstract => "abstract".toList
  | info => "info".toList
  | tip => "tip".toList
  | success => "success".toList
  | question => "question".toList
  | warning => "warning".toList
  | failure => "failure".toList
  | danger => "danger".toList
  | bug => "bug".toList
  | sample => "example".toList
  | quote => "quote".toList

/-- The title of an admonition that names none. -/
def title : AdmonitionKind → Text
  | note => "Note".toList
  | abstract => "Abstract".toList
  | info => "Info".toList
  | tip => "Tip".toList
  | success => "Success".toList
  | question => "Question".toList
  | warning => "Warning".toList
  | failure => "Failure".toList
  | danger => "Danger".toList
  | bug => "Bug".toList
  | sample => "Example".toList
  | quote => "Quote".toList

def names : AdmonitionKind → List Text
  | note => ["note".toList]
  | abstract => ["abstract".toList, "summary".toList, "tldr".toList]
  | info => ["info".toList, "todo".toList]
  | tip => ["tip".toList, "hint".toList, "important".toList]
  | success => ["success".toList, "check".toList, "done".toList]
  | question => ["question".toList, "help".toList, "faq".toList]
  | warning => ["warning".toList, "caution".toList, "attention".toList]
  | failure => ["failure".toList, "fail".toList, "missing".toList]
  | danger => ["danger".toList, "error".toList]
  | bug => ["bug".toList]
  | sample => ["example".toList]
  | quote => ["quote".toList, "cite".toList]

def all : List AdmonitionKind :=
  [note, abstract, info, tip, success, question, warning, failure, danger, bug, sample, quote]

/-- The kind that goes by a name, in whatever case it is written. -/
def named? (name : Text) : Option AdmonitionKind :=
  all.find? fun k => k.names.contains (Text.foldAscii name)

/-- The kind for a type of panel, a note for the types not known. -/
def ofPanel (panel : Text) : AdmonitionKind :=
  if panel == "info".toList then info
  else if panel == "warning".toList then warning
  else if panel == "success".toList then success
  else if panel == "error".toList then danger
  else if panel == "tip".toList then tip
  else note

end AdmonitionKind
end Docmark
