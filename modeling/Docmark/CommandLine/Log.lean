import Docmark.Text.Case

/-!
Messages about a run, each with a severity, and the level below which they are not shown.
-/

namespace Docmark.CommandLine

inductive Severity
  | debug
  | info
  | warning
  | error
  | critical
  deriving DecidableEq, Repr

namespace Severity

def name : Severity → Text
  | debug => "DEBUG".toList
  | info => "INFO".toList
  | warning => "WARNING".toList
  | error => "ERROR".toList
  | critical => "CRITICAL".toList

def all : List Severity :=
  [debug, info, warning, error, critical]

def level : Severity → Nat
  | debug => 10
  | info => 20
  | warning => 30
  | error => 40
  | critical => 50

end Severity

/-- Other names for levels. -/
def levelAliases : List (Text × Nat) :=
  [("WARN".toList, 30), ("FATAL".toList, 50), ("NOTSET".toList, 0)]

/-- What a name stands for: a level, a text that is none, or a table that is none. -/
inductive NamedLevel
  | level (n : Nat)
  | layout (t : Text)
  | layouts (shown : Text)
  deriving DecidableEq, Repr

/-- A name that stands for how messages are laid out. -/
def layoutName : Text := "BASIC_FORMAT".toList
def usualLayout : Text := "%(levelname)s:%(name)s:%(message)s".toList

/-- A name that stands for all styles of layouts, and how these are shown. -/
def layoutsName : Text := "_STYLES".toList

def shownLayouts : Text :=
  ("\x7b'%': (<class 'logging.PercentStyle'>, '%(levelname)s:%(name)s:%(message)s'), " ++
    "'\x7b': (<class 'logging.StrFormatStyle'>, " ++
    "'\x7blevelname\x7d:\x7bname\x7d:\x7bmessage\x7d'), " ++
    "'$': (<class 'logging.StringTemplateStyle'>, " ++
    "'$\x7blevelname\x7d:$\x7bname\x7d:$\x7bmessage\x7d')\x7d").toList

/-- What a name stands for, in whatever case it is written. -/
def levelNamed (name : Text) : NamedLevel :=
  let capitals := Text.toCapitals name
  match Severity.all.find? fun s => s.name == capitals with
  | some s => .level s.level
  | none =>
    if capitals == layoutName then .layout usualLayout
    else if capitals == layoutsName then .layouts shownLayouts
    else .level ((levelAliases.lookup capitals).getD Severity.info.level)

structure LogLine where
  severity : Severity
  message : Text
  deriving DecidableEq, Repr

def LogLine.render (l : LogLine) : Text :=
  l.severity.name ++ ':' :: ' ' :: l.message ++ ['\n']

def LogLine.isShown (level : Nat) (l : LogLine) : Bool :=
  level ≤ l.severity.level

end Docmark.CommandLine
