import Docmark.CommandLine.Setting

/-!
Arguments: which of them are options, what value an option takes, and what is wrong with them. A long
option may be cut short as long as one option only begins with it.
-/

namespace Docmark.CommandLine

/-- What is wrong with arguments. -/
inductive UsageError
  | noInput
  | unrecognized (words : List Text)
  | ambiguous (word : Text) (options : List Text)
  | noValue (s : Setting)
  | needlessValue (s : Setting) (value : Text)
  | notANumber (s : Setting) (value : Text)
  | noChoice (s : Setting) (value : Text)
  deriving DecidableEq, Repr

/-- The names of a setting in messages. -/
def Setting.shown (s : Setting) : Text :=
  Text.joinWith ['/'] s.names

def aboutSetting (s : Setting) (problem : Text) : Text :=
  "argument ".toList ++ s.shown ++ ':' :: ' ' :: problem

def UsageError.message : UsageError → Text
  | noInput => "the following arguments are required: input".toList
  | unrecognized words => "unrecognized arguments: ".toList ++ Text.joinWith [' '] words
  | ambiguous word options =>
    "ambiguous option: ".toList ++ word ++ " could match ".toList ++
      Text.joinWith [',', ' '] options
  | noValue s => aboutSetting s "expected one argument".toList
  | needlessValue s value =>
    aboutSetting s ("ignored explicit argument ".toList ++ Text.quoted value)
  | notANumber s value => aboutSetting s ("invalid int value: ".toList ++ Text.quoted value)
  | noChoice s value =>
    aboutSetting s ("invalid choice: ".toList ++ Text.quoted value ++ " (choose from ".toList ++
      Text.joinWith [',', ' '] (Severity.all.map fun c => Text.quoted c.name) ++ [')'])

/-- Why no document is converted: help or version are asked for, or the arguments are wrong. -/
inductive Stop
  | help
  | version
  | misuse (e : UsageError)
  deriving DecidableEq, Repr

/-- An option with the value that is written with it, or a word that looks like an option. -/
inductive Choice
  | option (s : Setting) (value : Option Text)
  | unknown (t : Text)
  deriving DecidableEq, Repr

/-- What an argument is before it is known what it belongs to. -/
inductive Word
  | operand (t : Text)
  | choice (c : Choice)
  /-- An option of one letter, and what is joined to it or stands behind its equals sign. -/
  | joined (s : Setting) (rest : Text)
  | separator
  deriving DecidableEq, Repr

/-- Cuts a text at its first equals sign. -/
def cutValue (t : Text) : Text × Option Text :=
  let name := t.takeWhile (· != '=')
  match t.drop name.length with
  | _ :: value => (name, some value)
  | [] => (name, none)

/-- A negative number is no option. -/
def isNegativeNumber (t : Text) : Bool :=
  match if Text.endsWith ['\n'] t then t.dropLast else t with
  | '-' :: r =>
    let whole := r.takeWhile Text.isDecimal
    match r.drop whole.length with
    | [] => !whole.isEmpty
    | '.' :: fraction => !fraction.isEmpty && fraction.all Text.isDecimal
    | _ => false
  | _ => false

/-- The options that a word may stand for, with what the word is for each. -/
def candidates (t : Text) : List (Text × Word) :=
  if Text.startsWith ['-', '-'] t then
    let (name, value) := cutValue t
    (Setting.options.filter fun (o, _) => Text.startsWith name o).map fun (o, s) =>
      (o, .choice (.option s value))
  else
    (Setting.options.filter fun (o, _) => o == t.take 2).map fun (o, s) => (o, .joined s (t.drop 2))

/-- The option that a word is, with the value behind its equals sign. -/
def exactOption? (t : Text) : Option Word :=
  match Setting.options.lookup t with
  | some s => some (.choice (.option s none))
  | none =>
    match cutValue t with
    | (name, some value) =>
      (Setting.options.lookup name).map fun s =>
        if Text.startsWith ['-', '-'] name then .choice (.option s (some value))
        else .joined s value
    | (_, none) => none

/-- A word that begins with a hyphen is an option, unless it is a number or holds a space. -/
def classify (t : Text) : Except UsageError Word :=
  if t.head? != some '-' || t.length == 1 then .ok (.operand t)
  else match exactOption? t with
    | some w => .ok w
    | none =>
      match candidates t with
      | [(_, w)] => .ok w
      | [] =>
        .ok (if isNegativeNumber t || t.contains ' ' then .operand t else .choice (.unknown t))
      | several => .error (.ambiguous t (several.map Prod.fst))

/-- All words after two hyphens are operands. -/
def classifyAll : List Text → Except UsageError (List Word)
  | [] => .ok []
  | t :: ts =>
    if t == ['-', '-'] then .ok (.separator :: ts.map .operand)
    else do
      let w ← classify t
      return w :: (← classifyAll ts)

/-- Changes the setting of an option that takes a value, which may be empty of any text. -/
def Settings.setValue (o : Settings) (s : Setting) (value : Option Text) :
    Except UsageError Settings :=
  match s, value with
  | .out, _ => .ok { o with out := value }
  | .baseUrl, _ => .ok { o with baseUrl := value.getD [] }
  | .preview, _ => .ok { o with preview := value }
  | .stylesheet, _ => .ok { o with stylesheet := value }
  | .logFile, _ => .ok { o with logFile := value }
  | .maxNestingDepth, none => .ok { o with maxNestingDepth := none }
  | .maxNestingDepth, some t =>
    match Text.readInt t with
    | .ok n => .ok { o with maxNestingDepth := some n }
    | .error _ => .error (.notANumber s t)
  | .logLevel, none => .ok { o with logLevel := [] }
  | .logLevel, some t =>
    let level := Text.toCapitals t
    if Severity.all.any fun c => c.name == level then .ok { o with logLevel := level }
    else .error (.noChoice s level)
  | _, _ => .ok o

/-- Changes the setting of an option without value, or stops. -/
def Settings.switch (o : Settings) : Setting → Except Stop Settings
  | .help => .error .help
  | .version => .error .version
  | .noPropertyTables => .ok { o with propertyTables := false }
  | .noEscape => .ok { o with escapeSpecial := false }
  | .annotationDefinitions => .ok { o with annotationDefinitions := true }
  | .trace => .ok { o with trace := true }
  | .rich => .ok { o with rich := true }
  | _ => .ok o

def orMisuse : Except UsageError α → Except Stop α
  | .ok a => .ok a
  | .error e => .error (.misuse e)

/-- The switches in a word of joined letters before the last option, and that one with its value. -/
def letters (s : Setting) : Text → Except UsageError (List Setting × Setting × Option Text)
  | [] => .ok ([], s, none)
  | c :: rest =>
    if s.takesValue then .ok ([], s, some (c :: rest))
    else match Setting.options.lookup ['-', c] with
      | none => .error (.needlessValue s (c :: rest))
      | some t => (letters t rest).map fun (switches, last) => (s :: switches, last)

/-- What is joined to an option of one letter; it may be empty behind an equals sign. -/
def joinedLetters (s : Setting) (t : Text) :
    Except UsageError (List Setting × Setting × Option Text) :=
  if t.isEmpty then .ok ([], s, some []) else letters s t

/-- Two hyphens in the place of a value are none. -/
def valueOf (t : Text) : Option Text :=
  if t == ['-', '-'] then none else some t

/--
The value of an option, none for a switch, and whether it is the next word. The value itself may be
none too.
-/
def valueFor (s : Setting) (own : Option Text) (next : Option Word) :
    Except UsageError (Option (Option Text) × Bool) :=
  match s.takesValue, own, next with
  | true, some value, _ => .ok (some (valueOf value), false)
  | true, none, some (.operand value) => .ok (some (some value), true)
  | true, none, _ => .error (.noValue s)
  | false, none, _ => .ok (none, false)
  | false, some value, _ => .error (.needlessValue s value)

/-- What has been read of the arguments. -/
structure Reading where
  settings : Settings
  input : Option Text := none
  extra : List Text := []

/-- Changes settings by switches and then by an option; tells whether the next word is its value. -/
def Reading.choose (r : Reading) (switches : List Setting) (s : Setting) (own : Option Text)
    (next : Option Word) : Except Stop (Reading × Bool) := do
  let (value, usesNext) ← orMisuse (valueFor s own next)
  let settings ← switches.foldlM Settings.switch r.settings
  let settings ← match value with
    | some value => orMisuse (settings.setValue s value)
    | none => settings.switch s
  return ({ r with settings }, usesNext)

/-- Reads one word, and tells whether the next is used with it. The first operand is the input. -/
def Reading.step (r : Reading) (next : Option Word) : Word → Except Stop (Reading × Bool)
  | .operand t =>
    if r.input.isNone then .ok ({ r with input := some t }, next == some .separator)
    else .ok ({ r with extra := r.extra ++ [t] }, false)
  | .separator =>
    if r.input.isNone then .ok (r, false)
    else .ok ({ r with extra := r.extra ++ [['-', '-']] }, false)
  | .choice (.unknown t) => .ok ({ r with extra := r.extra ++ [t] }, false)
  | .choice (.option s own) => r.choose [] s own next
  | .joined s rest => do
    let (switches, last, own) ← orMisuse (joinedLetters s rest)
    r.choose switches last own next

/-- Reads words in order. -/
def Reading.read (r : Reading) : List Word → Except Stop Reading
  | [] => .ok r
  | [w] => (r.step none w).map Prod.fst
  | w :: next :: rest => do
    let (r, usesNext) ← r.step (some next) w
    if usesNext then r.read rest else r.read (next :: rest)

/-- The settings that arguments make of others. -/
def Settings.read (defaults : Settings) (arguments : List Text) : Except Stop Settings := do
  let words ← orMisuse (classifyAll arguments)
  let r ← ({ settings := defaults } : Reading).read words
  match r.input with
  | none => .error (.misuse .noInput)
  | some input =>
    if r.extra.isEmpty then return { r.settings with input }
    else .error (.misuse (.unrecognized r.extra))

end Docmark.CommandLine
