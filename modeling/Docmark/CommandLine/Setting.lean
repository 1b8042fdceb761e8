import Docmark.CommandLine.Log
import Docmark.Dictionary
import Docmark.Failure

/-!
Settings of a run: the options that change them, and their defaults, which come from variables of
the environment.
-/

namespace Docmark.CommandLine

inductive Setting
  | help
  | out
  | baseUrl
  | maxNestingDepth
  | noPropertyTables
  | noEscape
  | annotationDefinitions
  | preview
  | stylesheet
  | logLevel
  | logFile
  | trace
  | rich
  | version
  deriving DecidableEq, Repr

namespace Setting

def all : List Setting :=
  [help, out, baseUrl, maxNestingDepth, noPropertyTables, noEscape, annotationDefinitions, preview,
   stylesheet, logLevel, logFile, trace, rich, version]

/-- The options that change a setting. -/
def names : Setting → List Text
  | help => ["-h".toList, "--help".toList]
  | out => ["-o".toList, "--out".toList]
  | baseUrl => ["--base-url".toList]
  | maxNestingDepth => ["--max-nesting-depth".toList]
  | noPropertyTables => ["--no-property-tables".toList]
  | noEscape => ["--no-escape".toList]
  | annotationDefinitions => ["--annotation-definitions".toList]
  | preview => ["--preview".toList]
  | stylesheet => ["--stylesheet".toList]
  | logLevel => ["--log-level".toList]
  | logFile => ["--log-file".toList]
  | trace => ["--trace".toList]
  | rich => ["--rich".toList]
  | version => ["--version".toList]

def takesValue : Setting → Bool
  | out | baseUrl | maxNestingDepth | preview | stylesheet | logLevel | logFile => true
  | _ => false

/-- What a setting does, for the help. -/
def purpose : Setting → String
  | help => "show this help and exit"
  | out => "write Markdown to this file"
  | baseUrl => "resolve relative links against this URL"
  | maxNestingDepth => "allow so many levels of nesting"
  | noPropertyTables => "write all tables as grids"
  | noEscape => "write text without backslashes"
  | annotationDefinitions => "write the definitions of annotations"
  | preview => "write an HTML preview to this file"
  | stylesheet => "put this style into the preview"
  | logLevel => "show messages from this level on"
  | logFile => "write messages to this file also"
  | trace => "show all messages"
  | rich => "show messages and findings in colour"
  | version => "show the version and exit"

/-- All options with what they change, in the order in which they are listed. -/
def options : List (Text × Setting) :=
  all.flatMap fun s => s.names.map (·, s)

end Setting

structure Settings where
  input : Text := []
  out : Option Text := none
  baseUrl : Text := []
  /-- None where the option has an empty value. -/
  maxNestingDepth : Option Int := some 64
  propertyTables : Bool := true
  escapeSpecial : Bool := true
  annotationDefinitions : Bool := false
  preview : Option Text := none
  stylesheet : Option Text := none
  logLevel : Text := Severity.warning.name
  logFile : Option Text := none
  trace : Bool := false
  rich : Bool := false
  deriving DecidableEq, Repr

abbrev Environment := Dictionary Text Text

def variablePrefix : Text := "ADF2MD_".toList

/-- Words that switch a setting on; all others switch it off. -/
def truthWords : List Text :=
  ["1", "true", "yes", "on"].map String.toList

def isTrueWord (value : Text) : Bool :=
  truthWords.contains (Text.toSmallAscii (Text.strip value))

def Environment.value? (env : Environment) (name : String) : Option Text :=
  Dictionary.get? env (variablePrefix ++ name.toList)

def Environment.flag (env : Environment) (name : String) (otherwise : Bool) : Bool :=
  ((env.value? name).map isTrueWord).getD otherwise

/-- A variable that should be a number and is none. -/
def badVariable (name : String) (value : Text) (cause : Text.NumberError) : Text :=
  "WARNING:root:Invalid environment variable ".toList ++ variablePrefix ++ name.toList ++
    '=' :: value ++ ':' :: ' ' :: numberMessage cause ++ ['\n']

/-- The nesting depth of an environment, and the complaint if it is no number. -/
def Environment.depth (env : Environment) (otherwise : Option Int) : Option Int × Text :=
  let name := "MAX_NESTING_DEPTH"
  match env.value? name with
  | none => (otherwise, [])
  | some value =>
    match Text.readInt value with
    | .ok n => (some n, [])
    | .error e => (otherwise, badVariable name value e)

/-- The settings where no option is given, and the complaint about the environment. -/
def Settings.ofEnvironment (env : Environment) : Settings × Text :=
  let usual : Settings := {}
  let (depth, complaint) := env.depth usual.maxNestingDepth
  ({ usual with
      baseUrl := (env.value? "BASE_URL").getD usual.baseUrl
      maxNestingDepth := depth
      propertyTables := env.flag "PROPERTY_TABLES" usual.propertyTables
      escapeSpecial := env.flag "ESCAPE_SPECIAL" usual.escapeSpecial
      annotationDefinitions :=
        env.flag "EMIT_ANNOTATION_DEFINITIONS" usual.annotationDefinitions
      stylesheet := env.value? "STYLESHEET"
      logLevel := (env.value? "LOG_LEVEL").getD usual.logLevel
      logFile := env.value? "LOG_FILE"
      rich := env.flag "RICH" usual.rich }, complaint)

/-- The variables of an environment that are asked for. -/
def variableNames : List Text :=
  (["BASE_URL", "MAX_NESTING_DEPTH", "PROPERTY_TABLES", "ESCAPE_SPECIAL",
    "EMIT_ANNOTATION_DEFINITIONS", "STYLESHEET", "LOG_LEVEL", "LOG_FILE", "RICH"].map
    String.toList).map fun name => variablePrefix ++ name

end Docmark.CommandLine
