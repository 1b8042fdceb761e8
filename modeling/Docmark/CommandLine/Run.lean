import Docmark.CommandLine.Arguments
import Docmark.Convert.Document
import Docmark.Document.Load
import Docmark.Preview.Page

/-!
A run of the program: reads a document, writes its Markdown and, if asked, a preview, and reports
what went wrong. Orphans among the notes are reported too, and are no failure.
-/

namespace Docmark.CommandLine

def programName : Text := "adf2md".toList
def programVersion : Text := "0.1.0".toList

/-- What a run leaves beside files. -/
structure Report where
  exit : Nat := 0
  stdout : Text := []
  stderr : Text := []
  deriving DecidableEq, Repr

/-- What a run can reach. -/
structure Host (m : Type → Type) where
  files : Files m
  stdin : m Text

/-- Where messages go: those from a level on to the report and to a file, if there is one. -/
structure Logger where
  level : Nat
  file : Option Text
  deriving DecidableEq, Repr

def success : Nat := 0
def failure : Nat := 1
def misuse : Nat := 2

abbrev RunM (m : Type → Type) := StateT Report m

variable {m : Type → Type} [Monad m]

def complain (t : Text) : RunM m Unit :=
  modify fun r => { r with stderr := r.stderr ++ t }

/-- Messages that cannot be written to the file are lost there. -/
def log (host : Host m) (logger : Logger) (line : LogLine) : RunM m Unit := do
  if line.isShown logger.level then
    complain line.render
    if let some path := logger.file then
      discard (host.files.append path (utf8 line.render))

/-- Makes the file for messages, and goes on without it if that cannot be. -/
def startLog (host : Host m) (level : Nat) (path : Option Text) :
    RunM m (Except Failure Logger) := do
  match path.filter fun p => !p.isEmpty with
  | none => return .ok ⟨level, none⟩
  | some path =>
    match ← host.files.append (Folder.collapse path) [] with
    | .ok () =>
      let logger : Logger := ⟨level, some (Folder.collapse path)⟩
      log host logger ⟨.info, "Logging to file: ".toList ++ path⟩
      return .ok logger
    | .error .zeroInName => return .error (.file .zeroInName)
    | .error e =>
      let logger : Logger := ⟨level, none⟩
      log host logger
        ⟨.warning, "Could not create log file ".toList ++ path ++ ':' :: ' ' :: e.message⟩
      return .ok logger

def Settings.level (o : Settings) : Except Failure Nat :=
  if o.trace then .ok Severity.debug.level
  else match levelNamed o.logLevel with
    | .level n => .ok n
    | .layout t => .error (.unknownLevel t)
    | .layouts shown => .error (.notALevel shown)

/-- An empty value of an option counts as a list of no values. -/
def Settings.depth (o : Settings) : Except OptionError Depth :=
  match o.maxNestingDepth with
  | some n => Depth.ofCeiling (.whole n)
  | none => .error (.notANumber (Json.kindName (.list [])))

def Settings.options (o : Settings) : Except OptionError ConversionOptions := do
  return {
    baseUrl := .str (String.ofList o.baseUrl)
    maxNestingDepth := ← o.depth
    propertyTables := o.propertyTables
    emitAnnotationDefinitions := o.annotationDefinitions
    escapeSpecial := o.escapeSpecial }

/-- The input that stands for the text that comes in. -/
def standardInput : Text := ['-']

def readInput (host : Host m) (limit : Ceiling) (input : Text) : m (Except Failure Node) := do
  if input == standardInput then
    return loadDocument limit (fun path => .error (.missing path)) (.stream (← host.stdin))
  else
    let content ← host.files.read (Folder.normalize input)
    return loadDocument limit (fun _ => content) (.file input)

def writeMarkdown (host : Host m) (logger : Logger) (out : Option Text) (markdown : Text) :
    RunM m (Except Failure Unit) := do
  let t := markdown ++ ['\n']
  match out.filter fun p => !p.isEmpty with
  | none =>
    modify fun r => { r with stdout := r.stdout ++ t }
    return .ok ()
  | some path =>
    let path := Folder.normalize path
    match ← host.files.write path (utf8 t) with
    | .ok () =>
      log host logger ⟨.info, "Wrote Markdown to ".toList ++ path⟩
      return .ok ()
    | .error e => return .error (.file e)

def unusableStyle (path : Text) (e : Preview.StyleError) : LogLine :=
  ⟨.warning, "Could not load stylesheet ".toList ++ path ++ " (".toList ++ e.message ++
    "); using the built-in minimal style".toList⟩

def writePreview (host : Host m) (logger : Logger) (path : Text) (stylesheet : Option Text)
    (c : Converted) : RunM m (Except Failure Unit) := do
  let style := (stylesheet.filter fun p => !p.isEmpty).map Folder.normalize
  let options : PreviewOptions := {
    stylesheetPath := (style.map fun p => .str (String.ofList p)).getD .null }
  match Preview.render c.markdown options Preview.plainHighlight c.annotations with
  | .error e => return .error e
  | .ok rendered =>
    let content ← match style with
      | none => pure (.ok [])
      | some p => host.files.read p
    match Preview.buildPage options (fun _ => content) rendered with
    | .error e => return .error e
    | .ok (page, problem) =>
      if let some e := problem then
        log host logger (unusableStyle (style.getD []) e)
      let written ← (Preview.writePage host.files path page : m _)
      if written.isOk then
        log host logger ⟨.info, "Wrote preview to ".toList ++ Folder.normalize path⟩
      return written

/-- Reads, converts and writes a document. -/
def convertInput (host : Host m) (logger : Logger) (o : Settings) (options : ConversionOptions) :
    RunM m (Except Failure Converted) := do
  match ← (readInput host options.maxNestingDepth.ceiling o.input : m _) with
  | .error e => return .error e
  | .ok n =>
    match convertDocument (.tree n) options with
    | .error e => return .error e
    | .ok c =>
      match ← writeMarkdown host logger o.out c.markdown with
      | .error e => return .error e
      | .ok () =>
        match o.preview.filter fun p => !p.isEmpty with
        | none => return .ok c
        | some path =>
          match ← writePreview host logger path o.stylesheet c with
          | .error e => return .error e
          | .ok () => return .ok c

/-- Failures that come from what is put in; others end the run at once. -/
def isReported : Failure → Bool
  | .number _ | .url _ | .option _ | .file .zeroInName | .notAPath _ | .notAText _ => false
  | _ => true

/-- Options that are out of their limits are reported, those of a wrong kind end the run. -/
def isReportedOption : OptionError → Bool
  | .depthNotPositive _ | .depthAboveLimit _ => true
  | _ => false

def errorLine (message : Text) : Text :=
  "Error: ".toList ++ message ++ ['\n']

def findingLine (finding : Text) : Text :=
  "Warning: ".toList ++ finding ++ ['\n']

/-- Reports a failure, or ends the run with it. -/
def endFailed (reported : Bool) (e : Failure) : RunM m (Except Failure Nat) := do
  if reported then
    complain (errorLine e.message)
    return .ok failure
  else return .error e

def runWithLog (host : Host m) (logger : Logger) (o : Settings) : RunM m (Except Failure Nat) := do
  match o.options with
  | .error e => endFailed (isReportedOption e) (.option e)
  | .ok options =>
    match ← convertInput host logger o options with
    | .ok c =>
      complain (c.findings.flatMap findingLine)
      return .ok success
    | .error e => endFailed (isReported e) e

def runSettings (host : Host m) (o : Settings) : RunM m (Except Failure Nat) := do
  match o.level with
  | .error e => return .error e
  | .ok level =>
    match ← startLog host level o.logFile with
    | .error e => return .error e
    | .ok logger => runWithLog host logger o

def usageLine : Text :=
  "usage: ".toList ++ programName ++ " [options] input\n".toList

def optionLine (s : Setting) : Text :=
  ' ' :: ' ' :: Text.joinWith [',', ' '] s.names ++ "  ".toList ++ s.purpose.toList ++ ['\n']

def helpText : Text :=
  usageLine ++ '\n' :: Setting.all.flatMap optionLine

/-- Runs the program with arguments in an environment. -/
def runIn (host : Host m) (env : Environment) (arguments : List Text) :
    RunM m (Except Failure Nat) := do
  let (defaults, complaint) := Settings.ofEnvironment env
  complain complaint
  match defaults.read arguments with
  | .ok o => runSettings host o
  | .error .help =>
    modify fun r => { r with stdout := r.stdout ++ helpText }
    return .ok success
  | .error .version =>
    modify fun r => { r with stdout := r.stdout ++ programName ++ ' ' :: programVersion ++ ['\n'] }
    return .ok success
  | .error (.misuse e) =>
    complain (usageLine ++ programName ++ ": error: ".toList ++ e.message ++ ['\n'])
    return .ok misuse

def run (host : Host m) (env : Environment) (arguments : List Text) :
    m (Except Failure Report) := do
  let (result, report) ← (runIn host env arguments).run {}
  return result.map fun exit => { report with exit }

end Docmark.CommandLine
