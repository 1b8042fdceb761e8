import Docmark.Document.Node
import Docmark.Link.Url

/-!
What can go wrong, by cause, and the message for each cause.
-/

namespace Docmark

/-- Why a file cannot be read or written. -/
inductive FileError
  | missing (name : Text)
  | isDirectory (name : Text)
  | notDirectory (name : Text)
  | tooLong (name : Text)
  | denied (name : Text)
  | noRoom
  /-- A name with a zero character is no name of a file. -/
  | zeroInName
  deriving DecidableEq, Repr

def FileError.message : FileError → Text
  | missing name => "[Errno 2] No such file or directory: ".toList ++ Text.quoted name
  | isDirectory name => "[Errno 21] Is a directory: ".toList ++ Text.quoted name
  | notDirectory name => "[Errno 20] Not a directory: ".toList ++ Text.quoted name
  | tooLong name => "[Errno 36] File name too long: ".toList ++ Text.quoted name
  | denied name => "[Errno 13] Permission denied: ".toList ++ Text.quoted name
  | noRoom => "[Errno 28] No space left on device".toList
  | zeroInName => "embedded null byte".toList

/-- The characters of a refused number that a message shows, with its quotes and escapes. -/
def shownNumberLength : Nat := 200

def digitLimit : Text :=
  "Exceeds the limit (".toList ++ Text.decimal Text.maxDigits ++
    " digits) for integer string conversion".toList

def digitAdvice : Text :=
  "; use sys.set_int_max_str_digits() to increase the limit".toList

def numberMessage : Text.NumberError → Text
  | .notANumber source =>
    "invalid literal for int() with base 10: ".toList ++
      (Text.quoted source).take shownNumberLength
  | .tooManyDigits count =>
    digitLimit ++ ": value has ".toList ++ Text.decimal count ++ " digits".toList ++ digitAdvice
  | .tooLongToWrite => digitLimit ++ digitAdvice

/-- Why options cannot be set. `step` is the word for what is done with them. -/
inductive OptionError
  | unknownName (step name : Text)
  /-- Something has this name already. -/
  | repeatedName (step name : Text)
  | depthNotPositive (depth : Ceiling)
  | depthAboveLimit (depth : Ceiling)
  | notANumber (kind : String)
  deriving DecidableEq, Repr

/-- The greatest nesting depth that can be asked for. -/
def depthLimit : Nat := 256

def OptionError.message : OptionError → Text
  | unknownName step name =>
    step ++ " got an unexpected keyword argument '".toList ++ name ++ ['\x27']
  | repeatedName step name =>
    step ++ " got multiple values for argument '".toList ++ name ++ ['\x27']
  | depthNotPositive depth =>
    "max_nesting_depth must be positive, got ".toList ++ depth.shown
  | depthAboveLimit depth =>
    "max_nesting_depth must be at most ".toList ++ Text.decimal depthLimit ++ ", got ".toList ++
      depth.shown
  | notANumber kind =>
    "'<' not supported between instances of '".toList ++ kind.toList ++ "' and 'int'".toList

inductive Failure
  | tooDeep (cause : TooDeep)
  | number (cause : Text.NumberError)
  | url (cause : Link.UrlError)
  | option (cause : OptionError)
  /-- Options given for one conversion are refused. -/
  | override (cause : OptionError)
  | noDocument
  | unsupportedDocument (kind : String)
  | unreadable (cause : FileError)
  | malformed
  | notAnObject (kind : String)
  /-- A converter cannot be registered for the kind shown. -/
  | unknownKind (shown : Text)
  /-- The preview cannot be written to a path. -/
  | unwritable (path : Text) (cause : FileError)
  | file (cause : FileError)
  /-- A value of this kind is not a path. -/
  | notAPath (kind : String)
  /-- A value of this kind is not a text. -/
  | notAText (kind : String)
  /-- A text that names no level of messages. -/
  | unknownLevel (name : Text)
  /-- A value that is no level of messages and no name of one. -/
  | notALevel (shown : Text)

def TooDeep.message (e : TooDeep) : Text :=
  let place := if e.tag.isEmpty then [] else " at '".toList ++ e.tag.toList ++ "' node".toList
  "Document too deeply nested".toList ++ place ++ ": maximum depth is ".toList ++
    e.limit.shown

def Failure.message : Failure → Text
  | tooDeep cause => cause.message
  | number cause => numberMessage cause
  | url cause => cause.message
  | option cause => cause.message
  | override cause => "Invalid conversion options: ".toList ++ cause.message
  | noDocument => "Document tree must not be None".toList
  | unsupportedDocument kind => "Unsupported document type: ".toList ++ kind.toList
  | unreadable cause => "Cannot read document: ".toList ++ cause.message
  | malformed => "Document is not valid JSON".toList
  | notAnObject kind => "Document must be a JSON object, got ".toList ++ kind.toList
  | unknownKind shown => "Cannot register a converter for unknown node type ".toList ++ shown
  | unwritable path cause =>
    "Cannot write preview to ".toList ++ path ++ [':', ' '] ++ cause.message
  | file cause => cause.message
  | notAPath kind => "expected str, bytes or os.PathLike object, not ".toList ++ kind.toList
  | notAText kind => '\x27' :: kind.toList ++ "' object has no attribute 'replace'".toList
  | unknownLevel name => "Unknown level: ".toList ++ Text.quoted name
  | notALevel shown => "Level not an integer or a valid string: ".toList ++ shown

/-- Lifts the cause of a failed step. -/
def orFail (wrap : ε → Failure) : Except ε α → Except Failure α
  | .ok a => .ok a
  | .error e => .error (wrap e)

end Docmark
