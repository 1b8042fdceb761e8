import Docmark.Document.Node
import Docmark.Folder
import Docmark.Json.Encoding

/-!
Loading documents from JSON: from text, from bytes, from files, from values.
-/

namespace Docmark

/-- A text that begins with a brace is JSON itself, any other names a file. -/
inductive DocumentInput
  | text (t : Text)
  | stream (t : Text)
  | bytes (b : Bytes)
  | file (path : Text)
  | value (members : List (String × Json))
  | tree (n : Node)

def readFailure (limit : Ceiling) : Json.ReadError → Failure
  | .malformed => .malformed
  | .tooDeep => .tooDeep ⟨limit, ""⟩

/-- A name that no file can have counts as bad JSON. -/
def unreadableFile : FileError → Failure
  | .zeroInName => .malformed
  | e => .unreadable e

/-- Loads a tree from a value that has to be an object. -/
def loadValue (limit : Ceiling) : Json → Except Failure Node
  | .object members => orFail .tooDeep (Node.load limit members)
  | v => .error (.notAnObject v.kindName)

def loadText (limit : Ceiling) (t : Text) : Except Failure Node := do
  loadValue limit (← orFail (readFailure limit) (Json.read t))

def loadFile (limit : Ceiling) (read : Text → Except FileError Bytes) (path : Text) :
    Except Failure Node := do
  let bytes ← orFail unreadableFile (read (Folder.normalize path))
  match ofUtf8? bytes with
  | some t => loadText limit t
  | none => throw .malformed

def loadDocument (limit : Ceiling) (read : Text → Except FileError Bytes) :
    DocumentInput → Except Failure Node
  | .text t =>
    if Text.startsWith ['\x7b'] (Text.stripStart t) then loadText limit t
    else loadFile limit read t
  | .stream t => loadText limit t
  | .bytes b => do loadValue limit (← orFail (readFailure limit) (Json.readBytes b))
  | .file path => loadFile limit read path
  | .value members => orFail .tooDeep (Node.load limit members)
  | .tree n => .ok n

end Docmark
