import Docmark.Failure

/-!
Reading and writing files by name, and a folder of files: names without a slash are files in it. It
holds no other folders; of what is around it only the places that every system has are known.
-/

namespace Docmark

abbrev Bytes := List UInt8

/-- The files that can be reached by name. -/
structure Files (m : Type → Type) where
  read : Text → m (Except FileError Bytes)
  write : Text → Bytes → m (Except FileError Unit)
  /-- Writes after what a file holds, or into a new file. -/
  append : Text → Bytes → m (Except FileError Unit)

def utf8 (t : Text) : Bytes :=
  (String.ofList t).toUTF8.toList

structure Folder where
  files : Dictionary Text Bytes := []

namespace Folder

/-- The parts of a path that are not empty and do not stay in place. -/
def parts (path : Text) : List Text :=
  (Text.splitOn '/' path).filter fun p => !p.isEmpty && p != ['.']

/-- The slashes that a path begins with: two of them differ from one, more do not. -/
def root (path : Text) : Text :=
  match path.takeWhile (· == '/') with
  | [] => []
  | ['/', '/'] => ['/', '/']
  | _ => ['/']

/-- A path without the parts that do nothing. -/
def normalize (path : Text) : Text :=
  let t := root path ++ Text.joinWith ['/'] (parts path)
  if t.isEmpty then ['.'] else t

/-- Follows parts of a path; `before` holds those reached so far, the last first. -/
def followParts (before : List Text) : List Text → List Text
  | [] => before.reverse
  | p :: ps =>
    if p == ['.', '.'] && !before.isEmpty && before.head? != some ['.', '.'] then
      followParts before.tail ps
    else followParts (p :: before) ps

/-- A path without the parts that another part leaves again. -/
def collapse (path : Text) : Text :=
  let t := root path ++ Text.joinWith ['/'] (followParts [] (parts path))
  if t.isEmpty then ['.'] else t

/-- The bytes that a whole path may have, and those that a part of it may have. -/
def maxPathSize : Nat := 4095
def maxPartSize : Nat := 255

/-- Folders that stand at the root of every system. -/
def rootFolders : List Text :=
  ["bin", "dev", "etc", "home", "lib", "opt", "proc", "root", "run", "sbin", "sys", "tmp", "usr",
   "var"].map String.toList

/-- The folder at the root in which all files may be made. -/
def scratchFolder : Text := "tmp".toList

/-- A device that is empty and keeps nothing. -/
def nullDevice : List Text := ["dev".toList, "null".toList]

/-- A device that has no room. -/
def fullDevice : List Text := ["dev".toList, "full".toList]

/-- The parts of a path from the root on, none if it begins in the folder. -/
def partsFromRoot? (path : Text) : Option (List Text) :=
  if (root path).isEmpty then none else some ((parts path).dropWhile (· == ['.', '.']))

def isNullDevice (path : Text) : Bool :=
  partsFromRoot? path == some nullDevice

def isFullDevice (path : Text) : Bool :=
  partsFromRoot? path == some fullDevice

/-- True for the name of a file in the folder itself. -/
def isOwn (path : Text) : Bool :=
  !path.contains '/'

def isTooLong (part : Text) : Bool :=
  maxPartSize < (utf8 part).length

/-- Why parts of a path that follow the root do not lead to a file. -/
def rootObstacle? (path : Text) : List Text → Option FileError
  | [] => some (.isDirectory path)
  | [top] =>
    if isTooLong top then some (.tooLong path)
    else if rootFolders.contains top then some (.isDirectory path)
    else some (.missing path)
  | top :: name :: rest =>
    if isTooLong top then some (.tooLong path)
    else if [top, name] == nullDevice || [top, name] == fullDevice then
      if rest.isEmpty then none else some (.notDirectory path)
    else if top == scratchFolder && rest.isEmpty then
      if isTooLong name then some (.tooLong path) else none
    else some (.missing path)

/-- Why parts of a path that follow the folder, or one above it, do not lead to a file. -/
def ownObstacle? (folder : Folder) (path : Text) : List Text → Option FileError
  | [] => some (.isDirectory path)
  | [part] => if isTooLong part then some (.tooLong path) else none
  | part :: _ =>
    if isTooLong part then some (.tooLong path)
    else if Text.startsWith part path && (folder.files.get? part).isSome then
      some (.notDirectory path)
    else some (.missing path)

/-- Why a path is not that of a file that can be reached. -/
def obstacle? (folder : Folder) (path : Text) : Option FileError :=
  if path.contains '\x00' then some .zeroInName
  else if maxPathSize < (utf8 path).length then some (.tooLong path)
  else match partsFromRoot? path with
    | some names => rootObstacle? path names
    | none => folder.ownObstacle? path ((parts path).dropWhile (· == ['.', '.']))

def read (folder : Folder) (path : Text) : Except FileError Bytes :=
  if isNullDevice path then .ok []
  else match folder.obstacle? path, folder.files.get? path with
    | some e, _ => .error e
    | none, some content => .ok content
    | none, none => .error (.missing path)

def write (folder : Folder) (path : Text) (content : Bytes) : Except FileError Folder :=
  match folder.obstacle? path with
  | some e => .error e
  | none =>
    if isNullDevice path then .ok folder
    else if isFullDevice path then if content.isEmpty then .ok folder else .error .noRoom
    else .ok { folder with files := folder.files.put path content }

def append (folder : Folder) (path : Text) (content : Bytes) : Except FileError Folder :=
  folder.write path ((folder.files.get? path).getD [] ++ content)

/-- Changes a folder, which stays as it is if the change fails. -/
def change (f : Folder → Except FileError Folder) : StateM Folder (Except FileError Unit) :=
  fun folder =>
    match f folder with
    | .ok folder => (.ok (), folder)
    | .error e => (.error e, folder)

/-- The files of a folder. -/
def access : Files (StateM Folder) where
  read path := fun folder => (folder.read path, folder)
  write path content := change fun folder => folder.write path content
  append path content := change fun folder => folder.append path content

end Folder

def ofUtf8? (bytes : Bytes) : Option Text :=
  (String.fromUTF8? ⟨bytes.toArray⟩).map String.toList

/-- Ends every line by a line feed alone. -/
def unifyLineEnds : Text → Text
  | [] => []
  | '\r' :: '\n' :: r => '\n' :: unifyLineEnds r
  | '\r' :: r => '\n' :: unifyLineEnds r
  | c :: r => c :: unifyLineEnds r

end Docmark
