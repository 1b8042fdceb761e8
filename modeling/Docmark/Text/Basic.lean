/-!
Texts as lists of code points: lines, joining, trimming at both ends, searching from left to right.
-/

namespace Docmark

/-- A text is the list of its code points. -/
abbrev Text := List Char

namespace Text

/-- The lines of a text, one more than it has line feeds. -/
def lines : Text → List Text
  | [] => [[]]
  | c :: r => if c = '\n' then [] :: lines r else (lines r).modifyHead (c :: ·)

/-- The pieces of a text between the places where a character stands. -/
def splitOn (c : Char) : Text → List Text
  | [] => [[]]
  | d :: r => if d = c then [] :: splitOn c r else (splitOn c r).modifyHead (d :: ·)

/-- Writes `sep` between the pieces. -/
def joinWith (sep : Text) : List Text → Text
  | [] => []
  | [t] => t
  | t :: u :: ts => t ++ sep ++ joinWith sep (u :: ts)

def unlines (ls : List Text) : Text :=
  joinWith ['\n'] ls

/-- A blank line stands between two blocks. -/
def joinBlocks (bs : List Text) : Text :=
  joinWith ['\n', '\n'] bs

def dropEndWhile (p : Char → Bool) (t : Text) : Text :=
  (t.reverse.dropWhile p).reverse

def takeEndWhile (p : Char → Bool) (t : Text) : Text :=
  (t.reverse.takeWhile p).reverse

def dropAround (p : Char → Bool) (t : Text) : Text :=
  dropEndWhile p (t.dropWhile p)

def trimNewlines (t : Text) : Text :=
  dropAround (· == '\n') t

def spaces (n : Nat) : Text :=
  List.replicate n ' '

def startsWith (p t : Text) : Bool :=
  p.isPrefixOf t

def endsWith (p t : Text) : Bool :=
  p.isSuffixOf t

/-- What follows a text that begins with `p`. -/
def after? (p t : Text) : Option Text :=
  if p.isPrefixOf t then some (t.drop p.length) else none

def occursIn (p : Text) : Text → Bool
  | [] => p.isEmpty
  | c :: r => p.isPrefixOf (c :: r) || occursIn p r

/-- The end of a text, or the line feed that ends it. -/
def atEnd (t : Text) : Bool :=
  t == [] || t == ['\n']

def replaceChar (c : Char) (new : Text) (t : Text) : Text :=
  t.flatMap fun d => if d = c then new else [d]

/--
The values found from left to right, where `find` is tried at every position with the character
before it, and a find of length `n` takes the positions it covers.
-/
def findAll (find : Option Char → Text → Option (α × Nat)) (before : Option Char) (skip : Nat) :
    Text → List α
  | [] => []
  | c :: r =>
    match skip with
    | k + 1 => findAll find (some c) k r
    | 0 =>
      match find before (c :: r) with
      | some (a, n) => a :: findAll find (some c) (n - 1) r
      | none => findAll find (some c) 0 r

/-- Keeps the first of equal members. -/
def distinct [BEq α] (as : List α) : List α :=
  as.foldl (fun seen a => if seen.contains a then seen else seen ++ [a]) []

/-- Puts a value before the first one with a greater key, after all with an equal key. -/
def insertByKey (key : α → Int) (a : α) : List α → List α
  | [] => [a]
  | b :: bs => if key a < key b then a :: b :: bs else b :: insertByKey key a bs

/-- Stable order by a number. -/
def sortByKey (key : α → Int) (as : List α) : List α :=
  as.foldl (fun sorted a => insertByKey key a sorted) []

end Text
end Docmark
