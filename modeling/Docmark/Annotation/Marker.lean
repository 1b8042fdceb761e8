import Docmark.Text.Digit

/-!
The signs of annotations in a text: markers such as `(1)`, definition lines such as `1. note`, and
the sentinel line that opens an annotated block.
-/

namespace Docmark.Annotation

/-- A text falls into markers and the characters between them. -/
inductive Piece
  | char (c : Char)
  | marker (id : Text)
  deriving DecidableEq, Repr

def Piece.render : Piece → Text
  | char c => [c]
  | marker id => '(' :: id ++ [')']

/-- An opening bracket and digits after it, last first, that turned out to be no marker. -/
def unfinished : Option Text → List Piece
  | none => []
  | some digits => .char '(' :: digits.reverse.map .char

/-- `seen` holds the digits after an open bracket, last first. -/
def piecesFrom : Option Text → Text → List Piece
  | seen, [] => unfinished seen
  | none, c :: r => if c = '(' then piecesFrom (some []) r else .char c :: piecesFrom none r
  | some digits, c :: r =>
    if Text.isDecimal c then piecesFrom (some (c :: digits)) r
    else if c = ')' && !digits.isEmpty then .marker digits.reverse :: piecesFrom none r
    else unfinished (some digits) ++
      if c = '(' then piecesFrom (some []) r else .char c :: piecesFrom none r

def pieces (t : Text) : List Piece :=
  piecesFrom none t

/-- The digits in the markers of a text. -/
def markersOf (t : Text) : List Text :=
  (pieces t).filterMap fun
    | .marker id => some id
    | .char _ => none

def renderPieces (ps : List Piece) : Text :=
  ps.flatMap Piece.render

theorem renderPieces_chars (t : Text) : renderPieces (t.map .char) = t := by
  simp [renderPieces, List.flatMap_map, Piece.render]

theorem renderPieces_cons (p : Piece) (ps : List Piece) :
    renderPieces (p :: ps) = p.render ++ renderPieces ps :=
  List.flatMap_cons

theorem renderPieces_append (ps qs : List Piece) :
    renderPieces (ps ++ qs) = renderPieces ps ++ renderPieces qs :=
  List.flatMap_append

/-- The text that waits for the end of a marker. -/
def held : Option Text → Text
  | none => []
  | some digits => '(' :: digits.reverse

theorem renderPieces_unfinished (seen : Option Text) :
    renderPieces (unfinished seen) = held seen := by
  cases seen with
  | none => rfl
  | some digits =>
    rw [unfinished, renderPieces_cons, renderPieces_chars]
    rfl

theorem renderPieces_piecesFrom (seen : Option Text) (t : Text) :
    renderPieces (piecesFrom seen t) = held seen ++ t := by
  induction t generalizing seen with
  | nil => cases seen <;> simp [piecesFrom, renderPieces_unfinished]
  | cons c r ih =>
    cases seen with
    | none =>
      simp only [piecesFrom]
      split
      · simp [held, *]
      · simp [renderPieces_cons, ih, held, Piece.render]
    | some digits =>
      simp only [piecesFrom]
      split
      · simp [ih, held]
      · split
        · simp_all [renderPieces_cons, held, Piece.render]
        · rw [renderPieces_append, renderPieces_unfinished]
          split
          · simp [held, *]
          · simp [renderPieces_cons, ih, held, Piece.render]

/-- Nothing of a text is lost. -/
theorem renderPieces_pieces (t : Text) : renderPieces (pieces t) = t := by
  simp [pieces, renderPieces_piecesFrom, held]

/-- The number and the content of a line such as `1. note` without white space around it. -/
def definition? (line : Text) : Option (Text × Text) :=
  let id := line.takeWhile Text.isDecimal
  match line.dropWhile Text.isDecimal with
  | '.' :: c :: r =>
    if !id.isEmpty && Text.isBlankChar c then some (id, Text.stripStart r) else none
  | _ => none

/-- What stands in the braces of a sentinel, up to white space. -/
def sentinelWord : Text := ".annotate".toList

/-- What follows a sentinel that a text begins with. -/
def afterSentinel? : Text → Option Text
  | '\x7b' :: r =>
    match Text.after? sentinelWord (Text.stripStart r) with
    | some s =>
      match Text.stripStart s with
      | '\x7d' :: rest => some rest
      | _ => none
    | none => none
  | _ => none

def hasSentinel : Text → Bool
  | [] => false
  | c :: r => (afterSentinel? (c :: r)).isSome || hasSentinel r

def isSentinel (t : Text) : Bool :=
  afterSentinel? t == some []

/-- The line written before an annotated block. -/
def sentinel : Text := "\x7b .annotate \x7d".toList

end Docmark.Annotation
