import Docmark.Preview.Backslash
import Docmark.Text.Digit

/-!
Where spans of text end: code between equal runs of backticks, emphasis between equal runs of
asterisks or underscores, struck text between tildes, and links with their targets. An end is given
as the length of what stands before it.
-/

namespace Docmark.Preview

/-- The length of the run of a character that a text begins with. -/
def runLength (c : Char) (t : Text) : Nat :=
  (t.takeWhile (· == c)).length

/-- Where a run of exactly `size` begins; the last `run` of the `offset` characters seen equal `c`. -/
def runOffset (c : Char) (size offset run : Nat) : Text → Option Nat
  | [] => if run = size then some (offset - size) else none
  | d :: r =>
    if d = c then runOffset c size (offset + 1) (run + 1) r
    else if run = size then some (offset - size)
    else runOffset c size (offset + 1) 0 r

/-- Writes one space for line feeds and the spaces around them. -/
def joinLines : Text → Text
  | [] => []
  | c :: r =>
    if c = '\n' then ' ' :: (joinLines r).dropWhile (· == ' ')
    else if c = ' ' && (r.dropWhile (· == ' ')).head? == some '\n' then joinLines r
    else c :: joinLines r

/-- Code is one line, and a space at both ends is left out unless there is nothing else. -/
def codeContent (t : Text) : Text :=
  let line := joinLines t
  if !Text.isBlank line && line.head? == some ' ' && line.getLast? == some ' ' then
    (line.drop 1).dropLast
  else line

/-- The code in a span that a text begins with, and the length of the span. -/
def codeSpan? (t : Text) : Option (Text × Nat) :=
  let size := runLength '\x60' t
  if size = 0 then none
  else
    (runOffset '\x60' size 0 0 (t.drop size)).map fun n =>
      (codeContent ((t.drop size).take n), size + n + size)

/-- The greatest number of characters in a mark for emphasis. -/
def longestMark : Nat := 3

def isWordEnd (next : Option Char) : Bool :=
  !next.any Text.isWordChar

/--
The length of the mark for emphasis that a text begins with. Text follows it that is neither blank
nor more of the mark, and a mark of underscores begins no part of a word.
-/
def emphasisMark? (before : Option Char) : Text → Option (Char × Nat)
  | c :: r =>
    let size := runLength c (c :: r)
    let next := (c :: r)[size]?
    if (c = '*' || (c = '_' && isWordEnd before)) && size ≤ longestMark &&
        next.any fun d => !Text.isBlankChar d then some (c, size) else none
  | [] => none

/-- What has been seen of a text in which the end of a span is looked for. -/
structure Seen where
  offset : Nat := 0
  /-- The length of the run of the mark that is being read. -/
  run : Nat := 0
  /-- The character in front of the run. -/
  front : Option Char := none
  /-- True when a backslash in front of the run escapes its first character. -/
  escaped : Bool := false
  deriving DecidableEq, Repr

/--
The length of the content before a mark of a size. A mark follows a character that is not blank, or
an escaped character of its own kind.
-/
def Seen.contentBefore? (seen : Seen) (size : Nat) : Option Nat :=
  if (seen.run == size && seen.front.any fun d => !Text.isBlankChar d) ||
      (seen.run == size + 1 && seen.escaped) then some (seen.offset - size)
  else none

def Seen.next (seen : Seen) (mark c : Char) : Seen :=
  if c = mark then { seen with offset := seen.offset + 1, run := seen.run + 1 }
  else
    { offset := seen.offset + 1
      run := 0
      front := some c
      escaped := c == '\\' && !(seen.run == 0 && seen.escaped) }

/-- The length of the content before the mark that ends a span; underscores end no part of a word. -/
def closingOffset (mark : Char) (size : Nat) (seen : Seen) : Text → Option Nat
  | [] => seen.contentBefore? size
  | c :: r =>
    let found := if c = mark || (mark = '_' && Text.isWordChar c) then none
      else seen.contentBefore? size
    match found with
    | some n => some n
    | none => closingOffset mark size (seen.next mark c) r

/-- The content of a span of emphasis, the mark of which has been read. -/
def emphasisContent? (mark : Char) (size : Nat) (t : Text) : Option Text :=
  (closingOffset mark size {} t).map t.take

/-- The content of a span of struck text that a text begins with. -/
def strikeContent? (t : Text) : Option Text :=
  match t with
  | '~' :: '~' :: r =>
    if r.head?.any fun c => !Text.isBlankChar c && c != '~' then emphasisContent? '~' 2 r else none
  | _ => none

/-- The length of a label, up to a closing bracket; no bracket stands in it without a backslash. -/
def labelLength? : Text → Option Nat
  | [] => none
  | '\\' :: c :: r => if c = '\n' then none else (labelLength? r).map (· + 2)
  | c :: r =>
    if c = ']' then some 0
    else if c = '[' || c = '\\' then none
    else (labelLength? r).map (· + 1)

/-- The length of a text up to the bracket that closes the one before it. -/
def bracketedLength? : Nat → Text → Option Nat
  | _, [] => none
  | depth, '\\' :: _ :: r => (bracketedLength? depth r).map (· + 2)
  | depth, c :: r =>
    if c = '[' then (bracketedLength? (depth + 1) r).map (· + 1)
    else if c = ']' then
      match depth with
      | 0 => some 0
      | d + 1 => (bracketedLength? d r).map (· + 1)
    else (bracketedLength? depth r).map (· + 1)

/-- The text in brackets, the opening one of which has been read. -/
def bracketedText? (t : Text) : Option Text :=
  ((labelLength? t).or (bracketedLength? 0 t)).map t.take

/-- Spaces and tabs, with one line feed at most among them. -/
def skipGap (t : Text) : Text :=
  match t.dropWhile Text.isPad with
  | '\n' :: r => r.dropWhile Text.isPad
  | r => r

/-- The length of a target without angle brackets, up to white space or a closing bracket. -/
def bareTargetLength? : Text → Option Nat
  | [] => none
  | '\\' :: c :: r =>
    if c = ' ' || c = '\t' || c = '\n' then some 1 else (bareTargetLength? r).map (· + 2)
  | c :: r =>
    if c = ')' || c = ' ' || c = '\t' || c = '\n' then some 0 else (bareTargetLength? r).map (· + 1)

def isAngleTargetChar (c : Char) : Bool :=
  !(c == '<' || c == '>' || c == '\n' || c == '\\' || c == '\x00')

/-- The target of a link and what follows it. -/
def target? (t : Text) : Option (Text × Text) :=
  match skipGap t with
  | '<' :: r =>
    match r.dropWhile isAngleTargetChar with
    | '>' :: rest => some (r.takeWhile isAngleTargetChar, rest)
    | _ => none
  | body => (bareTargetLength? body).map body.splitAt

/-- The length of a title up to the quote that ends it. -/
def titleLength? (quote : Char) : Text → Option Nat
  | [] => none
  | '\\' :: c :: r =>
    if isPunctuation c then (titleLength? quote r).map (· + 2)
    else (titleLength? quote (c :: r)).map (· + 1)
  | c :: r =>
    if c = quote then some 0
    else if c = '\x00' then none
    else (titleLength? quote r).map (· + 1)

/-- The title after a target, with what follows it. -/
def title? (t : Text) : Option (Text × Text) :=
  let isGap (c : Char) := c == ' ' || c == '\t' || c == '\n'
  match t.dropWhile isGap with
  | quote :: r =>
    if t.head?.any isGap && (quote = '\x22' || quote = '\x27') then
      (titleLength? quote r).map fun n => (unescape (r.take n), r.drop (n + 1))
    else none
  | [] => none

structure Target where
  url : Text
  title : Option Text
  deriving DecidableEq, Repr

/-- The target in round brackets, the opening one of which has been read, and what follows. -/
def linkTarget? (t : Text) : Option (Target × Text) := do
  let (url, rest) ← target? t
  let (title, rest) := match title? rest with
    | some (title, rest) => (some title, rest)
    | none => (none, rest)
  match Text.stripStart rest with
  | ')' :: rest => some (⟨unescape url, title.filter fun t => !t.isEmpty⟩, rest)
  | _ => none

/-- A link or an image: what stands in its brackets, its target and its length. -/
structure LinkSpan where
  image : Bool
  content : Text
  target : Target
  length : Nat
  deriving DecidableEq, Repr

def linkSpan? (t : Text) : Option LinkSpan := do
  let (image, inner) ← match t with
    | '!' :: '[' :: r => some (true, r)
    | '[' :: r => some (false, r)
    | _ => none
  let content ← bracketedText? inner
  match inner.drop (content.length + 1) with
  | '(' :: r =>
    let (target, rest) ← linkTarget? r
    some ⟨image, content, target, t.length - rest.length⟩
  | _ => none

/-- The label of a reference to a footnote that a text begins with. -/
def noteLabel? : Text → Option Text
  | '[' :: '^' :: r => (labelLength? r).map r.take
  | _ => none

/-- The length of the break that a text begins with, and whether it breaks the line for good. -/
def lineBreak? (t : Text) : Option (Bool × Nat) :=
  let length (front : Nat) (r : Text) := front + 1 + Text.indentWidth r
  match t with
  | '\\' :: '\n' :: r => some (true, length 1 r)
  | _ =>
    let pads := runLength ' ' t
    match t.drop pads with
    | '\n' :: r => some (2 ≤ pads, length pads r)
    | _ => none

end Docmark.Preview
