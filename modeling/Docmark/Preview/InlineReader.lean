import Docmark.Preview.Inline
import Docmark.Preview.Span
import Docmark.Preview.Tag

/-!
Reading a run of text: at every place the first construct that begins there is taken, or else a
character as it is. Footnotes get their numbers in the order of their first references.
-/

namespace Docmark.Preview

/-- What a place lies in; a link holds no other link, emphasis none of its own kind. -/
structure Inside where
  link : Bool := false
  image : Bool := false
  emphasis : Bool := false
  strong : Bool := false
  deriving DecidableEq, Repr

/-- What encloses a span of text. -/
inductive Span
  | emphasis
  | strong
  | both
  | strike
  | link (target : Target)
  | image (target : Target)
  deriving DecidableEq, Repr

def Span.inside (i : Inside) : Span → Inside
  | emphasis => { i with emphasis := true }
  | strong => { i with strong := true }
  | both => { i with emphasis := true, strong := true }
  | strike => i
  | link _ => { i with link := true }
  | image _ => { i with image := true }

def Span.enclose (content : List Inline) : Span → Inline
  | emphasis => .emphasis content
  | strong => .strong content
  | both => .emphasis [.strong content]
  | strike => .strike content
  | link target => .link content (encodeUrl target.url) target.title
  | image target => .image content (encodeUrl target.url) target.title

/-- What begins at a place, with the number of characters that it takes. -/
inductive Found
  | plain (length : Nat)
  | leaf (x : Inline) (length : Nat)
  | note (label : Text) (length : Nat)
  | span (s : Span) (content : Text) (length : Nat)

/-- The length of the code span, link or raw HTML that a text begins with, one at least. -/
def solidLength (t : Text) : Nat :=
  let length := match t with
    | '\x60' :: _ => (codeSpan? t).map Prod.snd
    | '<' :: _ => ((bracketedAddress? t).map fun (a : Text) => a.length + 2).or (htmlLength? t)
    | _ => (linkSpan? t).map LinkSpan.length
  length.getD 1

/-- True where a code span, a link or raw HTML may begin. -/
def mayBeSolid (links : Bool) : Text → Bool
  | '\x60' :: _ => true
  | '<' :: c :: _ => c.isAlpha || c == '/' || c == '!' || c == '?'
  | '!' :: '[' :: _ => links
  | '[' :: _ => links
  | _ => false

/--
The offset at which something solid begins that reaches beyond a length, if the first thing in it
that may be solid does so. Code, links and raw HTML bind more tightly than what they reach out of.
-/
def overlapAt? (links : Bool) (offset : Nat) (length : Nat) : Text → Option Nat
  | [] => none
  | c :: r =>
    match length with
    | 0 => none
    | n + 1 =>
      if mayBeSolid links (c :: r) then
        if n + 1 ≤ solidLength (c :: r) && 1 < solidLength (c :: r) then some offset else none
      else overlapAt? links (offset + 1) n r

/-- Emphasis, the mark of which stands at a place. -/
def emphasisAt (inside : Inside) (mark : Char) (size : Nat) (t : Text) : Found :=
  let rest := t.drop size
  if (size = 1 && inside.emphasis) || (size = 2 && inside.strong) then .plain size
  else match emphasisContent? mark size rest with
    | none => .plain size
    | some content =>
      match overlapAt? true 0 (content.length + size) rest with
      | some n => .plain (size + n)
      | none =>
        let span : Span := if size = 1 then .emphasis else if size = 2 then .strong else .both
        .span span content (size + content.length + size)

/-- A link or an image, the bracket of which stands at a place. -/
def linkAt (inside : Inside) (t : Text) : Found :=
  let image := t.head? == some '!'
  let opening := if image then 2 else 1
  if (image && inside.image) || (!image && inside.link) then .plain opening
  else match bracketedText? (t.drop opening) with
    | none => .plain 1
    | some content =>
      match overlapAt? false 0 (content.length + 1) (t.drop opening) with
      | some n => .plain (opening + n)
      | none =>
        match linkSpan? t with
        | some l => .span (if l.image then .image l.target else .link l.target) l.content l.length
        | none => .plain 1

/-- A tag of a link opens or closes it for what follows. -/
def Inside.afterHtml (i : Inside) (raw : Text) : Inside :=
  let is (tags : List String) := tags.any fun t => Text.startsWith t.toList raw
  if is ["<a ", "<a>", "<A ", "<A>"] then { i with link := true }
  else if is ["</a ", "</a>", "</A ", "</A>"] then { i with link := false }
  else i

/-- The address between angle brackets that a text begins with, and where it leads. -/
def bracketedLink? (t : Text) : Option (Text × Text) :=
  ((bracketedAddress? t).map fun address => (address, address)).or
    ((bracketedMail? t).map fun mail => (mail, "mailto:".toList ++ mail))

/-- What begins with an angle bracket. -/
def bracketAt (inside : Inside) (t : Text) : Found :=
  match bracketedLink? t with
  | some (address, url) =>
    let length := address.length + 2
    if inside.link then .plain length
    else .leaf (.link [.text address] (encodeUrl url) none) length
  | none =>
    match htmlLength? t with
    | some n => .leaf (.html (t.take n)) n
    | none => .plain 1

/-- A sign for a footnote, if footnotes are read, and otherwise a link. -/
def squareAt (notes : Bool) (inside : Inside) (t : Text) : Found :=
  match if notes then noteLabel? t else none with
  | some label => .note label (label.length + 3)
  | none => linkAt inside t

/-- What begins at a place; `before` is the character in front. -/
def findAt (notes : Bool) (inside : Inside) (before : Option Char) (t : Text) : Found :=
  match emphasisMark? before t with
  | some (mark, size) => emphasisAt inside mark size t
  | none =>
    match lineBreak? t with
    | some (hard, n) => .leaf (if hard then .hardBreak else .softBreak) n
    | none =>
      match t with
      | '\\' :: _ =>
        let run := escapedRun t
        if run.isEmpty then .plain 1 else .leaf (.text run) (2 * run.length)
      | '\x60' :: _ =>
        match codeSpan? t with
        | some (code, n) => .leaf (.code code) n
        | none => .plain (runLength '\x60' t)
      | '~' :: _ =>
        match strikeContent? t with
        | some content => .span .strike content (content.length + 4)
        | none => .plain 1
      | '[' :: _ => squareAt notes inside t
      | '!' :: '[' :: _ => linkAt inside t
      | '<' :: _ => bracketAt inside t
      | _ => .plain 1

/-- Labels of footnotes are compared without regard to case and white space. -/
def labelKey (label : Text) : Text :=
  Text.caseless (Text.joinWith [' '] (Text.words label))

/-- The footnotes that are defined, and those referenced so far, in order. -/
structure NoteOrder where
  defined : List Text := []
  referenced : List Text := []
  deriving DecidableEq, Repr

/-- The place of a footnote in the order, which it gets when it is first referenced. -/
def NoteOrder.refer (o : NoteOrder) (key : Text) : Nat × NoteOrder :=
  let referenced := if o.referenced.contains key then o.referenced else o.referenced ++ [key]
  (referenced.idxOf key + 1, { o with referenced })

/-- A run of plain characters, which are held last first. -/
def plainRun (held : Text) : List Inline :=
  if held.isEmpty then [] else [.text held.reverse]

/-- Reads a text of at most so many characters; `held` are the plain ones in front, last first. -/
def readFrom (notes : Bool) : Nat → Inside → Option Char → Text → Text →
    StateM NoteOrder (List Inline)
  | 0, _, _, held, t => return plainRun (t.reverse ++ held)
  | _ + 1, _, _, held, [] => return plainRun held
  | fuel + 1, inside, before, held, c :: r => do
    let t := c :: r
    match findAt notes inside before t with
    | .plain n =>
      let taken := t.take (max 1 n)
      readFrom notes fuel inside taken.getLast? (taken.reverse ++ held) (t.drop (max 1 n))
    | .leaf x n =>
      let inside := match x with
        | .html raw => inside.afterHtml raw
        | _ => inside
      let others ← readFrom notes fuel inside t[n - 1]? [] (t.drop n)
      return plainRun held ++ x :: others
    | .note label n =>
      let key := labelKey label
      let order ← get
      if order.defined.contains key then
        let (number, order) := order.refer key
        set order
        let others ← readFrom notes fuel inside t[n - 1]? [] (t.drop n)
        return plainRun held ++ .note key number :: others
      else
        readFrom notes fuel inside t[n - 1]? ((t.take n).reverse ++ held) (t.drop n)
    | .span s content n =>
      let inner ← readFrom notes fuel (s.inside inside) none [] content
      let others ← readFrom notes fuel inside t[n - 1]? [] (t.drop n)
      return plainRun held ++ s.enclose inner :: others

def isOuterPad (c : Char) : Bool :=
  c == ' ' || c == '\r' || c == '\n' || c == '\t' || c == '\x0c'

/-- Reads a text without the space around it. -/
def readInline (notes : Bool) (t : Text) : StateM NoteOrder (List Inline) :=
  let body := Text.dropAround isOuterPad t
  readFrom notes (body.length + 1) {} none [] body

end Docmark.Preview
