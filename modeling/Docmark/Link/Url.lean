import Docmark.Link.Host
import Docmark.Text.Quoted

/-!
The parts of a URL, and the URL that a reference stands for relative to a base (RFC 3986).
-/

namespace Docmark.Link

inductive UrlError
  /-- Brackets that hold no host, or more than a host. -/
  | misplacedBrackets
  | notAnAddress (host : Text)
  | version4InBrackets
  | badFutureAddress
  | disguisedDelimiter (authority : Text)
  /-- The base is no text. -/
  | noTextAsBase
  deriving DecidableEq, Repr

def UrlError.message : UrlError → Text
  | misplacedBrackets => "Invalid IPv6 URL".toList
  | notAnAddress host =>
    Text.quoted host ++ " does not appear to be an IPv4 or IPv6 address".toList
  | version4InBrackets => "An IPv4 address cannot be in brackets".toList
  | badFutureAddress => "IPvFuture address is invalid".toList
  | disguisedDelimiter authority =>
    "netloc '".toList ++ authority ++
      "' contains invalid characters under NFKC normalization".toList
  | noTextAsBase => "Cannot mix str and non-str arguments".toList

/-- `params` is what follows a semicolon in the last segment of the path. -/
structure Url where
  scheme : Text
  authority : Text
  path : Text
  params : Text
  query : Text
  fragment : Text
  deriving DecidableEq, Repr

/-- Schemes whose references may be relative; without a scheme they may too. -/
def relativeSchemes : List Text :=
  ["", "ftp", "http", "gopher", "nntp", "imap", "wais", "file", "https", "shttp", "mms",
   "prospero", "rtsp", "rtspu", "sftp", "svn", "svn+ssh", "ws", "wss"].map String.toList

/-- Schemes whose URLs name an authority. -/
def authoritySchemes : List Text :=
  ["", "ftp", "http", "gopher", "nntp", "telnet", "imap", "wais", "file", "mms", "https", "shttp",
   "snews", "prospero", "rtsp", "rtspu", "rsync", "svn", "svn+ssh", "sftp", "nfs", "git",
   "git+ssh", "ws", "wss"].map String.toList

def paramSchemes : List Text :=
  ["", "ftp", "hdl", "prospero", "http", "imap", "https", "shttp", "rtsp", "rtspu", "sip",
   "sips", "mms", "sftp", "tel"].map String.toList

/-- Characters whose compatibility form holds a delimiter of URLs. -/
def disguises : List Nat :=
  [0x2047, 0x2048, 0x2049, 0x2100, 0x2101, 0x2105, 0x2106, 0x2A74, 0xFE13, 0xFE16, 0xFE55, 0xFE56,
   0xFE5F, 0xFE6B, 0xFF03, 0xFF0F, 0xFF1A, 0xFF1F, 0xFF20]

/-- Tabs and line ends are no part of a URL, nor are control characters in front. -/
def cleaned (t : Text) : Text :=
  (t.dropWhile fun c => c.toNat ≤ 32).filter fun c => c != '\t' && c != '\r' && c != '\n'

def isSchemeChar (c : Char) : Bool :=
  c.isAlphanum || c == '+' || c == '-' || c == '.'

/-- The scheme in small letters and what follows its colon. -/
def scheme? (t : Text) : Option (Text × Text) :=
  let name := t.takeWhile (· != ':')
  match name, t.dropWhile (· != ':') with
  | c :: _, _ :: rest =>
    if c.isAlpha && name.all isSchemeChar then some (name.map Char.toLower, rest) else none
  | _, _ => none

/-- Cuts a text at the first `c`, which belongs to neither part. -/
def cutAt (c : Char) (t : Text) : Text × Text :=
  (t.takeWhile (· != c), (t.dropWhile (· != c)).tail)

/-- What follows the last `c` of a text, or the whole text. -/
def afterLast (c : Char) (t : Text) : Text :=
  Text.takeEndWhile (· != c) t

/-- A host in brackets has to be an address of version 6 or of a future version. -/
def checkHost (host : Text) : Except UrlError Unit :=
  if host.head? == some 'v' then
    if isFuture host then .ok () else .error .badFutureAddress
  else if isVersion4 host then .error .version4InBrackets
  else if isVersion6 host then .ok ()
  else .error (.notAnAddress host)

/-- Nothing stands before the brackets around a host, and only a port after them. -/
def checkBrackets (authority : Text) : Except UrlError Unit :=
  let place := afterLast '@' authority
  let (front, bracketed) := cutAt '[' place
  if !place.contains '[' then checkHost (cutAt ':' place).1
  else if !front.isEmpty then .error .misplacedBrackets
  else
    let (host, port) := cutAt ']' bracketed
    if !port.isEmpty && port.head? != some ':' then .error .misplacedBrackets
    else checkHost host

def checkAuthority (t : Text) : Except UrlError Unit := do
  if t.contains '[' != t.contains ']' then throw .misplacedBrackets
  if t.contains '[' then checkBrackets t
  if t.any fun c => disguises.contains c.toNat then throw (.disguisedDelimiter t)

/-- Splits the parameters from the last segment of a path. -/
def cutParams (path : Text) : Text × Text :=
  let segments := Text.splitOn '/' path
  let (last, params) := cutAt ';' (segments.getLast?.getD [])
  (Text.joinWith ['/'] (segments.dropLast ++ [last]), params)

/-- The parts of a URL; one without a scheme gets the scheme given. -/
def Url.split (t scheme : Text) : Except UrlError Url := do
  let t := cleaned t
  let (scheme, t) := (scheme? t).getD (scheme, t)
  let isDelimiter (c : Char) := c == '/' || c == '?' || c == '#'
  let (authority, t) := match t with
    | '/' :: '/' :: r => (r.takeWhile (!isDelimiter ·), r.dropWhile (!isDelimiter ·))
    | r => ([], r)
  let (t, fragment) := cutAt '#' t
  let (path, query) := cutAt '?' t
  checkAuthority authority
  let (path, params) := if paramSchemes.contains scheme then cutParams path else (path, [])
  return { scheme, authority, path, params, query, fragment }

/--
An authority that is empty is written for the schemes that name one, unless the path begins with two
slashes.
-/
def Url.render (u : Url) : Text :=
  let path := if u.params.isEmpty then u.path else u.path ++ ';' :: u.params
  let namesAuthority := !u.scheme.isEmpty && authoritySchemes.contains u.scheme
  let path :=
    if !u.authority.isEmpty || (namesAuthority && !Text.startsWith ['/', '/'] path) then
      let path := if !path.isEmpty && path.head? != some '/' then '/' :: path else path
      '/' :: '/' :: u.authority ++ path
    else path
  (if u.scheme.isEmpty then [] else u.scheme ++ [':']) ++ path ++
    (if u.query.isEmpty then [] else '?' :: u.query) ++
    if u.fragment.isEmpty then [] else '#' :: u.fragment

/-- Drops the empty segments between the first and the last. -/
def dropEmptyInside : List Text → List Text
  | first :: r@(_ :: _) =>
    first :: r.dropLast.filter (fun s => !s.isEmpty) ++ r.getLast?.toList
  | segments => segments

/-- Follows the segments of a path; `before` holds those reached so far, the last first. -/
def followSegments (before : List Text) : List Text → List Text
  | [] => before.reverse
  | s :: r =>
    if s == ['.', '.'] then followSegments before.tail r
    else if s == ['.'] then followSegments before r
    else followSegments (s :: before) r

def joinPaths (base path : Text) : Text :=
  let segments :=
    if path.head? == some '/' then Text.splitOn '/' path
    else
      let parts := Text.splitOn '/' base
      let directory := if parts.getLast? == some [] then parts else parts.dropLast
      dropEmptyInside (directory ++ Text.splitOn '/' path)
  let followed := followSegments [] segments
  let last := segments.getLast?.getD []
  let followed := if last == ['.'] || last == ['.', '.'] then followed ++ [[]] else followed
  let joined := Text.joinWith ['/'] followed
  if joined.isEmpty then ['/'] else joined

/-- The URL that a reference stands for relative to a base. -/
def Url.join (base reference : Text) : Except UrlError Text := do
  if base.isEmpty then return reference
  if reference.isEmpty then return base
  let b ← Url.split base []
  let u ← Url.split reference b.scheme
  if u.scheme != b.scheme || !relativeSchemes.contains u.scheme then return reference
  let named := authoritySchemes.contains u.scheme
  if named && !u.authority.isEmpty then return u.render
  let authority := if named then b.authority else u.authority
  if u.path.isEmpty && u.params.isEmpty then
    let query := if u.query.isEmpty then b.query else u.query
    return { u with authority, path := b.path, params := b.params, query }.render
  return { u with authority, path := joinPaths b.path u.path }.render

end Docmark.Link
