import NeutralSchema.Service.Host

/-!
# URLs

A URL is read as browsers read it: blanks around it and line breaks in it do not count, the scheme
and the host are written in lower case, the number of the socket is left out where it is the
default of the scheme, and the steps `.` and `..` of the path are taken. Main definition:
`Address.read`.
-/
namespace NeutralSchema.Service

inductive Scheme where
  | http
  | https
  deriving DecidableEq, Repr

namespace Scheme

def name : Scheme → String
  | .http => "http"
  | .https => "https"

def defaultSocket : Scheme → Nat
  | .http => 80
  | .https => 443

end Scheme

structure Url where
  scheme : Scheme
  credentials : String
  host : String
  /-- The number of the socket, absent where it is the default of the scheme. -/
  socket : Option Nat
  /-- The segments of the path, which follow a slash each. There is at least one. -/
  segments : List String
  query : Option String
  fragment : Option String
  deriving DecidableEq, Repr

namespace Url

def path (u : Url) : String := String.join (u.segments.map ("/" ++ ·))

def socketText (u : Url) : String :=
  match u.socket with
  | some n => ":" ++ toString n
  | none => ""

def markedText (mark : String) : Option String → String
  | some part => mark ++ part
  | none => ""

def text (u : Url) : String :=
  u.scheme.name ++ "://" ++ u.credentials ++ u.host ++ u.socketText ++ u.path
    ++ markedText "?" u.query ++ markedText "#" u.fragment

end Url

/-- An absolute URL. Of schemes other than those of the web only the name is kept. -/
inductive Address where
  | web (url : Url)
  | foreign (scheme : String)
  deriving DecidableEq, Repr

namespace Address

inductive Form where
  | hosted (defaultSocket : Nat)
  | file
  | free

def Form.of : String → Form
  | "http" | "ws" => .hosted 80
  | "https" | "wss" => .hosted 443
  | "ftp" => .hosted 21
  | "file" => .file
  | _ => .free

def Form.hasBackslash : Form → Bool
  | .free => false
  | _ => true

def isSlash (c : Char) : Bool := c = '/' || c = '\\'

def endsAuthority (form : Form) (c : Char) : Bool :=
  c = '/' || c = '?' || c = '#' || (form.hasBackslash && c = '\\')

def upperHex (n : Nat) : Char := (Nat.digitChar n).toUpper

def escapeByte (b : UInt8) : List Char := ['%', upperHex (b.toNat / 16), upperHex (b.toNat % 16)]

/-- Writes the characters of a set, and all but the printable ASCII ones, as escaped bytes. -/
def escape (set : List Char) (cs : List Char) : List Char :=
  cs.flatMap fun c =>
    if c.toNat < 0x20 || c.toNat ≥ 0x7f || set.contains c then
      (String.utf8EncodeChar c).flatMap escapeByte
    else [c]

def pathSet : List Char := [' ', '"', '#', '<', '>', '?', '`', '{', '}']

def querySet : List Char := [' ', '"', '#', '<', '>', '\'']

def fragmentSet : List Char := [' ', '"', '<', '>', '`']

def credentialSet : List Char := pathSet ++ ['/', ':', ';', '=', '@', '[', '\\', ']', '^', '|']

def splitLastAt (cs : List Char) : Option (List Char × List Char) :=
  if cs.contains '@' then
    let reversed := cs.reverse
    some ((reversed.dropWhile (· != '@')).drop 1 |>.reverse,
      (reversed.takeWhile (· != '@')).reverse)
  else none

/-- How a name and a password are written. -/
def credentialText (cs : List Char) : List Char :=
  let name := escape credentialSet (cs.takeWhile (· != ':'))
  let password := escape credentialSet ((cs.dropWhile (· != ':')).drop 1)
  let both := if password.isEmpty then name else name ++ ':' :: password
  if both.isEmpty then [] else both ++ ['@']

/-- The host and what follows it. A colon in brackets is a part of the host. -/
def splitHost : Bool → List Char → List Char × List Char
  | _, [] => ([], [])
  | inside, c :: cs =>
    if c = ':' ∧ !inside then ([], c :: cs)
    else
      let (host, rest) := splitHost (if c = '[' then true else if c = ']' then false else inside) cs
      (c :: host, rest)

/-- The number of the socket after a host and a colon, absent if it is the default or not given. -/
def readSocket (default : Nat) (cs : List Char) : Except UrlError (Option Nat) :=
  match Digits.number? 10 cs with
  | some n =>
    if n > 65535 then .error .invalidSocket
    else .ok (if cs.isEmpty || n = default then none else some n)
  | none => .error .invalidSocket

structure Authority where
  credentials : List Char
  host : String
  socket : Option Nat

section

variable (naming : Host.Naming)

def readHosted (default : Nat) (credentials cs : List Char) : Except UrlError Authority :=
  match splitHost false cs with
  | ([], _) => .error .emptyHost
  | (host, rest) => do
    let host ← Host.read naming host
    return ⟨credentials, host, ← readSocket default (rest.drop 1)⟩

def readAuthority (default : Nat) (cs : List Char) : Except UrlError Authority :=
  match splitLastAt cs with
  | none => readHosted naming default [] cs
  | some (credentials, rest) => readHosted naming default (credentialText credentials) rest

end

/-- Checks the same parts of a URL that may do without a host, credentials and socket. -/
def checkAuthority (cs : List Char) : Except UrlError Unit :=
  match splitHost false ((splitLastAt cs).elim cs (·.2)) with
  | ([], _) => if cs.isEmpty then .ok () else .error .emptyHost
  | (host, rest) => do
    Host.check host
    discard (readSocket 0 (rest.drop 1))

def splitSegments (cs : List Char) : List (List Char) :=
  (cs.map fun c => if c = '\\' then '/' else c).splitOn '/'

/-- The segment with escaped dots read as dots. -/
def plainDots : List Char → List Char
  | '%' :: '2' :: 'e' :: rest | '%' :: '2' :: 'E' :: rest => '.' :: plainDots rest
  | c :: rest => c :: plainDots rest
  | [] => []

/-- Follows the segments of a path from those before them. A step `.` stays, a step `..` goes back,
and either of them leaves an empty last segment. -/
def follow (done : List (List Char)) : List (List Char) → List (List Char)
  | [] => done
  | segment :: rest =>
    let closing := if rest.isEmpty then [[]] else []
    match plainDots segment with
    | ['.'] => follow (done ++ closing) rest
    | ['.', '.'] => follow (done.dropLast ++ closing) rest
    | _ => follow (done ++ [escape pathSet segment]) rest

def withoutSlash : List Char → List Char
  | '/' :: rest | '\\' :: rest => rest
  | cs => cs

def readPath (start : List String) (cs : List Char) : List String :=
  (follow (start.map String.toList) (splitSegments (withoutSlash cs))).map String.ofList

/-- What stands before the first of some marks, and what follows that mark if it is there. -/
def splitAtMark (mark : Char) (cs : List Char) : List Char × Option (List Char) :=
  (cs.takeWhile (· != mark), (cs.dropWhile (· != mark)).tail?)

structure Tail where
  path : List Char
  query : Option String
  fragment : Option String

def Tail.read (cs : List Char) : Tail :=
  let (cs, fragment) := splitAtMark '#' cs
  let (path, query) := splitAtMark '?' cs
  ⟨path, query.map fun cs => String.ofList (escape querySet cs),
    fragment.map fun cs => String.ofList (escape fragmentSet cs)⟩

def splitScheme (cs : List Char) : Option (String × List Char) :=
  let name := cs.takeWhile (· != ':')
  let isPart (c : Char) : Bool := c.isAlphanum || c = '+' || c = '-' || c = '.'
  if name.length < cs.length && name.all isPart && name.head?.any Char.isAlpha then
    some (String.ofList (name.map Char.toLower), cs.drop (name.length + 1))
  else none

def isDrive : List Char → Bool
  | [letter, mark] => letter.isAlpha && (mark = ':' || mark = '|')
  | _ => false

def withoutBreaks (cs : List Char) : List Char :=
  cs.filter fun c => c != '\t' && c != '\n' && c != '\r'

/-- Whether a character does not count at the edges of a text: a control character or a blank. -/
def isEdge (c : Char) : Bool := c.toNat ≤ 0x20

def strip (cs : List Char) : List Char :=
  withoutBreaks ((cs.dropWhile isEdge).reverse.dropWhile isEdge).reverse

section

variable (naming : Host.Naming)

def checkFile (cs : List Char) : Except UrlError Unit :=
  match cs with
  | a :: b :: rest =>
    let host := rest.takeWhile (!endsAuthority .file ·)
    if isSlash a && isSlash b && !host.isEmpty && !isDrive host then
      (Host.read naming host).map fun _ => ()
    else .ok ()
  | _ => .ok ()

def checkFree : List Char → Except UrlError Unit
  | '/' :: '/' :: rest => checkAuthority (rest.takeWhile (!endsAuthority .free ·))
  | _ => .ok ()

def webScheme? : String → Option Scheme
  | "http" => some .http
  | "https" => some .https
  | _ => none

/-- Reads what follows a scheme whose URLs have a host. Any number of slashes is skipped. -/
def readAfterSlashes (scheme : String) (default : Nat) (cs : List Char) :
    Except UrlError Address := do
  let cs := cs.dropWhile isSlash
  let ends := endsAuthority (.hosted default)
  let authority ← readAuthority naming default (cs.takeWhile (!ends ·))
  let tail := Tail.read (cs.dropWhile (!ends ·))
  match webScheme? scheme with
  | none => return .foreign scheme
  | some known =>
    return .web ⟨known, String.ofList authority.credentials, authority.host, authority.socket,
      readPath [] tail.path, tail.query, tail.fragment⟩

def readAfter (scheme : String) (cs : List Char) : Except UrlError Address :=
  match Form.of scheme with
  | .hosted default => readAfterSlashes naming scheme default cs
  | .file => (checkFile naming cs).map fun _ => .foreign scheme
  | .free => (checkFree cs).map fun _ => .foreign scheme

def read (text : String) : Except UrlError Address :=
  match splitScheme (strip text.toList) with
  | none => .error .relative
  | some (scheme, rest) => readAfter naming scheme rest

end

end Address

namespace Url

def setPath (u : Url) (path : String) : Url :=
  { u with segments := Address.readPath [] (Address.withoutBreaks path.toList) }

/-- The URL that a relative path leads to. It takes the place of the last segment, and of the query
and the fragment. -/
def join (u : Url) (reference : String) : Url :=
  let tail := Address.Tail.read (Address.strip reference.toList)
  { u with
    segments := Address.readPath u.segments.dropLast tail.path
    query := tail.query
    fragment := tail.fragment }

end Url
end NeutralSchema.Service
