import NeutralSchema.Service.Exchange

/-!
# Requests and replies on the wire

The bytes that a request is sent as, and the reply in the bytes that come back. The connection is
closed after one reply. Main definitions: `requestBytes`, `readReply`.
-/
namespace NeutralSchema.Service

def lineEnd : String := "\r\n"

def Url.socketNumber (u : Url) : Nat := u.socket.getD u.scheme.defaultSocket

def requestBytes (endpoint : Url) (body : String) : ByteArray :=
  let lines := [requestLine endpoint, "Host: " ++ endpoint.host ++ endpoint.socketText,
    "Content-Type: application/json", "Accept: */*",
    "Content-Length: " ++ toString body.utf8ByteSize, "Connection: close", "", body]
  (String.intercalate lineEnd lines).toUTF8

def splitLine : List UInt8 → Option (List UInt8 × List UInt8)
  | 13 :: 10 :: rest => some ([], rest)
  | b :: rest => (splitLine rest).map fun p => (b :: p.1, p.2)
  | [] => none

def asciiText (bytes : List UInt8) : String := String.ofList (bytes.map fun b => Char.ofNat b.toNat)

/-- The lines before the empty line, and what follows it. -/
def splitHead : Nat → List UInt8 → Option (List String × List UInt8)
  | 0, _ => none
  | limit + 1, bytes => do
    let (line, rest) ← splitLine bytes
    if line.isEmpty then return ([], rest)
    let (lines, rest) ← splitHead limit rest
    return (asciiText line :: lines, rest)

def statusOf (line : String) : Option Nat :=
  match line.splitOn " " with
  | version :: status :: _ => if version.startsWith "HTTP/1." then status.toNat? else none
  | _ => none

/-- The value of a header, whose name is given in lower case. -/
def headerValue? (name : String) (lines : List String) : Option String :=
  lines.findSome? fun line =>
    match line.splitOn ":" with
    | key :: rest =>
      if key.toLower = name then some (String.intercalate ":" rest).trimAscii.toString else none
    | [] => none

def chunkSize (line : List UInt8) : Option Nat :=
  let digits := (asciiText line).toList.takeWhile fun c => c != ';' && c != ' '
  if digits.isEmpty then none else Digits.number? 16 digits

/-- Joins the chunks of a body. -/
def joinChunks : Nat → List UInt8 → Option (List UInt8)
  | 0, _ => none
  | limit + 1, bytes => do
    let (line, rest) ← splitLine bytes
    let size ← chunkSize line
    if size = 0 then return []
    if rest.length < size + 2 then none
    return rest.take size ++ (← joinChunks limit (rest.drop (size + 2)))

def bodyBytes (headers : List String) (bytes : List UInt8) : Option (List UInt8) :=
  match headerValue? "transfer-encoding" headers, headerValue? "content-length" headers with
  | some _, _ => joinChunks (bytes.length + 1) bytes
  | none, some length => do
    let length ← length.toNat?
    if bytes.length < length then none else return bytes.take length
  | none, none => some bytes

def readReply (bytes : ByteArray) : Option Reply := do
  let (lines, rest) ← splitHead (bytes.size + 1) bytes.toList
  let status ← statusOf (← lines.head?)
  let body ← if isBodiless status then some [] else bodyBytes (lines.drop 1) rest
  return ⟨status, ← String.fromUTF8? ⟨body.toArray⟩⟩

end NeutralSchema.Service
