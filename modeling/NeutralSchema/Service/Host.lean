import NeutralSchema.Number.Digits

/-!
# Hosts of URLs

A host is a domain or an address. Domains are compared and written in ASCII, addresses in one form
each, whichever of their forms they are given in. Main definition: `Host.read`.
-/
namespace NeutralSchema.Service

inductive UrlError where
  | relative
  | emptyHost
  | invalidDomain
  | invalidCharacter
  | invalidIPv4
  | invalidIPv6
  | invalidSocket
  deriving DecidableEq, Repr

def UrlError.message : UrlError → String
  | .relative => "relative URL without a base"
  | .emptyHost => "empty host"
  | .invalidDomain => "invalid international domain name"
  | .invalidCharacter => "invalid domain character"
  | .invalidIPv4 => "invalid IPv4 address"
  | .invalidIPv6 => "invalid IPv6 address"
  | .invalidSocket => "invalid port number"

namespace Host

/-- A part of a numeric host: decimal, octal after `0`, or hexadecimal after `0x`. -/
def numericPart? : List Char → Option Nat
  | [] => none
  | '0' :: 'x' :: digits | '0' :: 'X' :: digits => Digits.number? 16 digits
  | '0' :: c :: digits => Digits.number? 8 (c :: digits)
  | digits => Digits.number? 10 digits

def parts (cs : List Char) : List (List Char) :=
  let all := cs.splitOn '.'
  if all.length > 1 && all.getLast? == some [] then all.dropLast else all

/-- Whether a host has to be an address of four bytes: its last part is a number. -/
def endsInNumber (cs : List Char) : Bool :=
  match (parts cs).getLast? with
  | some last => (!last.isEmpty && last.all Char.isDigit) || (numericPart? last).isSome
  | none => false

/-- The address of the numbers: all but the last fill one byte each, the last the rest. -/
def combine? : List Nat → Option Nat
  | [] => none
  | numbers =>
    let leading := numbers.dropLast
    let last := numbers.getLastD 0
    let room := 4 - leading.length
    if numbers.length ≤ 4 ∧ leading.all (· < 256) ∧ last < Nat.pow 256 room then
      some (leading.foldl (fun n byte => 256 * n + byte) 0 * Nat.pow 256 room + last)
    else none

def ipv4? (cs : List Char) : Option Nat := (parts cs).mapM numericPart? >>= combine?

def ipv4Text (address : Nat) : String :=
  String.intercalate "." ([24, 16, 8, 0].map fun shift => toString (address >>> shift % 256))

def byte? (digits : List Char) : Option Nat := do
  let n ← Digits.number? 10 digits
  if digits.isEmpty || n > 255 || (digits.length > 1 && digits.head? == some '0') then none
  else return n

def dottedPieces? (cs : List Char) : Option (List Nat) := do
  match ← (cs.splitOn '.').mapM byte? with
  | [a, b, c, d] => return [256 * a + b, 256 * c + d]
  | _ => none

def piece? (digits : List Char) : Option Nat :=
  if digits.isEmpty || digits.length > 4 then none else Digits.number? 16 digits

/-- Pieces with colons between them; where `tail` is set the last may be four bytes. -/
def pieces? (tail : Bool) : List (List Char) → Option (List Nat)
  | [] => some []
  | [last] => if tail && last.contains '.' then dottedPieces? last else (piece? last).map ([·])
  | first :: rest => do return (← piece? first) :: (← pieces? tail rest)

def partPieces? (tail : Bool) (cs : List Char) : Option (List Nat) :=
  if cs.isEmpty then some [] else pieces? tail (cs.splitOn ':')

def splitGap : List Char → Option (List Char × List Char)
  | ':' :: ':' :: rest => some ([], rest)
  | c :: rest => (splitGap rest).map fun p => (c :: p.1, p.2)
  | [] => none

/-- A pair of colons stands for one or more zero pieces. -/
def ipv6? (cs : List Char) : Option (List Nat) :=
  match splitGap cs with
  | none => do
    let all ← pieces? true (cs.splitOn ':')
    if all.length = 8 then some all else none
  | some (before, after) => do
    let left ← partPieces? false before
    let right ← partPieces? true after
    let given := left.length + right.length
    if given ≤ 7 then some (left ++ List.replicate (8 - given) 0 ++ right) else none

def zeros (pieces : List Nat) : Nat := (pieces.takeWhile (· = 0)).length

def longestGap (pieces : List Nat) : Nat × Nat :=
  (List.range pieces.length).foldl
    (fun best i => if zeros (pieces.drop i) > best.2 then (i, zeros (pieces.drop i)) else best)
    (0, 0)

def pieceText (n : Nat) : String := String.ofList (Nat.toDigits 16 n)

def piecesText (pieces : List Nat) : String := String.intercalate ":" (pieces.map pieceText)

/-- The longest run of two or more zeros is left out. -/
def ipv6Text (pieces : List Nat) : String :=
  let (start, length) := longestGap pieces
  if length < 2 then piecesText pieces
  else piecesText (pieces.take start) ++ "::" ++ piecesText (pieces.drop (start + length))

def decodePercent : List Char → List UInt8
  | [] => []
  | '%' :: a :: b :: rest =>
    match Digits.value? 16 a, Digits.value? 16 b with
    | some high, some low => UInt8.ofNat (16 * high + low) :: decodePercent rest
    | _, _ => '%'.toUInt8 :: decodePercent (a :: b :: rest)
  | c :: rest => String.utf8EncodeChar c ++ decodePercent rest

def isForbidden (c : Char) : Bool :=
  c.toNat ≤ 0x20 || c.toNat ≥ 0x7f || "#/:<>?@[\\]^|%".toList.contains c

/-- How the text of a domain is written in ASCII, if it can be. -/
abbrev Naming := String → Option String

/-- Domains are put in lower case, and are expected to be in ASCII as they are. -/
def Naming.plain : Naming := fun text => some (String.ofList (text.toList.map Char.toLower))

def domain? (naming : Naming) (cs : List Char) : Option (List Char) := do
  let text ← String.fromUTF8? ⟨(decodePercent cs).toArray⟩
  let name ← naming text
  if name.toList.any isForbidden then none else return name.toList

def bracketed (cs : List Char) : Except UrlError String :=
  if cs.getLast? = some ']' then
    match ipv6? cs.dropLast with
    | some pieces => .ok ("[" ++ ipv6Text pieces ++ "]")
    | none => .error .invalidIPv6
  else .error .invalidIPv6

def read (naming : Naming) : List Char → Except UrlError String
  | '[' :: rest => bracketed rest
  | cs =>
    match domain? naming cs with
    | none => .error .invalidDomain
    | some domain =>
      if domain.isEmpty then .error .emptyHost
      else if endsInNumber domain then
        match ipv4? domain with
        | some address => .ok (ipv4Text address)
        | none => .error .invalidIPv4
      else .ok (String.ofList domain)

def check : List Char → Except UrlError Unit
  | '[' :: rest => (bracketed rest).map fun _ => ()
  | cs =>
    if cs.any fun c => "\x00\t\n\r #/:<>?@[\\]^|".toList.contains c then .error .invalidCharacter
    else .ok ()

end Host
end NeutralSchema.Service
