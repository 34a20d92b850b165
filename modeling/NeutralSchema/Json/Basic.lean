import NeutralSchema.Json.Number

/-!
# JSON documents

A document keeps its entries in the order of the text, repeated keys included. Well-formed text
that denotes no value (a number beyond double precision, half of a surrogate pair) becomes
`unreadable`, so that it does no harm where nobody reads it.
-/
namespace NeutralSchema.Json

inductive SyntaxError where
  | endInList
  | endInObject
  | endInString
  | endInValue
  | expectedColon
  | expectedListComma
  | expectedObjectComma
  | expectedIdent
  | expectedValue
  | invalidEscape
  | invalidNumber
  | numberOutOfRange
  | controlCharacter
  | keyNotString
  | loneSurrogate
  | unfinishedSurrogate
  | trailingComma
  | trailingCharacters
  | tooDeep
  deriving DecidableEq, Repr

/-- Whether the text ended too early, as opposed to being wrong where it stands. -/
def SyntaxError.isTruncation : SyntaxError → Bool
  | .endInList | .endInObject | .endInString | .endInValue => true
  | _ => false

def SyntaxError.message : SyntaxError → String
  | .endInList => "EOF while parsing a list"
  | .endInObject => "EOF while parsing an object"
  | .endInString => "EOF while parsing a string"
  | .endInValue => "EOF while parsing a value"
  | .expectedColon => "expected `:`"
  | .expectedListComma => "expected `,` or `]`"
  | .expectedObjectComma => "expected `,` or `\x7d`"
  | .expectedIdent => "expected ident"
  | .expectedValue => "expected value"
  | .invalidEscape => "invalid escape"
  | .invalidNumber => "invalid number"
  | .numberOutOfRange => "number out of range"
  | .controlCharacter => "control character (\\u0000-\\u001F) found while parsing a string"
  | .keyNotString => "key must be a string"
  | .loneSurrogate => "lone leading surrogate in hex escape"
  | .unfinishedSurrogate => "unexpected end of hex escape"
  | .trailingComma => "trailing comma"
  | .trailingCharacters => "trailing characters"
  | .tooDeep => "recursion limit exceeded"

end NeutralSchema.Json

namespace NeutralSchema

inductive Json where
  | null
  | bool (value : Bool)
  | number (value : Json.Number)
  | string (value : String)
  | array (elements : List Json)
  | object (entries : List (String × Json))
  | unreadable (error : Json.SyntaxError)
  deriving Repr, BEq, Inhabited

end NeutralSchema

namespace NeutralSchema.Json

def natural (n : Nat) : Json := .number (.integer n)

def ofOption : Option Json → Json
  | none => .null
  | some v => v

/-- How many containers a document may nest. -/
def nestingLimit : Nat := 127

mutual

/-- Checks that all of a document has a value and that it nests at most `room` containers. -/
def readable (room : Nat) : Json → Except SyntaxError Unit
  | .array elements =>
    match room with
    | 0 => .error .tooDeep
    | room + 1 => readableAll room elements
  | .object entries =>
    match room with
    | 0 => .error .tooDeep
    | room + 1 => readableEntries room entries
  | .unreadable error => .error error
  | _ => .ok ()

def readableAll (room : Nat) : List Json → Except SyntaxError Unit
  | [] => .ok ()
  | v :: vs => do
    readable room v
    readableAll room vs

def readableEntries (room : Nat) : List (String × Json) → Except SyntaxError Unit
  | [] => .ok ()
  | (_, v) :: entries => do
    readable room v
    readableEntries room entries

end

end NeutralSchema.Json
