import NeutralSchema.Json.Basic
import NeutralSchema.Text.Quoted

/-!
# Decoding documents

What a typed value may be written as, and what is said when a document does not fit. A value is
`streamed` when it is decoded while its text is read, and `collected` when its node was read as a
whole first; the two differ in how surplus parts and misplaced variants are reported. Every
decoder is given the `room`: how many containers may still be opened.
-/
namespace NeutralSchema.Json

inductive Found where
  | null
  | bool (value : Bool)
  | integer (value : Int)
  | real (value : Real)
  | string (value : String)
  | sequence
  | map
  deriving DecidableEq, Repr

def Found.text : Found → String
  | .null => "null"
  | .bool b => "boolean `" ++ (if b then "true" else "false") ++ "`"
  | .integer n => "integer `" ++ toString n ++ "`"
  | .real r => "floating point `" ++ String.ofList r.text ++ "`"
  | .string s => "string " ++ Text.quoted s
  | .sequence => "sequence"
  | .map => "map"

inductive DataError where
  | missingField (name : String)
  | duplicateField (name : String)
  | unknownVariant (name : String) (expected : List String)
  | unknownIndex (index count : Nat)
  | wrongType (found : Found) (expected : String)
  | outOfRange (value : Int) (expected : String)
  | bareVariant
  | notSingleKey
  | tooFew (length : Nat) (owner : String) (count : Nat)
  | tooMany (length count : Nat)
  deriving DecidableEq, Repr

def elementCount (n : Nat) : String :=
  if n = 1 then "1 element" else toString n ++ " elements"

def alternatives : List String → String
  | [a, b] => "`" ++ a ++ "` or `" ++ b ++ "`"
  | names => "one of " ++ String.intercalate ", " (names.map fun a => "`" ++ a ++ "`")

def DataError.message : DataError → String
  | .missingField name => "missing field `" ++ name ++ "`"
  | .duplicateField name => "duplicate field `" ++ name ++ "`"
  | .unknownVariant name expected =>
    "unknown variant `" ++ name ++ "`, expected " ++ alternatives expected
  | .unknownIndex index count =>
    "invalid value: integer `" ++ toString index ++ "`, expected variant index 0 <= i < "
      ++ toString count
  | .wrongType found expected => "invalid type: " ++ found.text ++ ", expected " ++ expected
  | .outOfRange value expected =>
    "invalid value: integer `" ++ toString value ++ "`, expected " ++ expected
  | .bareVariant => "invalid type: unit variant, expected newtype variant"
  | .notSingleKey => "invalid value: map, expected map with a single key"
  | .tooFew length owner count =>
    "invalid length " ++ toString length ++ ", expected " ++ owner ++ " with " ++ elementCount count
  | .tooMany length count =>
    "invalid length " ++ toString length ++ ", expected " ++ elementCount count ++ " in sequence"

inductive DecodeError where
  | malformed (error : SyntaxError)
  | unfit (error : DataError)
  deriving DecidableEq, Repr

def DecodeError.message : DecodeError → String
  | .malformed e => e.message
  | .unfit e => e.message

abbrev Decoded := Except DecodeError

/-- How the node being decoded is reached. -/
inductive Access where
  | streamed
  | collected
  deriving DecidableEq, Repr

def unfit {α : Type} (e : DataError) : Decoded α := .error (.unfit e)

def malformed {α : Type} (e : SyntaxError) : Decoded α := .error (.malformed e)

def mismatch {α : Type} (expected : String) : Json → Decoded α
  | .null => unfit (.wrongType .null expected)
  | .bool b => unfit (.wrongType (.bool b) expected)
  | .number (.integer n) => unfit (.wrongType (.integer n) expected)
  | .number (.real r) => unfit (.wrongType (.real r) expected)
  | .string s => unfit (.wrongType (.string s) expected)
  | .array _ => unfit (.wrongType .sequence expected)
  | .object _ => unfit (.wrongType .map expected)
  | .unreadable e => malformed e

/-- Where no container may be opened any more, a container is too deep. -/
def noRoom {α : Type} (expected : String) : Json → Decoded α
  | .array _ | .object _ => malformed .tooDeep
  | v => mismatch expected v

/-- The same for a value that is written as an object only. -/
def noRoomNode {α : Type} (expected : String) : Json → Decoded α
  | .object _ => malformed .tooDeep
  | v => mismatch expected v

def decodeString : Json → Decoded String
  | .string s => .ok s
  | v => mismatch "a string" v

def decodeBool : Json → Decoded Bool
  | .bool b => .ok b
  | v => mismatch "a boolean" v

def decodeWord32 : Json → Decoded UInt32
  | .number (.integer n) =>
    if 0 ≤ n ∧ n.toNat < UInt32.size then .ok (UInt32.ofNat n.toNat)
    else unfit (.outOfRange n "u32")
  | v => mismatch "u32" v

def decodeWord64 : Json → Decoded UInt64
  | .number (.integer n) =>
    if 0 ≤ n ∧ n.toNat < UInt64.size then .ok (UInt64.ofNat n.toNat)
    else unfit (.outOfRange n "u64")
  | v => mismatch "u64" v

/-- `null` stands for an absent value. -/
def decodeNullable {α : Type} (decode : Json → Decoded α) : Json → Decoded (Option α)
  | .null => .ok none
  | v => (decode v).map some

def decodeElements {α : Type} (decode : Json → Decoded α) : Json → Decoded (List α)
  | .array vs => vs.mapM decode
  | v => mismatch "a sequence" v

def decodeList {α : Type} (decode : Nat → Json → Decoded α) : Nat → Json → Decoded (List α)
  | 0, v => noRoom "a sequence" v
  | room + 1, v => decodeElements (decode room) v

def decodeEntries {α : Type} (decode : Nat → Json → Decoded α) :
    Nat → Json → Decoded (List (String × α))
  | 0, v => noRoom "a map" v
  | room + 1, .object entries =>
    entries.mapM fun entry => (decode room entry.2).map fun a => (entry.1, a)
  | _ + 1, v => mismatch "a map" v

/-- A field of a record. Written as a sequence, a record may leave out trailing fields that are
`omittable`. -/
structure Field where
  name : String
  omittable : Bool := false
  deriving DecidableEq, Repr

def field (name : String) : Field := ⟨name, false⟩

def omittable (name : String) : Field := ⟨name, true⟩

abbrev Fields := List (String × Json)

/-- The first of the known names that is given again later. -/
def repeated? (known : List Field) : Fields → Option String
  | [] => none
  | (key, _) :: rest =>
    if known.any (·.name == key) && rest.any (·.1 == key) then some key else repeated? known rest

/-- A record written as an object: known names once, unknown ones are ignored. -/
def named (known : List Field) (entries : Fields) : Decoded Fields :=
  match repeated? known entries with
  | some name => unfit (.duplicateField name)
  | none => .ok entries

/-- A record written as a sequence, in the order of its fields. -/
def positional (access : Access) (owner : String) (known : List Field) (vs : List Json) :
    Decoded Fields :=
  match (known.drop vs.length).findIdx? (!·.omittable) with
  | some i => unfit (.tooFew (vs.length + i) owner known.length)
  | none =>
    if vs.length ≤ known.length then .ok ((known.map (·.name)).zip vs)
    else
      match access with
      | .streamed => malformed .trailingCharacters
      | .collected => unfit (.tooMany vs.length known.length)

def record (access : Access) (owner : String) (known : List Field) : Json → Decoded Fields
  | .object entries => named known entries
  | .array vs => positional access owner known vs
  | v => mismatch owner v

def decodeRecord {α : Type} (access : Access) (owner : String) (known : List Field)
    (build : Nat → Fields → Decoded α) : Nat → Json → Decoded α
  | 0, v => noRoom owner v
  | room + 1, v => do build room (← record access owner known v)

namespace Fields

variable {α : Type}

def required (fields : Fields) (name : String) (decode : Json → Decoded α) : Decoded α :=
  match fields.lookup name with
  | some v => decode v
  | none => unfit (.missingField name)

def withDefault (fields : Fields) (name : String) (default : α) (decode : Json → Decoded α) :
    Decoded α :=
  match fields.lookup name with
  | some v => decode v
  | none => .ok default

def optional (fields : Fields) (name : String) (decode : Json → Decoded α) :
    Decoded (Option α) :=
  fields.withDefault name none (decodeNullable decode)

end Fields

class Enumerated (α : Type) where
  all : List α
  name : α → String

def variant {α : Type} [Enumerated α] (name : String) : Decoded α :=
  match (Enumerated.all : List α).find? (Enumerated.name · == name) with
  | some a => .ok a
  | none => unfit (.unknownVariant name ((Enumerated.all : List α).map Enumerated.name))

def decodeUnit (access : Access) : Json → Decoded Unit
  | .null => .ok ()
  | .object [] =>
    match access with
    | .streamed => mismatch "unit" (.object [])
    | .collected => .ok ()
  | v => mismatch "unit" v

/-- A variant and what is written with it: a bare name has nothing, an object with a single key
has the value of that key. -/
def decodeVariant {α : Type} [Enumerated α] (access : Access) (room : Nat) :
    Json → Decoded (α × Option Json)
  | .string name => (variant name).map fun a => (a, none)
  | .object [(name, v)] =>
    if room = 0 then malformed .tooDeep else (variant name).map fun a => (a, some v)
  | .unreadable e => malformed e
  | v =>
    match access, v with
    | .streamed, _ => malformed .expectedValue
    | .collected, .object _ => unfit .notSingleKey
    | .collected, v => mismatch "string or map" v

def decodeName {α : Type} [Enumerated α] (access : Access) (room : Nat) (v : Json) :
    Decoded α := do
  match ← decodeVariant access room v with
  | (a, none) => return a
  | (a, some content) =>
    decodeUnit access content
    return a

def decodeNewtype {α : Type} [Enumerated α] (access : Access) (room : Nat) (v : Json) :
    Decoded (α × Json) := do
  match ← decodeVariant access room v with
  | (_, none) => unfit .bareVariant
  | (a, some content) => return (a, content)

inductive Content where
  | entries (entries : Fields)
  | elements (elements : List Json)

/-- The variant that a tag names. In a collected node the position of a variant is a tag too. -/
def decodeTag {κ : Type} [Enumerated κ] (access : Access) : Json → Decoded κ
  | .string name => variant name
  | .number (.integer n) =>
    match access with
    | .streamed => mismatch "variant identifier" (.number (.integer n))
    | .collected =>
      if n < 0 then mismatch "variant identifier" (.number (.integer n))
      else
        match (Enumerated.all : List κ)[n.toNat]? with
        | some a => .ok a
        | none => unfit (.unknownIndex n.toNat (Enumerated.all : List κ).length)
  | v => mismatch "variant identifier" v

/-- The tag among the entries of an object, wherever it stands, and the other entries. -/
def tagged {κ : Type} [Enumerated κ] (access : Access) (tag : String) (entries : Fields) :
    Decoded (κ × Fields) :=
  match entries.filter (·.1 == tag) with
  | [] => unfit (.missingField tag)
  | [(_, v)] => (decodeTag access v).map fun a => (a, entries.filter (·.1 != tag))
  | _ => unfit (.duplicateField tag)

/-- The tag of a node and the rest of it. In a sequence the tag comes first. -/
def decodeTagged {κ : Type} [Enumerated κ] (access : Access) (owner tag : String) :
    Json → Decoded (κ × Content)
  | .object entries => (tagged access tag entries).map fun p => (p.1, .entries p.2)
  | .array [] => unfit (.missingField tag)
  | .array (v :: vs) => (decodeTag access v).map fun a => (a, .elements vs)
  | v => mismatch owner v

def Content.fields (owner : String) (known : List Field) : Content → Decoded Fields
  | .entries es => named known es
  | .elements vs => positional .collected owner known vs

/-- A variant without fields ignores entries, but no elements. -/
def Content.none : Content → Decoded Unit
  | .elements (v :: vs) => unfit (.tooMany (v :: vs).length 0)
  | _ => .ok ()

/-- Reads a node as a whole before it is decoded. -/
def collect (access : Access) (room : Nat) (v : Json) : Decoded Unit :=
  match access with
  | .collected => .ok ()
  | .streamed => (readable room v).mapError .malformed

/-- A node with a field `own` beside its tag and the fields of its variant: the value of that
field, the variant and its fields. All but the own field is collected, and the node is always an
object. -/
def decodeFlattened {κ : Type} [Enumerated κ] (access : Access) (owner own tag : String)
    (room : Nat) : Json → Decoded (Option Json × κ × Fields)
  | .object entries => do
    let rest := entries.filter (·.1 != own)
    match access with
    | .collected => pure ()
    | .streamed => (readableEntries room rest).mapError .malformed
    match entries.filter (·.1 == own) with
    | [] => return (none, ← tagged .collected tag rest)
    | [(_, v)] => return (some v, ← tagged .collected tag rest)
    | _ => unfit (.duplicateField own)
  | v => mismatch owner v

end NeutralSchema.Json
