import NeutralSchema.Toml.Definition
import NeutralSchema.Toml.Scalar
import NeutralSchema.Toml.Text
import NeutralSchema.Text.Mark

/-!
# Reading TOML documents

A document is read line by line into statements, which then define its tables. Main definition:
`read`, the entries of a document, if it is well formed.
-/
namespace NeutralSchema.Toml

/-- Turns the line breaks of two characters into single ones. No other carriage return may stand in
a document. -/
def normalizeBreaks : List Char → Option (List Char)
  | [] => some []
  | '\r' :: '\n' :: rest => (normalizeBreaks rest).map ('\n' :: ·)
  | '\r' :: _ => none
  | c :: rest => (normalizeBreaks rest).map (c :: ·)

def readLineEnd (cs : List Char) : Option (List Char) :=
  let rest := match skipBlanks cs with
    | '#' :: comment => comment.dropWhile isText
    | rest => rest
  match rest with
  | [] => some []
  | '\n' :: rest => some rest
  | _ => none

def skipLines (inComment : Bool) : List Char → Option (List Char)
  | [] => some []
  | c :: cs =>
    if c = '\n' then skipLines false cs
    else if inComment then if isText c then skipLines true cs else none
    else if c = '#' then skipLines true cs
    else if isBlank c then skipLines false cs
    else some (c :: cs)

def isBareKey (c : Char) : Bool := c.isAlphanum || c = '_' || c = '-'

def readSimpleKey (cs : List Char) : Option (String × List Char) :=
  match cs with
  | '"' :: _ | '\'' :: _ => readLine cs
  | _ =>
    match cs.span isBareKey with
    | ([], _) => none
    | (key, rest) => some (String.ofList key, rest)

/-- How many parts a key may have, and how deep values may nest. -/
def depthLimit : Nat := 79

def readKeyParts : Nat → Reader (List String × String)
  | 0, _ => none
  | limit + 1, cs => do
    let (part, rest) ← readSimpleKey (skipBlanks cs)
    match skipBlanks rest with
    | '.' :: rest =>
      let ((path, key), rest) ← readKeyParts limit rest
      return ((part :: path, key), rest)
    | rest => return (([], part), rest)

def readKey : Reader (List String × String) := readKeyParts depthLimit

mutual

/-- A value that nests at most `room` containers. -/
def readValue (fuel room : Nat) (cs : List Char) : Option (Value × List Char) :=
  match fuel, cs with
  | 0, _ => none
  | _ + 1, '"' :: _ | _ + 1, '\'' :: _ => (readString cs).map fun p => (.string p.1, p.2)
  | fuel + 1, '[' :: rest => do
    if room = 0 then none
    let (elements, rest) ← readElements fuel (room - 1) (← skipLines false rest)
    return (.array elements, rest)
  | fuel + 1, '{' :: rest => do
    if room = 0 then none
    let (assignments, rest) ←
      match skipBlanks rest with
      | '}' :: rest => some ([], rest)
      | rest => readAssignments fuel (room - 1) rest
    return (← inlineTable assignments, rest)
  | _ + 1, _ => readScalar cs

/-- The elements of an array up to its end. A comma may follow the last one. -/
def readElements (fuel room : Nat) (cs : List Char) : Option (List Value × List Char) :=
  match fuel, cs with
  | 0, _ => none
  | _ + 1, ']' :: rest => some ([], rest)
  | fuel + 1, cs => do
    let (v, rest) ← readValue fuel room cs
    match ← skipLines false rest with
    | ',' :: rest =>
      let (vs, rest) ← readElements fuel room (← skipLines false rest)
      return (v :: vs, rest)
    | ']' :: rest => return ([v], rest)
    | _ => none

def readAssignments (fuel room : Nat) (cs : List Char) :
    Option (List (List String × String × Value) × List Char) :=
  match fuel with
  | 0 => none
  | fuel + 1 => do
    let ((path, key), v, rest) ← readAssignment fuel room cs
    match skipBlanks rest with
    | ',' :: rest =>
      let (assignments, rest) ← readAssignments fuel room rest
      return ((path, key, v) :: assignments, rest)
    | '}' :: rest => return ([(path, key, v)], rest)
    | _ => none

def readAssignment (fuel room : Nat) (cs : List Char) :
    Option ((List String × String) × Value × List Char) :=
  match fuel with
  | 0 => none
  | fuel + 1 => do
    let (key, rest) ← readKey cs
    match rest with
    | '=' :: rest =>
      let (v, rest) ← readValue fuel room (skipBlanks rest)
      return (key, v, rest)
    | _ => none

end

def readHeader (closing : List Char) (cs : List Char) :
    Option ((List String × String) × List Char) := do
  let (key, rest) ← readKey cs
  if closing.isPrefixOf rest then return (key, ← readLineEnd (rest.drop closing.length)) else none

def readStatement (fuel : Nat) (cs : List Char) : Option (Statement × List Char) :=
  match cs with
  | '[' :: '[' :: rest => do
    let ((path, key), rest) ← readHeader [']', ']'] rest
    return (.listHeader path key, rest)
  | '[' :: rest => do
    let ((path, key), rest) ← readHeader [']'] rest
    return (.header path key, rest)
  | cs => do
    let ((path, key), v, rest) ← readAssignment fuel depthLimit cs
    return (.assignment path key v, ← readLineEnd rest)

def readStatements (fuel : Nat) : Nat → List Char → Option (List Statement)
  | 0, _ => none
  | lines + 1, cs => do
    match ← skipLines false cs with
    | [] => return []
    | cs =>
      let (s, rest) ← readStatement fuel cs
      return s :: (← readStatements fuel lines rest)

/-- The entries of a document. No two steps of the reader take less than a character. -/
def read (text : String) : Option (List (String × Value)) := do
  let cs ← normalizeBreaks (Text.withoutMark text.toList)
  let statements ← readStatements (2 * cs.length + 2) (cs.length + 1) cs
  return toEntries (← define [] [] statements)

end NeutralSchema.Toml
