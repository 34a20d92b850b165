import NeutralSchema.Json.Basic

/-!
# Writing a document

Two layouts: compact on one line, and indented by two spaces a level with one entry a line. Both
escape quotation marks, backslashes and control characters and leave all else as it is.
-/
namespace NeutralSchema.Json

def hexDigit (n : Nat) : Char := (n % 16).digitChar

def escape (c : Char) : List Char :=
  if c = '"' then ['\\', '"']
  else if c = '\\' then ['\\', '\\']
  else if c = '\x08' then ['\\', 'b']
  else if c = '\t' then ['\\', 't']
  else if c = '\n' then ['\\', 'n']
  else if c = '\x0c' then ['\\', 'f']
  else if c = '\r' then ['\\', 'r']
  else if c.toNat < 0x20 then ['\\', 'u', '0', '0', hexDigit (c.toNat / 16), hexDigit c.toNat]
  else [c]

def literal (text : String) : List Char :=
  '"' :: (text.toList.flatMap escape ++ ['"'])

def scalarText : Json → List Char
  | .bool true => "true".toList
  | .bool false => "false".toList
  | .number n => n.text
  | .string s => literal s
  | _ => "null".toList

mutual

def compactChars : Json → List Char
  | .array [] => ['[', ']']
  | .array (v :: vs) => '[' :: (compactChars v ++ compactElements vs)
  | .object [] => ['{', '}']
  | .object ((key, v) :: entries) =>
    '{' :: (literal key ++ ':' :: (compactChars v ++ compactEntries entries))
  | v => scalarText v

def compactElements : List Json → List Char
  | [] => [']']
  | v :: vs => ',' :: (compactChars v ++ compactElements vs)

def compactEntries : List (String × Json) → List Char
  | [] => ['}']
  | (key, v) :: entries =>
    ',' :: (literal key ++ ':' :: (compactChars v ++ compactEntries entries))

end

/-- A line break and the indentation of a level. -/
def lineBreak (level : Nat) : List Char := '\n' :: List.replicate (2 * level) ' '

mutual

def indentedChars (level : Nat) : Json → List Char
  | .array [] => ['[', ']']
  | .array (v :: vs) =>
    '[' :: (lineBreak (level + 1) ++ (indentedChars (level + 1) v ++ indentedElements level vs))
  | .object [] => ['{', '}']
  | .object ((key, v) :: entries) =>
    '{' :: (lineBreak (level + 1) ++ (literal key ++ ':' :: ' ' ::
      (indentedChars (level + 1) v ++ indentedEntries level entries)))
  | v => scalarText v

def indentedElements (level : Nat) : List Json → List Char
  | [] => lineBreak level ++ [']']
  | v :: vs =>
    ',' :: (lineBreak (level + 1) ++ (indentedChars (level + 1) v ++ indentedElements level vs))

def indentedEntries (level : Nat) : List (String × Json) → List Char
  | [] => lineBreak level ++ ['}']
  | (key, v) :: entries =>
    ',' :: (lineBreak (level + 1) ++ (literal key ++ ':' :: ' ' ::
      (indentedChars (level + 1) v ++ indentedEntries level entries)))

end

/-- The text of a document on one line. -/
def compact (v : Json) : String := String.ofList (compactChars v)

/-- The text of a document with one entry a line. -/
def indented (v : Json) : String := String.ofList (indentedChars 0 v)

end NeutralSchema.Json
