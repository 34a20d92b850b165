import NeutralSchema.Number.Digits
import NeutralSchema.Toml.Basic

/-!
# Strings of TOML documents

There are strings with escapes, in `"`, and strings without, in `'`. Either may span lines when its
quotation mark is written three times.
-/
namespace NeutralSchema.Toml

/-- The text up to the closing mark of a string on one line. A backslash keeps the mark after it
where there are escapes. -/
def splitLine (mark : Char) (escapes : Bool) : Reader (List Char)
  | [] => none
  | c :: cs =>
    if c = mark then some ([], cs)
    else
      match cs with
      | d :: rest =>
        if escapes && c = '\\' then
          (splitLine mark escapes rest).map fun p => (c :: d :: p.1, p.2)
        else (splitLine mark escapes (d :: rest)).map fun p => (c :: p.1, p.2)
      | [] => none

def markCount (mark : Char) (cs : List Char) : Nat := (cs.takeWhile (· = mark)).length

/-- The text up to the three closing marks of a string of several lines. Up to two more marks
before them belong to the string. -/
def splitLines (mark : Char) (escapes : Bool) : Reader (List Char)
  | [] => none
  | c :: cs =>
    let marks := markCount mark (c :: cs)
    if marks ≥ 3 then
      some (List.replicate (min (marks - 3) 2) mark, (c :: cs).drop (min marks 5))
    else
      match cs with
      | d :: rest =>
        if escapes && c = '\\' then
          (splitLines mark escapes rest).map fun p => (c :: d :: p.1, p.2)
        else (splitLines mark escapes (d :: rest)).map fun p => (c :: p.1, p.2)
      | [] => none

def scalar? (digits : List Char) : Option Char := do
  let n ← Digits.number? 16 digits
  if h : n.isValidChar then some (Char.ofNatAux n h) else none

def simpleEscape? : Char → Option Char
  | 'b' => some '\x08'
  | 't' => some '\t'
  | 'n' => some '\n'
  | 'f' => some '\x0c'
  | 'r' => some '\r'
  | '"' => some '"'
  | '\\' => some '\\'
  | _ => none

/-- Replaces the escapes in a text whose other characters are `allowed`. -/
def unescape (allowed : Char → Bool) : List Char → Option (List Char)
  | [] => some []
  | '\\' :: 'u' :: a :: b :: c :: d :: rest => do
    let first ← scalar? [a, b, c, d]
    return first :: (← unescape allowed rest)
  | '\\' :: 'U' :: a :: b :: c :: d :: e :: f :: g :: h :: rest => do
    let first ← scalar? [a, b, c, d, e, f, g, h]
    return first :: (← unescape allowed rest)
  | '\\' :: c :: rest => do
    let first ← simpleEscape? c
    return first :: (← unescape allowed rest)
  | c :: rest => do if c != '\\' && allowed c then return c :: (← unescape allowed rest) else none

inductive Joining where
  | text
  | before
  | after
  deriving DecidableEq

def joinLines : Joining → List Char → Option (List Char)
  | .before, [] => none
  | _, [] => some []
  | .before, c :: cs =>
    if c = '\n' then joinLines .after cs else if isBlank c then joinLines .before cs else none
  | state, c :: cs =>
    if state = .after ∧ (c = '\n' ∨ isBlank c) then joinLines .after cs
    else
      match cs with
      | d :: rest =>
        if c = '\\' then
          if d = '\n' ∨ isBlank d then joinLines .before (d :: rest)
          else (joinLines .text rest).map fun r => c :: d :: r
        else (joinLines .text (d :: rest)).map (c :: ·)
      | [] => some [c]

/-- The line break right after the opening marks does not belong to the string. -/
def dropBreak : List Char → List Char
  | '\n' :: rest => rest
  | cs => cs

def isTextOrBreak (c : Char) : Bool := isText c || c = '\n'

def readLine : Reader String
  | '"' :: rest => do
    let (raw, rest) ← splitLine '"' true rest
    return (String.ofList (← unescape isText raw), rest)
  | '\'' :: rest => do
    let (raw, rest) ← splitLine '\'' false rest
    if raw.all isText then return (String.ofList raw, rest) else none
  | _ => none

def readString : Reader String
  | '"' :: '"' :: '"' :: rest => do
    let (raw, rest) ← splitLines '"' true (dropBreak rest)
    return (String.ofList (← unescape isTextOrBreak (← joinLines .text raw)), rest)
  | '\'' :: '\'' :: '\'' :: rest => do
    let (raw, rest) ← splitLines '\'' false (dropBreak rest)
    if raw.all isTextOrBreak then return (String.ofList raw, rest) else none
  | cs => readLine cs

end NeutralSchema.Toml
