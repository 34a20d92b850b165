import NeutralSchema.Json.Decode
import NeutralSchema.Json.Reader

/-!
# Decoding texts

A text is read as a document, and the document is decoded when all of it was read. An error comes
with a place in the text. How far a decoder has read when it meets a fault is no matter of the
types, so the places are given from outside.
-/
namespace NeutralSchema.Json

/-- The value that a text denotes. Of several faults, the one that is told need not stand first in
the text: malformed text is told before a value that does not fit, and a name that a record repeats
before the values of that record. -/
def decodeText {α : Type} (decode : Access → Nat → Json → Decoded α) (text : String) : Decoded α :=
  match read text with
  | .ok v => decode .streamed nestingLimit v
  | .error e => malformed e

/-- A line of a text, and a number of bytes on it. -/
structure LineColumn where
  line : Nat
  column : Nat
  deriving DecidableEq, Repr

namespace LineColumn

def text (p : LineColumn) : String :=
  " at line " ++ toString p.line ++ " column " ++ toString p.column

def after (p : LineColumn) (c : Char) : LineColumn :=
  if c = '\n' then ⟨p.line + 1, 0⟩ else ⟨p.line, p.column + c.utf8Size⟩

end LineColumn

/-- Where in a text an error is told to be. -/
class Locating where
  place : String → DecodeError → LineColumn

/-- Unless a decoder says more, errors are told at the end of the text, where a text that breaks off
is at fault. -/
instance : Locating := ⟨fun text _ => text.toList.foldl LineColumn.after ⟨1, 0⟩⟩

structure LocatedError where
  error : DecodeError
  place : LineColumn
  deriving DecidableEq, Repr

instance : Coe LocatedError DecodeError := ⟨LocatedError.error⟩

def LocatedError.message (e : LocatedError) : String := e.error.message ++ e.place.text

def locate [Locating] (text : String) (e : DecodeError) : LocatedError :=
  ⟨e, Locating.place text e⟩

end NeutralSchema.Json
