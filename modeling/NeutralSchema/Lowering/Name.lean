import NeutralSchema.Lowering.Basic
import NeutralSchema.Text.Quoted

/-!
# Normalized names

Lower-case words joined by underscores: an upper-case letter starts a word, lower-case letters,
digits and underscores stay, and every other character is dropped and reported.
-/
namespace NeutralSchema.Name

def isNormal (c : Char) : Bool := c.isLower || c.isDigit || c = '_'

/-- The characters that a name may have before normalization. -/
def isAllowed (c : Char) : Bool := c.isUpper || isNormal c

/-- What a character adds to the normalized characters `done`. -/
def extend (done : List Char) (c : Char) : List Char :=
  if c.isUpper then
    if done.isEmpty then [c.toLower] else done ++ ['_', c.toLower]
  else if isNormal c then done ++ [c]
  else done

def normalizeChars (name : List Char) : List Char := name.foldl extend []

def normalize (name : String) : String := String.ofList (normalizeChars name.toList)

def invalidCharacter (name : String) (source : Option FileSpan) (c : Char) : Diagnostic where
  kind := .invalidName
  message := "Invalid character in name: " ++ Text.quotedChar c ++ " in `" ++ name ++ "`"
  source := source

/-- One report for each character that the name may not have, in order. -/
def invalidCharacters (name : String) (source : Option FileSpan) : Diagnostics :=
  (name.toList.filter (!isAllowed ·)).map (invalidCharacter name source)

end NeutralSchema.Name

namespace NeutralSchema

def lowerName (name : String) (source : FileSpan) : Lowering String := do
  modify (· ++ Name.invalidCharacters name source)
  return Name.normalize name

end NeutralSchema
