/-!
# TOML documents

The values that configuration files hold. Floating-point numbers and times keep their text: nobody
calculates with them.
-/
namespace NeutralSchema.Toml

inductive Value where
  | string (text : String)
  | integer (value : Int)
  | float (text : String)
  | boolean (value : Bool)
  | time (text : String)
  | array (elements : List Value)
  /-- A table, its entries in the order of their definition. -/
  | table (entries : List (String × Value))
  deriving Repr, BEq

/-- A reader of the head of a text gives what it read and the rest. -/
abbrev Reader (α : Type) := List Char → Option (α × List Char)

def isBlank (c : Char) : Bool := c = ' ' || c = '\t'

def isText (c : Char) : Bool := c = '\t' || (c.toNat ≥ 0x20 && c.toNat ≠ 0x7f)

def skipBlanks (cs : List Char) : List Char := cs.dropWhile isBlank

end NeutralSchema.Toml
