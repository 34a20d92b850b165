/-!
# Digits

Numbers written with digits of any radix up to thirty-six. Letters follow the digit nine, in either
case.
-/
namespace NeutralSchema.Digits

def value? (radix : Nat) (c : Char) : Option Nat :=
  let value :=
    if c.isDigit then c.toNat - '0'.toNat
    else if c.isAlpha then c.toLower.toNat - 'a'.toNat + 10
    else radix
  if value < radix then some value else none

/-- The number that digits denote. No digits denote zero. -/
def number? (radix : Nat) (digits : List Char) : Option Nat :=
  digits.foldlM (fun n c => (value? radix c).map (radix * n + ·)) 0

end NeutralSchema.Digits
