import NeutralSchema.Number.Shortest

/-!
# Numbers of a document

A literal without point and exponent that fits 64 bits is an integer; every other literal, and
`-0`, is a real number, kept as its leading digits and a power of ten.
-/
namespace NeutralSchema.Json

structure Real where
  negative : Bool
  significand : Nat
  exponent : Int
  deriving DecidableEq, Repr

inductive Number where
  | integer (value : Int)
  | real (value : Real)
  deriving DecidableEq, Repr

namespace Real

/-- Divides by `10 ^ 308` as often as `rounds` allows, until the scale is within the powers of
ten. -/
def scaleDown (x : Binary64) (places : Nat) : Nat → Option Binary64
  | 0 => some .zero
  | rounds + 1 =>
    match Binary64.powerOfTen? places with
    | some power => x.div? power
    | none => do scaleDown (← x.div? (← Binary64.powerOfTen? 308)) (places - 308) rounds

/-- The magnitude in double precision: the digits are rounded, then their product with the rounded
power of ten. There is none beyond the largest double. -/
def magnitude? (r : Real) : Option Binary64 := do
  let digits ← Binary64.ofQuotient? r.significand 1
  if r.significand = 0 then some .zero
  else if 0 ≤ r.exponent then digits.mul? (← Binary64.powerOfTen? r.exponent.toNat)
  else scaleDown digits (-r.exponent).toNat 4

def text (r : Real) : List Char :=
  let digits := (r.magnitude?.map Binary64.text).getD []
  if r.negative then '-' :: digits else digits

end Real

def Number.text : Number → List Char
  | .integer n => (toString n).toList
  | .real r => r.text

def fitsWord (n : Int) : Bool := Int64.minValue.toInt ≤ n && n < UInt64.size

def digitValue (c : Char) : Nat := c.toNat - '0'.toNat

/-- Appends digits to a number while it stays below `2 ^ 64`; the other digits are left over. -/
def absorb (n : Nat) : List Char → Nat × List Char
  | [] => (n, [])
  | c :: cs =>
    if n * 10 + digitValue c < UInt64.size then absorb (n * 10 + digitValue c) cs else (n, c :: cs)

def ofDigits (digits : List Char) : Nat :=
  digits.foldl (fun n c => n * 10 + digitValue c) 0

/-- The number of a literal, from its sign, the digits before and after the point, and the
exponent. Digits past the capacity of a word only count for the power of ten. -/
def Number.ofLiteral (negative : Bool) (whole : List Char) (fraction : Option (List Char))
    (exponent : Option Int) : Number :=
  let (n, left) := absorb 0 whole
  match fraction, exponent with
  | none, none =>
    let value : Int := if negative then -(n : Int) else n
    if left.isEmpty && fitsWord value && !(negative && n = 0) then .integer value
    else .real ⟨negative, n, left.length⟩
  | fraction, exponent =>
    let places := fraction.getD []
    let (n, ignored) := absorb n places
    .real ⟨negative, n, (left.length : Int) - (places.length - ignored.length : Nat)
      + exponent.getD 0⟩

end NeutralSchema.Json
