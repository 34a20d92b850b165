/-!
# Numbers of double precision

A non-negative number `mantissa * 2 ^ exponent` with at most 53 bits, and the rounding of a
quotient to the nearest one.
-/
namespace NeutralSchema

/-- The number `mantissa * 2 ^ exponent`. -/
structure Binary64 where
  mantissa : Nat
  exponent : Int
  deriving DecidableEq, Repr

namespace Binary64

def zero : Binary64 := ⟨0, -1074⟩

/-- The natural number nearest to a quotient; a half goes to the even neighbour. -/
def roundQuotient (num den : Nat) : Nat :=
  let whole := num / den
  let rest := 2 * (num % den)
  if rest > den ∨ (rest = den ∧ whole % 2 = 1) then whole + 1 else whole

/-- The greatest `e` with `2 ^ e ≤ num / den`, for positive numbers. -/
def binaryOrder (num den : Nat) : Int :=
  let e : Int := (Nat.log2 num : Int) - (Nat.log2 den : Int)
  if num * Nat.pow 2 (-e).toNat < den * Nat.pow 2 e.toNat then e - 1 else e

def ofQuotient? (num den : Nat) : Option Binary64 :=
  if num = 0 then some zero
  else
    let q := max (binaryOrder num den - 52) (-1074)
    let m := roundQuotient (num * Nat.pow 2 (-q).toNat) (den * Nat.pow 2 q.toNat)
    let rounded : Binary64 := if m = Nat.pow 2 53 then ⟨Nat.pow 2 52, q + 1⟩ else ⟨m, q⟩
    if rounded.exponent ≤ 971 then some rounded else none

def quotient (x : Binary64) : Nat × Nat :=
  (x.mantissa * Nat.pow 2 x.exponent.toNat, Nat.pow 2 (-x.exponent).toNat)

def mul? (x y : Binary64) : Option Binary64 :=
  ofQuotient? (x.quotient.1 * y.quotient.1) (x.quotient.2 * y.quotient.2)

def div? (x y : Binary64) : Option Binary64 :=
  ofQuotient? (x.quotient.1 * y.quotient.2) (x.quotient.2 * y.quotient.1)

def powerOfTen? (n : Nat) : Option Binary64 :=
  if n ≤ 308 then ofQuotient? (Nat.pow 10 n) 1 else none

end Binary64
end NeutralSchema
