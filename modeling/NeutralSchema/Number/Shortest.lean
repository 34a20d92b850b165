import NeutralSchema.Number.Binary64

/-!
# The shortest decimal that reads back

Every decimal strictly between the midpoints to the neighbours of a number reads back as that
number, and so do the midpoints themselves when its mantissa is even.
-/
namespace NeutralSchema.Binary64

structure Decimal where
  digits : Nat
  exponent : Int
  deriving DecidableEq, Repr

/-- A positive number with its two midpoints, all four times as large and without a fraction:
`value`, `low` and `high` count units of `10 ^ -places / 4`. -/
structure Interval where
  places : Nat
  value : Nat
  low : Nat
  high : Nat
  closed : Bool

def interval (x : Binary64) : Interval :=
  let places := (-x.exponent).toNat
  let step := if x.exponent < 0 then Nat.pow 5 places else Nat.pow 2 x.exponent.toNat
  let value := 4 * (x.mantissa * step)
  let below := if x.mantissa = Nat.pow 2 52 ∧ x.exponent > -1074 then step else 2 * step
  ⟨places, value, value - below, value + 2 * step, x.mantissa % 2 = 0⟩

def Interval.contains (i : Interval) (n : Nat) : Bool :=
  if i.closed then i.low ≤ 4 * n && 4 * n ≤ i.high else i.low < 4 * n && 4 * n < i.high

/-- The better of the two neighbours on the grid of step `grid`, if one reads back. -/
def Interval.onGrid? (i : Interval) (grid : Nat) : Option Nat :=
  let t := i.value / 4 / grid
  let down := t * grid
  let up := (t + 1) * grid
  match i.contains down, i.contains up with
  | true, true =>
    let a := i.value - 4 * down
    let b := 4 * up - i.value
    some (if a < b ∨ (a = b ∧ t % 2 = 0) then t else t + 1)
  | true, false => some t
  | false, true => some (t + 1)
  | false, false => none

/-- The decimal of fewest digits that reads back, trying ever finer grids. -/
def Interval.search (i : Interval) : Nat → Decimal
  | 0 => ⟨i.value / 4, -i.places⟩
  | power + 1 =>
    match i.onGrid? (Nat.pow 10 (power + 1)) with
    | some t => ⟨t, (power + 1 : Nat) - i.places⟩
    | none => i.search power

def shortest (x : Binary64) : Decimal :=
  let i := x.interval
  i.search (Nat.toDigits 10 (i.value / 4)).length

def trimZeros (digits : List Char) : List Char :=
  (digits.reverse.dropWhile (· = '0')).reverse

def exponentText (e : Int) : List Char :=
  let digits := Nat.toDigits 10 e.natAbs
  (if e < 0 then '-' else '+') :: (if digits.length < 2 then '0' :: digits else digits)

/-- The shortest decimal as text: positional from `10 ^ -5` to below `10 ^ 16`, always with a
point there, and with an exponent elsewhere. -/
def text (x : Binary64) : List Char :=
  if x.mantissa = 0 then "0.0".toList
  else
    let d := x.shortest
    let all := Nat.toDigits 10 d.digits
    let order : Int := d.exponent + all.length - 1
    let digits := trimZeros all
    if -5 ≤ order ∧ order < 0 then
      "0.".toList ++ List.replicate (-order - 1).toNat '0' ++ digits
    else if 0 ≤ order ∧ order < 16 then
      let whole := order.toNat + 1
      if digits.length ≤ whole then
        digits ++ List.replicate (whole - digits.length) '0' ++ ".0".toList
      else digits.take whole ++ '.' :: digits.drop whole
    else
      match digits with
      | [] => []
      | [d] => d :: 'e' :: exponentText order
      | d :: more => d :: '.' :: more ++ 'e' :: exponentText order

end NeutralSchema.Binary64
