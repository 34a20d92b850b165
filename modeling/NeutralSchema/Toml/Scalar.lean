import NeutralSchema.Number.Digits
import NeutralSchema.Toml.Basic

/-!
# Numbers, truth values and times of TOML documents

These values are words without blanks, apart from the blank that may stand between a date and a
time. Main definition: `readScalar`.
-/
namespace NeutralSchema.Toml

/-- The number that digits denote, which may be grouped by single underscores. -/
def grouped? (radix : Nat) (cs : List Char) : Option Nat :=
  let groups := cs.splitOn '_'
  if groups.any List.isEmpty then none
  else Digits.number? radix groups.flatten

def splitSign : List Char → Bool × List Char
  | '-' :: rest => (true, rest)
  | '+' :: rest => (false, rest)
  | cs => (false, cs)

def decimal? (cs : List Char) : Option Nat :=
  match cs with
  | '0' :: _ :: _ => none
  | _ => grouped? 10 cs

def isLong (n : Int) : Bool := Int64.minValue.toInt ≤ n && n ≤ Int64.maxValue.toInt

def unboundedInteger? : List Char → Option Int
  | '0' :: 'x' :: digits => (grouped? 16 digits).map Int.ofNat
  | '0' :: 'o' :: digits => (grouped? 8 digits).map Int.ofNat
  | '0' :: 'b' :: digits => (grouped? 2 digits).map Int.ofNat
  | cs =>
    let (negative, digits) := splitSign cs
    (decimal? digits).map fun n => if negative then -Int.ofNat n else Int.ofNat n

def integer? (cs : List Char) : Option Int := (unboundedInteger? cs).filter isLong

/-- Whether a text is an exponent, from its letter on, or empty. -/
def isExponent : List Char → Bool
  | [] => true
  | e :: rest => e.toLower = 'e' && (grouped? 10 (splitSign rest).2).isSome

/-- Whether a text is a fraction with or without an exponent, or an exponent alone. -/
def isFraction : List Char → Bool
  | '.' :: rest =>
    let digits := rest.takeWhile (·.toLower != 'e')
    (grouped? 10 digits).isSome && isExponent (rest.drop digits.length)
  | rest => !rest.isEmpty && isExponent rest

def isFloat (cs : List Char) : Bool :=
  let digits := (splitSign cs).2
  let whole := digits.takeWhile fun c => c != '.' && c.toLower != 'e'
  digits = "inf".toList || digits = "nan".toList ||
    ((decimal? whole).isSome && isFraction (digits.drop whole.length))

def fixed? (width : Nat) (cs : List Char) : Option Nat :=
  if cs.length = width ∧ cs.all Char.isDigit then grouped? 10 cs else none

def isTwoDigits (least most : Nat) (cs : List Char) : Bool :=
  (fixed? 2 cs).any fun n => least ≤ n && n ≤ most

def isLeapYear (year : Nat) : Bool := year % 4 = 0 && (year % 100 ≠ 0 || year % 400 = 0)

def monthLength (year month : Nat) : Nat :=
  if month = 2 then if isLeapYear year then 29 else 28
  else if month = 4 || month = 6 || month = 9 || month = 11 then 30
  else 31

def isDate (cs : List Char) : Bool :=
  match cs.splitOn '-' with
  | [year, month, day] =>
    match fixed? 4 year, fixed? 2 month with
    | some y, some m => 1 ≤ m && m ≤ 12 && isTwoDigits 1 (monthLength y m) day
    | _, _ => false
  | _ => false

/-- Whether a text is a number of seconds with or without decimals. A minute may have a leap
second. -/
def isSeconds (cs : List Char) : Bool :=
  match cs.splitOn '.' with
  | [seconds] => isTwoDigits 0 60 seconds
  | [seconds, decimals] =>
    isTwoDigits 0 60 seconds && !decimals.isEmpty && decimals.all Char.isDigit
  | _ => false

def isClock (cs : List Char) : Bool :=
  match cs.splitOn ':' with
  | [hours, minutes, seconds] =>
    isTwoDigits 0 23 hours && isTwoDigits 0 59 minutes && isSeconds seconds
  | _ => false

/-- Whether a text is a distance from universal time, or empty. -/
def isOffset : List Char → Bool
  | [] | ['Z'] | ['z'] => true
  | sign :: rest =>
    (sign = '+' || sign = '-') &&
      match rest.splitOn ':' with
      | [hours, minutes] => isTwoDigits 0 23 hours && isTwoDigits 0 59 minutes
      | _ => false

def isOffsetClock (cs : List Char) : Bool :=
  let clock := cs.takeWhile fun c => c.isDigit || c = ':' || c = '.'
  isClock clock && isOffset (cs.drop clock.length)

/-- Whether a word is a time: a date, a time of the day, or both. -/
def isTime (cs : List Char) : Bool :=
  isDate cs || isClock cs ||
    (isDate (cs.take 10) &&
      match cs.drop 10 with
      | mark :: clock => (mark = 'T' || mark = 't' || mark = ' ') && isOffsetClock clock
      | [] => false)

def isWordPart (c : Char) : Bool := c.isAlphanum || "+-._:".toList.contains c

def splitWord (cs : List Char) : List Char × List Char := cs.span isWordPart

/-- A word. A date takes the time of the day after a blank along. -/
def splitDated (cs : List Char) : List Char × List Char :=
  let (word, rest) := splitWord cs
  match rest with
  | ' ' :: after =>
    let (next, afterwards) := splitWord after
    if isDate word && next.head?.any Char.isDigit then (word ++ ' ' :: next, afterwards)
    else (word, rest)
  | _ => (word, rest)

def scalarValue? (word : List Char) : Option Value :=
  if word = "true".toList then some (.boolean true)
  else if word = "false".toList then some (.boolean false)
  else if isTime word then some (.time (String.ofList word))
  else if isFloat word then some (.float (String.ofList word))
  else (integer? word).map .integer

def readScalar (cs : List Char) : Option (Value × List Char) :=
  let (word, rest) := splitDated cs
  (scalarValue? word).map fun v => (v, rest)

end NeutralSchema.Toml
