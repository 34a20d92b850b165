import NeutralSchema.Json.Token

/-!
# Natural numbers as literals

The decimal digits of a natural number that fits a word are read as that number, if no character
follows that a number could go on with. Main statement: `numberToken_toDigits`.
-/
namespace NeutralSchema.Json

/-- Whether a number ends before the text: no digit, point or exponent follows. -/
def endsNumber : List Char → Bool
  | [] => true
  | c :: _ => !c.isDigit && c != '.' && c != 'e' && c != 'E'

section

variable {ds rest : List Char}

theorem digits_append (inside : ∀ d ∈ ds, d.isDigit) (ends : endsNumber rest) :
    digits (ds ++ rest) = (ds, rest) := by
  have stop : rest.takeWhile Char.isDigit = [] ∧ rest.dropWhile Char.isDigit = rest := by
    cases rest with
    | nil => exact ⟨rfl, rfl⟩
    | cons c cs =>
      simp only [endsNumber, Bool.and_eq_true, Bool.not_eq_true'] at ends
      simp [ends.1.1.1]
  rw [digits, List.takeWhile_append_of_pos inside, List.dropWhile_append_of_pos inside, stop.1,
    stop.2, List.append_nil]

theorem someDigits_append (some : ds ≠ []) (inside : ∀ d ∈ ds, d.isDigit)
    (ends : endsNumber rest) : someDigits (ds ++ rest) = .ok (ds, rest) := by
  rw [someDigits, digits_append inside ends]
  cases ds with
  | nil => exact absurd rfl some
  | cons d ds => rfl

theorem fraction?_of_endsNumber (ends : endsNumber rest) : fraction? rest = .ok (none, rest) := by
  unfold fraction?
  split
  · simp [endsNumber] at ends
  · rfl

theorem exponent?_of_endsNumber (ends : endsNumber rest) : exponent? rest = .ok (none, rest) := by
  unfold exponent?
  split
  · simp [endsNumber] at ends
  · simp [endsNumber] at ends
  · rfl

end

theorem digitChar_ne_zero : ∀ d < 10, 0 < d → d.digitChar ≠ '0' := by
  decide

/-- Only zero starts with a zero. -/
theorem head?_toDigits_ne_zero {n : Nat} (positive : 0 < n) :
    (Nat.toDigits 10 n).head? ≠ some '0' := by
  induction n using Nat.strongRecOn with
  | ind n ih =>
    by_cases small : n < 10
    · rw [Nat.toDigits_of_lt_base small, List.head?_cons, Ne, Option.some.injEq]
      exact digitChar_ne_zero n small positive
    · have shorter := ih (n / 10) (by omega) (by omega)
      obtain ⟨c, cs, leading⟩ : ∃ c cs, Nat.toDigits 10 (n / 10) = c :: cs :=
        List.exists_cons_of_ne_nil Nat.toDigits_ne_nil
      rw [leading] at shorter
      rw [Nat.toDigits_of_base_le (by decide) (by omega), leading]
      exact shorter

theorem wholeDigits_toDigits (n : Nat) {rest : List Char} (ends : endsNumber rest) :
    wholeDigits (Nat.toDigits 10 n ++ rest) = .ok (Nat.toDigits 10 n, rest) := by
  have all : ∀ d ∈ Nat.toDigits 10 n, d.isDigit :=
    fun d mem => Nat.isDigit_of_mem_toDigits (by decide) (by decide) mem
  rw [wholeDigits, someDigits_append Nat.toDigits_ne_nil all ends]
  cases n with
  | zero => rfl
  | succ n =>
    have leading := head?_toDigits_ne_zero (Nat.succ_pos n)
    split
    next zero =>
      injection zero with same
      injection same with same
      rw [same] at leading
      exact absurd rfl leading
    next => rfl

theorem le_ofDigitChars (ds : List Char) (n : Nat) : n ≤ Nat.ofDigitChars 10 ds n := by
  induction ds generalizing n with
  | nil => exact Nat.le_refl n
  | cons d ds ih =>
    have grown := ih (10 * n + (d.toNat - '0'.toNat))
    rw [Nat.ofDigitChars_cons]
    omega

/-- Digits are absorbed as long as their number fits. -/
theorem absorb_of_lt {ds : List Char} {n : Nat} (fits : Nat.ofDigitChars 10 ds n < UInt64.size) :
    absorb n ds = (Nat.ofDigitChars 10 ds n, []) := by
  induction ds generalizing n with
  | nil => rfl
  | cons d ds ih =>
    have step : n * 10 + digitValue d = 10 * n + (d.toNat - '0'.toNat) := by
      rw [digitValue, Nat.mul_comm]
    rw [Nat.ofDigitChars_cons] at fits ⊢
    have small := Nat.lt_of_le_of_lt (le_ofDigitChars ds _) fits
    rw [absorb, step, if_pos small, ih fits]

theorem ofLiteral_toDigits {n : Nat} (fits : n < UInt64.size) :
    Number.ofLiteral false (Nat.toDigits 10 n) none none = .integer n := by
  have value : Nat.ofDigitChars 10 (Nat.toDigits 10 n) 0 = n :=
    Nat.ofDigitChars_toDigits (by decide) (by decide)
  have absorbed : absorb 0 (Nat.toDigits 10 n) = (n, []) := by
    rw [absorb_of_lt, value]
    rw [value]
    exact fits
  have word : fitsWord n := by
    have low : Int64.minValue.toInt ≤ 0 := by decide
    simp only [fitsWord, Bool.and_eq_true, decide_eq_true_eq]
    omega
  simp [Number.ofLiteral, absorbed, word]

theorem numberToken_toDigits {n : Nat} (fits : n < UInt64.size) {rest : List Char}
    (ends : endsNumber rest) :
    numberToken false (Nat.toDigits 10 n ++ rest) = (.scalar (natural n), rest) := by
  have read : unsignedNumber false (Nat.toDigits 10 n ++ rest) = .ok (.integer n, rest) := by
    rw [unsignedNumber, wholeDigits_toDigits n ends]
    simp only [fraction?_of_endsNumber ends, exponent?_of_endsNumber ends, Read.map,
      ofLiteral_toDigits fits]
  rw [numberToken, read]
  rfl

end NeutralSchema.Json
