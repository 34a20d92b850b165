import Mathlib.Tactic.SplitIfs
import NeutralSchema.Number.Digits
import NeutralSchema.Text.Quoted

/-!
# Quoted characters

Between quotation marks a character stands for itself or has an escape that is its own. Main
statement: `quotedChar_shows`.
-/
namespace NeutralSchema.Text

open Digits

/-- The characters that are escaped by a letter, with their letters. -/
def letters : List (Char × Char) :=
  [('\x00', '0'), ('\t', 't'), ('\n', 'n'), ('\r', 'r'), ('\\', '\\'), ('\'', '\'')]

def isPrintable (c : Char) : Bool := 32 ≤ c.toNat && c.toNat ≤ 126

/-- What may stand for a character: itself, a backslash and its letter, or its code point in
hexadecimal digits, which is not used for printable ASCII characters. -/
inductive Shows (c : Char) : List Char → Prop
  | itself (plain : c ∉ letters.map Prod.fst) : Shows c [c]
  | letter (l : Char) (own : (c, l) ∈ letters) : Shows c ['\\', l]
  | codePoint (digits : List Char) (unprintable : ¬isPrintable c)
    (denoted : number? 16 digits = some c.toNat) :
    Shows c ('\\' :: 'u' :: '{' :: (digits ++ ['}']))

theorem value?_digitChar : ∀ d < 16, value? 16 d.digitChar = some d := by
  decide

theorem number?_concat (radix : Nat) (digits : List Char) (c : Char) :
    number? radix (digits ++ [c])
      = (number? radix digits).bind fun n => (value? radix c).map (radix * n + ·) := by
  simp [number?, List.foldlM_append]

theorem number?_toDigits (n : Nat) : number? 16 (Nat.toDigits 16 n) = some n := by
  induction n using Nat.strongRecOn with
  | ind n ih =>
    rw [Nat.toDigits_eq_if (by decide)]
    split
    · next small => simp [number?, value?_digitChar n small]
    · next large =>
      have last : n % 16 < 16 := Nat.mod_lt n (by decide)
      rw [number?_concat, ih (n / 16) (by omega), value?_digitChar _ last]
      simp [Nat.div_add_mod]

theorem not_isPrintable_of_isHidden {c : Char} (hidden : isHidden c) : ¬isPrintable c := by
  intro printable
  simp only [isPrintable, Bool.and_eq_true, decide_eq_true_eq] at printable
  have ranges : hiddenRanges = (0x0, 0x1f) :: (0x7f, 0xa0) :: hiddenRanges.drop 2 := rfl
  rw [isHidden, ranges, List.find?_cons_of_neg (by simp; omega),
    List.find?_cons_of_pos (by simp; omega)] at hidden
  simp at hidden
  omega

theorem shows_escaped (c : Char) : Shows c (escaped '\'' c).toList := by
  unfold escaped
  split_ifs with null tab newline return_ backslash mark hidden
  · exact null ▸ .letter '0' (by decide)
  · exact tab ▸ .letter 't' (by decide)
  · exact newline ▸ .letter 'n' (by decide)
  · exact return_ ▸ .letter 'r' (by decide)
  · exact backslash ▸ .letter '\\' (by decide)
  · rw [String.toList_ofList, mark]
    exact .letter '\'' (by decide)
  · simpa using Shows.codePoint _ (not_isPrintable_of_isHidden hidden) (number?_toDigits c.toNat)
  · have plain : c ∉ letters.map Prod.fst := by simp [letters, *]
    simpa using Shows.itself plain

/-- What stands for a character stands for no other. -/
theorem Shows.unique {c d : Char} {text : List Char} (first : Shows c text)
    (second : Shows d text) : c = d := by
  have apart : ∀ p ∈ letters, ∀ q ∈ letters, p.2 = q.2 → p.1 = q.1 := by decide
  cases first with
  | itself => cases second; rfl
  | letter l own =>
    cases second with
    | letter _ other => exact apart _ own _ other rfl
  | codePoint digits _ denoted =>
    generalize same : digits ++ ['}'] = rest at second
    cases second with
    | codePoint others _ denoted' =>
      obtain rfl := List.append_cancel_right same
      exact Char.toNat_inj.mp (Option.some.inj (denoted.symm.trans denoted'))

/-- A quoted character stands between single quotation marks. -/
theorem quotedChar_shows (c : Char) :
    ∃ shown, Shows c shown ∧ quotedChar c = "'" ++ String.ofList shown ++ "'" :=
  ⟨_, shows_escaped c, by rw [String.ofList_toList, quotedChar]⟩

end NeutralSchema.Text
