import NeutralSchema.Proofs.Json.Printed

/-!
# Control characters are escaped

A document that is written compactly is one line without any control character, whatever characters
its strings are made of. Main statement: `visible_compact`.
-/
namespace NeutralSchema.Json

/-- Whether a character may stand in a string literal as it is, as far as control characters go. -/
def isVisible (c : Char) : Bool := 0x20 ≤ c.toNat

theorem isVisible_digitChar : ∀ d < 16, isVisible d.digitChar := by
  decide

theorem all_escape (c : Char) : (escape c).all isVisible := by
  have digit (n : Nat) : isVisible (hexDigit n) := isVisible_digitChar _ (Nat.mod_lt n (by decide))
  unfold escape
  split_ifs with quote slash backspace tab newline feed return' control
  case pos | pos | pos | pos | pos | pos | pos => rfl
  · simp only [List.all_cons, digit]
    rfl
  · simpa [isVisible] using control

theorem all_literal (text : String) : (literal text).all isVisible := by
  have marks : isVisible '"' := rfl
  simp [literal, List.all_flatMap, marks, all_escape]

/-- Values that are no containers. -/
theorem all_scalarText (v : Json) (exactly : v.isExact) : (scalarText v).all isVisible := by
  cases v with
  | bool b => cases b <;> rfl
  | string s => exact all_literal s
  | number n =>
    cases n with
    | integer n =>
      simp only [isExact, leaves, isExactScalar, Bool.and_eq_true, decide_eq_true_eq] at exactly
      obtain ⟨n, rfl⟩ := Int.eq_ofNat_of_zero_le exactly.1
      have text : scalarText (natural n) = Nat.toDigits 10 n := String.toList_ofList
      rw [natural] at text
      rw [text, List.all_eq_true]
      intro c mem
      have digit := Nat.isDigit_of_mem_toDigits (by decide) (by decide) mem
      simp only [Char.isDigit, Bool.and_eq_true, decide_eq_true_eq] at digit
      exact decide_eq_true (Nat.le_trans (by decide) digit.1)
    | real r => exact absurd exactly Bool.false_ne_true
  | null | array | object | unreadable => rfl

mutual

theorem all_compactChars : ∀ v : Json, v.isExact → (compactChars v).all isVisible
  | .array [], _ | .object [], _ => rfl
  | .array (v :: vs), exactly => by
    simp only [isExact, leaves, leavesAll, Bool.and_eq_true] at exactly
    have bracket : isVisible '[' := rfl
    simp [compactChars, bracket, all_compactChars v exactly.1, all_compactElements vs exactly.2]
  | .object ((key, v) :: entries), exactly => by
    simp only [isExact, leaves, leavesEntries, Bool.and_eq_true] at exactly
    have marks : isVisible '{' ∧ isVisible ':' := ⟨rfl, rfl⟩
    simp [compactChars, marks, all_literal, all_compactChars v exactly.1,
      all_compactEntries entries exactly.2]
  | .null, exactly => all_scalarText .null exactly
  | .bool b, exactly => all_scalarText (.bool b) exactly
  | .number n, exactly => all_scalarText (.number n) exactly
  | .string s, exactly => all_scalarText (.string s) exactly
  | .unreadable e, exactly => all_scalarText (.unreadable e) exactly

theorem all_compactElements : ∀ vs : List Json, leavesAll isExactScalar vs →
    (compactElements vs).all isVisible
  | [], _ => rfl
  | v :: vs, exactly => by
    simp only [leavesAll, Bool.and_eq_true] at exactly
    have comma : isVisible ',' := rfl
    simp [compactElements, comma, all_compactChars v exactly.1, all_compactElements vs exactly.2]

theorem all_compactEntries : ∀ entries : List (String × Json),
    leavesEntries isExactScalar entries → (compactEntries entries).all isVisible
  | [], _ => rfl
  | (key, v) :: entries, exactly => by
    simp only [leavesEntries, Bool.and_eq_true] at exactly
    have marks : isVisible ',' ∧ isVisible ':' := ⟨rfl, rfl⟩
    simp [compactEntries, marks, all_literal, all_compactChars v exactly.1,
      all_compactEntries entries exactly.2]

end

theorem visible_compact {v : Json} (exactly : v.isExact) : (compact v).toList.all isVisible := by
  rw [compact, String.toList_ofList]
  exact all_compactChars v exactly

end NeutralSchema.Json
