import Mathlib.Data.List.Forall2
import NeutralSchema.Lowering.Name
import NeutralSchema.Proofs.Text.Quoted

/-!
# Normalized names

Normalizing gives a name that is normalized, and changes no name that already is. A name is
normalized in one pass, which reports what it drops, and in parts as well as whole. Main statement:
`normalization_laws`.
-/
namespace NeutralSchema.Name

/-- Whether a name has no characters but those of normalized names. -/
def isNormalized (name : String) : Bool := name.toList.all isNormal

theorem between_iff_le {a b c : Char} :
    (decide (c.val ≥ a.val) && decide (c.val ≤ b.val)) = true ↔ a ≤ c ∧ c ≤ b := by
  rw [Bool.and_eq_true, decide_eq_true_iff, decide_eq_true_iff]
  rfl

theorem isUpper_iff_le {c : Char} : c.isUpper ↔ 'A' ≤ c ∧ c ≤ 'Z' := decide_eq_true_iff

theorem isLower_iff_le {c : Char} : c.isLower ↔ 'a' ≤ c ∧ c ≤ 'z' := between_iff_le

theorem isDigit_iff_le {c : Char} : c.isDigit ↔ '0' ≤ c ∧ c ≤ '9' := between_iff_le

theorem isUpper_iff {c : Char} : c.isUpper ↔ 65 ≤ c.toNat ∧ c.toNat ≤ 90 := isUpper_iff_le

theorem isLower_iff {c : Char} : c.isLower ↔ 97 ≤ c.toNat ∧ c.toNat ≤ 122 := isLower_iff_le

theorem isNormal_iff {c : Char} :
    isNormal c ↔ ('a' ≤ c ∧ c ≤ 'z') ∨ ('0' ≤ c ∧ c ≤ '9') ∨ c = '_' := by
  rw [← isLower_iff_le, ← isDigit_iff_le]
  simp only [isNormal, Bool.or_eq_true, decide_eq_true_eq, or_assoc]

theorem isAllowed_iff {c : Char} : isAllowed c ↔ ('A' ≤ c ∧ c ≤ 'Z') ∨ isNormal c := by
  rw [← isUpper_iff_le, isAllowed, Bool.or_eq_true]

theorem toNat_toLower {c : Char} (upper : c.isUpper) : c.toLower.toNat = c.toNat + 32 := by
  obtain ⟨low, high⟩ := isUpper_iff.mp upper
  have range : c.val ≥ 'A'.val ∧ c.val ≤ 'Z'.val := of_decide_eq_true upper
  have shifted : c.toLower.val = c.val + ('a'.val - 'A'.val) := congrArg Char.val (dif_pos range)
  have distance : ('a'.val - 'A'.val).toNat = 32 := rfl
  change c.toLower.val.toNat = c.toNat + 32
  rw [shifted, UInt32.toNat_add, distance]
  exact Nat.mod_eq_of_lt (by rw [Char.toNat_val]; omega)

theorem isNormal_toLower {c : Char} (upper : c.isUpper) : isNormal c.toLower := by
  have lower : c.toLower.isLower := by
    have shifted := toNat_toLower upper
    rw [isUpper_iff] at upper
    rw [isLower_iff]
    omega
  simp [isNormal, lower]

theorem isUpper_of_isNormal {c : Char} (normal : isNormal c) : c.isUpper = false := by
  rw [Bool.eq_false_iff, Ne, isUpper_iff]
  simp only [isNormal, Bool.or_eq_true, decide_eq_true_eq, isLower_iff] at normal
  rcases normal with (lower | digit) | rfl
  · omega
  · have digits : 48 ≤ c.toNat ∧ c.toNat ≤ 57 := Char.isDigit_iff_toNat.mp digit
    omega
  · decide

theorem all_extend {done : List Char} (normal : done.all isNormal) (c : Char) :
    (extend done c).all isNormal := by
  unfold extend
  split
  · next upper =>
    have letter := isNormal_toLower upper
    have separator : isNormal '_' := by decide
    split <;> simp_all
  · split <;> simp_all

theorem isNormalized_normalize (name : String) : isNormalized (normalize name) := by
  have chars (done cs : List Char) (normal : done.all isNormal) :
      (cs.foldl extend done).all isNormal := by
    induction cs generalizing done with
    | nil => exact normal
    | cons c cs ih => exact ih _ (all_extend normal c)
  simpa [isNormalized, normalize, normalizeChars] using chars [] name.toList rfl

theorem normalize_of_isNormalized {name : String} (normal : isNormalized name) :
    normalize name = name := by
  have chars (done cs : List Char) (normal : cs.all isNormal) :
      cs.foldl extend done = done ++ cs := by
    induction cs generalizing done with
    | nil => simp
    | cons c cs ih =>
      simp only [List.all_cons, Bool.and_eq_true] at normal
      have kept : extend done c = done ++ [c] := by
        simp [extend, isUpper_of_isNormal normal.1, normal.1]
      rw [List.foldl_cons, ih _ normal.2, kept, List.append_assoc, List.singleton_append]
  rw [normalize, normalizeChars, chars [] _ normal, List.nil_append, String.ofList_toList]

@[simp] theorem normalize_normalize (name : String) : normalize (normalize name) = normalize name :=
  normalize_of_isNormalized (isNormalized_normalize name)

theorem invalidCharacters_eq_nil_iff {name : String} {source : Option FileSpan} :
    invalidCharacters name source = [] ↔ name.toList.all isAllowed := by
  simp [invalidCharacters]

theorem all_isAllowed_of_isNormalized {name : String} (normal : isNormalized name) :
    name.toList.all isAllowed := by
  rw [isNormalized, List.all_eq_true] at normal
  rw [List.all_eq_true]
  intro c mem
  simp [isAllowed, normal c mem]

theorem isNormal_of_isAllowed {c : Char} (allowed : isAllowed c) (notUpper : ¬c.isUpper) :
    isNormal c := by
  simpa [isAllowed, notUpper] using allowed

theorem extend_of_not_isAllowed {c : Char} (dropped : ¬isAllowed c) (done : List Char) :
    extend done c = done := by
  rw [isAllowed, Bool.or_eq_true, not_or] at dropped
  rw [extend, if_neg dropped.1, if_neg dropped.2]

/-- Reads one more character of a name: it adds to the normalized characters `done`, or is reported
and leaves them as they are. -/
def readCharacter (name : String) (source : Option FileSpan) (done : List Char) (c : Char) :
    Lowering (List Char) :=
  if c.isUpper then return if done.isEmpty then [c.toLower] else done ++ ['_', c.toLower]
  else if isNormal c then return done ++ [c]
  else do
    report (invalidCharacter name source c)
    return done

section

variable {c : Char} (name : String) (source : Option FileSpan) (done : List Char)

theorem readCharacter_of_isAllowed (allowed : isAllowed c) :
    readCharacter name source done c = pure (extend done c) := by
  unfold readCharacter extend
  split
  · rfl
  · next notUpper =>
    have normal := isNormal_of_isAllowed allowed notUpper
    rw [if_pos normal, if_pos normal]

theorem readCharacter_of_not_isAllowed (dropped : ¬isAllowed c) :
    readCharacter name source done c
      = (do report (invalidCharacter name source c); return extend done c) := by
  rw [extend_of_not_isAllowed dropped]
  rw [isAllowed, Bool.or_eq_true, not_or] at dropped
  rw [readCharacter, if_neg dropped.1, if_neg dropped.2]

/-- A pass over characters extends the normalized ones by each of them in turn, and reports those
that are not allowed. -/
theorem runFrom_readCharacters (cs : List Char) (collected : Diagnostics) :
    (cs.foldlM (readCharacter name source) done).runFrom collected
      = (.ok (cs.foldl extend done),
        collected ++ (cs.filter (!isAllowed ·)).map (invalidCharacter name source)) := by
  induction cs generalizing done collected with
  | nil => simp [Lowering.runFrom]
  | cons c cs ih =>
    rw [List.foldlM_cons, List.foldl_cons]
    by_cases allowed : isAllowed c
    · rw [readCharacter_of_isAllowed name source done allowed, pure_bind, ih]
      simp [allowed]
    · have step (next : List Char → Lowering (List Char)) :
          ((do report (invalidCharacter name source c); return extend done c) >>= next).runFrom
              collected
            = (next (extend done c)).runFrom (collected ++ [invalidCharacter name source c]) := rfl
      rw [readCharacter_of_not_isAllowed name source done allowed, step, ih]
      simp [allowed]

end

/-- Whether the first character that is not dropped is an upper-case letter. -/
def startsWord (cs : List Char) : Bool := (cs.find? isAllowed).any Char.isUpper

/-- What comes between the normalized characters `done` and those of what follows them. -/
def separator (done following : List Char) : List Char :=
  if done ≠ [] ∧ startsWord following then ['_'] else []

section

variable {c : Char}

theorem startsWord_cons_of_not_isAllowed (dropped : ¬isAllowed c) (cs : List Char) :
    startsWord (c :: cs) = startsWord cs := by
  rw [startsWord, List.find?_cons_of_neg dropped, startsWord]

theorem startsWord_cons_of_isAllowed (allowed : isAllowed c) (cs : List Char) :
    startsWord (c :: cs) = c.isUpper := by
  rw [startsWord, List.find?_cons_of_pos allowed, Option.any_some]

/-- A character that is kept adds the same after any others, but for the separator. -/
theorem extend_of_isAllowed (allowed : isAllowed c) (done cs : List Char) :
    extend done c = done ++ separator done (c :: cs) ++ extend [] c := by
  rw [separator, startsWord_cons_of_isAllowed allowed]
  by_cases upper : c.isUpper
  · by_cases fresh : done = [] <;> simp [extend, upper, fresh]
  · simp [extend, upper, isNormal_of_isAllowed allowed upper]

theorem extend_ne_nil (allowed : isAllowed c) (done : List Char) : extend done c ≠ [] := by
  by_cases upper : c.isUpper
  · by_cases fresh : done = [] <;> simp [extend, upper, fresh]
  · simp [extend, upper, isNormal_of_isAllowed allowed upper]

end

/-- What follows some normalized characters is normalized as if it stood alone, but for the
separator: of what comes before, it only matters whether there is anything. -/
theorem foldl_extend (done cs : List Char) :
    cs.foldl extend done = done ++ separator done cs ++ normalizeChars cs := by
  induction cs generalizing done with
  | nil => simp [separator, startsWord, normalizeChars]
  | cons c cs ih =>
    by_cases allowed : isAllowed c
    · -- After this character there is something before the others, with or without `done`.
      have started (before : List Char) :
          separator (extend before c) cs = if startsWord cs then ['_'] else [] := by
        simp [separator, extend_ne_nil allowed]
      calc cs.foldl extend (extend done c)
        _ = extend done c ++ separator (extend done c) cs ++ normalizeChars cs := ih _
        _ = done ++ separator done (c :: cs)
              ++ (extend [] c ++ separator (extend [] c) cs ++ normalizeChars cs) := by
          rw [started, started, extend_of_isAllowed allowed done cs]
          simp
        _ = done ++ separator done (c :: cs) ++ normalizeChars (c :: cs) := by
          rw [← ih]
          rfl
    · have same (before : List Char) : (c :: cs).foldl extend before = cs.foldl extend before := by
        rw [List.foldl_cons, extend_of_not_isAllowed allowed]
      have skipped : normalizeChars (c :: cs) = normalizeChars cs := same []
      rw [same, ih, skipped, separator, separator, startsWord_cons_of_not_isAllowed allowed]

theorem normalizeChars_append (cs ds : List Char) :
    normalizeChars (cs ++ ds)
      = normalizeChars cs ++ separator (normalizeChars cs) ds ++ normalizeChars ds := by
  rw [normalizeChars, List.foldl_append, foldl_extend]
  rfl

theorem normalize_append (name rest : String) :
    normalize (name ++ rest)
      = normalize name ++ (if normalize name ≠ "" ∧ startsWord rest.toList then "_" else "")
        ++ normalize rest := by
  have started : normalize name ≠ "" ↔ normalizeChars name.toList ≠ [] := by simp [normalize]
  rw [normalize, String.toList_append, normalizeChars_append, String.ofList_append,
    String.ofList_append]
  simp only [started, separator]
  split <;> rfl

theorem normalizeChars_filter_isAllowed (cs : List Char) :
    normalizeChars (cs.filter isAllowed) = normalizeChars cs := by
  have kept (done : List Char) (c : Char) :
      (if isAllowed c then extend done c else done) = extend done c := by
    split
    · rfl
    · next dropped => exact (extend_of_not_isAllowed dropped done).symm
  rw [normalizeChars, List.foldl_filter]
  simp only [kept]
  rfl

/-- The report of a character shows it and the whole name. -/
theorem invalidCharacter_message (name : String) (source : Option FileSpan) (c : Char) :
    ∃ shown, Text.Shows c shown
      ∧ (invalidCharacter name source c).message
        = "Invalid character in name: '" ++ String.ofList shown ++ "' in `" ++ name ++ "`" := by
  obtain ⟨shown, shows, quoted⟩ := Text.quotedChar_shows c
  have opening : "Invalid character in name: '" = "Invalid character in name: " ++ "'" := rfl
  have closing : "' in `" = "'" ++ " in `" := rfl
  refine ⟨shown, shows, ?_⟩
  simp only [invalidCharacter, quoted, opening, closing, String.append_assoc]

theorem invalidCharacter_injective (name : String) (source : Option FileSpan) :
    Function.Injective fun c => (invalidCharacter name source c).message := by
  intro c d same
  obtain ⟨first, firstShows, firstText⟩ := invalidCharacter_message name source c
  obtain ⟨second, secondShows, secondText⟩ := invalidCharacter_message name source d
  have texts := congrArg String.toList (firstText.symm.trans (same.trans secondText))
  simp only [String.toList_append, String.toList_ofList, List.append_cancel_right_eq,
    List.append_cancel_left_eq] at texts
  exact firstShows.unique (texts ▸ secondShows)

/-- One pass over a name gives its normalized form and its reports, and so does lowering it. The
form has lower-case letters, digits and underscores only. A name that has no others, such as a
normalized one, is left as it is without a report, and no other name is. There is one report for
each character that is not allowed, in order. It quotes the whole name and the character, so that
different characters are reported differently. Without these characters the form is the same. What
follows a name is normalized as if it stood alone, after an underscore exactly if something of the
name is kept and a word starts there. -/
theorem normalization_laws (name : String) (source : Option FileSpan) :
    (∀ c, (isNormal c ↔ ('a' ≤ c ∧ c ≤ 'z') ∨ ('0' ≤ c ∧ c ≤ '9') ∨ c = '_')
        ∧ (isAllowed c ↔ ('A' ≤ c ∧ c ≤ 'Z') ∨ isNormal c))
      ∧ (∀ collected,
        (name.toList.foldlM (readCharacter name source) []).runFrom collected
          = (.ok (normalize name).toList, collected ++ invalidCharacters name source))
      ∧ (∀ span collected, (lowerName name span).runFrom collected
          = (.ok (normalize name), collected ++ invalidCharacters name (some span)))
      ∧ isNormalized (normalize name)
      ∧ (normalize name = name ∧ invalidCharacters name source = [] ↔ isNormalized name)
      ∧ (normalize (normalize name) = normalize name
        ∧ invalidCharacters (normalize name) source = [])
      ∧ (name.toList.filter (!isAllowed ·)).Forall₂
          (fun c d => d.kind = .invalidName ∧ d.source = source
            ∧ ∃ shown, Text.Shows c shown
              ∧ d.message = "Invalid character in name: '" ++ String.ofList shown ++ "' in `" ++ name
                ++ "`")
          (invalidCharacters name source)
      ∧ (Function.Injective fun c => (invalidCharacter name source c).message)
      ∧ normalize (String.ofList (name.toList.filter isAllowed)) = normalize name
      ∧ ∀ rest, normalize (name ++ rest)
          = normalize name ++ (if normalize name ≠ "" ∧ startsWord rest.toList then "_" else "")
            ++ normalize rest := by
  have silent {text : String} (normal : isNormalized text) : invalidCharacters text source = [] :=
    invalidCharacters_eq_nil_iff.mpr (all_isAllowed_of_isNormalized normal)
  refine ⟨fun _ => ⟨isNormal_iff, isAllowed_iff⟩, fun collected => ?_, fun _ _ => rfl,
    isNormalized_normalize name, ?_, ?_, ?_, invalidCharacter_injective name source, ?_,
    normalize_append name⟩
  · rw [runFrom_readCharacters, normalize, String.toList_ofList]
    rfl
  · constructor
    · rintro ⟨unchanged, -⟩
      rw [← unchanged]
      exact isNormalized_normalize name
    · intro normal
      exact ⟨normalize_of_isNormalized normal, silent normal⟩
  · exact ⟨normalize_normalize name, silent (isNormalized_normalize name)⟩
  · rw [invalidCharacters, List.forall₂_map_right_iff, List.forall₂_same]
    exact fun c _ => ⟨rfl, rfl, invalidCharacter_message name source c⟩
  · rw [normalize, String.toList_ofList, normalizeChars_filter_isAllowed, normalize]

/-- No underscore comes before the first word, although a character was dropped there. -/
example : normalize "$Total-Count" = "total_count" := rfl

end NeutralSchema.Name
