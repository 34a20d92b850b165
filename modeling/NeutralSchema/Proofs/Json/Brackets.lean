import NeutralSchema.Proofs.Json.Decoding

/-!
# The brackets of a text

How deeply a text nests can be told without reading it as a document: count the brackets that are
open at once, those in string literals aside. In both layouts a written document opens exactly as
many brackets as it nests containers. Main statements: `nesting_compact` and `nesting_indented`.
-/
namespace NeutralSchema.Json

/-- Where a character of a text stands: outside of string literals, in one, or after a backslash in
one. -/
inductive Place where
  | outside
  | quoted
  | escaped
  deriving DecidableEq, Repr

/-- Where the character after `c` stands. -/
def Place.next (c : Char) : Place → Place
  | .outside => if c = '"' then .quoted else .outside
  | .quoted => if c = '"' then .outside else if c = '\\' then .escaped else .quoted
  | .escaped => .quoted

/-- How many brackets are open after `c`. -/
def Place.brackets (c : Char) (n : Nat) : Place → Nat
  | .outside =>
    if c = '[' ∨ c = '{' then n + 1
    else if c = ']' ∨ c = '}' then n - 1
    else n
  | .quoted | .escaped => n

/-- How many brackets are open at once at most, when `n` are open already. -/
def mostOpen (place : Place) (n : Nat) : List Char → Nat
  | [] => n
  | c :: cs => max n (mostOpen (place.next c) (place.brackets c n) cs)

/-- How many brackets of a text are open at once at most, those in string literals aside. -/
def nesting (text : String) : Nat := mostOpen .outside 0 text.toList

section

variable (n : Nat) {c : Char} (rest : List Char)

theorem le_mostOpen (place : Place) (cs : List Char) : n ≤ mostOpen place n cs := by
  cases cs with
  | nil => exact Nat.le_refl n
  | cons c cs => exact Nat.le_max_left _ _

theorem mostOpen_cons {place next : Place} (follows : place.next c = next)
    (same : place.brackets c n = n) : mostOpen place n (c :: rest) = mostOpen next n rest := by
  rw [mostOpen, follows, same]
  exact Nat.max_eq_right (le_mostOpen n next rest)

theorem mostOpen_open (bracket : c = '[' ∨ c = '{') :
    mostOpen .outside n (c :: rest) = mostOpen .outside (n + 1) rest := by
  have outside : Place.outside.next c = .outside := by
    rcases bracket with rfl | rfl <;> rfl
  have more : Place.outside.brackets c n = n + 1 := if_pos bracket
  rw [mostOpen, outside, more]
  exact Nat.max_eq_right (Nat.le_of_succ_le (le_mostOpen (n + 1) .outside rest))

theorem mostOpen_close (bracket : c = ']' ∨ c = '}') :
    mostOpen .outside (n + 1) (c :: rest) = max (n + 1) (mostOpen .outside n rest) := by
  rcases bracket with rfl | rfl <;> rfl

/-- A character that is neither a bracket nor starts a string literal. -/
theorem mostOpen_neutral (neutral : c ∉ ['"', '[', '{', ']', '}']) :
    mostOpen .outside n (c :: rest) = mostOpen .outside n rest := by
  simp only [List.mem_cons, List.not_mem_nil, or_false, not_or] at neutral
  apply mostOpen_cons <;> simp [Place.next, Place.brackets, neutral]

/-- A character that stays in a string literal. -/
theorem mostOpen_quoted (quote : c ≠ '"') (slash : c ≠ '\\') :
    mostOpen .quoted n (c :: rest) = mostOpen .quoted n rest :=
  mostOpen_cons n rest (by simp [Place.next, quote, slash]) rfl

/-- An escaped character stays in a string literal, whatever it is. -/
theorem mostOpen_slash : mostOpen .quoted n ('\\' :: c :: rest) = mostOpen .quoted n rest :=
  calc mostOpen .quoted n ('\\' :: c :: rest)
    _ = mostOpen .escaped n (c :: rest) := mostOpen_cons n _ rfl rfl
    _ = mostOpen .quoted n rest := mostOpen_cons n rest rfl rfl

end

theorem hexDigit_ne (n : Nat) : hexDigit n ≠ '"' ∧ hexDigit n ≠ '\\' := by
  have digits : ∀ d < 16, d.digitChar ≠ '"' ∧ d.digitChar ≠ '\\' := by decide
  exact digits _ (Nat.mod_lt n (by decide))

theorem mostOpen_escape (n : Nat) (c : Char) (rest : List Char) :
    mostOpen .quoted n (escape c ++ rest) = mostOpen .quoted n rest := by
  unfold escape
  split_ifs with quote slash
  case pos | pos | pos | pos | pos | pos | pos => exact mostOpen_slash n rest
  · obtain ⟨high, low⟩ := And.intro (hexDigit_ne (c.toNat / 16)) (hexDigit_ne c.toNat)
    simp only [List.cons_append, List.nil_append, mostOpen_slash]
    rw [mostOpen_quoted n _ (by decide) (by decide), mostOpen_quoted n _ (by decide) (by decide),
      mostOpen_quoted n _ high.1 high.2, mostOpen_quoted n _ low.1 low.2]
  · exact mostOpen_quoted n rest quote slash

theorem mostOpen_literal (n : Nat) (s : String) (rest : List Char) :
    mostOpen .outside n (literal s ++ rest) = mostOpen .outside n rest := by
  have inside (cs : List Char) :
      mostOpen .quoted n (cs.flatMap escape ++ '"' :: rest) = mostOpen .outside n rest := by
    induction cs with
    | nil => exact mostOpen_cons n rest rfl rfl
    | cons c cs ih => rw [List.flatMap_cons, List.append_assoc, mostOpen_escape, ih]
  have quote (cs : List Char) : mostOpen .outside n ('"' :: cs) = mostOpen .quoted n cs :=
    mostOpen_cons n cs rfl rfl
  rw [literal, List.cons_append, List.append_assoc, List.singleton_append, quote, inside]

/-- A key with its colon. -/
theorem mostOpen_key (n : Nat) (key : String) (rest : List Char) :
    mostOpen .outside n (literal key ++ ':' :: rest) = mostOpen .outside n rest := by
  rw [mostOpen_literal, mostOpen_neutral n rest (by decide)]

theorem mostOpen_scalarText (n : Nat) (v : Json) (plain : v.isPlain) (flat : v.depth = 0)
    (rest : List Char) :
    mostOpen .outside n (scalarText v ++ rest) = max (n + v.depth) (mostOpen .outside n rest) := by
  have word (cs : List Char) (neutral : ∀ c ∈ cs, c ∉ ['"', '[', '{', ']', '}']) :
      mostOpen .outside n (cs ++ rest) = mostOpen .outside n rest := by
    induction cs with
    | nil => rfl
    | cons c cs ih =>
      obtain ⟨first, others⟩ := List.forall_mem_cons.mp neutral
      rw [List.cons_append, mostOpen_neutral n _ first, ih others]
  rw [flat, Nat.add_zero, Nat.max_eq_right (le_mostOpen n .outside rest)]
  cases v with
  | null => exact word "null".toList (by simp)
  | bool b =>
    cases b with
    | true => exact word "true".toList (by simp)
    | false => exact word "false".toList (by simp)
  | string s => exact mostOpen_literal n s rest
  | number | unreadable => exact absurd plain Bool.false_ne_true
  | array | object => exact absurd flat (Nat.succ_ne_zero _)

mutual

theorem mostOpen_compactChars (n : Nat) (rest : List Char) : ∀ v : Json, v.isPlain →
    mostOpen .outside n (compactChars v ++ rest)
      = max (n + v.depth) (mostOpen .outside n rest)
  | .array [], _ => by
    simp only [compactChars, List.cons_append, List.nil_append]
    rw [mostOpen_open n _ (.inl rfl), mostOpen_close n _ (.inl rfl), depth, depthAll]
  | .array (v :: vs), plain => by
    simp only [isPlain, isPlainAll, Bool.and_eq_true] at plain
    rw [compactChars, List.cons_append, List.append_assoc, mostOpen_open n _ (.inl rfl),
      mostOpen_compactChars (n + 1) _ v plain.1, mostOpen_compactElements n rest vs plain.2,
      depth, depthAll]
    omega
  | .object [], _ => by
    simp only [compactChars, List.cons_append, List.nil_append]
    rw [mostOpen_open n _ (.inr rfl), mostOpen_close n _ (.inr rfl), depth, depthEntries]
  | .object ((key, v) :: entries), plain => by
    simp only [isPlain, isPlainEntries, Bool.and_eq_true] at plain
    rw [compactChars, List.cons_append, List.append_assoc, List.cons_append, List.append_assoc,
      mostOpen_open n _ (.inr rfl), mostOpen_key, mostOpen_compactChars (n + 1) _ v plain.1,
      mostOpen_compactEntries n rest entries plain.2, depth, depthEntries]
    omega
  | .null, plain => mostOpen_scalarText n .null plain rfl rest
  | .bool b, plain => mostOpen_scalarText n (.bool b) plain rfl rest
  | .string s, plain => mostOpen_scalarText n (.string s) plain rfl rest

/-- What follows an element of a list, up to the bracket that closes the list. -/
theorem mostOpen_compactElements (n : Nat) (rest : List Char) : ∀ vs : List Json, isPlainAll vs →
    mostOpen .outside (n + 1) (compactElements vs ++ rest)
      = max (n + 1 + depthAll vs) (mostOpen .outside n rest)
  | [], _ => mostOpen_close n rest (.inl rfl)
  | v :: vs, plain => by
    simp only [isPlainAll, Bool.and_eq_true] at plain
    rw [compactElements, List.cons_append, List.append_assoc,
      mostOpen_neutral (n + 1) _ (by decide), mostOpen_compactChars (n + 1) _ v plain.1,
      mostOpen_compactElements n rest vs plain.2, depthAll]
    omega

theorem mostOpen_compactEntries (n : Nat) (rest : List Char) :
    ∀ entries : List (String × Json), isPlainEntries entries →
      mostOpen .outside (n + 1) (compactEntries entries ++ rest)
        = max (n + 1 + depthEntries entries) (mostOpen .outside n rest)
  | [], _ => mostOpen_close n rest (.inr rfl)
  | (key, v) :: entries, plain => by
    simp only [isPlainEntries, Bool.and_eq_true] at plain
    rw [compactEntries, List.cons_append, List.append_assoc, List.cons_append, List.append_assoc,
      mostOpen_neutral (n + 1) _ (by decide), mostOpen_key,
      mostOpen_compactChars (n + 1) _ v plain.1, mostOpen_compactEntries n rest entries plain.2,
      depthEntries]
    omega

end

theorem nesting_compact {v : Json} (plain : v.isPlain) : nesting (compact v) = v.depth := by
  have chars : (compact v).toList = compactChars v ++ [] := by simp [compact]
  rw [nesting, chars, mostOpen_compactChars 0 [] v plain, mostOpen]
  omega

theorem mostOpen_lineBreak (n level : Nat) (rest : List Char) :
    mostOpen .outside n (lineBreak level ++ rest) = mostOpen .outside n rest := by
  have spaces (k : Nat) :
      mostOpen .outside n (List.replicate k ' ' ++ rest) = mostOpen .outside n rest := by
    induction k with
    | zero => rfl
    | succ k ih =>
      rw [List.replicate_succ, List.cons_append, mostOpen_neutral n _ (by decide), ih]
  rw [lineBreak, List.cons_append, mostOpen_neutral n _ (by decide), spaces]

mutual

theorem mostOpen_indentedChars (n level : Nat) (rest : List Char) : ∀ v : Json, v.isPlain →
    mostOpen .outside n (indentedChars level v ++ rest)
      = max (n + v.depth) (mostOpen .outside n rest)
  | .array [], _ => by
    simp only [indentedChars, List.cons_append, List.nil_append]
    rw [mostOpen_open n _ (.inl rfl), mostOpen_close n _ (.inl rfl), depth, depthAll]
  | .array (v :: vs), plain => by
    simp only [isPlain, isPlainAll, Bool.and_eq_true] at plain
    rw [indentedChars, List.cons_append, List.append_assoc, List.append_assoc,
      mostOpen_open n _ (.inl rfl), mostOpen_lineBreak,
      mostOpen_indentedChars (n + 1) _ _ v plain.1,
      mostOpen_indentedElements n level rest vs plain.2, depth, depthAll]
    omega
  | .object [], _ => by
    simp only [indentedChars, List.cons_append, List.nil_append]
    rw [mostOpen_open n _ (.inr rfl), mostOpen_close n _ (.inr rfl), depth, depthEntries]
  | .object ((key, v) :: entries), plain => by
    simp only [isPlain, isPlainEntries, Bool.and_eq_true] at plain
    rw [indentedChars, List.cons_append, List.append_assoc, List.append_assoc, List.cons_append,
      List.cons_append, List.append_assoc, mostOpen_open n _ (.inr rfl), mostOpen_lineBreak,
      mostOpen_key, mostOpen_neutral (n + 1) _ (by decide),
      mostOpen_indentedChars (n + 1) _ _ v plain.1,
      mostOpen_indentedEntries n level rest entries plain.2, depth, depthEntries]
    omega
  | .null, plain => mostOpen_scalarText n .null plain rfl rest
  | .bool b, plain => mostOpen_scalarText n (.bool b) plain rfl rest
  | .string s, plain => mostOpen_scalarText n (.string s) plain rfl rest

theorem mostOpen_indentedElements (n level : Nat) (rest : List Char) :
    ∀ vs : List Json, isPlainAll vs →
      mostOpen .outside (n + 1) (indentedElements level vs ++ rest)
        = max (n + 1 + depthAll vs) (mostOpen .outside n rest)
  | [], _ => by
    rw [indentedElements, List.append_assoc, mostOpen_lineBreak]
    exact mostOpen_close n rest (.inl rfl)
  | v :: vs, plain => by
    simp only [isPlainAll, Bool.and_eq_true] at plain
    rw [indentedElements, List.cons_append, List.append_assoc, List.append_assoc,
      mostOpen_neutral (n + 1) _ (by decide), mostOpen_lineBreak,
      mostOpen_indentedChars (n + 1) _ _ v plain.1,
      mostOpen_indentedElements n level rest vs plain.2, depthAll]
    omega

theorem mostOpen_indentedEntries (n level : Nat) (rest : List Char) :
    ∀ entries : List (String × Json), isPlainEntries entries →
      mostOpen .outside (n + 1) (indentedEntries level entries ++ rest)
        = max (n + 1 + depthEntries entries) (mostOpen .outside n rest)
  | [], _ => by
    rw [indentedEntries, List.append_assoc, mostOpen_lineBreak]
    exact mostOpen_close n rest (.inr rfl)
  | (key, v) :: entries, plain => by
    simp only [isPlainEntries, Bool.and_eq_true] at plain
    rw [indentedEntries, List.cons_append, List.append_assoc, List.append_assoc,
      List.cons_append, List.cons_append, List.append_assoc,
      mostOpen_neutral (n + 1) _ (by decide), mostOpen_lineBreak, mostOpen_key,
      mostOpen_neutral (n + 1) _ (by decide), mostOpen_indentedChars (n + 1) _ _ v plain.1,
      mostOpen_indentedEntries n level rest entries plain.2, depthEntries]
    omega

end

theorem nesting_indented {v : Json} (plain : v.isPlain) : nesting (indented v) = v.depth := by
  have chars : (indented v).toList = indentedChars 0 v ++ [] := by simp [indented]
  rw [nesting, chars, mostOpen_indentedChars 0 0 [] v plain, mostOpen]
  omega

end NeutralSchema.Json
