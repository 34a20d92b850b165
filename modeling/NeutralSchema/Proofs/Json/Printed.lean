import Mathlib.Tactic.SplitIfs
import NeutralSchema.Json.Printer
import NeutralSchema.Json.Reader
import NeutralSchema.Proofs.Json.Natural

/-!
# Reading what was written

In both layouts the text of an exact document denotes that document. Exact documents are made of
`null`, truth values, natural numbers that fit a word, strings and containers; plain documents have
no numbers. Main statements: `read_compact` and `read_indented`.
-/
namespace NeutralSchema.Json

mutual

/-- Whether a document has no numbers and nothing unreadable. -/
def isPlain : Json → Bool
  | .null | .bool _ | .string _ => true
  | .number _ | .unreadable _ => false
  | .array elements => isPlainAll elements
  | .object entries => isPlainEntries entries

def isPlainAll : List Json → Bool
  | [] => true
  | v :: vs => v.isPlain && isPlainAll vs

def isPlainEntries : List (String × Json) → Bool
  | [] => true
  | (_, v) :: entries => v.isPlain && isPlainEntries entries

end

mutual

/-- Whether all values in a document that are no containers have a property. -/
def leaves (p : Json → Bool) : Json → Bool
  | .array elements => leavesAll p elements
  | .object entries => leavesEntries p entries
  | v => p v

def leavesAll (p : Json → Bool) : List Json → Bool
  | [] => true
  | v :: vs => v.leaves p && leavesAll p vs

def leavesEntries (p : Json → Bool) : List (String × Json) → Bool
  | [] => true
  | (_, v) :: entries => v.leaves p && leavesEntries p entries

end

mutual

theorem leaves_mono {p q : Json → Bool} (weaker : ∀ v, p v → q v) :
    ∀ v : Json, v.leaves p → v.leaves q
  | .array vs, holds => leavesAll_mono weaker vs holds
  | .object entries, holds => leavesEntries_mono weaker entries holds
  | .null, holds | .bool _, holds | .number _, holds | .string _, holds
  | .unreadable _, holds => weaker _ holds

theorem leavesAll_mono {p q : Json → Bool} (weaker : ∀ v, p v → q v) :
    ∀ vs : List Json, leavesAll p vs → leavesAll q vs
  | [], _ => rfl
  | v :: vs, holds => by
    simp only [leavesAll, Bool.and_eq_true] at holds ⊢
    exact ⟨leaves_mono weaker v holds.1, leavesAll_mono weaker vs holds.2⟩

theorem leavesEntries_mono {p q : Json → Bool} (weaker : ∀ v, p v → q v) :
    ∀ entries : List (String × Json), leavesEntries p entries → leavesEntries q entries
  | [], _ => rfl
  | (_, v) :: entries, holds => by
    simp only [leavesEntries, Bool.and_eq_true] at holds ⊢
    exact ⟨leaves_mono weaker v holds.1, leavesEntries_mono weaker entries holds.2⟩

end

def isExactScalar : Json → Bool
  | .null | .bool _ | .string _ => true
  | .number (.integer n) => 0 ≤ n && n < UInt64.size
  | _ => false

@[simp] theorem isExactScalar_bool (b : Bool) : (Json.bool b).isExactScalar := rfl

@[simp] theorem isExactScalar_string (s : String) : (Json.string s).isExactScalar := rfl

/-- Whether a document has no numbers but natural ones that fit a word, and nothing unreadable. -/
def isExact : Json → Bool := leaves isExactScalar

mutual

theorem isExact_of_isPlain : ∀ v : Json, v.isPlain → v.isExact
  | .null, _ | .bool _, _ | .string _, _ => rfl
  | .array vs, plain => leavesAll_of_isPlainAll vs plain
  | .object entries, plain => leavesEntries_of_isPlainEntries entries plain

theorem leavesAll_of_isPlainAll : ∀ vs : List Json, isPlainAll vs → leavesAll isExactScalar vs
  | [], _ => rfl
  | v :: vs, plain => by
    simp only [isPlainAll, Bool.and_eq_true] at plain
    rw [leavesAll, Bool.and_eq_true]
    exact ⟨isExact_of_isPlain v plain.1, leavesAll_of_isPlainAll vs plain.2⟩

theorem leavesEntries_of_isPlainEntries : ∀ entries : List (String × Json),
    isPlainEntries entries → leavesEntries isExactScalar entries
  | [], _ => rfl
  | (_, v) :: entries, plain => by
    simp only [isPlainEntries, Bool.and_eq_true] at plain
    rw [leavesEntries, Bool.and_eq_true]
    exact ⟨isExact_of_isPlain v plain.1, leavesEntries_of_isPlainEntries entries plain.2⟩

end

/-- The piece that an escaped character is read as. -/
def pieceOf (c : Char) : Piece :=
  if c.toNat < 0x20 ∧ c ∉ ['\x08', '\t', '\n', '\x0c', '\r'] then .unit c.toNat else .char c

theorem codeUnit?_control :
    ∀ n < 32, codeUnit? '0' '0' (hexDigit (n / 16)) (hexDigit n) = some n := by
  decide

theorem pieces_control (done : List Piece) {c : Char} (control : c.toNat < 0x20)
    (rest : List Char) :
    pieces done ('\\' :: 'u' :: '0' :: '0' :: hexDigit (c.toNat / 16) :: hexDigit c.toNat :: rest)
      = pieces (.unit c.toNat :: done) rest := by
  rw [pieces, codeUnit?_control _ control]

theorem pieces_visible (done : List Piece) {c : Char} (quote : c ≠ '"') (slash : c ≠ '\\')
    (visible : ¬c.toNat < 0x20) (rest : List Char) :
    pieces done (c :: rest) = pieces (.char c :: done) rest := by
  rw [pieces]
  · rw [if_neg visible]
  all_goals simp_all

theorem pieces_escape (done : List Piece) (c : Char) (rest : List Char) :
    pieces done (escape c ++ rest) = pieces (pieceOf c :: done) rest := by
  unfold escape
  split_ifs with quote slash backspace tab newline feed return' control
  · subst quote; rfl
  · subst slash; rfl
  · subst backspace; rfl
  · subst tab; rfl
  · subst newline; rfl
  · subst feed; rfl
  · subst return'; rfl
  · have unit : pieceOf c = .unit c.toNat := by simp [pieceOf, *]
    rw [unit]
    exact pieces_control done control rest
  · have char : pieceOf c = .char c := by simp [pieceOf, *]
    rw [char]
    exact pieces_visible done quote slash control rest

theorem pieces_literal (done : List Piece) (cs rest : List Char) :
    pieces done (cs.flatMap escape ++ '"' :: rest) = .ok (done.reverse ++ cs.map pieceOf, rest) := by
  induction cs generalizing done with
  | nil => simp [pieces]
  | cons c cs ih =>
    rw [List.flatMap_cons, List.append_assoc, pieces_escape, ih]
    simp

theorem assemble_map_pieceOf (cs : List Char) : assemble (cs.map pieceOf) = .ok cs := by
  induction cs with
  | nil => rfl
  | cons c cs ih =>
    rw [List.map_cons]
    by_cases control : c.toNat < 0x20 ∧ c ∉ ['\x08', '\t', '\n', '\x0c', '\r']
    · have low : isLowSurrogate c.toNat = false := by
        simp [isLowSurrogate]
        omega
      have high : isHighSurrogate c.toNat = false := by
        simp [isHighSurrogate]
        omega
      rw [pieceOf, if_pos control, assemble.eq_def]
      simp only [low, high, ih, Char.ofNat_toNat]
      rfl
    · rw [pieceOf, if_neg control, assemble, ih]
      rfl

theorem textToken_literal (s : String) (rest : List Char) :
    textToken (s.toList.flatMap escape ++ '"' :: rest) = (.text (.ok s), rest) := by
  rw [textToken, pieces_literal]
  simp [assemble_map_pieceOf, Except.map]

theorem read_blank (state : State) {c : Char} (blank : isBlank c = true) (cs : List Char) :
    state.read (c :: cs) = state.read cs := by
  rw [State.read, if_pos blank]

theorem read_token {state next : State} {c : Char} {t : Token} {cs rest : List Char}
    (visible : isBlank c = false) (first : token c cs = (t, rest))
    (step : state.step t = .ok next) : state.read (c :: cs) = next.read rest := by
  rw [State.read, if_neg (by simp [visible])]
  simp only [first, step]

/-- The states in which a value is due that goes on a stack. -/
def State.Awaits (state : State) (stack : List Frame) : Prop :=
  ∀ t : Token, t ≠ .closeList → state.step t = startValue stack t

theorem awaits_value (stack : List Frame) : (State.value stack).Awaits stack :=
  fun _ _ => rfl

theorem awaits_firstElement (stack : List Frame) :
    (State.firstElement stack).Awaits (.list [] :: stack) := by
  intro t other
  cases t with
  | closeList => exact absurd rfl other
  | _ => rfl

theorem awaits_element (stack : List Frame) (done : List Json) :
    (State.element stack done).Awaits (.list done :: stack) := by
  intro t other
  cases t with
  | closeList => exact absurd rfl other
  | _ => rfl

variable {state : State} {stack : List Frame}

theorem read_literal (due : state.Awaits stack) (s : String) (rest : List Char) :
    state.read (literal s ++ rest) = (State.after stack (.string s)).read rest := by
  have chars : literal s ++ rest = '"' :: (s.toList.flatMap escape ++ '"' :: rest) := by
    simp [literal]
  rw [chars]
  exact read_token (by decide) (textToken_literal s rest) (due _ (by simp))

theorem read_word (due : state.Awaits stack) {c : Char} {word rest : List Char} {v : Json}
    (visible : isBlank c = false) (first : token c (word ++ rest) = (.scalar v, rest)) :
    state.read (c :: word ++ rest) = (State.after stack v).read rest :=
  read_token visible first (due _ (by simp))

theorem read_key {done : List (String × Json)} {key : String}
    (due : state.step (.text (.ok key)) = .ok (.colon stack none done key)) (rest : List Char) :
    state.read (literal key ++ ':' :: rest)
      = (State.value (.object none done key :: stack)).read rest := by
  have chars : literal key ++ ':' :: rest
      = '"' :: (key.toList.flatMap escape ++ '"' :: ':' :: rest) := by
    simp [literal]
  have quoted : token '"' (key.toList.flatMap escape ++ '"' :: ':' :: rest)
      = (.text (.ok key), ':' :: rest) :=
    textToken_literal key (':' :: rest)
  rw [chars, read_token (by decide) quoted due]
  exact read_token (by decide) rfl rfl

theorem token_toDigits {n : Nat} (fits : n < UInt64.size) {c : Char} {cs rest : List Char}
    (digits : Nat.toDigits 10 n = c :: cs) (ends : endsNumber rest) :
    token c (cs ++ rest) = (.scalar (natural n), rest) := by
  have first : c.isDigit :=
    Nat.isDigit_of_mem_toDigits (by decide) (by decide) (digits ▸ List.mem_cons_self)
  have number := numberToken_toDigits fits ends
  rw [digits, List.cons_append] at number
  unfold token
  split <;> first | exact absurd first (by decide) | rw [if_pos first, number]

theorem isBlank_of_isDigit {c : Char} (digit : c.isDigit) : isBlank c = false := by
  rw [Bool.eq_false_iff]
  intro blank
  simp only [isBlank, Bool.or_eq_true, decide_eq_true_eq] at blank
  rcases blank with ((rfl | rfl) | rfl) | rfl <;> exact absurd digit (by decide)

theorem read_natural (due : state.Awaits stack) {n : Nat} (fits : n < UInt64.size)
    {rest : List Char} (ends : endsNumber rest) :
    state.read (scalarText (natural n) ++ rest) = (State.after stack (natural n)).read rest := by
  obtain ⟨c, cs, digits⟩ : ∃ c cs, Nat.toDigits 10 n = c :: cs :=
    List.exists_cons_of_ne_nil Nat.toDigits_ne_nil
  have text : scalarText (natural n) = c :: cs := by
    rw [← digits]
    exact String.toList_ofList
  have first : c.isDigit :=
    Nat.isDigit_of_mem_toDigits (by decide) (by decide) (digits ▸ List.mem_cons_self)
  rw [text]
  exact read_token (isBlank_of_isDigit first) (token_toDigits fits digits ends) (due _ (by simp))

/-- Values that are no containers. -/
theorem read_scalarText (due : state.Awaits stack) (v : Json) (exactly : v.isExact)
    (scalar : ∀ vs entries, v ≠ .array vs ∧ v ≠ .object entries) {rest : List Char}
    (ends : endsNumber rest) :
    state.read (scalarText v ++ rest) = (State.after stack v).read rest := by
  cases v with
  | null => exact read_word due (c := 'n') (by decide) rfl
  | bool b =>
    cases b with
    | true => exact read_word due (c := 't') (by decide) rfl
    | false => exact read_word due (c := 'f') (by decide) rfl
  | string s => exact read_literal due s rest
  | number n =>
    cases n with
    | integer n =>
      simp only [isExact, leaves, isExactScalar, Bool.and_eq_true, decide_eq_true_eq] at exactly
      obtain ⟨n, rfl⟩ := Int.eq_ofNat_of_zero_le exactly.1
      exact read_natural due (Int.ofNat_lt.mp exactly.2) ends
    | real r => exact absurd exactly Bool.false_ne_true
  | unreadable e => exact absurd exactly Bool.false_ne_true
  | array vs => exact absurd rfl (scalar vs []).1
  | object entries => exact absurd rfl (scalar [] entries).2

/-- A container opens where a value is due. -/
theorem read_openList (due : state.Awaits stack) (rest : List Char) :
    state.read ('[' :: rest) = (State.firstElement stack).read rest :=
  read_token (by decide) rfl (due _ (by simp))

theorem read_openObject (due : state.Awaits stack) (rest : List Char) :
    state.read ('{' :: rest) = (State.firstKey stack).read rest :=
  read_token (by decide) rfl (due _ (by simp))

theorem read_emptyList (due : state.Awaits stack) (rest : List Char) :
    state.read ('[' :: ']' :: rest) = (State.after stack (.array [])).read rest := by
  rw [read_openList due]
  exact read_token (by decide) rfl rfl

theorem read_emptyObject (due : state.Awaits stack) (rest : List Char) :
    state.read ('{' :: '}' :: rest) = (State.after stack (.object [])).read rest := by
  rw [read_openObject due]
  exact read_token (by decide) rfl rfl

section

variable (stack : List Frame) (v : Json) (rest : List Char)

theorem read_nextElement (done : List Json) :
    (State.after (.list done :: stack) v).read (',' :: rest)
      = (State.element stack (v :: done)).read rest :=
  read_token (by decide) rfl rfl

theorem read_closeList (done : List Json) :
    (State.after (.list done :: stack) v).read (']' :: rest)
      = (State.after stack (.array (v :: done).reverse)).read rest :=
  read_token (by decide) rfl rfl

theorem read_nextKey (done : List (String × Json)) (key : String) :
    (State.after (.object none done key :: stack) v).read (',' :: rest)
      = (State.key stack none ((key, v) :: done)).read rest :=
  read_token (by decide) rfl rfl

theorem read_closeObject (done : List (String × Json)) (key : String) :
    (State.after (.object none done key :: stack) v).read ('}' :: rest)
      = (State.after stack (.object ((key, v) :: done).reverse)).read rest :=
  read_token (by decide) rfl rfl

end

theorem endsNumber_compactElements (vs : List Json) (rest : List Char) :
    endsNumber (compactElements vs ++ rest) := by
  cases vs <;> rfl

theorem endsNumber_compactEntries (entries : List (String × Json)) (rest : List Char) :
    endsNumber (compactEntries entries ++ rest) := by
  cases entries <;> rfl

mutual

theorem read_compactChars {state : State} {stack : List Frame} (due : state.Awaits stack)
    {rest : List Char} (ends : endsNumber rest) : ∀ v : Json, v.isExact →
      state.read (compactChars v ++ rest) = (State.after stack v).read rest
  | .array [], _ => read_emptyList due rest
  | .array (v :: vs), exactly => by
    simp only [isExact, leaves, leavesAll, Bool.and_eq_true] at exactly
    rw [compactChars, List.cons_append, List.append_assoc, read_openList due,
      read_compactChars (awaits_firstElement stack)
        (endsNumber_compactElements vs rest) v exactly.1,
      read_compactElements stack [] v rest vs exactly.2]
    rfl
  | .object [], _ => read_emptyObject due rest
  | .object ((key, v) :: entries), exactly => by
    simp only [isExact, leaves, leavesEntries, Bool.and_eq_true] at exactly
    rw [compactChars, List.cons_append, List.append_assoc, List.cons_append, List.append_assoc,
      read_openObject due, read_key rfl,
      read_compactChars (awaits_value _) (endsNumber_compactEntries entries rest) v exactly.1,
      read_compactEntries stack [] key v rest entries exactly.2]
    rfl
  | .null, exactly => read_scalarText due .null exactly (by simp) ends
  | .bool b, exactly => read_scalarText due (.bool b) exactly (by simp) ends
  | .number n, exactly => read_scalarText due (.number n) exactly (by simp) ends
  | .string s, exactly => read_scalarText due (.string s) exactly (by simp) ends
  | .unreadable e, exactly => read_scalarText due (.unreadable e) exactly (by simp) ends

/-- What follows an element of a list that is not yet closed. -/
theorem read_compactElements (stack : List Frame) (done : List Json) (v : Json)
    (rest : List Char) : ∀ vs : List Json, leavesAll isExactScalar vs →
      (State.after (.list done :: stack) v).read (compactElements vs ++ rest)
        = (State.after stack (.array (done.reverse ++ v :: vs))).read rest
  | [], _ => by
    rw [compactElements, List.cons_append, List.nil_append, read_closeList, List.reverse_cons]
  | w :: vs, exactly => by
    simp only [leavesAll, Bool.and_eq_true] at exactly
    rw [compactElements, List.cons_append, List.append_assoc, read_nextElement,
      read_compactChars (awaits_element stack (v :: done))
        (endsNumber_compactElements vs rest) w exactly.1,
      read_compactElements stack (v :: done) w rest vs exactly.2]
    simp

/-- What follows an entry of an object that is not yet closed. -/
theorem read_compactEntries (stack : List Frame) (done : List (String × Json)) (key : String)
    (v : Json) (rest : List Char) :
    ∀ entries : List (String × Json), leavesEntries isExactScalar entries →
      (State.after (.object none done key :: stack) v).read (compactEntries entries ++ rest)
        = (State.after stack (.object (done.reverse ++ (key, v) :: entries))).read rest
  | [], _ => by
    rw [compactEntries, List.cons_append, List.nil_append, read_closeObject, List.reverse_cons]
  | (name, w) :: entries, exactly => by
    simp only [leavesEntries, Bool.and_eq_true] at exactly
    rw [compactEntries, List.cons_append, List.append_assoc, List.cons_append, List.append_assoc,
      read_nextKey, read_key rfl,
      read_compactChars (awaits_value _) (endsNumber_compactEntries entries rest) w exactly.1,
      read_compactEntries stack ((key, v) :: done) name w rest entries exactly.2]
    simp

end

theorem read_compact_of_isExact {v : Json} (exactly : v.isExact) : read (compact v) = .ok v := by
  have chars : (compact v).toList = compactChars v ++ [] := by simp [compact]
  rw [read, chars, read_compactChars (awaits_value []) rfl v exactly, State.read]
  rfl

theorem read_compact {v : Json} (plain : v.isPlain) : read (compact v) = .ok v :=
  read_compact_of_isExact (isExact_of_isPlain v plain)

theorem read_replicate_space (state : State) (n : Nat) (rest : List Char) :
    state.read (List.replicate n ' ' ++ rest) = state.read rest := by
  induction n with
  | zero => rfl
  | succ n ih => rw [List.replicate_succ, List.cons_append, read_blank state (by decide), ih]

/-- The reader passes over line breaks with their indentation. -/
theorem read_lineBreak (state : State) (level : Nat) (rest : List Char) :
    state.read (lineBreak level ++ rest) = state.read rest := by
  rw [lineBreak, List.cons_append, read_blank state (by decide), read_replicate_space]

theorem read_value_space (stack : List Frame) (rest : List Char) :
    (State.value stack).read (' ' :: rest) = (State.value stack).read rest :=
  read_blank _ (by decide) rest

theorem endsNumber_indentedElements (level : Nat) (vs : List Json) (rest : List Char) :
    endsNumber (indentedElements level vs ++ rest) := by
  cases vs <;> rfl

theorem endsNumber_indentedEntries (level : Nat) (entries : List (String × Json))
    (rest : List Char) : endsNumber (indentedEntries level entries ++ rest) := by
  cases entries <;> rfl

mutual

theorem read_indentedChars {state : State} {stack : List Frame} (due : state.Awaits stack)
    (level : Nat) {rest : List Char} (ends : endsNumber rest) : ∀ v : Json, v.isExact →
      state.read (indentedChars level v ++ rest) = (State.after stack v).read rest
  | .array [], _ => read_emptyList due rest
  | .array (v :: vs), exactly => by
    simp only [isExact, leaves, leavesAll, Bool.and_eq_true] at exactly
    rw [indentedChars, List.cons_append, List.append_assoc, List.append_assoc, read_openList due,
      read_lineBreak,
      read_indentedChars (awaits_firstElement stack) _
        (endsNumber_indentedElements level vs rest) v exactly.1,
      read_indentedElements stack level [] v rest vs exactly.2]
    rfl
  | .object [], _ => read_emptyObject due rest
  | .object ((key, v) :: entries), exactly => by
    simp only [isExact, leaves, leavesEntries, Bool.and_eq_true] at exactly
    rw [indentedChars, List.cons_append, List.append_assoc, List.append_assoc, List.cons_append,
      List.cons_append, List.append_assoc, read_openObject due, read_lineBreak, read_key rfl,
      read_value_space,
      read_indentedChars (awaits_value _) _
        (endsNumber_indentedEntries level entries rest) v exactly.1,
      read_indentedEntries stack level [] key v rest entries exactly.2]
    rfl
  | .null, exactly => read_scalarText due .null exactly (by simp) ends
  | .bool b, exactly => read_scalarText due (.bool b) exactly (by simp) ends
  | .number n, exactly => read_scalarText due (.number n) exactly (by simp) ends
  | .string s, exactly => read_scalarText due (.string s) exactly (by simp) ends
  | .unreadable e, exactly => read_scalarText due (.unreadable e) exactly (by simp) ends

theorem read_indentedElements (stack : List Frame) (level : Nat) (done : List Json) (v : Json)
    (rest : List Char) : ∀ vs : List Json, leavesAll isExactScalar vs →
      (State.after (.list done :: stack) v).read (indentedElements level vs ++ rest)
        = (State.after stack (.array (done.reverse ++ v :: vs))).read rest
  | [], _ => by
    rw [indentedElements, List.append_assoc, read_lineBreak, List.cons_append, List.nil_append,
      read_closeList, List.reverse_cons]
  | w :: vs, exactly => by
    simp only [leavesAll, Bool.and_eq_true] at exactly
    rw [indentedElements, List.cons_append, List.append_assoc, List.append_assoc,
      read_nextElement, read_lineBreak,
      read_indentedChars (awaits_element stack (v :: done)) _
        (endsNumber_indentedElements level vs rest) w exactly.1,
      read_indentedElements stack level (v :: done) w rest vs exactly.2]
    simp

theorem read_indentedEntries (stack : List Frame) (level : Nat) (done : List (String × Json))
    (key : String) (v : Json) (rest : List Char) :
    ∀ entries : List (String × Json), leavesEntries isExactScalar entries →
      (State.after (.object none done key :: stack) v).read (indentedEntries level entries ++ rest)
        = (State.after stack (.object (done.reverse ++ (key, v) :: entries))).read rest
  | [], _ => by
    rw [indentedEntries, List.append_assoc, read_lineBreak, List.cons_append, List.nil_append,
      read_closeObject, List.reverse_cons]
  | (name, w) :: entries, exactly => by
    simp only [leavesEntries, Bool.and_eq_true] at exactly
    rw [indentedEntries, List.cons_append, List.append_assoc, List.append_assoc,
      List.cons_append, List.cons_append, List.append_assoc, read_nextKey, read_lineBreak,
      read_key rfl, read_value_space,
      read_indentedChars (awaits_value _) _
        (endsNumber_indentedEntries level entries rest) w exactly.1,
      read_indentedEntries stack level ((key, v) :: done) name w rest entries exactly.2]
    simp

end

theorem read_indented_of_isExact {v : Json} (exactly : v.isExact) :
    read (indented v) = .ok v := by
  have chars : (indented v).toList = indentedChars 0 v ++ [] := by simp [indented]
  rw [read, chars, read_indentedChars (awaits_value []) 0 rfl v exactly, State.read]
  rfl

theorem read_indented {v : Json} (plain : v.isPlain) : read (indented v) = .ok v :=
  read_indented_of_isExact (isExact_of_isPlain v plain)

end NeutralSchema.Json
