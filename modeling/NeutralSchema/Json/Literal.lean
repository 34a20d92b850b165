import NeutralSchema.Json.Basic
import NeutralSchema.Number.Digits
import NeutralSchema.Text.Bytes

/-!
# Literals of a document

String and number literals, read from the characters at their start. Each reader returns what
follows the literal; a lemma beside it says that this is no longer than what it was given.
-/
namespace NeutralSchema.Json

/-- A value read from the start of a text and what follows it, or what is wrong there. -/
abbrev Read (α : Type) := Except SyntaxError (α × List Char)

def Read.map {α β : Type} (f : α → β) : Read α → Read β
  | .ok (a, rest) => .ok (f a, rest)
  | .error e => .error e

theorem Read.exists_of_map {α β : Type} {f : α → β} {x : Read α} {b : β} {rest : List Char}
    (h : x.map f = .ok (b, rest)) : ∃ a, x = .ok (a, rest) := by
  match x with
  | .ok (a, _) => simp only [Read.map, Except.ok.injEq, Prod.mk.injEq] at h; exact ⟨a, by rw [h.2]⟩
  | .error _ => simp [Read.map] at h

/-- A part of a string literal: a character, or the code unit of a `\u` escape. -/
inductive Piece where
  | char (c : Char)
  | unit (n : Nat)
  deriving DecidableEq, Repr

def codeUnit? (a b c d : Char) : Option Nat := Digits.number? 16 [a, b, c, d]

def escapedChar? : Char → Option Char
  | '"' => some '"'
  | '\\' => some '\\'
  | '/' => some '/'
  | 'b' => some '\x08'
  | 'f' => some '\x0c'
  | 'n' => some '\n'
  | 'r' => some '\r'
  | 't' => some '\t'
  | _ => none

/-- The pieces of a string literal up to its closing quotation mark, and what follows it. -/
def pieces (done : List Piece) : List Char → Read (List Piece)
  | [] => .error .endInString
  | '"' :: rest => .ok (done.reverse, rest)
  | '\\' :: [] => .error .endInString
  | '\\' :: 'u' :: a :: b :: c :: d :: rest =>
    match codeUnit? a b c d with
    | some n => pieces (.unit n :: done) rest
    | none => .error .invalidEscape
  | '\\' :: 'u' :: rest =>
    .error (if Text.byteLength rest < 4 then .endInString else .invalidEscape)
  | '\\' :: e :: rest =>
    match escapedChar? e with
    | some c => pieces (.char c :: done) rest
    | none => .error .invalidEscape
  | c :: rest => if c.toNat < 0x20 then .error .controlCharacter else pieces (.char c :: done) rest

theorem length_lt_of_pieces {done ps : List Piece} {cs rest : List Char}
    (h : pieces done cs = .ok (ps, rest)) : rest.length < cs.length := by
  fun_induction pieces done cs with
  | case2 _ tail => simp_all
  | case4 _ a b c d tail _ _ ih => have := ih h; simp only [List.length_cons]; omega
  | case7 _ e tail _ _ _ _ ih => have := ih h; simp only [List.length_cons]; omega
  | case10 _ c tail _ _ _ _ _ _ ih => have := ih h; simp only [List.length_cons]; omega
  | _ => simp at h

def isHighSurrogate (n : Nat) : Bool := 0xD800 ≤ n && n < 0xDC00

def isLowSurrogate (n : Nat) : Bool := 0xDC00 ≤ n && n < 0xE000

def joined (high low : Nat) : Char :=
  Char.ofNat (0x10000 + (high - 0xD800) * 0x400 + (low - 0xDC00))

/-- The characters of a string literal: code units of a surrogate pair are joined, and half of
a pair is an error. -/
def assemble : List Piece → Except SyntaxError (List Char)
  | [] => .ok []
  | .char c :: rest => do return c :: (← assemble rest)
  | .unit n :: rest =>
    if isLowSurrogate n then .error .loneSurrogate
    else if isHighSurrogate n then
      match rest with
      | .unit m :: rest =>
        if isLowSurrogate m then do return joined n m :: (← assemble rest)
        else .error .loneSurrogate
      | _ => .error .unfinishedSurrogate
    else do return Char.ofNat n :: (← assemble rest)

def digits (cs : List Char) : List Char × List Char :=
  (cs.takeWhile Char.isDigit, cs.dropWhile Char.isDigit)

theorem length_digits (cs : List Char) :
    (digits cs).1.length + (digits cs).2.length = cs.length := by
  rw [← List.length_append]
  exact congrArg List.length List.takeWhile_append_dropWhile

/-- What is wrong where a digit was due. -/
def digitDue : List Char → SyntaxError
  | [] => .endInValue
  | _ => .invalidNumber

def someDigits (cs : List Char) : Read (List Char) :=
  match (digits cs).1 with
  | [] => .error (digitDue (digits cs).2)
  | d :: ds => .ok (d :: ds, (digits cs).2)

theorem length_lt_of_someDigits {cs ds rest : List Char} (h : someDigits cs = .ok (ds, rest)) :
    rest.length < cs.length := by
  have total := length_digits cs
  unfold someDigits at h
  split at h
  · simp at h
  · next eq =>
    simp only [Except.ok.injEq, Prod.mk.injEq] at h
    rw [eq, h.2, List.length_cons] at total
    omega

def fraction? : List Char → Read (Option (List Char))
  | '.' :: cs => (someDigits cs).map some
  | cs => .ok (none, cs)

theorem length_le_of_fraction? {cs rest : List Char} {f : Option (List Char)}
    (h : fraction? cs = .ok (f, rest)) : rest.length ≤ cs.length := by
  unfold fraction? at h
  split at h
  · obtain ⟨ds, h⟩ := Read.exists_of_map h
    exact Nat.le_succ_of_le (Nat.le_of_lt (length_lt_of_someDigits h))
  · simp_all

def signedDigits : List Char → Read Int
  | '-' :: cs => (someDigits cs).map fun ds => -(ofDigits ds : Int)
  | '+' :: cs => (someDigits cs).map fun ds => (ofDigits ds : Int)
  | cs => (someDigits cs).map fun ds => (ofDigits ds : Int)

theorem length_lt_of_signedDigits {cs rest : List Char} {n : Int}
    (h : signedDigits cs = .ok (n, rest)) : rest.length < cs.length := by
  unfold signedDigits at h
  split at h <;> obtain ⟨ds, h⟩ := Read.exists_of_map h
  · exact Nat.lt_succ_of_lt (length_lt_of_someDigits h)
  · exact Nat.lt_succ_of_lt (length_lt_of_someDigits h)
  · exact length_lt_of_someDigits h

def exponent? : List Char → Read (Option Int)
  | 'e' :: cs => (signedDigits cs).map some
  | 'E' :: cs => (signedDigits cs).map some
  | cs => .ok (none, cs)

theorem length_le_of_exponent? {cs rest : List Char} {e : Option Int}
    (h : exponent? cs = .ok (e, rest)) : rest.length ≤ cs.length := by
  unfold exponent? at h
  split at h
  · obtain ⟨n, h⟩ := Read.exists_of_map h
    exact Nat.le_succ_of_le (Nat.le_of_lt (length_lt_of_signedDigits h))
  · obtain ⟨n, h⟩ := Read.exists_of_map h
    exact Nat.le_succ_of_le (Nat.le_of_lt (length_lt_of_signedDigits h))
  · simp_all

/-- The digits before a point: no zero stands in front of another digit. -/
def wholeDigits (cs : List Char) : Read (List Char) :=
  match someDigits cs with
  | .ok ('0' :: _ :: _, _) => .error .invalidNumber
  | read => read

theorem length_lt_of_wholeDigits {cs ds rest : List Char} (h : wholeDigits cs = .ok (ds, rest)) :
    rest.length < cs.length := by
  unfold wholeDigits at h
  split at h
  · simp at h
  · exact length_lt_of_someDigits h

def unsignedNumber (negative : Bool) (cs : List Char) : Read Number :=
  match wholeDigits cs with
  | .error e => .error e
  | .ok (whole, rest) =>
    match fraction? rest with
    | .error e => .error e
    | .ok (fraction, rest) => (exponent? rest).map (Number.ofLiteral negative whole fraction)

theorem length_lt_of_unsignedNumber {negative : Bool} {cs rest : List Char} {n : Number}
    (h : unsignedNumber negative cs = .ok (n, rest)) : rest.length < cs.length := by
  unfold unsignedNumber at h
  split at h
  · simp at h
  · next eq =>
    have less := length_lt_of_wholeDigits eq
    split at h
    · simp at h
    · next eq =>
      have := length_le_of_fraction? eq
      obtain ⟨e, h⟩ := Read.exists_of_map h
      have := length_le_of_exponent? h
      omega

def afterWord : List Char → List Char → Except SyntaxError (List Char)
  | [], cs => .ok cs
  | w :: word, cs =>
    match cs with
    | [] => .error .endInValue
    | c :: cs => if w = c then afterWord word cs else .error .expectedIdent

theorem length_le_of_afterWord {word cs rest : List Char} (h : afterWord word cs = .ok rest) :
    rest.length ≤ cs.length := by
  induction word generalizing cs with
  | nil => simp_all [afterWord]
  | cons w word ih =>
    match cs with
    | [] => simp [afterWord] at h
    | c :: cs =>
      simp only [afterWord] at h
      split at h
      · exact Nat.le_succ_of_le (ih h)
      · simp at h

end NeutralSchema.Json
