import NeutralSchema.Json.Literal

/-!
# Tokens of a document

A malformed literal is a token too: whether it is the literal or its place that is wrong depends
on what the reader expects there.
-/
namespace NeutralSchema.Json

inductive Token where
  | openList
  | closeList
  | openObject
  | closeObject
  | comma
  | colon
  | scalar (value : Json)
  /-- A string, or why it has no value. -/
  | text (value : Except SyntaxError String)
  /-- Nothing that could be read, and whether it started as a string. -/
  | broken (isText : Bool) (error : SyntaxError)

/-- A number that double precision cannot hold has no value. -/
def ofNumber : Number → Json
  | .integer n => .number (.integer n)
  | .real r => if r.magnitude?.isSome then .number (.real r) else .unreadable .numberOutOfRange

def wordToken (word : String) (value : Json) (cs : List Char) : Token × List Char :=
  match afterWord word.toList cs with
  | .ok rest => (.scalar value, rest)
  | .error e => (.broken false e, [])

def textToken (cs : List Char) : Token × List Char :=
  match pieces [] cs with
  | .ok (ps, rest) => (.text ((assemble ps).map String.ofList), rest)
  | .error e => (.broken true e, [])

def numberToken (negative : Bool) (cs : List Char) : Token × List Char :=
  match unsignedNumber negative cs with
  | .ok (n, rest) => (.scalar (ofNumber n), rest)
  | .error e => (.broken false e, [])

def token (c : Char) (cs : List Char) : Token × List Char :=
  match c with
  | '[' => (.openList, cs)
  | ']' => (.closeList, cs)
  | '{' => (.openObject, cs)
  | '}' => (.closeObject, cs)
  | ',' => (.comma, cs)
  | ':' => (.colon, cs)
  | '"' => textToken cs
  | 'n' => wordToken "ull" .null cs
  | 't' => wordToken "rue" (.bool true) cs
  | 'f' => wordToken "alse" (.bool false) cs
  | '-' => numberToken true cs
  | c => if c.isDigit then numberToken false (c :: cs) else (.broken false .expectedValue, [])

theorem length_wordToken_le (word : String) (value : Json) (cs : List Char) :
    (wordToken word value cs).2.length ≤ cs.length := by
  unfold wordToken
  split
  · next h => exact length_le_of_afterWord h
  · simp

theorem length_textToken_le (cs : List Char) : (textToken cs).2.length ≤ cs.length := by
  unfold textToken
  split
  · next h => exact Nat.le_of_lt (length_lt_of_pieces h)
  · simp

theorem length_numberToken_le (negative : Bool) (cs : List Char) :
    (numberToken negative cs).2.length ≤ cs.length - 1 := by
  unfold numberToken
  split
  · next h => have := length_lt_of_unsignedNumber h; simp only; omega
  · simp

theorem length_token_le (c : Char) (cs : List Char) : (token c cs).2.length ≤ cs.length := by
  unfold token
  split <;> try exact Nat.le_refl _
  · exact length_textToken_le cs
  · exact length_wordToken_le _ _ cs
  · exact length_wordToken_le _ _ cs
  · exact length_wordToken_le _ _ cs
  · exact Nat.le_trans (length_numberToken_le true cs) (Nat.sub_le _ _)
  · split
    · exact length_numberToken_le false _
    · simp

def isBlank (c : Char) : Bool := c = ' ' || c = '\n' || c = '\t' || c = '\r'

end NeutralSchema.Json
