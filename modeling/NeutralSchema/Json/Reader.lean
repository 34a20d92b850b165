import NeutralSchema.Json.Token

/-!
# Reading a document

The reader takes one token at a time and keeps the containers that are still open. Main
definition: `Json.read`, from a text to a document or the first thing wrong with it.
-/
namespace NeutralSchema.Json

/-- A container that is still open, its contents in reverse order. An object remembers the first
of its keys that has no value. -/
inductive Frame where
  | list (done : List Json)
  | object (fault : Option SyntaxError) (done : List (String × Json)) (key : String)

/-- What the reader expects next. -/
inductive State where
  | value (stack : List Frame)
  | firstElement (stack : List Frame)
  | element (stack : List Frame) (done : List Json)
  | firstKey (stack : List Frame)
  | key (stack : List Frame) (fault : Option SyntaxError) (done : List (String × Json))
  | colon (stack : List Frame) (fault : Option SyntaxError) (done : List (String × Json))
      (key : String)
  | after (stack : List Frame) (value : Json)

/-- An object, or the fault of a key without a value. -/
def closed (fault : Option SyntaxError) (entries : List (String × Json)) : Json :=
  match fault with
  | none => .object entries.reverse
  | some e => .unreadable e

def startValue (stack : List Frame) : Token → Except SyntaxError State
  | .openList => .ok (.firstElement stack)
  | .openObject => .ok (.firstKey stack)
  | .scalar v => .ok (.after stack v)
  | .text (.ok s) => .ok (.after stack (.string s))
  | .text (.error e) => .ok (.after stack (.unreadable e))
  | .broken _ e => .error e
  | .closeList | .closeObject | .comma | .colon => .error .expectedValue

def startEntry (stack : List Frame) (fault : Option SyntaxError) (done : List (String × Json)) :
    Token → Except SyntaxError State
  | .text (.ok key) => .ok (.colon stack fault done key)
  | .text (.error e) => .ok (.colon stack (fault.or (some e)) done "")
  | .broken true e => .error e
  | _ => .error .keyNotString

def continueAfter (v : Json) : List Frame → Token → Except SyntaxError State
  | .list done :: stack, .comma => .ok (.element stack (v :: done))
  | .list done :: stack, .closeList => .ok (.after stack (.array (v :: done).reverse))
  | .list _ :: _, _ => .error .expectedListComma
  | .object fault done key :: stack, .comma => .ok (.key stack fault ((key, v) :: done))
  | .object fault done key :: stack, .closeObject =>
    .ok (.after stack (closed fault ((key, v) :: done)))
  | .object _ _ _ :: _, _ => .error .expectedObjectComma
  | [], _ => .error .trailingCharacters

def State.step : State → Token → Except SyntaxError State
  | .value stack, t => startValue stack t
  | .firstElement stack, .closeList => .ok (.after stack (.array []))
  | .firstElement stack, t => startValue (.list [] :: stack) t
  | .element _ _, .closeList => .error .trailingComma
  | .element stack done, t => startValue (.list done :: stack) t
  | .firstKey stack, .closeObject => .ok (.after stack (.object []))
  | .firstKey stack, t => startEntry stack none [] t
  | .key _ _ _, .closeObject => .error .trailingComma
  | .key stack fault done, t => startEntry stack fault done t
  | .colon stack fault done name, .colon => .ok (.value (.object fault done name :: stack))
  | .colon _ _ _ _, _ => .error .expectedColon
  | .after stack v, t => continueAfter v stack t

def State.finish : State → Except SyntaxError Json
  | .value _ | .element _ _ | .key _ _ _ => .error .endInValue
  | .firstElement _ | .after (.list _ :: _) _ => .error .endInList
  | .firstKey _ | .colon _ _ _ _ | .after (.object _ _ _ :: _) _ => .error .endInObject
  | .after [] v => .ok v

def State.read (state : State) : List Char → Except SyntaxError Json
  | [] => state.finish
  | c :: cs =>
    if isBlank c then state.read cs
    else
      match state.step (token c cs).1 with
      | .ok next => next.read (token c cs).2
      | .error e => .error e
termination_by cs => cs.length
decreasing_by
  · simp
  · exact Nat.lt_succ_of_le (length_token_le c cs)

def read (text : String) : Except SyntaxError Json :=
  (State.value []).read text.toList

end NeutralSchema.Json
