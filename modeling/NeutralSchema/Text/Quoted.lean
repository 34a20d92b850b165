import NeutralSchema.Text.Hidden

/-!
# Quoted texts

How messages show a character or a text they were given: between quotation marks, with the
enclosing mark, backslashes and hidden characters escaped.
-/
namespace NeutralSchema.Text

/-- The text of a character inside the quotation mark `mark`. -/
def escaped (mark c : Char) : String :=
  if c = '\x00' then "\\0"
  else if c = '\t' then "\\t"
  else if c = '\n' then "\\n"
  else if c = '\r' then "\\r"
  else if c = '\\' then "\\\\"
  else if c = mark then String.ofList ['\\', mark]
  else if isHidden c then
    "\\u\x7b" ++ String.ofList (Nat.toDigits 16 c.toNat) ++ "\x7d"
  else c.toString

def quotedChar (c : Char) : String :=
  "'" ++ escaped '\'' c ++ "'"

def quoted (text : String) : String :=
  "\"" ++ String.join (text.toList.map (escaped '"')) ++ "\""

end NeutralSchema.Text
