/-!
# Slices of a text by byte offset

Offsets count the bytes of the UTF-8 form. A slice exists exactly when both of its ends fall
between characters.
-/
namespace NeutralSchema.Text

def byteLength : List Char → Nat
  | [] => 0
  | c :: cs => c.utf8Size + byteLength cs

@[simp] theorem byteLength_nil : byteLength [] = 0 := rfl

@[simp] theorem byteLength_cons (c : Char) (cs : List Char) :
    byteLength (c :: cs) = c.utf8Size + byteLength cs := rfl

theorem byteLength_append (cs ds : List Char) :
    byteLength (cs ++ ds) = byteLength cs + byteLength ds := by
  induction cs with
  | nil => simp
  | cons c cs ih => simp [ih, Nat.add_assoc]

/-- Splits the characters after exactly `n` bytes, if a character ends there. -/
def splitBytes? : Nat → List Char → Option (List Char × List Char)
  | 0, cs => some ([], cs)
  | _ + 1, [] => none
  | n + 1, c :: cs =>
    if c.utf8Size ≤ n + 1 then
      (splitBytes? (n + 1 - c.utf8Size) cs).map fun p => (c :: p.1, p.2)
    else none

/-- The text between two byte offsets, if they are in order and both lie between characters. -/
def slice? (text : String) (start stop : Nat) : Option String :=
  if start ≤ stop then do
    let (_, rest) ← splitBytes? start text.toList
    let (part, _) ← splitBytes? (stop - start) rest
    return String.ofList part
  else none

end NeutralSchema.Text
