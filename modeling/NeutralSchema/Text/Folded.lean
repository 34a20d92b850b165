/-!
# Folded text

A text too long for a line is folded: each line takes as many words as fit, and a word longer than
a line is cut. A line may end after blanks, after a slash or a mark that ends a sentence, and after
a hyphen between letters or digits. Main definition: `fold`.
-/
namespace NeutralSchema.Text

/-- Marks that stay on the line of what is before them, even after blanks. -/
def isClosing (c : Char) : Bool := "/)]\x7d!?.,:;".toList.contains c

def isOpening (c : Char) : Bool := "([\x7b".toList.contains c

def isCurrency (c : Char) : Bool := "$%+\\".toList.contains c

def mayEndBetween (a b : Char) : Bool :=
  if isClosing b || "\"'|-".toList.contains b then false
  else if a = '/' then !b.isDigit
  else if a = '|' || a = '!' || a = '?' then true
  else if a = '}' then !isCurrency b
  else if a = ')' || a = ']' then isOpening b
  else if isClosing a then isOpening b || isCurrency b
  else false

/-- A part of a text that is not folded any further unless it is too long, and the number of blanks
after it. -/
structure Word where
  text : List Char
  blanks : Nat
  deriving DecidableEq, Repr

/-- Splits a text where lines may end. The word before the text is given in reverse order, with its
blanks. -/
def words (before : List Char) (blanks : Nat) : List Char → List Word
  | [] => if before.isEmpty && blanks = 0 then [] else [⟨before.reverse, blanks⟩]
  | c :: cs =>
    if c = ' ' then words before (blanks + 1) cs
    else if blanks = 0 then
      if before.head?.any (mayEndBetween · c) then ⟨before.reverse, 0⟩ :: words [c] 0 cs
      else words (c :: before) 0 cs
    else if isClosing c || before.head?.any isOpening then
      words (c :: (List.replicate blanks ' ' ++ before)) 0 cs
    else ⟨before.reverse, blanks⟩ :: words [c] 0 cs

def joinsWords (c : Char) : Bool := c.isAlphanum || c.toNat ≥ 0x80

def hyphenated (before : List Char) : List Char → List (List Char)
  | [] => [before.reverse]
  | '-' :: c :: cs =>
    if before.head?.any joinsWords && joinsWords c then
      ('-' :: before).reverse :: hyphenated [] (c :: cs)
    else hyphenated ('-' :: before) (c :: cs)
  | c :: cs => hyphenated (c :: before) cs

def cut (width : Nat) (cs : List Char) : List (List Char) :=
  if _h : width = 0 ∨ cs.length ≤ width then [cs]
  else cs.take width :: cut width (cs.drop width)
termination_by cs.length
decreasing_by simp only [List.length_drop]; omega

def withBlanks (blanks : Nat) : List (List Char) → List Word
  | [] => []
  | [last] => [⟨last, blanks⟩]
  | piece :: pieces => ⟨piece, 0⟩ :: withBlanks blanks pieces

def pieces (width : Nat) (w : Word) : List Word :=
  withBlanks w.blanks ((hyphenated [] w.text).flatMap (cut width))

/-- Fills lines with words. A line is given by the words on it in reverse order and its length. -/
def fill (current : List Word) (length width rest : Nat) : List Word → List (List Word)
  | [] => [current.reverse]
  | w :: ws =>
    if length + w.text.length > width ∧ !current.isEmpty then
      current.reverse :: fill [w] (w.text.length + w.blanks) rest rest ws
    else fill (w :: current) (length + w.text.length + w.blanks) width rest ws

def lineText : List Word → List Char
  | [] => []
  | [w] => w.text
  | w :: ws => w.text ++ List.replicate w.blanks ' ' ++ lineText ws

def foldLine (width : Nat) (lead indent : String) (line : List Char) : List (List Char) :=
  let room := width - indent.length
  let all := (words [] 0 line).flatMap (pieces room)
  (fill [⟨[], 0⟩] 0 (width - lead.length) room all).map lineText

/-- Folds a text to a width. The first line follows `lead` and all others follow `indent`. -/
def fold (width : Nat) (lead indent text : String) : String :=
  let lines := match text.toList.splitOn '\n' with
    | [] => []
    | first :: others =>
      foldLine width lead indent first ++ others.flatMap (foldLine width indent indent)
  lead ++ String.intercalate ("\n" ++ indent) (lines.map String.ofList)

end NeutralSchema.Text
