import NeutralSchema.Proofs.Lowering.Name
import NeutralSchema.Schema.Basic

/-!
# Well-formed schemas

A schema is well-formed if its names are normalized and its truth values and `null` are spelled as
such. It is also complete if no expression is missing where a tree has to have one: a return without
a value, a variable without initial value, and a counting loop without variable, condition or step
are complete, a loop over items without variable is not. `complete` says which of the two is meant.
-/
namespace NeutralSchema.Schema

mutual

/-- Whether the class names in a type are normalized. -/
def DataType.isNormalized : DataType → Bool
  | .int32 | .string | .boolean | .void => true
  | .array arguments => DataType.allNormalized arguments
  | .named name arguments => Name.isNormalized name && DataType.allNormalized arguments

def DataType.allNormalized : List DataType → Bool
  | [] => true
  | t :: ts => t.isNormalized && DataType.allNormalized ts

end

/-- Whether literals of a kind may have a value. -/
def LiteralKind.allows : LiteralKind → String → Bool
  | .string, _ | .numeric, _ => true
  | .boolean, value => value = "true" || value = "false"
  | .null, value => value = "null"

mutual

def Expression.isWellFormed (complete : Bool) : Expression → Bool
  | .call method arguments =>
    slotIsWellFormed complete method && slotsAreWellFormed complete arguments
  | .binary left right _ => slotIsWellFormed complete left && slotIsWellFormed complete right
  | .access target property =>
    slotIsWellFormed complete target && slotIsWellFormed complete property
  | .identifier text => Name.isNormalized text
  | .new type arguments => type.isNormalized && slotsAreWellFormed complete arguments
  | .conditional condition whenTrue whenFalse =>
    slotIsWellFormed complete condition && slotIsWellFormed complete whenTrue
      && slotIsWellFormed complete whenFalse
  | .literal kind value => kind.allows value
  | .parenthesized inner => slotIsWellFormed complete inner
  | .unary _ _ operand => slotIsWellFormed complete operand
  | .array items => slotsAreWellFormed complete items

/-- A slot that is empty only because its expression could not be expressed. -/
def slotIsWellFormed (complete : Bool) : Option Expression → Bool
  | none => !complete
  | some e => e.isWellFormed complete

def slotsAreWellFormed (complete : Bool) : List (Option Expression) → Bool
  | [] => true
  | slot :: slots => slotIsWellFormed complete slot && slotsAreWellFormed complete slots

end

/-- An expression that a statement may do without. -/
def optionalIsWellFormed (complete : Bool) (e : Option Expression) : Bool :=
  e.all (Expression.isWellFormed complete)

def Variable.isWellFormed (complete : Bool) (v : Variable) : Bool :=
  Name.isNormalized v.name && optionalIsWellFormed complete v.initializer

mutual

def Statement.isWellFormed (complete : Bool) : Statement → Bool
  | .if condition thenBlock elseBlock =>
    slotIsWellFormed complete condition && blockIsWellFormed complete thenBlock
      && elseIsWellFormed complete elseBlock
  | .return value => optionalIsWellFormed complete value
  | .throw value => slotIsWellFormed complete value
  | .expression value => slotIsWellFormed complete value
  | .variable declared => declared.isWellFormed complete
  | .while condition body =>
    slotIsWellFormed complete condition && blockIsWellFormed complete body
  | .foreach item items body =>
    (item.isSome || !complete) && item.all (Variable.isWellFormed complete)
      && slotIsWellFormed complete items && blockIsWellFormed complete body
  | .for item condition step body =>
    item.all (Variable.isWellFormed complete) && optionalIsWellFormed complete condition
      && optionalIsWellFormed complete step && blockIsWellFormed complete body

def elseIsWellFormed (complete : Bool) : Option (List Statement) → Bool
  | none => true
  | some block => blockIsWellFormed complete block

def blockIsWellFormed (complete : Bool) : List Statement → Bool
  | [] => true
  | s :: ss => s.isWellFormed complete && blockIsWellFormed complete ss

end

theorem blockIsWellFormed_append (complete : Bool) (ss ts : List Statement) :
    blockIsWellFormed complete (ss ++ ts)
      = (blockIsWellFormed complete ss && blockIsWellFormed complete ts) := by
  induction ss with
  | nil => simp [blockIsWellFormed]
  | cons s ss ih => simp [blockIsWellFormed, ih, Bool.and_assoc]

def Parameter.isWellFormed (p : Parameter) : Bool :=
  Name.isNormalized p.name && p.type.isNormalized

def Method.isWellFormed (complete : Bool) (m : Method) : Bool :=
  m.parameters.all Parameter.isWellFormed && m.returns.isNormalized
    && blockIsWellFormed complete m.body

def Constructor.isWellFormed (complete : Bool) (k : Constructor) : Bool :=
  k.parameters.all Parameter.isWellFormed && blockIsWellFormed complete k.body

def Class.isWellFormed (complete : Bool) (c : Class) : Bool :=
  c.fields.toList.all (fun e => Name.isNormalized e.1 && e.2.type.isNormalized)
    && c.methods.toList.all (fun e => Name.isNormalized e.1 && e.2.isWellFormed complete)
    && c.constructor.all (Constructor.isWellFormed complete)

def Enum.isWellFormed (e : Enum) : Bool := e.values.all Name.isNormalized

def File.isWellFormed (complete : Bool) (s : File) : Bool :=
  s.enums.toList.all (fun e => Name.isNormalized e.1 && e.2.isWellFormed)
    && s.classes.toList.all (fun e => Name.isNormalized e.1 && e.2.isWellFormed complete)

end NeutralSchema.Schema
