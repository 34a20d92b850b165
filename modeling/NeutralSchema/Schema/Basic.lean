import NeutralSchema.OrderedMap

/-!
# Neutral schemas

The enums and classes of one source file in a form that belongs to no language. Names are
normalized, types come from a closed vocabulary, and an expression that could not be expressed
leaves an empty slot, so that its neighbours stay in place.
-/
namespace NeutralSchema.Schema

inductive DataType where
  | int32
  | string
  | boolean
  | void
  | array (arguments : List DataType)
  | named (name : String) (arguments : List DataType)
  deriving Repr, BEq

def DataType.arguments : DataType → List DataType
  | .array arguments => arguments
  | .named _ arguments => arguments
  | _ => []

inductive LiteralKind where
  | string
  | numeric
  | boolean
  | null
  deriving DecidableEq, Repr

inductive OperatorSide where
  | before
  | after
  deriving DecidableEq, Repr

inductive Expression where
  | call (method : Option Expression) (arguments : List (Option Expression))
  | binary (left right : Option Expression) (operator : String)
  | access (target property : Option Expression)
  /-- A name, `this` and `super` included. -/
  | identifier (text : String)
  | new (type : DataType) (arguments : List (Option Expression))
  | conditional (condition whenTrue whenFalse : Option Expression)
  | literal (kind : LiteralKind) (value : String)
  | parenthesized (inner : Option Expression)
  | unary (side : OperatorSide) (operator : String) (operand : Option Expression)
  | array (items : List (Option Expression))
  deriving Repr, BEq

structure Variable where
  name : String
  initializer : Option Expression
  deriving Repr, BEq

/-- A declaration without initial value. -/
def Variable.named (name : String) : Variable := ⟨name, none⟩

inductive Statement where
  | if (condition : Option Expression) (thenBlock : List Statement)
      (elseBlock : Option (List Statement))
  | return (value : Option Expression)
  | throw (value : Option Expression)
  | expression (value : Option Expression)
  | variable (declared : Variable)
  | while (condition : Option Expression) (body : List Statement)
  | foreach (item : Option Variable) (items : Option Expression) (body : List Statement)
  | for (item : Option Variable) (condition step : Option Expression) (body : List Statement)
  deriving Repr, BEq

/-- The statements of a branch, loop, method or constructor. -/
abbrev Block := List Statement

inductive Visibility where
  | everywhere
  | subclasses
  | inside
  deriving DecidableEq, Repr

structure Field where
  type : DataType
  visibility : Visibility
  /-- The source text of the initializer, not evaluated. -/
  defaultValue : Option String
  deriving Repr, BEq

structure Parameter where
  name : String
  type : DataType
  deriving Repr, BEq

structure Method where
  parameters : List Parameter
  returns : DataType
  body : Block
  deriving Repr, BEq

structure Constructor where
  parameters : List Parameter
  body : Block
  deriving Repr, BEq

structure Class where
  fields : OrderedMap Field
  methods : OrderedMap Method
  constructor : Option Constructor

def Class.empty : Class := ⟨∅, ∅, none⟩

/-- An enum, by the names of its members. -/
structure Enum where
  values : List String
  deriving DecidableEq, Repr

structure File where
  enums : OrderedMap Enum
  classes : OrderedMap Class

def File.empty : File := ⟨∅, ∅⟩

end NeutralSchema.Schema
