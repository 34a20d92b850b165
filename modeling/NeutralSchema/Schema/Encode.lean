import NeutralSchema.Json.Basic
import NeutralSchema.Schema.Basic

/-!
# Schemas as documents: writing

The tag of a node comes first. Empty type arguments, absent constructors, absent default values and
absent else blocks are left out; every other absent part is `null`.
-/
namespace NeutralSchema.Schema

inductive DataTypeKind where
  | int32
  | string
  | boolean
  | void
  | array
  | named
  deriving DecidableEq, Repr

def DataTypeKind.name : DataTypeKind → String
  | .int32 => "Int32"
  | .string => "String"
  | .boolean => "Boolean"
  | .void => "Void"
  | .array => "Array"
  | .named => "Class"

inductive ExpressionKind where
  | call
  | binary
  | access
  | identifier
  | new
  | conditional
  | literal
  | parenthesized
  | unary
  | array
  deriving DecidableEq, Repr

def ExpressionKind.name : ExpressionKind → String
  | .call => "Call"
  | .binary => "Binary"
  | .access => "PropertyAccess"
  | .identifier => "Identifier"
  | .new => "New"
  | .conditional => "Conditional"
  | .literal => "Literal"
  | .parenthesized => "Parenthesized"
  | .unary => "Unary"
  | .array => "ArrayLiteral"

inductive StatementKind where
  | if
  | return
  | throw
  | expression
  | variable
  | while
  | foreach
  | for
  deriving DecidableEq, Repr

def StatementKind.name : StatementKind → String
  | .if => "If"
  | .return => "Return"
  | .throw => "Throw"
  | .expression => "ExpressionStatement"
  | .variable => "Variable"
  | .while => "While"
  | .foreach => "Foreach"
  | .for => "For"

def LiteralKind.name : LiteralKind → String
  | .string => "string"
  | .numeric => "numeric"
  | .boolean => "boolean"
  | .null => "null"

def OperatorSide.name : OperatorSide → String
  | .before => "prefix"
  | .after => "postfix"

def Visibility.name : Visibility → String
  | .everywhere => "Public"
  | .subclasses => "Protected"
  | .inside => "Private"

/-- An entry that is left out when it is absent. -/
def optionalEntry (key : String) : Option Json → List (String × Json)
  | none => []
  | some v => [(key, v)]

mutual

def DataType.encode : DataType → Json
  | .int32 => .object [("type", .string DataTypeKind.int32.name)]
  | .string => .object [("type", .string DataTypeKind.string.name)]
  | .boolean => .object [("type", .string DataTypeKind.boolean.name)]
  | .void => .object [("type", .string DataTypeKind.void.name)]
  | .array arguments =>
    .object (("type", .string DataTypeKind.array.name) :: DataType.argumentsEntry arguments)
  | .named name arguments =>
    .object (("type", .string DataTypeKind.named.name) :: ("className", .string name)
      :: DataType.argumentsEntry arguments)

/-- The type arguments, left out where there are none. -/
def DataType.argumentsEntry : List DataType → List (String × Json)
  | [] => []
  | t :: ts => [("typeArguments", .array (t.encode :: DataType.encodeAll ts))]

def DataType.encodeAll : List DataType → List Json
  | [] => []
  | t :: ts => t.encode :: DataType.encodeAll ts

end

/-- A node with its kind. -/
def node (kind : String) (fields : List (String × Json)) : Json :=
  .object (("kind", .string kind) :: fields)

mutual

def Expression.encode : Expression → Json
  | .call method arguments =>
    node ExpressionKind.call.name
      [("method", Expression.encodeSlot method),
        ("arguments", .array (Expression.encodeSlots arguments))]
  | .binary left right operator =>
    node ExpressionKind.binary.name
      [("left", Expression.encodeSlot left), ("right", Expression.encodeSlot right),
        ("operator", .string operator)]
  | .access target property =>
    node ExpressionKind.access.name
      [("object", Expression.encodeSlot target), ("propertyName", Expression.encodeSlot property)]
  | .identifier text => node ExpressionKind.identifier.name [("text", .string text)]
  | .new type arguments =>
    node ExpressionKind.new.name
      [("class", type.encode), ("arguments", .array (Expression.encodeSlots arguments))]
  | .conditional condition whenTrue whenFalse =>
    node ExpressionKind.conditional.name
      [("condition", Expression.encodeSlot condition), ("whenTrue", Expression.encodeSlot whenTrue),
        ("whenFalse", Expression.encodeSlot whenFalse)]
  | .literal kind value =>
    node ExpressionKind.literal.name
      [("literalType", .string kind.name), ("value", .string value)]
  | .parenthesized inner =>
    node ExpressionKind.parenthesized.name [("expression", Expression.encodeSlot inner)]
  | .unary side operator operand =>
    node ExpressionKind.unary.name
      [("unaryType", .string side.name), ("operator", .string operator),
        ("operand", Expression.encodeSlot operand)]
  | .array items =>
    node ExpressionKind.array.name [("items", .array (Expression.encodeSlots items))]

/-- An empty slot is `null`. -/
def Expression.encodeSlot : Option Expression → Json
  | none => .null
  | some e => e.encode

def Expression.encodeSlots : List (Option Expression) → List Json
  | [] => []
  | e :: es => Expression.encodeSlot e :: Expression.encodeSlots es

end

def Variable.fields (v : Variable) : List (String × Json) :=
  [("variableName", .string v.name), ("initializer", Expression.encodeSlot v.initializer)]

def Variable.encode (v : Variable) : Json := .object v.fields

def Variable.encodeSlot (v : Option Variable) : Json := .ofOption (v.map Variable.encode)

mutual

def Statement.encode : Statement → Json
  | .if condition thenBlock elseBlock =>
    node StatementKind.if.name
      (("condition", Expression.encodeSlot condition)
        :: ("then", .object [("statements", .array (Statement.encodeAll thenBlock))])
        :: Statement.elseEntry elseBlock)
  | .return value => node StatementKind.return.name [("expression", Expression.encodeSlot value)]
  | .throw value => node StatementKind.throw.name [("expression", Expression.encodeSlot value)]
  | .expression value =>
    node StatementKind.expression.name [("expression", Expression.encodeSlot value)]
  | .variable v => node StatementKind.variable.name v.fields
  | .while condition body =>
    node StatementKind.while.name
      [("condition", Expression.encodeSlot condition),
        ("body", .object [("statements", .array (Statement.encodeAll body))])]
  | .foreach item items body =>
    node StatementKind.foreach.name
      [("itemVariable", Variable.encodeSlot item), ("items", Expression.encodeSlot items),
        ("body", .object [("statements", .array (Statement.encodeAll body))])]
  | .for item condition step body =>
    node StatementKind.for.name
      [("itemVariable", Variable.encodeSlot item), ("condition", Expression.encodeSlot condition),
        ("incrementor", Expression.encodeSlot step),
        ("body", .object [("statements", .array (Statement.encodeAll body))])]

/-- The else block, left out where there is none. -/
def Statement.elseEntry : Option (List Statement) → List (String × Json)
  | none => []
  | some block => [("else", .object [("statements", .array (Statement.encodeAll block))])]

def Statement.encodeAll : List Statement → List Json
  | [] => []
  | s :: ss => s.encode :: Statement.encodeAll ss

end

def Block.encode (b : Block) : Json := .object [("statements", .array (Statement.encodeAll b))]

def Field.encode (f : Field) : Json :=
  .object (("type", f.type.encode) :: ("visibility", .string f.visibility.name)
    :: optionalEntry "defaultValue" (f.defaultValue.map .string))

def Parameter.encode (p : Parameter) : Json :=
  .object [("name", .string p.name), ("type", p.type.encode)]

def Method.encode (m : Method) : Json :=
  .object [("parameters", .array (m.parameters.map Parameter.encode)),
    ("returns", m.returns.encode), ("body", Block.encode m.body)]

def Constructor.encode (c : Constructor) : Json :=
  .object [("parameters", .array (c.parameters.map Parameter.encode)),
    ("body", Block.encode c.body)]

/-- A map, with its entries in order. -/
def encodeMap {α : Type} (encode : α → Json) (m : OrderedMap α) : Json :=
  .object (m.toList.map fun entry => (entry.1, encode entry.2))

def Class.encode (c : Class) : Json :=
  .object (("fields", encodeMap Field.encode c.fields)
    :: ("methods", encodeMap Method.encode c.methods)
    :: optionalEntry "constructor" (c.constructor.map Constructor.encode))

def Enum.encode (e : Enum) : Json :=
  .object [("values", .array (e.values.map fun name => .object [("name", .string name)]))]

def File.encode (f : File) : Json :=
  .object [("enums", encodeMap Enum.encode f.enums), ("classes", encodeMap Class.encode f.classes)]

end NeutralSchema.Schema
