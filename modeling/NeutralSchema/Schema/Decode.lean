import NeutralSchema.Json.Decode
import NeutralSchema.Schema.Encode

/-!
# Schemas as documents: reading

Fields may come in any order, unknown ones are ignored, and optional parts may be left out. In a
map a repeated key keeps its first place and its last value.
-/
namespace NeutralSchema.Schema

open Json

instance : Enumerated DataTypeKind where
  all := [.int32, .string, .boolean, .void, .array, .named]
  name := DataTypeKind.name

instance : Enumerated ExpressionKind where
  all := [.call, .binary, .access, .identifier, .new, .conditional, .literal, .parenthesized,
    .unary, .array]
  name := ExpressionKind.name

instance : Enumerated StatementKind where
  all := [.if, .return, .throw, .expression, .variable, .while, .foreach, .for]
  name := StatementKind.name

instance : Enumerated LiteralKind where
  all := [.string, .numeric, .boolean, .null]
  name := LiteralKind.name

instance : Enumerated OperatorSide where
  all := [.before, .after]
  name := OperatorSide.name

instance : Enumerated Visibility where
  all := [.everywhere, .subclasses, .inside]
  name := Visibility.name

mutual

def DataType.decode (access : Access) : Nat → Json → Decoded DataType
  | 0, v => noRoom "internally tagged enum Type" v
  | room + 1, v => do
    collect access (room + 1) v
    let (kind, content) : DataTypeKind × Content ←
      decodeTagged access "internally tagged enum Type" "type" v
    match kind with
    | .int32 => content.none; return .int32
    | .string => content.none; return .string
    | .boolean => content.none; return .boolean
    | .void => content.none; return .void
    | .array =>
      let fields ← content.fields "struct variant Type::Array" [omittable "typeArguments"]
      return .array (← fields.withDefault "typeArguments" [] (DataType.decodeAll room))
    | .named =>
      let fields ←
        content.fields "struct variant Type::Class" [field "className", omittable "typeArguments"]
      let name ← fields.required "className" decodeString
      let arguments ← fields.withDefault "typeArguments" [] (DataType.decodeAll room)
      return .named name arguments

def DataType.decodeAll : Nat → Json → Decoded (List DataType)
  | 0, v => noRoom "a sequence" v
  | room + 1, v => decodeElements (DataType.decode .collected room) v

end

mutual

def Expression.decode (access : Access) : Nat → Json → Decoded Expression
  | 0, v => noRoom "internally tagged enum Expression" v
  | room + 1, v => do
    collect access (room + 1) v
    let (kind, content) : ExpressionKind × Content ←
      decodeTagged access "internally tagged enum Expression" "kind" v
    match kind with
    | .call =>
      let fields ←
        content.fields "struct variant Expression::Call" [field "method", field "arguments"]
      let method ← fields.optional "method" (Expression.decode .collected room)
      let arguments ← fields.required "arguments" (Expression.decodeSlots room)
      return .call method arguments
    | .binary =>
      let fields ← content.fields "struct variant Expression::Binary"
        [field "left", field "right", field "operator"]
      let left ← fields.optional "left" (Expression.decode .collected room)
      let right ← fields.optional "right" (Expression.decode .collected room)
      let operator ← fields.required "operator" decodeString
      return .binary left right operator
    | .access =>
      let fields ← content.fields "struct variant Expression::PropertyAccess"
        [field "object", field "propertyName"]
      let target ← fields.optional "object" (Expression.decode .collected room)
      let property ← fields.optional "propertyName" (Expression.decode .collected room)
      return .access target property
    | .identifier =>
      let fields ← content.fields "struct variant Expression::Identifier" [field "text"]
      return .identifier (← fields.required "text" decodeString)
    | .new =>
      let fields ←
        content.fields "struct variant Expression::New" [field "class", field "arguments"]
      let type ← fields.required "class" (DataType.decode .collected room)
      let arguments ← fields.required "arguments" (Expression.decodeSlots room)
      return .new type arguments
    | .conditional =>
      let fields ← content.fields "struct variant Expression::Conditional"
        [field "condition", field "whenTrue", field "whenFalse"]
      let condition ← fields.optional "condition" (Expression.decode .collected room)
      let whenTrue ← fields.optional "whenTrue" (Expression.decode .collected room)
      let whenFalse ← fields.optional "whenFalse" (Expression.decode .collected room)
      return .conditional condition whenTrue whenFalse
    | .literal =>
      let fields ←
        content.fields "struct variant Expression::Literal" [field "literalType", field "value"]
      let kind ← fields.required "literalType" (decodeName .collected room)
      let value ← fields.required "value" decodeString
      return .literal kind value
    | .parenthesized =>
      let fields ← content.fields "struct variant Expression::Parenthesized" [field "expression"]
      return .parenthesized (← fields.optional "expression" (Expression.decode .collected room))
    | .unary =>
      let fields ← content.fields "struct variant Expression::Unary"
        [field "unaryType", field "operator", field "operand"]
      let side ← fields.required "unaryType" (decodeName .collected room)
      let operator ← fields.required "operator" decodeString
      let operand ← fields.optional "operand" (Expression.decode .collected room)
      return .unary side operator operand
    | .array =>
      let fields ← content.fields "struct variant Expression::ArrayLiteral" [field "items"]
      return .array (← fields.required "items" (Expression.decodeSlots room))

def Expression.decodeSlots : Nat → Json → Decoded (List (Option Expression))
  | 0, v => noRoom "a sequence" v
  | room + 1, v => decodeElements (decodeNullable (Expression.decode .collected room)) v

end

def Variable.known : List Json.Field := [field "variableName", field "initializer"]

def Variable.ofFields (access : Access) (room : Nat) (fields : Fields) : Decoded Variable := do
  let name ← fields.required "variableName" decodeString
  let initializer ← fields.optional "initializer" (Expression.decode access room)
  return ⟨name, initializer⟩

def Variable.decode (access : Access) : Nat → Json → Decoded Variable :=
  decodeRecord access "struct Variable" Variable.known (Variable.ofFields access)

mutual

def Statement.decode (access : Access) : Nat → Json → Decoded Statement
  | 0, v => noRoom "internally tagged enum Statement" v
  | room + 1, v => do
    collect access (room + 1) v
    let (kind, content) : StatementKind × Content ←
      decodeTagged access "internally tagged enum Statement" "kind" v
    match kind with
    | .if =>
      let fields ← content.fields "struct variant Statement::If"
        [field "condition", field "then", omittable "else"]
      let condition ← fields.optional "condition" (Expression.decode .collected room)
      let thenBlock ← fields.required "then" (Statement.decodeBlock .collected room)
      let elseBlock ← fields.optional "else" (Statement.decodeBlock .collected room)
      return .if condition thenBlock elseBlock
    | .return =>
      let fields ← content.fields "struct variant Statement::Return" [field "expression"]
      return .return (← fields.optional "expression" (Expression.decode .collected room))
    | .throw =>
      let fields ← content.fields "struct variant Statement::Throw" [field "expression"]
      return .throw (← fields.optional "expression" (Expression.decode .collected room))
    | .expression =>
      let fields ←
        content.fields "struct variant Statement::ExpressionStatement" [field "expression"]
      return .expression (← fields.optional "expression" (Expression.decode .collected room))
    | .variable =>
      let fields ← content.fields "struct Variable" Variable.known
      return .variable (← Variable.ofFields .collected room fields)
    | .while =>
      let fields ←
        content.fields "struct variant Statement::While" [field "condition", field "body"]
      let condition ← fields.optional "condition" (Expression.decode .collected room)
      let body ← fields.required "body" (Statement.decodeBlock .collected room)
      return .while condition body
    | .foreach =>
      let fields ← content.fields "struct variant Statement::Foreach"
        [field "itemVariable", field "items", field "body"]
      let item ← fields.optional "itemVariable" (Variable.decode .collected room)
      let items ← fields.optional "items" (Expression.decode .collected room)
      let body ← fields.required "body" (Statement.decodeBlock .collected room)
      return .foreach item items body
    | .for =>
      let fields ← content.fields "struct variant Statement::For"
        [field "itemVariable", field "condition", field "incrementor", field "body"]
      let item ← fields.optional "itemVariable" (Variable.decode .collected room)
      let condition ← fields.optional "condition" (Expression.decode .collected room)
      let step ← fields.optional "incrementor" (Expression.decode .collected room)
      let body ← fields.required "body" (Statement.decodeBlock .collected room)
      return .for item condition step body

def Statement.decodeBlock (access : Access) : Nat → Json → Decoded (List Statement)
  | 0, v => noRoom "struct Block" v
  | room + 1, v => do
    let fields ← record access "struct Block" [field "statements"] v
    fields.required "statements" (Statement.decodeAll access room)

def Statement.decodeAll (access : Access) : Nat → Json → Decoded (List Statement)
  | 0, v => noRoom "a sequence" v
  | room + 1, v => decodeElements (Statement.decode access room) v

end

def Field.decode (access : Access) : Nat → Json → Decoded Field :=
  decodeRecord access "struct Field" [field "type", field "visibility", omittable "defaultValue"]
    fun room fields => do
      let type ← fields.required "type" (DataType.decode access room)
      let visibility ← fields.required "visibility" (decodeName access room)
      let defaultValue ← fields.optional "defaultValue" decodeString
      return ⟨type, visibility, defaultValue⟩

def Parameter.decode (access : Access) : Nat → Json → Decoded Parameter :=
  decodeRecord access "struct Parameter" [field "name", field "type"] fun room fields => do
    let name ← fields.required "name" decodeString
    let type ← fields.required "type" (DataType.decode access room)
    return ⟨name, type⟩

def Method.decode (access : Access) : Nat → Json → Decoded Method :=
  decodeRecord access "struct Method" [field "parameters", field "returns", field "body"]
    fun room fields => do
      let parameters ← fields.required "parameters" (decodeList (Parameter.decode access) room)
      let returns ← fields.required "returns" (DataType.decode access room)
      let body ← fields.required "body" (Statement.decodeBlock access room)
      return ⟨parameters, returns, body⟩

def Constructor.decode (access : Access) : Nat → Json → Decoded Constructor :=
  decodeRecord access "struct Constructor" [field "parameters", field "body"]
    fun room fields => do
      let parameters ← fields.required "parameters" (decodeList (Parameter.decode access) room)
      let body ← fields.required "body" (Statement.decodeBlock access room)
      return ⟨parameters, body⟩

def decodeMap {α : Type} (decode : Nat → Json → Decoded α) (room : Nat) (v : Json) :
    Decoded (OrderedMap α) :=
  (decodeEntries decode room v).map OrderedMap.ofList

def Class.decode (access : Access) : Nat → Json → Decoded Class :=
  decodeRecord access "struct Class" [field "fields", field "methods", omittable "constructor"]
    fun room fields => do
      let members ← fields.required "fields" (decodeMap (Field.decode access) room)
      let methods ← fields.required "methods" (decodeMap (Method.decode access) room)
      let constructor ← fields.optional "constructor" (Constructor.decode access room)
      return ⟨members, methods, constructor⟩

/-- The name of an enum member. -/
def decodeEnumValue (access : Access) : Nat → Json → Decoded String :=
  decodeRecord access "struct EnumValue" [field "name"] fun _ fields =>
    fields.required "name" decodeString

def Enum.decode (access : Access) : Nat → Json → Decoded Enum :=
  decodeRecord access "struct Enum" [field "values"] fun room fields =>
    (fields.required "values" (decodeList (decodeEnumValue access) room)).map Enum.mk

def File.decode (access : Access) : Nat → Json → Decoded File :=
  decodeRecord access "struct SchemaFile" [field "enums", field "classes"] fun room fields => do
    let enums ← fields.required "enums" (decodeMap (Enum.decode access) room)
    let classes ← fields.required "classes" (decodeMap (Class.decode access) room)
    return ⟨enums, classes⟩

end NeutralSchema.Schema
