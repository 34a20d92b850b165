import NeutralSchema.Schema.Basic
import NeutralSchema.Text.Bytes
import NeutralSchema.Tree.Basic

/-!
# Raising a schema to a tree

Raising writes down a tree for a schema. Names stand for themselves, an empty slot becomes an
expression that no schema expresses, and the source text holds the default values one after the
other. Main definition: `Schema.File.raise`.
-/
namespace NeutralSchema

namespace Schema

/-- A name that normalizes to the name of a class and that no primitive type has. -/
def declaredName : String → String
  | "number" => "Number"
  | "string" => "String"
  | "boolean" => "Boolean"
  | "void" => "Void"
  | name => name

mutual

def DataType.raise : DataType → Tree.ResolvedType
  | .int32 => .intrinsic "number"
  | .string => .intrinsic "string"
  | .boolean => .intrinsic "boolean"
  | .void => .intrinsic "void"
  | .array arguments => .generic "Array" (DataType.raiseAll arguments)
  | .named name arguments => .generic (declaredName name) (DataType.raiseAll arguments)

def DataType.raiseAll : List DataType → List Tree.ResolvedType
  | [] => []
  | t :: ts => t.raise :: DataType.raiseAll ts

end

def raiseLiteral : LiteralKind → String → Tree.Literal
  | .string, value => .string value
  | .numeric, text => .numeric text
  | .boolean, value => .boolean (value = "true")
  | .null, _ => .null

def OperatorSide.raise : OperatorSide → Tree.UnarySide
  | .before => .before
  | .after => .after

mutual

def Expression.raise : Expression → Tree.Expr
  | .call method arguments => .call .zero (raiseSlot method) (raiseSlots arguments)
  | .binary left right operator => .binary .zero (raiseSlot left) operator (raiseSlot right)
  | .access target property => .element .zero (raiseSlot target) (raiseSlot property)
  | .identifier text => .identifier .zero text
  | .new type arguments => .new .zero (some type.raise) (raiseSlots arguments)
  | .conditional condition whenTrue whenFalse =>
    .conditional .zero (raiseSlot condition) (raiseSlot whenTrue) (raiseSlot whenFalse)
  | .literal kind value => .literal .zero (raiseLiteral kind value)
  | .parenthesized inner => .parenthesized .zero (raiseSlot inner)
  | .unary side operator operand => .unary .zero side.raise operator (raiseSlot operand)
  | .array items => .array .zero (raiseSlots items)

/-- An object literal stands for an empty slot: no schema expresses it. -/
def raiseSlot : Option Expression → Tree.Expr
  | none => .bare .zero .objectLiteral
  | some e => e.raise

def raiseSlots : List (Option Expression) → List Tree.Expr
  | [] => []
  | slot :: slots => raiseSlot slot :: raiseSlots slots

end

def Variable.raise (v : Variable) : Tree.Declarator :=
  ⟨⟨v.name, .zero⟩, none, v.initializer.map Expression.raise, .zero⟩

mutual

def Statement.raise : Statement → Tree.Stmt
  | .if condition thenBlock elseBlock =>
    .if .zero (raiseSlot condition) (.block .zero (raiseBlock thenBlock)) (raiseElse elseBlock)
  | .return value => .return .zero (value.map Expression.raise)
  | .throw value => .throw .zero (raiseSlot value)
  | .expression value => .expression .zero (raiseSlot value)
  | .variable declared => .variable .zero [declared.raise]
  | .while condition body => .while .zero (raiseSlot condition) (.block .zero (raiseBlock body))
  | .foreach item items body =>
    .forOf .zero (.declarators (item.map Variable.raise).toList) (raiseSlot items)
      (.block .zero (raiseBlock body))
  | .for item condition step body =>
    .for .zero (item.map fun v => .declarators [v.raise]) (condition.map Expression.raise)
      (step.map Expression.raise) (.block .zero (raiseBlock body))

def raiseElse : Option (List Statement) → Option Tree.Stmt
  | none => none
  | some block => some (.block .zero (raiseBlock block))

def raiseBlock : List Statement → List Tree.Stmt
  | [] => []
  | s :: ss => s.raise :: raiseBlock ss

end

def Visibility.raise : Visibility → Tree.Visibility
  | .everywhere => .everywhere
  | .subclasses => .subclasses
  | .inside => .inside

def Parameter.raise (p : Parameter) : Tree.Parameter :=
  ⟨⟨p.name, .zero⟩, some p.type.raise, .none, .zero⟩

/-- The characters of the default value, none without one. -/
def Field.defaultChars (field : Field) : List Char := (field.defaultValue.getD "").toList

/-- A field whose default value starts at an offset of the text. -/
def Field.raise (start : Nat) (name : String) (field : Field) : Tree.Property :=
  ⟨⟨name, .zero⟩, some field.type.raise, ⟨some field.visibility.raise, false, false⟩,
    field.defaultValue.map fun text =>
      .literal ⟨.ofNat start, .ofNat (start + Text.byteLength text.toList)⟩ .null,
    .zero⟩

/-- Fields whose default values stand side by side. -/
def raiseFields (start : Nat) : List (String × Field) → List Tree.ClassMember
  | [] => []
  | (name, field) :: fields =>
    .property (field.raise start name)
      :: raiseFields (start + Text.byteLength field.defaultChars) fields

def Method.raise (name : String) (m : Method) : Tree.Method :=
  ⟨⟨name, .zero⟩, m.parameters.map Parameter.raise, some m.returns.raise, .none,
    some (raiseBlock m.body), .zero⟩

def Constructor.raise (k : Constructor) : Tree.Constructor :=
  ⟨k.parameters.map Parameter.raise, some (raiseBlock k.body), .zero⟩

def Class.defaultChars (c : Class) : List Char :=
  c.fields.toList.flatMap fun e => e.2.defaultChars

/-- The methods of a class, then its constructor. -/
def raiseCallables (methods : List (String × Method)) (constructor : Option Constructor) :
    List Tree.ClassMember :=
  methods.map (fun e => .method (e.2.raise e.1)) ++
    constructor.toList.map fun k => .constructor k.raise

def Class.raise (start : Nat) (name : String) (c : Class) : Tree.Class :=
  ⟨⟨name, .zero⟩,
    raiseFields start c.fields.toList ++ raiseCallables c.methods.toList c.constructor, .zero⟩

def raiseClasses (start : Nat) : List (String × Class) → List Tree.Item
  | [] => []
  | (name, c) :: classes =>
    .classDecl (c.raise start name)
      :: raiseClasses (start + Text.byteLength c.defaultChars) classes

def Enum.raise (name : String) (e : Enum) : Tree.Enum :=
  ⟨⟨name, .zero⟩, e.values.map fun value => ⟨⟨value, .zero⟩, none⟩, .zero⟩

/-- The characters of all default values. -/
def File.defaultChars (s : File) : List Char :=
  s.classes.toList.flatMap fun e => e.2.defaultChars

def File.raise (s : File) : Tree.File where
  id := 0
  path := ""
  text := String.ofList s.defaultChars
  items := s.enums.toList.map (fun e => .enumDecl (e.2.raise e.1)) ++
    raiseClasses 0 s.classes.toList

end Schema
end NeutralSchema
