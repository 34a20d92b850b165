import NeutralSchema.Span.Codec
import NeutralSchema.Tree.Basic

/-!
# Syntax trees as documents: writing

Every field is written, absent options as `null`. A node has its span first, then its kind, then
the fields of its kind.
-/
namespace NeutralSchema.Tree

open Json

def Ident.encode (i : Ident) : Json :=
  .object [("text", .string i.text), ("span", i.span.encode)]

def TypeName.encode : TypeName → Json
  | .intrinsic name => .object [("intrinsic", .string name)]
  | .symbol name => .object [("symbol", .string name)]

mutual

def ResolvedType.encode : ResolvedType → Json
  | .mk name arguments =>
    .object [("name", name.encode), ("type_arguments", .array (ResolvedType.encodeAll arguments))]

def ResolvedType.encodeAll : List ResolvedType → List Json
  | [] => []
  | t :: ts => t.encode :: ResolvedType.encodeAll ts

end

/-- The document of an optional part. -/
def encodeOption {α : Type} (encode : α → Json) (a : Option α) : Json := ofOption (a.map encode)

def node (span : Span) (kind : String) (fields : Fields) : Json :=
  .object (("span", span.encode) :: ("kind", .string kind) :: fields)

def Literal.fields : Literal → Fields
  | .string value => [("value", .string value)]
  | .numeric text => [("text", .string text)]
  | .boolean value => [("value", .bool value)]
  | .null => []

mutual

def Expr.encode : Expr → Json
  | .call s callee arguments =>
    node s ExprKind.call.name
      [("callee", callee.encode), ("arguments", .array (Expr.encodeAll arguments))]
  | .binary s left operator right =>
    node s ExprKind.binary.name
      [("left", left.encode), ("operator", .string operator), ("right", right.encode)]
  | .member s target name =>
    node s ExprKind.member.name [("object", target.encode), ("name", name.encode)]
  | .element s target index =>
    node s ExprKind.element.name [("object", target.encode), ("index", index.encode)]
  | .identifier s name => node s ExprKind.identifier.name [("name", .string name)]
  | .new s type arguments =>
    node s ExprKind.new.name
      [("type", encodeOption ResolvedType.encode type),
        ("arguments", .array (Expr.encodeAll arguments))]
  | .conditional s condition whenTrue whenFalse =>
    node s ExprKind.conditional.name
      [("condition", condition.encode), ("when_true", whenTrue.encode),
        ("when_false", whenFalse.encode)]
  | .literal s value => node s value.kind.name value.fields
  | .parenthesized s inner => node s ExprKind.parenthesized.name [("expression", inner.encode)]
  | .unary s side operator operand =>
    node s (ExprKind.unary side).name
      [("operator", .string operator), ("operand", operand.encode)]
  | .array s elements =>
    node s ExprKind.array.name [("elements", .array (Expr.encodeAll elements))]
  | .self s word => node s (ExprKind.self word).name []
  | .wrapped s form inner => node s (ExprKind.wrapped form).name [("expression", inner.encode)]
  | .bare s form => node s (ExprKind.bare form).name []
  | .other s construct => node s ExprKind.other.name [("construct", .string construct)]

def Expr.encodeAll : List Expr → List Json
  | [] => []
  | e :: es => e.encode :: Expr.encodeAll es

end

def Declarator.encode (d : Declarator) : Json :=
  .object [("name", d.name.encode), ("type", encodeOption ResolvedType.encode d.type),
    ("initializer", encodeOption Expr.encode d.initializer), ("span", d.span.encode)]

def LoopInitializer.encode : LoopInitializer → Json
  | .declarators ds => .object [("declarations", .array (ds.map Declarator.encode))]
  | .expression e => .object [("expression", e.encode)]

mutual

def Stmt.encode : Stmt → Json
  | .if s condition thenBranch elseBranch =>
    node s StmtKind.if.name
      [("condition", condition.encode), ("then_branch", thenBranch.encode),
        ("else_branch", Stmt.encodeOption elseBranch)]
  | .return s value =>
    node s StmtKind.return.name [("expression", Tree.encodeOption Expr.encode value)]
  | .throw s value => node s StmtKind.throw.name [("expression", value.encode)]
  | .expression s value =>
    node s StmtKind.expression.name [("expression", value.encode)]
  | .variable s declarators =>
    node s StmtKind.variable.name [("declarations", .array (declarators.map Declarator.encode))]
  | .while s condition body =>
    node s StmtKind.while.name [("condition", condition.encode), ("body", body.encode)]
  | .forOf s initializer items body =>
    node s StmtKind.forOf.name
      [("initializer", initializer.encode), ("expression", items.encode), ("body", body.encode)]
  | .for s initializer condition step body =>
    node s StmtKind.for.name
      [("initializer", Tree.encodeOption LoopInitializer.encode initializer),
        ("condition", Tree.encodeOption Expr.encode condition),
        ("incrementor", Tree.encodeOption Expr.encode step), ("body", body.encode)]
  | .block s statements =>
    node s StmtKind.block.name [("statements", .array (Stmt.encodeAll statements))]
  | .bare s form => node s (StmtKind.bare form).name []
  | .other s construct => node s StmtKind.other.name [("construct", .string construct)]

def Stmt.encodeOption : Option Stmt → Json
  | none => .null
  | some s => s.encode

def Stmt.encodeAll : List Stmt → List Json
  | [] => []
  | s :: ss => s.encode :: Stmt.encodeAll ss

end

def Block.encode (b : Block) : Json := .object [("statements", .array (Stmt.encodeAll b))]

def Visibility.name : Visibility → String
  | .everywhere => "public"
  | .subclasses => "protected"
  | .inside => "private"

def Modifiers.encode (m : Modifiers) : Json :=
  .object [("visibility", encodeOption (fun v => .string v.name) m.visibility),
    ("is_static", .bool m.isStatic), ("readonly", .bool m.isReadonly)]

def Parameter.encode (p : Parameter) : Json :=
  .object [("name", p.name.encode), ("type", encodeOption ResolvedType.encode p.type),
    ("modifiers", p.modifiers.encode), ("span", p.span.encode)]

def Property.fields (p : Property) : Fields :=
  [("name", p.name.encode), ("type", encodeOption ResolvedType.encode p.type),
    ("modifiers", p.modifiers.encode), ("initializer", encodeOption Expr.encode p.initializer),
    ("span", p.span.encode)]

def Method.fields (m : Method) : Fields :=
  [("name", m.name.encode), ("parameters", .array (m.parameters.map Parameter.encode)),
    ("return_type", encodeOption ResolvedType.encode m.returnType),
    ("modifiers", m.modifiers.encode), ("body", encodeOption Block.encode m.body),
    ("span", m.span.encode)]

def Constructor.fields (c : Constructor) : Fields :=
  [("parameters", .array (c.parameters.map Parameter.encode)),
    ("body", encodeOption Block.encode c.body), ("span", c.span.encode)]

def otherFields (construct : String) (span : Span) : Fields :=
  [("construct", .string construct), ("span", span.encode)]

/-- A declaration: its kind, then its fields. -/
def declaration (kind : String) (fields : Fields) : Json :=
  .object (("kind", .string kind) :: fields)

def ClassMember.encode : ClassMember → Json
  | .property p => declaration "property" p.fields
  | .method m => declaration "method" m.fields
  | .constructor c => declaration "constructor" c.fields
  | .other construct span => declaration "other" (otherFields construct span)

def Class.fields (c : Class) : Fields :=
  [("name", c.name.encode), ("members", .array (c.members.map ClassMember.encode)),
    ("span", c.span.encode)]

def EnumMember.encode (m : EnumMember) : Json :=
  .object [("name", m.name.encode), ("initializer", encodeOption Expr.encode m.initializer)]

def Enum.fields (e : Enum) : Fields :=
  [("name", e.name.encode), ("members", .array (e.members.map EnumMember.encode)),
    ("span", e.span.encode)]

def Item.encode : Item → Json
  | .enumDecl e => declaration "enum" e.fields
  | .classDecl c => declaration "class" c.fields
  | .other construct span => declaration "other" (otherFields construct span)

def File.encode (f : File) : Json :=
  .object [("id", natural f.id.toNat), ("path", .string f.path), ("text", .string f.text),
    ("items", .array (f.items.map Item.encode))]

end NeutralSchema.Tree
