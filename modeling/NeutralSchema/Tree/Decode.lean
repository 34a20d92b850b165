import NeutralSchema.Tree.Encode

/-!
# Syntax trees as documents: reading

Fields may come in any order and unknown ones are ignored. Spans, lists, options and modifiers may
be left out; everything else has to be there.
-/
namespace NeutralSchema.Tree

open Json

instance : Enumerated ExprKind := ⟨ExprKind.all, ExprKind.name⟩

instance : Enumerated StmtKind := ⟨StmtKind.all, StmtKind.name⟩

instance : Enumerated Visibility := ⟨[.everywhere, .subclasses, .inside], Visibility.name⟩

def Ident.decode (access : Access) : Nat → Json → Decoded Ident :=
  decodeRecord access "struct Ident" [field "text", omittable "span"] fun room fields => do
    let text ← fields.required "text" decodeString
    let span ← fields.span access room
    return ⟨text, span⟩

/-- Whether a type is built in or declared. -/
inductive TypeNameKind where
  | intrinsic
  | symbol

instance : Enumerated TypeNameKind where
  all := [.intrinsic, .symbol]
  name
    | .intrinsic => "intrinsic"
    | .symbol => "symbol"

def TypeName.decode (access : Access) (room : Nat) (v : Json) : Decoded TypeName := do
  let (kind, content) : TypeNameKind × Json ← decodeNewtype access room v
  let name ← decodeString content
  match kind with
  | .intrinsic => return .intrinsic name
  | .symbol => return .symbol name

mutual

def ResolvedType.decode (access : Access) : Nat → Json → Decoded ResolvedType
  | 0, v => noRoom "struct ResolvedType" v
  | room + 1, v => do
    let fields ←
      record access "struct ResolvedType" [field "name", omittable "type_arguments"] v
    let name ← fields.required "name" (TypeName.decode access room)
    let arguments ← fields.withDefault "type_arguments" [] (ResolvedType.decodeAll access room)
    return ⟨name, arguments⟩

def ResolvedType.decodeAll (access : Access) : Nat → Json → Decoded (List ResolvedType)
  | 0, v => noRoom "a sequence" v
  | room + 1, v => decodeElements (ResolvedType.decode access room) v

end

/-- The span of a node, which is empty where none is given. -/
def decodeSpan (access : Access) (room : Nat) : Option Json → Decoded Span
  | none => .ok .zero
  | some v => Span.decode access room v

mutual

def Expr.decode (access : Access) : Nat → Json → Decoded Expr
  | 0, v => noRoomNode "struct Expr" v
  | room + 1, v => do
    let (own, kind, entries) : Option Json × ExprKind × Fields ←
      decodeFlattened access "struct Expr" "span" "kind" room v
    let span ← decodeSpan access room own
    match kind with
    | .call =>
      let fields ← named [field "callee", omittable "arguments"] entries
      let callee ← fields.required "callee" (Expr.decode .collected room)
      let arguments ← fields.withDefault "arguments" [] (Expr.decodeAll room)
      return .call span callee arguments
    | .binary =>
      let fields ← named [field "left", field "operator", field "right"] entries
      let left ← fields.required "left" (Expr.decode .collected room)
      let operator ← fields.required "operator" decodeString
      let right ← fields.required "right" (Expr.decode .collected room)
      return .binary span left operator right
    | .member =>
      let fields ← named [field "object", field "name"] entries
      let target ← fields.required "object" (Expr.decode .collected room)
      let name ← fields.required "name" (Ident.decode .collected room)
      return .member span target name
    | .element =>
      let fields ← named [field "object", field "index"] entries
      let target ← fields.required "object" (Expr.decode .collected room)
      let index ← fields.required "index" (Expr.decode .collected room)
      return .element span target index
    | .identifier =>
      let fields ← named [field "name"] entries
      return .identifier span (← fields.required "name" decodeString)
    | .new =>
      let fields ← named [omittable "type", omittable "arguments"] entries
      let type ← fields.optional "type" (ResolvedType.decode .collected room)
      let arguments ← fields.withDefault "arguments" [] (Expr.decodeAll room)
      return .new span type arguments
    | .conditional =>
      let fields ← named [field "condition", field "when_true", field "when_false"] entries
      let condition ← fields.required "condition" (Expr.decode .collected room)
      let whenTrue ← fields.required "when_true" (Expr.decode .collected room)
      let whenFalse ← fields.required "when_false" (Expr.decode .collected room)
      return .conditional span condition whenTrue whenFalse
    | .stringLiteral =>
      let fields ← named [field "value"] entries
      return .literal span (.string (← fields.required "value" decodeString))
    | .numericLiteral =>
      let fields ← named [field "text"] entries
      return .literal span (.numeric (← fields.required "text" decodeString))
    | .booleanLiteral =>
      let fields ← named [field "value"] entries
      return .literal span (.boolean (← fields.required "value" decodeBool))
    | .nullLiteral => return .literal span .null
    | .parenthesized =>
      let fields ← named [field "expression"] entries
      return .parenthesized span (← fields.required "expression" (Expr.decode .collected room))
    | .unary side =>
      let fields ← named [field "operator", field "operand"] entries
      let operator ← fields.required "operator" decodeString
      let operand ← fields.required "operand" (Expr.decode .collected room)
      return .unary span side operator operand
    | .array =>
      let fields ← named [omittable "elements"] entries
      return .array span (← fields.withDefault "elements" [] (Expr.decodeAll room))
    | .self word => return .self span word
    | .wrapped form =>
      let fields ← named [field "expression"] entries
      return .wrapped span form (← fields.required "expression" (Expr.decode .collected room))
    | .bare form => return .bare span form
    | .other =>
      let fields ← named [field "construct"] entries
      return .other span (← fields.required "construct" decodeString)

def Expr.decodeAll : Nat → Json → Decoded (List Expr)
  | 0, v => noRoom "a sequence" v
  | room + 1, v => decodeElements (Expr.decode .collected room) v

end

def Declarator.decode (access : Access) : Nat → Json → Decoded Declarator :=
  decodeRecord access "struct VariableDeclaration"
    [field "name", omittable "type", omittable "initializer", omittable "span"]
    fun room fields => do
      let name ← fields.required "name" (Ident.decode access room)
      let type ← fields.optional "type" (ResolvedType.decode access room)
      let initializer ← fields.optional "initializer" (Expr.decode access room)
      let span ← fields.span access room
      return ⟨name, type, initializer, span⟩

/-- Whether a loop initializer declares variables. -/
inductive LoopInitializerKind where
  | declarators
  | expression

instance : Enumerated LoopInitializerKind where
  all := [.declarators, .expression]
  name
    | .declarators => "declarations"
    | .expression => "expression"

def LoopInitializer.decode (access : Access) (room : Nat) (v : Json) :
    Decoded LoopInitializer := do
  let (kind, content) : LoopInitializerKind × Json ← decodeNewtype access room v
  match kind with
  | .declarators =>
    return .declarators (← decodeList (Declarator.decode access) (room - 1) content)
  | .expression => return .expression (← Expr.decode access (room - 1) content)

mutual

def Stmt.decode (access : Access) : Nat → Json → Decoded Stmt
  | 0, v => noRoomNode "struct Stmt" v
  | room + 1, v => do
    let (own, kind, entries) : Option Json × StmtKind × Fields ←
      decodeFlattened access "struct Stmt" "span" "kind" room v
    let span ← decodeSpan access room own
    match kind with
    | .if =>
      let fields ←
        named [field "condition", field "then_branch", omittable "else_branch"] entries
      let condition ← fields.required "condition" (Expr.decode .collected room)
      let thenBranch ← fields.required "then_branch" (Stmt.decode .collected room)
      let elseBranch ← fields.optional "else_branch" (Stmt.decode .collected room)
      return .if span condition thenBranch elseBranch
    | .return =>
      let fields ← named [omittable "expression"] entries
      return .return span (← fields.optional "expression" (Expr.decode .collected room))
    | .throw =>
      let fields ← named [field "expression"] entries
      return .throw span (← fields.required "expression" (Expr.decode .collected room))
    | .expression =>
      let fields ← named [field "expression"] entries
      return .expression span (← fields.required "expression" (Expr.decode .collected room))
    | .variable =>
      let fields ← named [field "declarations"] entries
      let declarators ←
        fields.required "declarations" (decodeList (Declarator.decode .collected) room)
      return .variable span declarators
    | .while =>
      let fields ← named [field "condition", field "body"] entries
      let condition ← fields.required "condition" (Expr.decode .collected room)
      let body ← fields.required "body" (Stmt.decode .collected room)
      return .while span condition body
    | .forOf =>
      let fields ← named [field "initializer", field "expression", field "body"] entries
      let initializer ← fields.required "initializer" (LoopInitializer.decode .collected room)
      let items ← fields.required "expression" (Expr.decode .collected room)
      let body ← fields.required "body" (Stmt.decode .collected room)
      return .forOf span initializer items body
    | .for =>
      let fields ← named
        [omittable "initializer", omittable "condition", omittable "incrementor", field "body"]
        entries
      let initializer ← fields.optional "initializer" (LoopInitializer.decode .collected room)
      let condition ← fields.optional "condition" (Expr.decode .collected room)
      let step ← fields.optional "incrementor" (Expr.decode .collected room)
      let body ← fields.required "body" (Stmt.decode .collected room)
      return .for span initializer condition step body
    | .block =>
      let fields ← named [omittable "statements"] entries
      return .block span
        (← fields.withDefault "statements" [] (Stmt.decodeAll .collected room))
    | .bare form => return .bare span form
    | .other =>
      let fields ← named [field "construct"] entries
      return .other span (← fields.required "construct" decodeString)

def Stmt.decodeAll (access : Access) : Nat → Json → Decoded (List Stmt)
  | 0, v => noRoom "a sequence" v
  | room + 1, v => decodeElements (Stmt.decode access room) v

end

def Block.decode (access : Access) : Nat → Json → Decoded Block :=
  decodeRecord access "struct Block" [omittable "statements"] fun room fields =>
    fields.withDefault "statements" [] (Stmt.decodeAll access room)

def Modifiers.decode (access : Access) : Nat → Json → Decoded Modifiers :=
  decodeRecord access "struct Modifiers"
    [omittable "visibility", omittable "is_static", omittable "readonly"] fun room fields => do
      let visibility ← fields.optional "visibility" (decodeName access room)
      let isStatic ← fields.withDefault "is_static" false decodeBool
      let isReadonly ← fields.withDefault "readonly" false decodeBool
      return ⟨visibility, isStatic, isReadonly⟩

def Parameter.decode (access : Access) : Nat → Json → Decoded Parameter :=
  decodeRecord access "struct ParamDecl"
    [field "name", omittable "type", omittable "modifiers", omittable "span"]
    fun room fields => do
      let name ← fields.required "name" (Ident.decode access room)
      let type ← fields.optional "type" (ResolvedType.decode access room)
      let modifiers ← fields.withDefault "modifiers" .none (Modifiers.decode access room)
      let span ← fields.span access room
      return ⟨name, type, modifiers, span⟩

def Property.known : List Field :=
  [field "name", omittable "type", omittable "modifiers", omittable "initializer",
    omittable "span"]

def Property.ofFields (room : Nat) (fields : Fields) : Decoded Property := do
  let name ← fields.required "name" (Ident.decode .collected room)
  let type ← fields.optional "type" (ResolvedType.decode .collected room)
  let modifiers ← fields.withDefault "modifiers" .none (Modifiers.decode .collected room)
  let initializer ← fields.optional "initializer" (Expr.decode .collected room)
  let span ← fields.span .collected room
  return ⟨name, type, modifiers, initializer, span⟩

def Method.known : List Field :=
  [field "name", omittable "parameters", omittable "return_type", omittable "modifiers",
    omittable "body", omittable "span"]

def Method.ofFields (room : Nat) (fields : Fields) : Decoded Method := do
  let name ← fields.required "name" (Ident.decode .collected room)
  let parameters ←
    fields.withDefault "parameters" [] (decodeList (Parameter.decode .collected) room)
  let returnType ← fields.optional "return_type" (ResolvedType.decode .collected room)
  let modifiers ← fields.withDefault "modifiers" .none (Modifiers.decode .collected room)
  let body ← fields.optional "body" (Block.decode .collected room)
  let span ← fields.span .collected room
  return ⟨name, parameters, returnType, modifiers, body, span⟩

def Constructor.known : List Field :=
  [omittable "parameters", omittable "body", omittable "span"]

def Constructor.ofFields (room : Nat) (fields : Fields) : Decoded Constructor := do
  let parameters ←
    fields.withDefault "parameters" [] (decodeList (Parameter.decode .collected) room)
  let body ← fields.optional "body" (Block.decode .collected room)
  let span ← fields.span .collected room
  return ⟨parameters, body, span⟩

/-- The construct and the span of a declaration that is not looked into. -/
def decodeOther (owner : String) (room : Nat) (content : Content) : Decoded (String × Span) := do
  let fields ← content.fields owner [field "construct", omittable "span"]
  let construct ← fields.required "construct" decodeString
  let span ← fields.span .collected room
  return (construct, span)

inductive ClassMemberKind where
  | property
  | method
  | constructor
  | other

instance : Enumerated ClassMemberKind where
  all := [.property, .method, .constructor, .other]
  name
    | .property => "property"
    | .method => "method"
    | .constructor => "constructor"
    | .other => "other"

/-- Decodes a tagged declaration, which is collected before its content is looked at. -/
def decodeDeclaration {κ α : Type} [Enumerated κ] (access : Access) (owner : String)
    (build : Nat → κ → Content → Decoded α) : Nat → Json → Decoded α
  | 0, v => noRoom owner v
  | room + 1, v => do
    collect access (room + 1) v
    let (kind, content) ← decodeTagged access owner "kind" v
    build room kind content

def ClassMember.decode (access : Access) : Nat → Json → Decoded ClassMember :=
  decodeDeclaration access "internally tagged enum ClassMember" fun room kind content => do
    match (kind : ClassMemberKind) with
    | .property =>
      return .property (← Property.ofFields room
        (← content.fields "struct PropertyDecl" Property.known))
    | .method =>
      return .method (← Method.ofFields room (← content.fields "struct MethodDecl" Method.known))
    | .constructor =>
      return .constructor (← Constructor.ofFields room
        (← content.fields "struct ConstructorDecl" Constructor.known))
    | .other =>
      let (construct, span) ← decodeOther "struct variant ClassMember::Other" room content
      return .other construct span

def Class.known : List Field := [field "name", omittable "members", omittable "span"]

def Class.ofFields (room : Nat) (fields : Fields) : Decoded Class := do
  let name ← fields.required "name" (Ident.decode .collected room)
  let members ← fields.withDefault "members" [] (decodeList (ClassMember.decode .collected) room)
  let span ← fields.span .collected room
  return ⟨name, members, span⟩

def EnumMember.decode (access : Access) : Nat → Json → Decoded EnumMember :=
  decodeRecord access "struct EnumMemberDecl" [field "name", omittable "initializer"]
    fun room fields => do
      let name ← fields.required "name" (Ident.decode access room)
      let initializer ← fields.optional "initializer" (Expr.decode access room)
      return ⟨name, initializer⟩

def Enum.known : List Field := [field "name", omittable "members", omittable "span"]

def Enum.ofFields (room : Nat) (fields : Fields) : Decoded Enum := do
  let name ← fields.required "name" (Ident.decode .collected room)
  let members ← fields.withDefault "members" [] (decodeList (EnumMember.decode .collected) room)
  let span ← fields.span .collected room
  return ⟨name, members, span⟩

inductive ItemKind where
  | enumDecl
  | classDecl
  | other

instance : Enumerated ItemKind where
  all := [.enumDecl, .classDecl, .other]
  name
    | .enumDecl => "enum"
    | .classDecl => "class"
    | .other => "other"

def Item.decode (access : Access) : Nat → Json → Decoded Item :=
  decodeDeclaration access "internally tagged enum Item" fun room kind content => do
    match (kind : ItemKind) with
    | .enumDecl =>
      return .enumDecl (← Enum.ofFields room (← content.fields "struct EnumDecl" Enum.known))
    | .classDecl =>
      return .classDecl (← Class.ofFields room (← content.fields "struct ClassDecl" Class.known))
    | .other =>
      let (construct, span) ← decodeOther "struct variant Item::Other" room content
      return .other construct span

def File.decode (access : Access) : Nat → Json → Decoded File :=
  decodeRecord access "struct SourceFile"
    [omittable "id", omittable "path", field "text", omittable "items"] fun room fields => do
      let id ← fields.withDefault "id" 0 decodeWord32
      let path ← fields.withDefault "path" "" decodeString
      let text ← fields.required "text" decodeString
      let items ← fields.withDefault "items" [] (decodeList (Item.decode access) room)
      return ⟨id, path, text, items⟩

end NeutralSchema.Tree
