import NeutralSchema.Tree.Basic

/-!
# Edits of a tree

An edit changes names, types and missing parts everywhere in a tree, also where lowering does not
look, and leaves everything else as it is. Main definition: `File.edit`.
-/
namespace NeutralSchema.Tree

structure Edit where
  /-- The new spelling of a name. -/
  name : String → String
  /-- What a type becomes. -/
  type : ResolvedType → ResolvedType
  /-- Whether a missing type becomes `void` and a missing body an empty one. -/
  fills : Bool
  /-- Whether the initializer of a property stays, by its span. -/
  keeps : Span → Bool

namespace Edit

def ident (E : Edit) (i : Ident) : Ident := ⟨E.name i.text, i.span⟩

/-- The type of a declaration or of a new instance. -/
def declared (E : Edit) : Option ResolvedType → Option ResolvedType
  | some t => some (E.type t)
  | none => if E.fills then some (.intrinsic "void") else none

end Edit

variable (E : Edit)

mutual

def Expr.edit : Expr → Expr
  | .call span callee arguments => .call span callee.edit (Expr.editAll arguments)
  | .binary span left operator right => .binary span left.edit operator right.edit
  | .member span target name => .member span target.edit (E.ident name)
  | .element span target index => .element span target.edit index.edit
  | .identifier span name => .identifier span (E.name name)
  | .new span type arguments => .new span (E.declared type) (Expr.editAll arguments)
  | .conditional span condition whenTrue whenFalse =>
    .conditional span condition.edit whenTrue.edit whenFalse.edit
  | .literal span value => .literal span value
  | .parenthesized span inner => .parenthesized span inner.edit
  | .unary span side operator operand => .unary span side operator operand.edit
  | .array span elements => .array span (Expr.editAll elements)
  | .self span word => .self span word
  | .wrapped span form inner => .wrapped span form inner.edit
  | .bare span form => .bare span form
  | .other span construct => .other span construct

def Expr.editAll : List Expr → List Expr
  | [] => []
  | e :: es => e.edit :: Expr.editAll es

end

def Declarator.edit (d : Declarator) : Declarator :=
  ⟨E.ident d.name, E.declared d.type, d.initializer.map (Expr.edit E), d.span⟩

def LoopInitializer.edit : LoopInitializer → LoopInitializer
  | .declarators ds => .declarators (ds.map (Declarator.edit E))
  | .expression e => .expression (e.edit E)

mutual

def Stmt.edit : Stmt → Stmt
  | .if span condition thenBranch elseBranch =>
    .if span (condition.edit E) thenBranch.edit (Stmt.editElse elseBranch)
  | .return span value => .return span (value.map (Expr.edit E))
  | .throw span value => .throw span (value.edit E)
  | .expression span value => .expression span (value.edit E)
  | .variable span declarators => .variable span (declarators.map (Declarator.edit E))
  | .while span condition body => .while span (condition.edit E) body.edit
  | .forOf span initializer items body =>
    .forOf span (initializer.edit E) (items.edit E) body.edit
  | .for span initializer condition step body =>
    .for span (initializer.map (LoopInitializer.edit E)) (condition.map (Expr.edit E))
      (step.map (Expr.edit E)) body.edit
  | .block span statements => .block span (Stmt.editAll statements)
  | .bare span form => .bare span form
  | .other span construct => .other span construct

def Stmt.editElse : Option Stmt → Option Stmt
  | none => none
  | some s => some s.edit

def Stmt.editAll : List Stmt → List Stmt
  | [] => []
  | s :: ss => s.edit :: Stmt.editAll ss

end

/-- The body of a method or constructor. -/
def Edit.body : Option Block → Option Block
  | some ss => some (Stmt.editAll E ss)
  | none => if E.fills then some [] else none

def Parameter.edit (p : Parameter) : Parameter :=
  ⟨E.ident p.name, E.declared p.type, p.modifiers, p.span⟩

def Property.edit (p : Property) : Property :=
  ⟨E.ident p.name, E.declared p.type, p.modifiers,
    (p.initializer.filter (E.keeps ·.span)).map (Expr.edit E), p.span⟩

def Method.edit (m : Method) : Method :=
  ⟨E.ident m.name, m.parameters.map (Parameter.edit E), E.declared m.returnType, m.modifiers,
    E.body m.body, m.span⟩

def Constructor.edit (k : Constructor) : Constructor :=
  ⟨k.parameters.map (Parameter.edit E), E.body k.body, k.span⟩

def ClassMember.edit : ClassMember → ClassMember
  | .property p => .property (p.edit E)
  | .method m => .method (m.edit E)
  | .constructor k => .constructor (k.edit E)
  | .other construct span => .other construct span

def Class.edit (c : Class) : Class :=
  ⟨E.ident c.name, c.members.map (ClassMember.edit E), c.span⟩

def EnumMember.edit (m : EnumMember) : EnumMember :=
  ⟨E.ident m.name, m.initializer.map (Expr.edit E)⟩

def Enum.edit (e : Enum) : Enum :=
  ⟨E.ident e.name, e.members.map (EnumMember.edit E), e.span⟩

def Item.edit : Item → Item
  | .enumDecl e => .enumDecl (e.edit E)
  | .classDecl c => .classDecl (c.edit E)
  | .other construct span => .other construct span

/-- A file with its declarations edited. -/
def File.edit (f : File) : File := { f with items := f.items.map (Item.edit E) }

@[simp] theorem Expr.span_edit (e : Expr) : (e.edit E).span = e.span := by
  cases e <;> rfl

@[simp] theorem Expr.description_edit (e : Expr) : (e.edit E).description = e.description := by
  cases e with
  | wrapped span form inner => cases form <;> rfl
  | _ => rfl

@[simp] theorem Stmt.span_edit (s : Stmt) : (s.edit E).span = s.span := by
  cases s <;> rfl

@[simp] theorem Stmt.description_edit (s : Stmt) : (s.edit E).description = s.description := by
  cases s <;> rfl

end NeutralSchema.Tree
