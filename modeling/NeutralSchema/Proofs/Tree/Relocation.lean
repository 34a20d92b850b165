import NeutralSchema.Lowering.File

/-!
# Trees with other locations

A relocated tree is the tree with every span replaced. Only the initializers of instance properties
stay where they are, because their spans select source text. Main definitions: `File.relocate` and
`File.unlocated`.
-/
namespace NeutralSchema.Tree

variable (place : Span → Span)

def Ident.relocate (i : Ident) : Ident := ⟨i.text, place i.span⟩

mutual

def Expr.relocate : Expr → Expr
  | .call span callee arguments =>
    .call (place span) callee.relocate (Expr.relocateAll arguments)
  | .binary span left operator right =>
    .binary (place span) left.relocate operator right.relocate
  | .member span target name => .member (place span) target.relocate (name.relocate place)
  | .element span target index => .element (place span) target.relocate index.relocate
  | .identifier span name => .identifier (place span) name
  | .new span type arguments => .new (place span) type (Expr.relocateAll arguments)
  | .conditional span condition whenTrue whenFalse =>
    .conditional (place span) condition.relocate whenTrue.relocate whenFalse.relocate
  | .literal span value => .literal (place span) value
  | .parenthesized span inner => .parenthesized (place span) inner.relocate
  | .unary span side operator operand => .unary (place span) side operator operand.relocate
  | .array span elements => .array (place span) (Expr.relocateAll elements)
  | .self span word => .self (place span) word
  | .wrapped span form inner => .wrapped (place span) form inner.relocate
  | .bare span form => .bare (place span) form
  | .other span construct => .other (place span) construct

def Expr.relocateAll : List Expr → List Expr
  | [] => []
  | e :: es => e.relocate :: Expr.relocateAll es

end

/-- An expression at a span. -/
def Expr.moveTo (span : Span) : Expr → Expr
  | .call _ callee arguments => .call span callee arguments
  | .binary _ left operator right => .binary span left operator right
  | .member _ target name => .member span target name
  | .element _ target index => .element span target index
  | .identifier _ name => .identifier span name
  | .new _ type arguments => .new span type arguments
  | .conditional _ condition whenTrue whenFalse => .conditional span condition whenTrue whenFalse
  | .literal _ value => .literal span value
  | .parenthesized _ inner => .parenthesized span inner
  | .unary _ side operator operand => .unary span side operator operand
  | .array _ elements => .array span elements
  | .self _ word => .self span word
  | .wrapped _ form inner => .wrapped span form inner
  | .bare _ form => .bare span form
  | .other _ construct => .other span construct

def Declarator.relocate (d : Declarator) : Declarator :=
  ⟨d.name.relocate place, d.type, d.initializer.map (Expr.relocate place), place d.span⟩

def LoopInitializer.relocate : LoopInitializer → LoopInitializer
  | .declarators ds => .declarators (ds.map (Declarator.relocate place))
  | .expression e => .expression (e.relocate place)

mutual

def Stmt.relocate : Stmt → Stmt
  | .if span condition thenBranch elseBranch =>
    .if (place span) (condition.relocate place) thenBranch.relocate (Stmt.relocateElse elseBranch)
  | .return span value => .return (place span) (value.map (Expr.relocate place))
  | .throw span value => .throw (place span) (value.relocate place)
  | .expression span value => .expression (place span) (value.relocate place)
  | .variable span declarators =>
    .variable (place span) (declarators.map (Declarator.relocate place))
  | .while span condition body => .while (place span) (condition.relocate place) body.relocate
  | .forOf span initializer items body =>
    .forOf (place span) (initializer.relocate place) (items.relocate place) body.relocate
  | .for span initializer condition step body =>
    .for (place span) (initializer.map (LoopInitializer.relocate place))
      (condition.map (Expr.relocate place)) (step.map (Expr.relocate place)) body.relocate
  | .block span statements => .block (place span) (Stmt.relocateAll statements)
  | .bare span form => .bare (place span) form
  | .other span construct => .other (place span) construct

def Stmt.relocateElse : Option Stmt → Option Stmt
  | none => none
  | some s => some s.relocate

def Stmt.relocateAll : List Stmt → List Stmt
  | [] => []
  | s :: ss => s.relocate :: Stmt.relocateAll ss

end

def Parameter.relocate (p : Parameter) : Parameter :=
  ⟨p.name.relocate place, p.type, p.modifiers, place p.span⟩

/-- The initializer of a property. Unless the property is static, it keeps its own span, though not
those inside it. -/
def Property.relocateInitializer (p : Property) (e : Expr) : Expr :=
  if p.modifiers.isStatic then e.relocate place else (e.relocate place).moveTo e.span

def Property.relocate (p : Property) : Property :=
  ⟨p.name.relocate place, p.type, p.modifiers, p.initializer.map (p.relocateInitializer place),
    place p.span⟩

def Method.relocate (m : Method) : Method :=
  ⟨m.name.relocate place, m.parameters.map (Parameter.relocate place), m.returnType, m.modifiers,
    m.body.map (Stmt.relocateAll place), place m.span⟩

def Constructor.relocate (k : Constructor) : Constructor :=
  ⟨k.parameters.map (Parameter.relocate place), k.body.map (Stmt.relocateAll place), place k.span⟩

def ClassMember.relocate : ClassMember → ClassMember
  | .property p => .property (p.relocate place)
  | .method m => .method (m.relocate place)
  | .constructor k => .constructor (k.relocate place)
  | .other construct span => .other construct (place span)

def Class.relocate (c : Class) : Class :=
  ⟨c.name.relocate place, c.members.map (ClassMember.relocate place), place c.span⟩

def EnumMember.relocate (m : EnumMember) : EnumMember :=
  ⟨m.name.relocate place, m.initializer.map (Expr.relocate place)⟩

def Enum.relocate (e : Enum) : Enum :=
  ⟨e.name.relocate place, e.members.map (EnumMember.relocate place), place e.span⟩

def Item.relocate : Item → Item
  | .enumDecl e => .enumDecl (e.relocate place)
  | .classDecl c => .classDecl (c.relocate place)
  | .other construct span => .other construct (place span)

/-- A file under another id and path, with its spans replaced. -/
def File.relocate (id : FileId) (path : String) (f : File) : File :=
  ⟨id, path, f.text, f.items.map (Item.relocate place)⟩

/-- A file without its id, its path and its spans, except those of the initializers of instance
properties. -/
def File.unlocated (f : File) : File := f.relocate (fun _ => .zero) 0 ""

@[simp] theorem Expr.span_moveTo (span : Span) (e : Expr) : (e.moveTo span).span = span := by
  cases e <;> rfl

@[simp] theorem Expr.span_relocate (e : Expr) : (e.relocate place).span = place e.span := by
  cases e <;> rfl

@[simp] theorem Expr.description_relocate (e : Expr) :
    (e.relocate place).description = e.description := by
  cases e with
  | wrapped span form inner => cases form <;> rfl
  | _ => rfl

@[simp] theorem Stmt.span_relocate (s : Stmt) : (s.relocate place).span = place s.span := by
  cases s <;> rfl

@[simp] theorem Stmt.description_relocate (s : Stmt) :
    (s.relocate place).description = s.description := by
  cases s <;> rfl

end NeutralSchema.Tree
