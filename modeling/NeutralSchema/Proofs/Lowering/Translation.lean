import NeutralSchema.Lowering.File

/-!
# The translation of a tree

What a tree lowers to, apart from reports and errors. The translation is total: where lowering would
stop, it takes a missing type for `void`, a missing body for an empty one, and an initializer
without source text for an absent one. Main definition: `Tree.File.translation`.
-/
namespace NeutralSchema.Tree

open Schema (DataType Expression Statement Variable)

mutual

def ResolvedType.translation : ResolvedType → DataType
  | .mk name arguments =>
    match (ResolvedType.mk name []).canonicalName with
    | "number" => .int32
    | "string" => .string
    | "boolean" => .boolean
    | "void" => .void
    | "Array" => .array (ResolvedType.translationAll arguments)
    | name => .named (Name.normalize name) (ResolvedType.translationAll arguments)

def ResolvedType.translationAll : List ResolvedType → List DataType
  | [] => []
  | t :: ts => t.translation :: ResolvedType.translationAll ts

end

/-- The translation of a type that has to be there. -/
def typeTranslation (type : Option ResolvedType) : DataType :=
  (type.map ResolvedType.translation).getD .void

mutual

/-- The translation of an expression, if a schema expresses it. -/
def Expr.translation : Expr → Option Expression
  | .call _ callee arguments => some (.call callee.translation (Expr.translationAll arguments))
  | .binary _ left operator right =>
    some (.binary left.translation right.translation operator)
  | .member _ target name =>
    some (.access target.translation (some (.identifier (Name.normalize name.text))))
  | .element _ target index => some (.access target.translation index.translation)
  | .identifier _ name => some (.identifier (Name.normalize name))
  | .new _ type arguments => some (.new (typeTranslation type) (Expr.translationAll arguments))
  | .conditional _ condition whenTrue whenFalse =>
    some (.conditional condition.translation whenTrue.translation whenFalse.translation)
  | .literal _ value => some (lowerLiteral value)
  | .parenthesized _ inner => some (.parenthesized inner.translation)
  | .unary _ side operator operand =>
    some (.unary (lowerSide side) operator operand.translation)
  | .array _ elements => some (.array (Expr.translationAll elements))
  | .self _ word => some (lowerSelf word)
  | .wrapped .. | .bare .. | .other .. => none

def Expr.translationAll : List Expr → List (Option Expression)
  | [] => []
  | e :: es => e.translation :: Expr.translationAll es

end

/-- The translation of an expression that may be absent. -/
def optionalTranslation (e : Option Expr) : Option Expression := e.bind Expr.translation

def Declarator.translation (d : Declarator) : Variable :=
  ⟨Name.normalize d.name.text, optionalTranslation d.initializer⟩

/-- The item variable that the first clause of a loop header names, if there is one. -/
def LoopInitializer.translation : LoopInitializer → Option Variable
  | .declarators (d :: _) => some d.translation
  | .expression (.identifier _ name) => some (.named (Name.normalize name))
  | _ => none

mutual

/-- The translation of a statement. Only as a body may a statement be a block. -/
def Stmt.translation (position : Position) : Stmt → Schema.Block
  | .if _ condition thenBranch elseBranch =>
    [.if condition.translation (thenBranch.translation .body) (Stmt.translationElse elseBranch)]
  | .return _ value => [.return (optionalTranslation value)]
  | .throw _ value => [.throw value.translation]
  | .expression _ value => [.expression value.translation]
  | .variable _ declarators => declarators.map fun d => .variable d.translation
  | .while _ condition body => [.while condition.translation (body.translation .body)]
  | .forOf _ initializer items body =>
    [.foreach initializer.translation items.translation (body.translation .body)]
  | .for _ initializer condition step body =>
    [.for (initializer.bind LoopInitializer.translation) (optionalTranslation condition)
      (optionalTranslation step) (body.translation .body)]
  | .block _ statements =>
    match position with
    | .entry => []
    | .body => Stmt.translationAll statements
  | .bare .. | .other .. => []

def Stmt.translationElse : Option Stmt → Option Schema.Block
  | none => none
  | some s => some (s.translation .body)

def Stmt.translationAll : List Stmt → Schema.Block
  | [] => []
  | s :: ss => s.translation .entry ++ Stmt.translationAll ss

end

/-- The translation of a body that has to be there. -/
def bodyTranslation (body : Option Block) : Schema.Block := (body.map Stmt.translationAll).getD []

def Parameter.translation (p : Parameter) : Schema.Parameter :=
  ⟨Name.normalize p.name.text, typeTranslation p.type⟩

def Visibility.translation : Visibility → Schema.Visibility
  | .everywhere => .everywhere
  | .subclasses => .subclasses
  | .inside => .inside

/-- Where a field may be used: inside its class alone if the declaration does not say. -/
def Modifiers.fieldVisibility (m : Modifiers) : Schema.Visibility :=
  (m.visibility.map Visibility.translation).getD .inside

theorem lowerVisibility_eq (m : Modifiers) : lowerVisibility m.visibility = m.fieldVisibility := by
  rcases m with ⟨_ | v, _, _⟩
  · rfl
  · cases v <;> rfl

/-- The field that a promoted parameter declares. -/
def Parameter.fieldTranslation (p : Parameter) : Schema.Field :=
  ⟨typeTranslation p.type, p.modifiers.fieldVisibility, none⟩

def Property.translation (f : File) (p : Property) : Schema.Field :=
  ⟨typeTranslation p.type, p.modifiers.fieldVisibility,
    p.initializer.bind fun e => f.textAt? e.span⟩

def Method.translation (m : Method) : Schema.Method :=
  ⟨m.parameters.map Parameter.translation, typeTranslation m.returnType, bodyTranslation m.body⟩

def Constructor.translation (k : Constructor) : Schema.Constructor :=
  ⟨k.parameters.map Parameter.translation, bodyTranslation k.body⟩

/-- The fields of a class after those that the promoted parameters declare. -/
def promotedTranslation (fields : OrderedMap Schema.Field) (ps : List Parameter) :
    OrderedMap Schema.Field :=
  (ps.filter Parameter.isPromoted).foldl
    (fun fields p => fields.insert (Name.normalize p.name.text) p.fieldTranslation) fields

/-- A class with one more member of its declaration. -/
def memberTranslation (f : File) (c : Schema.Class) : ClassMember → Schema.Class
  | .property p =>
    if p.modifiers.isStatic then c
    else { c with fields := c.fields.insert (Name.normalize p.name.text) (p.translation f) }
  | .method m =>
    if m.modifiers.isStatic then c
    else { c with methods := c.methods.insert (Name.normalize m.name.text) m.translation }
  | .constructor k =>
    match c.constructor with
    | some _ => c
    | none =>
      { c with
        fields := promotedTranslation c.fields k.parameters
        constructor := some k.translation }
  | .other _ _ => c

def Class.translation (f : File) (c : Class) : Schema.Class :=
  c.members.foldl (memberTranslation f) .empty

def Enum.translation (e : Enum) : Schema.Enum :=
  ⟨e.members.map fun m => Name.normalize m.name.text⟩

/-- A schema with one more declaration. -/
def itemTranslation (f : File) (s : Schema.File) : Item → Schema.File
  | .enumDecl e => { s with enums := s.enums.insert (Name.normalize e.name.text) e.translation }
  | .classDecl c =>
    { s with classes := s.classes.insert (Name.normalize c.name.text) (c.translation f) }
  | .other _ _ => s

/-- What a file lowers to, apart from reports and errors. -/
def File.translation (f : File) : Schema.File := f.items.foldl (itemTranslation f) .empty

end NeutralSchema.Tree
