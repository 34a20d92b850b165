import NeutralSchema.Lowering.File

/-!
# What lowering comes upon in a tree

The visits of a tree are the places that lowering looks at, in the order in which it does. They are
read off the tree alone: what is skipped (static members, later constructors, operands of an
expression that no schema expresses, blocks in a statement list) has no visits, and what comes after
a violation still has them. Main definition: `Tree.File.visits`.
-/
namespace NeutralSchema

/-- A place that lowering looks at. -/
inductive Visit where
  /-- A name. It is `promoted` where a parameter is looked at for the field that it declares, which
  comes before it is looked at as a parameter. -/
  | name (promoted : Bool) (text : String) (span : Span)
  /-- The place of a type that has to be there. -/
  | type (owner : Owner) (span : Span) (type : Option Tree.ResolvedType)
  /-- The place of a body that has to be there. -/
  | body (owner : Owner) (span : Span) (body : Option Tree.Block)
  /-- The initializer of a property, of which only the source text counts. -/
  | initializer (span : Span)
  | expression (e : Tree.Expr)
  | statement (position : Position) (s : Tree.Stmt)
  /-- The first clause of the header of the loop at `span`. -/
  | loopInitializer (span : Span) (initializer : Tree.LoopInitializer)
  /-- A constructor after the first one of its class. -/
  | laterConstructor (className : String) (span : Span)

namespace Tree

mutual

/-- The class names in a type, from the outside in. Primitive types have none, not even in their
arguments, and the name of an array is no class. -/
def ResolvedType.classNames : ResolvedType → List String
  | .mk name arguments =>
    match (ResolvedType.mk name []).canonicalName with
    | "number" | "string" | "boolean" | "void" => []
    | "Array" => ResolvedType.classNamesAll arguments
    | name => name :: ResolvedType.classNamesAll arguments

def ResolvedType.classNamesAll : List ResolvedType → List String
  | [] => []
  | t :: ts => t.classNames ++ ResolvedType.classNamesAll ts

end

/-- The visits of a declared type: its place, then its class names. -/
def typeVisits (promoted : Bool) (owner : Owner) (span : Span) (type : Option ResolvedType) :
    List Visit :=
  .type owner span type :: ((type.map ResolvedType.classNames).getD []).map (.name promoted · span)

mutual

/-- The visits of an expression: itself, then what it is made of, if a schema expresses it. -/
def Expr.visits (e : Expr) : List Visit :=
  .expression e ::
    match e with
    | .call _ callee arguments => callee.visits ++ Expr.visitsAll arguments
    | .binary _ left _ right => left.visits ++ right.visits
    | .member _ target name => target.visits ++ [.name false name.text name.span]
    | .element _ target index => target.visits ++ index.visits
    | .identifier span name => [.name false name span]
    | .new span type arguments =>
      typeVisits false .newExpression span type ++ Expr.visitsAll arguments
    | .conditional _ condition whenTrue whenFalse =>
      condition.visits ++ (whenTrue.visits ++ whenFalse.visits)
    | .parenthesized _ inner => inner.visits
    | .unary _ _ _ operand => operand.visits
    | .array _ elements => Expr.visitsAll elements
    | .literal .. | .self .. | .wrapped .. | .bare .. | .other .. => []

def Expr.visitsAll : List Expr → List Visit
  | [] => []
  | e :: es => e.visits ++ Expr.visitsAll es

end

/-- The visits of an expression that may be absent. -/
def optionalVisits (e : Option Expr) : List Visit := (e.map Expr.visits).getD []

def Declarator.visits (d : Declarator) : List Visit :=
  .name false d.name.text d.name.span :: optionalVisits d.initializer

/-- The visits of the first clause of a loop header: itself, then its first declarator or its bare
identifier. -/
def LoopInitializer.visits (span : Span) (initializer : LoopInitializer) : List Visit :=
  .loopInitializer span initializer ::
    match initializer with
    | .declarators (d :: _) => d.visits
    | .expression (.identifier own name) => [.name false name own]
    | _ => []

mutual

/-- The visits of a statement: itself, then what it is made of, if a schema expresses it where it
stands. -/
def Stmt.visits (position : Position) (s : Stmt) : List Visit :=
  .statement position s ::
    match s with
    | .if _ condition thenBranch elseBranch =>
      condition.visits ++ (thenBranch.visits .body ++ Stmt.visitsElse elseBranch)
    | .return _ value => optionalVisits value
    | .throw _ value => value.visits
    | .expression _ value => value.visits
    | .variable _ declarators => declarators.flatMap Declarator.visits
    | .while _ condition body => condition.visits ++ body.visits .body
    | .forOf span initializer items body =>
      initializer.visits span ++ (items.visits ++ body.visits .body)
    | .for span initializer condition step body =>
      (initializer.map (LoopInitializer.visits span)).getD [] ++
        (optionalVisits condition ++ (optionalVisits step ++ body.visits .body))
    | .block _ statements =>
      match position with
      | .entry => []
      | .body => Stmt.visitsAll statements
    | .bare .. | .other .. => []

def Stmt.visitsElse : Option Stmt → List Visit
  | none => []
  | some s => s.visits .body

/-- The visits of the entries of a statement list. -/
def Stmt.visitsAll : List Stmt → List Visit
  | [] => []
  | s :: ss => s.visits .entry ++ Stmt.visitsAll ss

end

/-- The visits of a body that has to be there: its place, then its statements. -/
def bodyVisits (owner : Owner) (span : Span) (body : Option Block) : List Visit :=
  .body owner span body :: (body.map Stmt.visitsAll).getD []

def Parameter.visits (promoted : Bool) (className : String) (p : Parameter) : List Visit :=
  .name promoted p.name.text p.name.span ::
    typeVisits promoted (.parameter className (Name.normalize p.name.text)) p.span p.type

/-- The visits of an instance property of a class with a normalized name. -/
def Property.visits (className : String) (p : Property) : List Visit :=
  .name false p.name.text p.name.span ::
    (typeVisits false (.field className (Name.normalize p.name.text)) p.span p.type ++
      (p.initializer.map fun e => [Visit.initializer e.span]).getD [])

/-- The visits of an instance method of a class with a normalized name. -/
def Method.visits (className : String) (m : Method) : List Visit :=
  .name false m.name.text m.name.span ::
    (typeVisits false (.returnType className (Name.normalize m.name.text)) m.span m.returnType ++
      (m.parameters.flatMap (Parameter.visits false className) ++
        bodyVisits (.method className (Name.normalize m.name.text)) m.span m.body))

/-- The visits of the first constructor of a class: the parameters that declare fields, then all
parameters, then the body. -/
def Constructor.visits (className : String) (k : Constructor) : List Visit :=
  (k.parameters.filter Parameter.isPromoted).flatMap (Parameter.visits true className) ++
    (k.parameters.flatMap (Parameter.visits false className) ++
      bodyVisits (.constructor className) k.span k.body)

/-- The visits of the members of a class, which has had its first constructor or not. -/
def memberVisits (declared className : String) (hasConstructor : Bool) :
    List ClassMember → List Visit
  | [] => []
  | .property p :: ms =>
    (if p.modifiers.isStatic then [] else p.visits className) ++
      memberVisits declared className hasConstructor ms
  | .method m :: ms =>
    (if m.modifiers.isStatic then [] else m.visits className) ++
      memberVisits declared className hasConstructor ms
  | .constructor k :: ms =>
    (if hasConstructor then [.laterConstructor declared k.span] else k.visits className) ++
      memberVisits declared className true ms
  | .other _ _ :: ms => memberVisits declared className hasConstructor ms

def Class.visits (c : Class) : List Visit :=
  .name false c.name.text c.name.span ::
    memberVisits c.name.text (Name.normalize c.name.text) false c.members

def Enum.visits (e : Enum) : List Visit :=
  .name false e.name.text e.name.span ::
    e.members.map fun m => .name false m.name.text m.name.span

def Item.visits : Item → List Visit
  | .enumDecl e => e.visits
  | .classDecl c => c.visits
  | .other _ _ => []

/-- What lowering comes upon in a file, in order. -/
def File.visits (f : File) : List Visit := f.items.flatMap Item.visits

end Tree
end NeutralSchema
