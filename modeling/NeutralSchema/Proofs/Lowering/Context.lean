import NeutralSchema.Lowering.Statement

/-!
# Contexts

A context is a body with one place left open. In a syntax tree this is a place that lowering lowers
by itself: an expression, a branch or loop body, or some entries of a statement list. In a schema it
is an expression slot or some statements of a block. Main definitions: `Tree.Context` and
`Schema.Context`.
-/
namespace NeutralSchema

/-- Frames inside each other, the outermost one first. -/
inductive Nested {κ : Type} (Frame : κ → κ → Type) : κ → κ → Type
  | hole {k : κ} : Nested Frame k k
  | inside {k l m : κ} (outer : Frame l m) (inner : Nested Frame k l) : Nested Frame k m

namespace Nested

variable {κ : Type} {Frame : κ → κ → Type} {Content : κ → Type}

/-- Fills the innermost frame. -/
def fill (fillFrame : ∀ {i j : κ}, Frame i j → Content i → Content j) {k l : κ} :
    Nested Frame k l → Content k → Content l
  | .hole, x => x
  | .inside outer inner, x => fillFrame outer (inner.fill @fillFrame x)

/-- Puts frames inside others. -/
def append {k l m : κ} : Nested Frame l m → Nested Frame k l → Nested Frame k m
  | .hole, C => C
  | .inside outer inner, C => .inside outer (inner.append C)

theorem fill_append (fillFrame : ∀ {i j : κ}, Frame i j → Content i → Content j) {k l m : κ}
    (C : Nested Frame l m) (D : Nested Frame k l) (x : Content k) :
    (C.append D).fill @fillFrame x = C.fill @fillFrame (D.fill @fillFrame x) := by
  induction C with
  | hole => rfl
  | inside outer inner ih => exact congrArg (fillFrame outer) ih

end Nested

namespace Schema

/-- What may be left open in a schema. -/
inductive Hole where
  | slot
  | block
  deriving DecidableEq

abbrev Hole.Content : Hole → Type
  | .slot => Option Expression
  | .block => Block

/-- What is directly around a slot or a block. -/
inductive Frame : Hole → Hole → Type
  | method (arguments : List (Option Expression)) : Frame .slot .slot
  | argument (method : Option Expression) (before after : List (Option Expression)) :
    Frame .slot .slot
  | left (right : Option Expression) (operator : String) : Frame .slot .slot
  | right (left : Option Expression) (operator : String) : Frame .slot .slot
  | target (property : Option Expression) : Frame .slot .slot
  | property (target : Option Expression) : Frame .slot .slot
  | newArgument (type : DataType) (before after : List (Option Expression)) : Frame .slot .slot
  | condition (whenTrue whenFalse : Option Expression) : Frame .slot .slot
  | whenTrue (condition whenFalse : Option Expression) : Frame .slot .slot
  | whenFalse (condition whenTrue : Option Expression) : Frame .slot .slot
  | parenthesized : Frame .slot .slot
  | operand (side : OperatorSide) (operator : String) : Frame .slot .slot
  | item (before after : List (Option Expression)) : Frame .slot .slot
  | ifCondition (thenBlock : Block) (elseBlock : Option Block) : Frame .slot .block
  | returned : Frame .slot .block
  | thrown : Frame .slot .block
  | evaluated : Frame .slot .block
  | initial (name : String) : Frame .slot .block
  | whileCondition (body : Block) : Frame .slot .block
  | foreachInitial (name : String) (items : Option Expression) (body : Block) : Frame .slot .block
  | foreachItems (item : Option Variable) (body : Block) : Frame .slot .block
  | forInitial (name : String) (condition step : Option Expression) (body : Block) :
    Frame .slot .block
  | forCondition (item : Option Variable) (step : Option Expression) (body : Block) :
    Frame .slot .block
  | forStep (item : Option Variable) (condition : Option Expression) (body : Block) :
    Frame .slot .block
  | thenBlock (condition : Option Expression) (elseBlock : Option Block) : Frame .block .block
  | elseBlock (condition : Option Expression) (thenBlock : Block) : Frame .block .block
  | whileBody (condition : Option Expression) : Frame .block .block
  | foreachBody (item : Option Variable) (items : Option Expression) : Frame .block .block
  | forBody (item : Option Variable) (condition step : Option Expression) : Frame .block .block
  | splice (before after : Block) : Frame .block .block

def fillFrame {k l : Hole} : Frame k l → k.Content → l.Content
  | .method arguments, x => some (.call x arguments)
  | .argument method before after, x => some (.call method (before ++ x :: after))
  | .left right operator, x => some (.binary x right operator)
  | .right left operator, x => some (.binary left x operator)
  | .target property, x => some (.access x property)
  | .property target, x => some (.access target x)
  | .newArgument type before after, x => some (.new type (before ++ x :: after))
  | .condition whenTrue whenFalse, x => some (.conditional x whenTrue whenFalse)
  | .whenTrue condition whenFalse, x => some (.conditional condition x whenFalse)
  | .whenFalse condition whenTrue, x => some (.conditional condition whenTrue x)
  | .parenthesized, x => some (.parenthesized x)
  | .operand side operator, x => some (.unary side operator x)
  | .item before after, x => some (.array (before ++ x :: after))
  | .ifCondition thenBlock elseBlock, x => [.if x thenBlock elseBlock]
  | .returned, x => [.return x]
  | .thrown, x => [.throw x]
  | .evaluated, x => [.expression x]
  | .initial name, x => [.variable ⟨name, x⟩]
  | .whileCondition body, x => [.while x body]
  | .foreachInitial name items body, x => [.foreach (some ⟨name, x⟩) items body]
  | .foreachItems item body, x => [.foreach item x body]
  | .forInitial name condition step body, x => [.for (some ⟨name, x⟩) condition step body]
  | .forCondition item step body, x => [.for item x step body]
  | .forStep item condition body, x => [.for item condition x body]
  | .thenBlock condition elseBlock, x => [.if condition x elseBlock]
  | .elseBlock condition thenBlock, x => [.if condition thenBlock (some x)]
  | .whileBody condition, x => [.while condition x]
  | .foreachBody item items, x => [.foreach item items x]
  | .forBody item condition step, x => [.for item condition step x]
  | .splice before after, x => before ++ x ++ after

/-- A part of a schema with a slot or a block left open. -/
abbrev Context := Nested Frame

def Context.fill {k l : Hole} (C : Context k l) (x : k.Content) : l.Content :=
  @Nested.fill Hole Frame Hole.Content fillFrame k l C x

end Schema

/-- What may be left open in the body of a method or constructor. -/
inductive Part where
  | expression
  | statement (position : Position)
  /-- Entries of a statement list that follow each other. -/
  | entries
  deriving DecidableEq

abbrev Part.Syntax : Part → Type
  | .expression => Tree.Expr
  | .statement _ => Tree.Stmt
  | .entries => List Tree.Stmt

/-- What a part is lowered to. -/
abbrev Part.hole : Part → Schema.Hole
  | .expression => .slot
  | .statement _ | .entries => .block

namespace Tree

/-- What is directly around a part that is lowered by itself. -/
inductive Frame : Part → Part → Type
  | callee (span : Span) (arguments : List Expr) : Frame .expression .expression
  | argument (span : Span) (callee : Expr) (before after : List Expr) :
    Frame .expression .expression
  | left (span : Span) (operator : String) (right : Expr) : Frame .expression .expression
  | right (span : Span) (left : Expr) (operator : String) : Frame .expression .expression
  | memberTarget (span : Span) (name : Ident) : Frame .expression .expression
  | elementTarget (span : Span) (index : Expr) : Frame .expression .expression
  | index (span : Span) (target : Expr) : Frame .expression .expression
  | newArgument (span : Span) (type : Option ResolvedType) (before after : List Expr) :
    Frame .expression .expression
  | condition (span : Span) (whenTrue whenFalse : Expr) : Frame .expression .expression
  | whenTrue (span : Span) (condition whenFalse : Expr) : Frame .expression .expression
  | whenFalse (span : Span) (condition whenTrue : Expr) : Frame .expression .expression
  | parenthesized (span : Span) : Frame .expression .expression
  | operand (span : Span) (side : UnarySide) (operator : String) : Frame .expression .expression
  | item (span : Span) (before after : List Expr) : Frame .expression .expression
  | ifCondition (position : Position) (span : Span) (thenBranch : Stmt)
    (elseBranch : Option Stmt) : Frame .expression (.statement position)
  | returned (position : Position) (span : Span) : Frame .expression (.statement position)
  | thrown (position : Position) (span : Span) : Frame .expression (.statement position)
  | evaluated (position : Position) (span : Span) : Frame .expression (.statement position)
  /-- The initializer of a declarator of a variable statement. -/
  | initial (position : Position) (span : Span) (before : List Declarator) (name : Ident)
    (type : Option ResolvedType) (own : Span) (after : List Declarator) :
    Frame .expression (.statement position)
  | whileCondition (position : Position) (span : Span) (body : Stmt) :
    Frame .expression (.statement position)
  /-- The initializer of the first declarator of a loop. -/
  | forOfInitial (position : Position) (span : Span) (name : Ident) (type : Option ResolvedType)
    (own : Span) (others : List Declarator) (items : Expr) (body : Stmt) :
    Frame .expression (.statement position)
  | forOfItems (position : Position) (span : Span) (initializer : LoopInitializer) (body : Stmt) :
    Frame .expression (.statement position)
  | forInitial (position : Position) (span : Span) (name : Ident) (type : Option ResolvedType)
    (own : Span) (others : List Declarator) (condition step : Option Expr) (body : Stmt) :
    Frame .expression (.statement position)
  | forCondition (position : Position) (span : Span) (initializer : Option LoopInitializer)
    (step : Option Expr) (body : Stmt) : Frame .expression (.statement position)
  | forStep (position : Position) (span : Span) (initializer : Option LoopInitializer)
    (condition : Option Expr) (body : Stmt) : Frame .expression (.statement position)
  | thenBranch (position : Position) (span : Span) (condition : Expr)
    (elseBranch : Option Stmt) : Frame (.statement .body) (.statement position)
  | elseBranch (position : Position) (span : Span) (condition : Expr) (thenBranch : Stmt) :
    Frame (.statement .body) (.statement position)
  | whileBody (position : Position) (span : Span) (condition : Expr) :
    Frame (.statement .body) (.statement position)
  | forOfBody (position : Position) (span : Span) (initializer : LoopInitializer) (items : Expr) :
    Frame (.statement .body) (.statement position)
  | forBody (position : Position) (span : Span) (initializer : Option LoopInitializer)
    (condition step : Option Expr) : Frame (.statement .body) (.statement position)
  /-- The braces around a branch or loop body. -/
  | braces (span : Span) : Frame .entries (.statement .body)
  /-- A statement as the only entry. -/
  | entry : Frame (.statement .entry) .entries
  /-- The other entries of a statement list. -/
  | splice (before after : List Stmt) : Frame .entries .entries

def fillFrame {k l : Part} : Frame k l → k.Syntax → l.Syntax
  | .callee s arguments, x => .call s x arguments
  | .argument s callee before after, x => .call s callee (before ++ x :: after)
  | .left s operator right, x => .binary s x operator right
  | .right s left operator, x => .binary s left operator x
  | .memberTarget s name, x => .member s x name
  | .elementTarget s index, x => .element s x index
  | .index s target, x => .element s target x
  | .newArgument s type before after, x => .new s type (before ++ x :: after)
  | .condition s whenTrue whenFalse, x => .conditional s x whenTrue whenFalse
  | .whenTrue s condition whenFalse, x => .conditional s condition x whenFalse
  | .whenFalse s condition whenTrue, x => .conditional s condition whenTrue x
  | .parenthesized s, x => .parenthesized s x
  | .operand s side operator, x => .unary s side operator x
  | .item s before after, x => .array s (before ++ x :: after)
  | .ifCondition _ s thenBranch elseBranch, x => .if s x thenBranch elseBranch
  | .returned _ s, x => .return s (some x)
  | .thrown _ s, x => .throw s x
  | .evaluated _ s, x => .expression s x
  | .initial _ s before name type own after, x =>
    .variable s (before ++ ⟨name, type, some x, own⟩ :: after)
  | .whileCondition _ s body, x => .while s x body
  | .forOfInitial _ s name type own others items body, x =>
    .forOf s (.declarators (⟨name, type, some x, own⟩ :: others)) items body
  | .forOfItems _ s initializer body, x => .forOf s initializer x body
  | .forInitial _ s name type own others condition step body, x =>
    .for s (some (.declarators (⟨name, type, some x, own⟩ :: others))) condition step body
  | .forCondition _ s initializer step body, x => .for s initializer (some x) step body
  | .forStep _ s initializer condition body, x => .for s initializer condition (some x) body
  | .thenBranch _ s condition elseBranch, x => .if s condition x elseBranch
  | .elseBranch _ s condition thenBranch, x => .if s condition thenBranch (some x)
  | .whileBody _ s condition, x => .while s condition x
  | .forOfBody _ s initializer items, x => .forOf s initializer items x
  | .forBody _ s initializer condition step, x => .for s initializer condition step x
  | .braces s, x => .block s x
  | .entry, x => [x]
  | .splice before after, x => before ++ x ++ after

/-- A part of a syntax tree with a part left open that is lowered by itself. -/
abbrev Context := Nested Frame

def Context.fill {k l : Part} (C : Context k l) (x : k.Syntax) : l.Syntax :=
  @Nested.fill Part Frame Part.Syntax fillFrame k l C x

end Tree

/-- Lowers a part of a body. -/
def lowerPart (file : FileId) : ∀ k : Part, k.Syntax → Lowering k.hole.Content
  | .expression, e => lowerExpression file e
  | .statement position, s => lowerStatementAt position file s
  | .entries, ss => lowerStatements file ss

end NeutralSchema
