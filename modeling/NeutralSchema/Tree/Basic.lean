import NeutralSchema.Span

/-!
# Resolved syntax trees

What a front end hands over for one source file of a class-based language: every declaration
carries its resolved type and its modifiers. The tree also has shapes that no schema can express;
they are kept so that they can be reported.
-/
namespace NeutralSchema.Tree

structure Ident where
  text : String
  span : Span
  deriving DecidableEq, Repr

/-- A resolved type: built into the language, or declared under the name of a symbol. -/
inductive TypeName where
  | intrinsic (name : String)
  | symbol (name : String)
  deriving DecidableEq, Repr

inductive ResolvedType where
  | mk (name : TypeName) (arguments : List ResolvedType)
  deriving Repr, BEq

namespace ResolvedType

def name : ResolvedType → TypeName
  | mk name _ => name

def arguments : ResolvedType → List ResolvedType
  | mk _ arguments => arguments

def intrinsic (name : String) : ResolvedType := ⟨.intrinsic name, []⟩

def symbol (name : String) : ResolvedType := ⟨.symbol name, []⟩

def generic (name : String) (arguments : List ResolvedType) : ResolvedType :=
  ⟨.symbol name, arguments⟩

def canonicalName (t : ResolvedType) : String :=
  match t.name with
  | .intrinsic name => name
  | .symbol name => name

end ResolvedType

inductive Literal where
  /-- A string, by its unquoted content. -/
  | string (value : String)
  | numeric (text : String)
  | boolean (value : Bool)
  | null
  deriving DecidableEq, Repr

inductive UnarySide where
  | before
  | after
  deriving DecidableEq, Repr

inductive SelfWord where
  | this
  | super
  deriving DecidableEq, Repr

/-- Forms around a single expression that no schema expresses. -/
inductive WrapperForm where
  | spread
  | typeAssertion
  | await
  | typeOf
  | delete
  deriving DecidableEq, Repr

/-- Forms without recorded parts that no schema expresses. -/
inductive BareForm where
  | arrowFunction
  | functionExpression
  | objectLiteral
  | templateLiteral
  | regexLiteral
  deriving DecidableEq, Repr

inductive Expr where
  | call (span : Span) (callee : Expr) (arguments : List Expr)
  /-- An operation on two operands, assignments included. -/
  | binary (span : Span) (left : Expr) (operator : String) (right : Expr)
  | member (span : Span) (object : Expr) (name : Ident)
  | element (span : Span) (object index : Expr)
  | identifier (span : Span) (name : String)
  | new (span : Span) (type : Option ResolvedType) (arguments : List Expr)
  | conditional (span : Span) (condition whenTrue whenFalse : Expr)
  | literal (span : Span) (value : Literal)
  | parenthesized (span : Span) (inner : Expr)
  | unary (span : Span) (side : UnarySide) (operator : String) (operand : Expr)
  | array (span : Span) (elements : List Expr)
  | self (span : Span) (word : SelfWord)
  | wrapped (span : Span) (form : WrapperForm) (inner : Expr)
  | bare (span : Span) (form : BareForm)
  /-- Anything else, by the name of its construct. -/
  | other (span : Span) (construct : String)
  deriving Repr, BEq

def Expr.span : Expr → Span
  | .call s .. | .binary s .. | .member s .. | .element s .. | .identifier s .. | .new s ..
  | .conditional s .. | .literal s .. | .parenthesized s .. | .unary s .. | .array s ..
  | .self s .. | .wrapped s .. | .bare s .. | .other s .. => s

/-- The shape of an expression, without its parts. -/
inductive ExprKind where
  | call
  | binary
  | member
  | element
  | identifier
  | new
  | conditional
  | stringLiteral
  | numericLiteral
  | booleanLiteral
  | nullLiteral
  | parenthesized
  | unary (side : UnarySide)
  | array
  | self (word : SelfWord)
  | wrapped (form : WrapperForm)
  | bare (form : BareForm)
  | other
  deriving DecidableEq, Repr

def ExprKind.name : ExprKind → String
  | .call => "call"
  | .binary => "binary"
  | .member => "property_access"
  | .element => "element_access"
  | .identifier => "identifier"
  | .new => "new"
  | .conditional => "conditional"
  | .stringLiteral => "string_literal"
  | .numericLiteral => "numeric_literal"
  | .booleanLiteral => "boolean_literal"
  | .nullLiteral => "null_literal"
  | .parenthesized => "parenthesized"
  | .unary .before => "prefix_unary"
  | .unary .after => "postfix_unary"
  | .array => "array_literal"
  | .self .this => "this"
  | .self .super => "super"
  | .wrapped .spread => "spread"
  | .wrapped .typeAssertion => "type_assertion"
  | .wrapped .await => "await"
  | .wrapped .typeOf => "type_of"
  | .wrapped .delete => "delete"
  | .bare .arrowFunction => "arrow_function"
  | .bare .functionExpression => "function_expression"
  | .bare .objectLiteral => "object_literal"
  | .bare .templateLiteral => "template_literal"
  | .bare .regexLiteral => "regex_literal"
  | .other => "other"

def ExprKind.all : List ExprKind :=
  [.call, .binary, .member, .element, .identifier, .new, .conditional, .stringLiteral,
    .numericLiteral, .booleanLiteral, .nullLiteral, .parenthesized, .unary .before,
    .unary .after, .array, .self .this, .self .super, .wrapped .spread, .bare .arrowFunction,
    .bare .functionExpression, .bare .objectLiteral, .bare .templateLiteral, .bare .regexLiteral,
    .wrapped .typeAssertion, .wrapped .await, .wrapped .typeOf, .wrapped .delete, .other]

def Literal.kind : Literal → ExprKind
  | .string _ => .stringLiteral
  | .numeric _ => .numericLiteral
  | .boolean _ => .booleanLiteral
  | .null => .nullLiteral

def Expr.kind : Expr → ExprKind
  | .call .. => .call
  | .binary .. => .binary
  | .member .. => .member
  | .element .. => .element
  | .identifier .. => .identifier
  | .new .. => .new
  | .conditional .. => .conditional
  | .literal _ value => value.kind
  | .parenthesized .. => .parenthesized
  | .unary _ side .. => .unary side
  | .array .. => .array
  | .self _ word => .self word
  | .wrapped _ form _ => .wrapped form
  | .bare _ form => .bare form
  | .other .. => .other

/-- What reports call an expression: its kind, or the construct it was handed over as. -/
def Expr.description : Expr → String
  | .wrapped _ .typeOf _ => "typeof"
  | .other _ construct => construct
  | e => e.kind.name

structure Declarator where
  name : Ident
  type : Option ResolvedType
  initializer : Option Expr
  span : Span
  deriving Repr, BEq

/-- The first clause of a loop header. -/
inductive LoopInitializer where
  | declarators (declarators : List Declarator)
  | expression (expression : Expr)
  deriving Repr, BEq

/-- Statements without recorded parts that no schema expresses. -/
inductive BareStatement where
  | doWhile
  | forIn
  | switch
  | try
  | break
  | continue
  | labeled
  | empty
  deriving DecidableEq, Repr

inductive Stmt where
  | if (span : Span) (condition : Expr) (thenBranch : Stmt) (elseBranch : Option Stmt)
  | return (span : Span) (value : Option Expr)
  | throw (span : Span) (value : Expr)
  | expression (span : Span) (expression : Expr)
  | variable (span : Span) (declarators : List Declarator)
  | while (span : Span) (condition : Expr) (body : Stmt)
  | forOf (span : Span) (initializer : LoopInitializer) (items : Expr) (body : Stmt)
  | for (span : Span) (initializer : Option LoopInitializer) (condition step : Option Expr)
      (body : Stmt)
  | block (span : Span) (statements : List Stmt)
  | bare (span : Span) (form : BareStatement)
  /-- Anything else, by the name of its construct. -/
  | other (span : Span) (construct : String)
  deriving Repr, BEq

/-- The statements between a pair of braces. -/
abbrev Block := List Stmt

def Stmt.span : Stmt → Span
  | .if s .. | .return s .. | .throw s .. | .expression s .. | .variable s .. | .while s ..
  | .forOf s .. | .for s .. | .block s .. | .bare s .. | .other s .. => s

inductive StmtKind where
  | if
  | return
  | throw
  | expression
  | variable
  | while
  | forOf
  | for
  | block
  | bare (form : BareStatement)
  | other
  deriving DecidableEq, Repr

def StmtKind.name : StmtKind → String
  | .if => "if"
  | .return => "return"
  | .throw => "throw"
  | .expression => "expression"
  | .variable => "variable"
  | .while => "while"
  | .forOf => "for_of"
  | .for => "for"
  | .block => "block"
  | .bare .doWhile => "do_while"
  | .bare .forIn => "for_in"
  | .bare .switch => "switch"
  | .bare .try => "try"
  | .bare .break => "break"
  | .bare .continue => "continue"
  | .bare .labeled => "labeled"
  | .bare .empty => "empty"
  | .other => "other"

def StmtKind.all : List StmtKind :=
  [.if, .return, .throw, .expression, .variable, .while, .forOf, .for, .block, .bare .doWhile,
    .bare .forIn, .bare .switch, .bare .try, .bare .break, .bare .continue, .bare .labeled,
    .bare .empty, .other]

def Stmt.kind : Stmt → StmtKind
  | .if .. => .if
  | .return .. => .return
  | .throw .. => .throw
  | .expression .. => .expression
  | .variable .. => .variable
  | .while .. => .while
  | .forOf .. => .forOf
  | .for .. => .for
  | .block .. => .block
  | .bare _ form => .bare form
  | .other .. => .other

def Stmt.description : Stmt → String
  | .other _ construct => construct
  | s => s.kind.name

inductive Visibility where
  | everywhere
  | subclasses
  | inside
  deriving DecidableEq, Repr

structure Modifiers where
  visibility : Option Visibility
  isStatic : Bool
  isReadonly : Bool
  deriving DecidableEq, Repr

def Modifiers.none : Modifiers := ⟨.none, false, false⟩

structure Parameter where
  name : Ident
  type : Option ResolvedType
  modifiers : Modifiers
  span : Span
  deriving Repr, BEq

/-- Whether the parameter also declares a field. -/
def Parameter.isPromoted (p : Parameter) : Bool :=
  p.modifiers.visibility.isSome || p.modifiers.isReadonly

structure Property where
  name : Ident
  type : Option ResolvedType
  modifiers : Modifiers
  initializer : Option Expr
  span : Span
  deriving Repr, BEq

structure Method where
  name : Ident
  parameters : List Parameter
  returnType : Option ResolvedType
  modifiers : Modifiers
  body : Option Block
  span : Span
  deriving Repr, BEq

structure Constructor where
  parameters : List Parameter
  body : Option Block
  span : Span
  deriving Repr, BEq

inductive ClassMember where
  | property (property : Property)
  | method (method : Method)
  | constructor (constructor : Constructor)
  /-- Accessors, index signatures and the like. -/
  | other (construct : String) (span : Span)
  deriving Repr, BEq

structure Class where
  name : Ident
  members : List ClassMember
  span : Span
  deriving Repr, BEq

structure EnumMember where
  name : Ident
  initializer : Option Expr
  deriving Repr, BEq

structure Enum where
  name : Ident
  members : List EnumMember
  span : Span
  deriving Repr, BEq

inductive Item where
  | enumDecl (decl : Enum)
  | classDecl (decl : Class)
  /-- Functions, interfaces, type aliases and the like. -/
  | other (construct : String) (span : Span)
  deriving Repr, BEq

structure File where
  id : FileId
  path : String
  text : String
  items : List Item
  deriving Repr, BEq

def File.fileSpan (f : File) (span : Span) : FileSpan := ⟨f.id, span⟩

end NeutralSchema.Tree
