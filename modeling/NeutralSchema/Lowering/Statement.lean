import NeutralSchema.Lowering.Expression

/-!
# Lowering statements

A statement lowers to any number of schema statements: one for each declarator of a variable
statement, none where no schema expresses it, and one otherwise. Every branch and loop body becomes
a block.
-/
namespace NeutralSchema

open Schema (Statement Variable)

def lowerVariable (file : FileId) (d : Tree.Declarator) : Lowering Variable := do
  let name ← lowerName d.name.text ⟨file, d.name.span⟩
  return ⟨name, ← lowerOptional file d.initializer⟩

def lowerVariables (file : FileId) : List Tree.Declarator → Lowering (List Statement)
  | [] => return []
  | d :: ds => do
    let v ← lowerVariable file d
    return .variable v :: (← lowerVariables file ds)

/-- The item variable of a loop whose statement is at `span`: its only declarator, or the bare
identifier in its header. -/
def lowerLoopInitializer (file : FileId) (span : Span) :
    Tree.LoopInitializer → Lowering (Option Variable)
  | .declarators [] => do
    report ⟨.unsupportedLoopInitializer, "Loop initializer declares no variable",
      some ⟨file, span⟩⟩
    return none
  | .declarators [d] => return some (← lowerVariable file d)
  | .declarators (d :: ds) => do
    report ⟨.unsupportedLoopInitializer,
      "Loop initializer declares " ++ toString (ds.length + 1) ++ " variables; only `"
        ++ d.name.text ++ "` is kept", some ⟨file, span⟩⟩
    return some (← lowerVariable file d)
  | .expression (.identifier own name) => return some (.named (← lowerName name ⟨file, own⟩))
  | .expression e => do
    report ⟨.unsupportedLoopInitializer,
      "Unsupported loop initializer: " ++ e.description ++ " expression", some ⟨file, e.span⟩⟩
    return none

def rejectStatement (file : FileId) (s : Tree.Stmt) : Lowering (List Statement) := do
  report ⟨.unexpectedStatement, "Unexpected statement kind: " ++ s.description,
    some ⟨file, s.span⟩⟩
  return []

def lowerOptionalInitializer (file : FileId) (span : Span) :
    Option Tree.LoopInitializer → Lowering (Option Variable)
  | none => return none
  | some initializer => lowerLoopInitializer file span initializer

/-- Where a statement stands: as an entry of a statement list, or as the body of a branch or
loop. -/
inductive Position where
  | entry
  | body
  deriving DecidableEq, Repr

mutual

/-- The schema statements of a statement in a file. Only as a body may a statement be a block. -/
def lowerStatementAt (position : Position) (file : FileId) :
    Tree.Stmt → Lowering (List Statement)
  | .if _ condition thenBranch elseBranch => do
    let condition ← lowerExpression file condition
    let thenBlock ← lowerStatementAt .body file thenBranch
    return [.if condition thenBlock (← lowerElse file elseBranch)]
  | .return _ value => return [.return (← lowerOptional file value)]
  | .throw _ value => return [.throw (← lowerExpression file value)]
  | .expression _ value => return [.expression (← lowerExpression file value)]
  | .variable _ declarators => lowerVariables file declarators
  | .while _ condition body => do
    let condition ← lowerExpression file condition
    return [.while condition (← lowerStatementAt .body file body)]
  | .forOf span initializer items body => do
    let item ← lowerLoopInitializer file span initializer
    let items ← lowerExpression file items
    return [.foreach item items (← lowerStatementAt .body file body)]
  | .for span initializer condition step body => do
    let item ← lowerOptionalInitializer file span initializer
    let condition ← lowerOptional file condition
    let step ← lowerOptional file step
    return [.for item condition step (← lowerStatementAt .body file body)]
  | .block span statements =>
    match position with
    | .entry => rejectStatement file (.block span statements)
    | .body => lowerStatements file statements
  | .bare span form => rejectStatement file (.bare span form)
  | .other span construct => rejectStatement file (.other span construct)

def lowerElse (file : FileId) : Option Tree.Stmt → Lowering (Option Schema.Block)
  | none => return none
  | some s => return some (← lowerStatementAt .body file s)

def lowerStatements (file : FileId) : List Tree.Stmt → Lowering Schema.Block
  | [] => return []
  | s :: ss => do
    let first ← lowerStatementAt .entry file s
    return first ++ (← lowerStatements file ss)

end

def lowerStatement (file : FileId) (s : Tree.Stmt) : Lowering (List Statement) :=
  lowerStatementAt .entry file s

/-- The block of a branch or loop body. Braces around it make no difference. -/
def lowerBody (file : FileId) (s : Tree.Stmt) : Lowering Schema.Block :=
  lowerStatementAt .body file s

end NeutralSchema
