import NeutralSchema.Lowering.DataType

/-!
# Lowering expressions

An expression that no schema expresses is reported and leaves an empty slot; its neighbours are
lowered all the same.
-/
namespace NeutralSchema

open Schema (Expression)

def lowerLiteral : Tree.Literal → Expression
  | .string value => .literal .string value
  | .numeric text => .literal .numeric text
  | .boolean value => .literal .boolean (if value then "true" else "false")
  | .null => .literal .null "null"

def lowerSide : Tree.UnarySide → Schema.OperatorSide
  | .before => .before
  | .after => .after

def lowerSelf : Tree.SelfWord → Expression
  | .this => .identifier "this"
  | .super => .identifier "super"

def rejectExpression (file : FileId) (e : Tree.Expr) : Lowering (Option Expression) := do
  report ⟨.unexpectedExpression, "Unexpected expression kind: " ++ e.description,
    some ⟨file, e.span⟩⟩
  return none

mutual

def lowerExpression (file : FileId) : Tree.Expr → Lowering (Option Expression)
  | .call _ callee arguments => do
    let method ← lowerExpression file callee
    return some (.call method (← lowerExpressions file arguments))
  | .binary _ left operator right => do
    let left ← lowerExpression file left
    return some (.binary left (← lowerExpression file right) operator)
  | .member _ target name => do
    let target ← lowerExpression file target
    let property ← lowerName name.text ⟨file, name.span⟩
    return some (.access target (some (.identifier property)))
  | .element _ target index => do
    let target ← lowerExpression file target
    return some (.access target (← lowerExpression file index))
  | .identifier span name => return some (.identifier (← lowerName name ⟨file, span⟩))
  | .new span type arguments => do
    let type ← lowerDeclaredType .newExpression ⟨file, span⟩ type
    return some (.new type (← lowerExpressions file arguments))
  | .conditional _ condition whenTrue whenFalse => do
    let condition ← lowerExpression file condition
    let whenTrue ← lowerExpression file whenTrue
    return some (.conditional condition whenTrue (← lowerExpression file whenFalse))
  | .literal _ value => return some (lowerLiteral value)
  | .parenthesized _ inner => return some (.parenthesized (← lowerExpression file inner))
  | .unary _ side operator operand =>
    return some (.unary (lowerSide side) operator (← lowerExpression file operand))
  | .array _ elements => return some (.array (← lowerExpressions file elements))
  | .self _ word => return some (lowerSelf word)
  | .wrapped span form inner => rejectExpression file (.wrapped span form inner)
  | .bare span form => rejectExpression file (.bare span form)
  | .other span construct => rejectExpression file (.other span construct)

/-- Lowers expressions in order, each into a slot of its own. -/
def lowerExpressions (file : FileId) : List Tree.Expr → Lowering (List (Option Expression))
  | [] => return []
  | e :: es => do
    let slot ← lowerExpression file e
    return slot :: (← lowerExpressions file es)

end

/-- An absent expression leaves an empty slot. -/
def lowerOptional (file : FileId) : Option Tree.Expr → Lowering (Option Expression)
  | none => return none
  | some e => lowerExpression file e

end NeutralSchema
