import NeutralSchema.Diagnostic

/-!
# Lowering

Lowering a part of a tree appends to the diagnostics collected so far and gives a result, or stops
at the first part that is not fully resolved. What was reported before it stops stays reported.
-/
namespace NeutralSchema

/-- What a declaration without a type or a body is called. -/
inductive Owner where
  | newExpression
  | field (className name : String)
  | returnType (className method : String)
  | parameter (className name : String)
  | method (className name : String)
  | constructor (className : String)
  | named (text : String)
  deriving DecidableEq, Repr

def Owner.text : Owner → String
  | .newExpression => "`new` expression"
  | .field c name => "field `" ++ c ++ "." ++ name ++ "`"
  | .returnType c name => "return type of method `" ++ c ++ "." ++ name ++ "`"
  | .parameter c name => "parameter `" ++ name ++ "` in `" ++ c ++ "`"
  | .method c name => "method `" ++ c ++ "." ++ name ++ "`"
  | .constructor c => "constructor of `" ++ c ++ "`"
  | .named text => text

/-- Why a tree cannot be lowered: it is not fully resolved. -/
inductive LoweringError where
  | missingType (owner : Owner) (span : FileSpan)
  | missingBody (owner : Owner) (span : FileSpan)
  | spanOutOfBounds (path : String) (span : FileSpan) (length : Nat)
  deriving DecidableEq, Repr

namespace LoweringError

def message : LoweringError → String
  | missingType owner span => "missing type information for " ++ owner.text ++ " at " ++ span.text
  | missingBody owner span => "missing body for " ++ owner.text ++ " at " ++ span.text
  | spanOutOfBounds path span length =>
    "span " ++ span.text ++ " is outside the " ++ toString length ++ " bytes of source text in `"
      ++ path ++ "`"

def code : LoweringError → String
  | missingType .. => "lower::missing_type"
  | missingBody .. => "lower::missing_body"
  | spanOutOfBounds .. => "lower::span_out_of_bounds"

def help : LoweringError → Option String
  | missingType .. => some "the front end must attach a resolved type to every declaration"
  | missingBody .. => some "abstract and overload-only declarations are not supported"
  | spanOutOfBounds .. => none

end LoweringError

/-- The diagnostics collected so far, in the order of the reports. -/
abbrev Diagnostics := List Diagnostic

abbrev Lowering := EStateM LoweringError Diagnostics

def report (d : Diagnostic) : Lowering Unit := modify (· ++ [d])

/-- The outcome of lowering, and all diagnostics after it, when some were already collected. -/
def Lowering.runFrom {α : Type} (collected : Diagnostics) (x : Lowering α) :
    Except LoweringError α × Diagnostics :=
  match x.run collected with
  | .ok a after => (.ok a, after)
  | .error e after => (.error e, after)

end NeutralSchema
