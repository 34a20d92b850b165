import NeutralSchema.Lowering.Name
import NeutralSchema.Schema.Basic
import NeutralSchema.Tree.Basic

/-!
# Lowering types

Four primitive names and `Array` have a type of their own; every other name is a class. What
matters is the name alone, not whether the type is built in or declared.
-/
namespace NeutralSchema

mutual

/-- The schema type of a resolved type. `source` locates the declaration that it belongs to. -/
def lowerType (source : FileSpan) : Tree.ResolvedType → Lowering Schema.DataType
  | .mk name arguments =>
    match (Tree.ResolvedType.mk name []).canonicalName with
    | "number" => return .int32
    | "string" => return .string
    | "boolean" => return .boolean
    | "void" => return .void
    | "Array" => return .array (← lowerTypes source arguments)
    | name => do
      let name ← lowerName name source
      return .named name (← lowerTypes source arguments)

def lowerTypes (source : FileSpan) : List Tree.ResolvedType → Lowering (List Schema.DataType)
  | [] => return []
  | t :: ts => do
    let t ← lowerType source t
    return t :: (← lowerTypes source ts)

end

def lowerDeclaredType (owner : Owner) (source : FileSpan) :
    Option Tree.ResolvedType → Lowering Schema.DataType
  | some t => lowerType source t
  | none => throw (.missingType owner source)

end NeutralSchema
