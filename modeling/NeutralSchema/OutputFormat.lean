import NeutralSchema.Json.Decode
import NeutralSchema.Json.Printer
import NeutralSchema.Schema.Encode

/-!
# Rendered schemas
-/
namespace NeutralSchema

inductive OutputFormat where
  | compact
  | indented
  deriving DecidableEq, Repr

namespace OutputFormat

def name : OutputFormat → String
  | .compact => "json"
  | .indented => "pretty"

instance : Json.Enumerated OutputFormat := ⟨[.compact, .indented], name⟩

/-- The format of a name, or what is said about an unknown one. -/
def ofName (name : String) : Except String OutputFormat :=
  match name with
  | "json" => .ok .compact
  | "pretty" => .ok .indented
  | other => .error ("Unknown output format `" ++ other ++ "` (expected `json` or `pretty`)")

def print : OutputFormat → Json → String
  | .compact => Json.compact
  | .indented => Json.indented

end OutputFormat

def renderSchema (format : OutputFormat) (s : Schema.File) : String := format.print s.encode

/-- The text of several schemas, as one object by path. A repeated path has its first place and
its last schema. -/
def renderSchemas (format : OutputFormat) (schemas : List (String × Schema.File)) : String :=
  format.print (Schema.encodeMap Schema.File.encode (.ofList schemas))

end NeutralSchema
