import NeutralSchema.Command.Action
import NeutralSchema.Command.Report
import NeutralSchema.OutputFormat

/-!
# Writing schemas

`lower` writes the schemas of its files when every file has one, and nothing otherwise.
-/
namespace NeutralSchema.Command

structure LowerOptions where
  format : OutputFormat
  output : Option String
  denyWarnings : Bool
  parallel : Bool
  deriving DecidableEq, Repr

def outcomeReport (o : Outcome) : String :=
  match o.result with
  | .ok lowered => diagnosticsReport o.path lowered.diagnostics
  | .error failure => failureReport o.path failure

def loweredSchemas (outcomes : List Outcome) : List (String × Schema.File) :=
  outcomes.filterMap fun o =>
    match o.result with
    | .ok lowered => some (o.path, lowered.schema)
    | .error _ => none

/-- The text of the schemas: of one file the schema itself, of several an object by path. -/
def schemasText (format : OutputFormat) : List (String × Schema.File) → String
  | [(_, schema)] => renderSchema format schema
  | schemas => renderSchemas format schemas

/-- What is printed about all files before anything is written. -/
def lowerReport (outcomes : List Outcome) : String :=
  String.join (outcomes.map outcomeReport) ++ (Summary.of outcomes).report

def deniedReport (s : Summary) : String :=
  line ("error: " ++ toString s.diagnostics
    ++ " diagnostic(s) with warnings denied; no output written")

/-- Writes a text and a line break, to a file if one is named. -/
def deliver (errors text : String) : Option String → Action
  | none => .finish (.of true (line text) errors)
  | some path => .write path (line text) fun
    | .ok () => .of true "" (errors ++ line ("Wrote " ++ path))
    | .error e => .givenUp errors ("Failed to write " ++ path) (some e.message)

def lower [Json.Locating] (fs : FileSystem) (options : LowerOptions) (paths : List String) : Action :=
  let outcomes := lowerPaths fs (.of options.parallel paths.length) paths
  let summary := Summary.of outcomes
  let errors := lowerReport outcomes
  if summary.failed > 0 then .finish (.of false "" errors)
  else if options.denyWarnings && summary.diagnostics > 0 then
    .finish (.of false "" (errors ++ deniedReport summary))
  else deliver errors (schemasText options.format (loweredSchemas outcomes)) options.output

end NeutralSchema.Command
