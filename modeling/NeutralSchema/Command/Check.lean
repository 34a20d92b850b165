import NeutralSchema.Command.Action
import NeutralSchema.Command.Report

/-!
# Checking files

`check` reports on its files as `lower` does, but writes no schemas.
-/
namespace NeutralSchema.Command

inductive ReportFormat where
  | text
  | json
  deriving DecidableEq, Repr

def ReportFormat.ofName : String → Except String ReportFormat
  | "text" => .ok .text
  | "json" => .ok .json
  | other => .error ("Unknown report format `" ++ other ++ "` (expected `text` or `json`)")

def reportDocument (o : Outcome) : Json :=
  let error := match o.result with
    | .ok _ => []
    | .error failure => [("error", Json.string failure.text)]
  .object ([("path", .string o.path),
    ("diagnostics", .array (o.diagnostics.map Diagnostic.encode))] ++ error)

/-- What is printed about a file. A file without diagnostics is mentioned too. -/
def checkedReport (o : Outcome) : String :=
  match o.result with
  | .ok lowered =>
    if lowered.diagnostics.isEmpty then line ("  ok " ++ o.path)
    else diagnosticsReport o.path lowered.diagnostics
  | .error failure => failureReport o.path failure

/-- What is printed on the files in a format: output and errors. -/
def checkReport (outcomes : List Outcome) : ReportFormat → String × String
  | .json => (line (Json.array (outcomes.map reportDocument)).indented, "")
  | .text => ("", line ("Checking " ++ toString outcomes.length ++ " file(s)")
      ++ String.join (outcomes.map checkedReport) ++ (Summary.of outcomes).report)

def check [Json.Locating] (fs : FileSystem) (format : ReportFormat) (parallel : Bool)
    (paths : List String) : Result :=
  let outcomes := lowerPaths fs (.of parallel paths.length) paths
  let (output, errors) := checkReport outcomes format
  .of ((Summary.of outcomes).failed = 0) output errors

end NeutralSchema.Command
