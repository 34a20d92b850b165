import NeutralSchema.Batch
import NeutralSchema.Text.Folded

/-!
# Reports on lowered files

What `lower` and `check` print about each file and about all of them.
-/
namespace NeutralSchema.Command

def line (text : String) : String := text ++ "\n"

/-- Where a diagnostic belongs. The path is the one that the file was given by. -/
def locationText (path : String) : Option FileSpan → String
  | some source => path ++ "@" ++ source.span.text
  | none => path

def diagnosticReport (path : String) (d : Diagnostic) : String :=
  line ("warning[" ++ d.kind.code ++ "]: " ++ d.message) ++
    line ("  --> " ++ locationText path d.source)

def diagnosticsReport (path : String) (ds : Diagnostics) : String :=
  String.join (ds.map (diagnosticReport path))

def reportWidth : Nat := 78

/-- The report of a tree that cannot be lowered: its code, what failed and why, and advice. -/
def loweringReport (path : String) (e : LoweringError) : String :=
  line (e.code ++ "\n") ++
    line (Text.fold reportWidth "  × " "  │ " ("Failed to lower " ++ path)) ++
    line (Text.fold reportWidth "  ╰─▶ " "      " e.message) ++
    (match e.help with
      | some help => line ("  help: " ++ help)
      | none => "") ++ line ""

def failureReport (path : String) (failure : Failure) : String :=
  match failure with
  | .load _ => line ("error: " ++ failure.text)
  | .lowering e => loweringReport path e

structure Summary where
  files : Nat
  failed : Nat
  diagnostics : Nat
  deriving DecidableEq, Repr

namespace Summary

def of (outcomes : List Outcome) : Summary where
  files := outcomes.length
  failed := outcomes.countP Outcome.isFailure
  diagnostics := (outcomes.flatMap Outcome.diagnostics).length

def report (s : Summary) : String :=
  line ((if s.failed > 0 then "Failed:" else "Finished:") ++ " " ++ toString s.files
    ++ " file(s), " ++ toString s.failed ++ " failed, " ++ toString s.diagnostics
    ++ " diagnostic(s)")

end Summary

end NeutralSchema.Command
