import NeutralSchema.Command.Lower
import NeutralSchema.Proofs.Batch
import NeutralSchema.Proofs.Text.Folded

/-!
# What reports say

The lines that commands print about a file, and the numbers that they sum up about a list of files.
The numbers are said of the paths: the positions of the files do not show in them. Main statements:
`outcomeReport_eq`, `Summary.report_eq`, `Summary.of_mapIdx`.
-/
namespace NeutralSchema

open Json

namespace Command

/-- The code of a diagnostic. -/
def kindText : DiagnosticKind → String
  | .invalidName => "invalid-name"
  | .unexpectedExpression => "unexpected-expression"
  | .unexpectedStatement => "unexpected-statement"
  | .unsupportedLoopInitializer => "unsupported-loop-initializer"
  | .multipleConstructors => "multiple-constructors"

/-- The path of a file, with the bytes that a diagnostic is about. -/
def placeText (path : String) : Option FileSpan → String
  | none => path
  | some source => path ++ "@" ++ toString source.span.start.toNat ++ ".."
      ++ toString source.span.stop.toNat

/-- The two lines on a diagnostic: its code and its message, and its place. -/
def warningText (path : String) (d : Diagnostic) : String :=
  "warning[" ++ kindText d.kind ++ "]: " ++ d.message ++ "\n"
    ++ "  --> " ++ placeText path d.source ++ "\n"

/-- Why there is no tree at a path. -/
def loadErrorText : LoadError → String
  | .unreadable path e => "Failed to read " ++ path ++ ": " ++ e.message
  | .undecodable path e =>
    "Failed to parse syntax tree " ++ path ++ ": " ++ e.error.message ++ " at line "
      ++ toString e.place.line ++ " column " ++ toString e.place.column

/-- Why a file has no schema. -/
def failureText : Failure → String
  | .load e => loadErrorText e
  | .lowering e => e.message

/-- The lines on a tree that cannot be lowered, around those on what failed and why. -/
def loweringText (e : LoweringError) (what why : String) : String :=
  e.code ++ "\n" ++ "\n" ++ what ++ "\n" ++ why ++ "\n"
    ++ (e.help.map fun help => "  help: " ++ help ++ "\n").getD "" ++ "\n"

/-- The lines on a file without schema. -/
def errorText (path : String) : Failure → String
  | .load e => "error: " ++ loadErrorText e ++ "\n"
  | .lowering e =>
    loweringText e (Text.fold 78 "  × " "  │ " ("Failed to lower " ++ path))
      (Text.fold 78 "  ╰─▶ " "      " e.message)

/-- Whether lines show why a file has no schema: all of the message, in lines of its own. -/
def ShowsError (path shown : String) : Failure → Prop
  | .load e => shown = "error: " ++ loadErrorText e ++ "\n"
  | .lowering e => ∃ what why, shown = loweringText e what why
      ∧ Text.IsFold "  × " "  │ " ("Failed to lower " ++ path) what
      ∧ Text.IsFold "  ╰─▶ " "      " e.message why

theorem showsError_errorText (path : String) (failure : Failure) :
    ShowsError path (errorText path failure) failure := by
  cases failure with
  | load e => rfl
  | lowering e => exact ⟨_, _, rfl, Text.fold_isFold .., Text.fold_isFold ..⟩

/-- The lines on a file. -/
def blockText (path : String) : Except Failure Lowered → String
  | .ok lowered => String.join (lowered.diagnostics.map (warningText path))
  | .error failure => errorText path failure

theorem diagnosticReport_eq (path : String) (d : Diagnostic) :
    diagnosticReport path d = warningText path d := by
  obtain ⟨kind, message, source⟩ := d
  have code : kind.code = kindText kind := by cases kind <;> rfl
  have place : locationText path source = placeText path source := by
    cases source <;> simp [locationText, placeText, Span.text, String.append_assoc]
  simp only [diagnosticReport, warningText, line, code, place, String.append_assoc,
    -String.reduceAppend]

theorem text_eq (failure : Failure) : failure.text = failureText failure := by
  cases failure with
  | load e =>
    cases e with
    | unreadable path e => rfl
    | undecodable path e =>
      have parts (what why line column : String) :
          what ++ (why ++ (" at line " ++ line ++ " column " ++ column))
            = what ++ why ++ " at line " ++ line ++ " column " ++ column := by
        simp only [String.append_assoc]
      exact parts _ _ _ _
  | lowering e => rfl

theorem failureReport_eq (path : String) (failure : Failure) :
    failureReport path failure = errorText path failure := by
  cases failure with
  | load e => simp only [failureReport, errorText, line, text_eq, failureText]
  | lowering e =>
    simp only [failureReport, loweringReport, errorText, loweringText, line, reportWidth,
      -String.reduceAppend]
    cases e.help <;>
      simp only [Option.map_some, Option.map_none, Option.getD_some, Option.getD_none,
        String.append_assoc, String.empty_append, -String.reduceAppend]

/-- What is printed about a file shows each of its diagnostics, or why it has no schema. -/
theorem outcomeReport_eq (o : Outcome) : outcomeReport o = blockText o.path o.result := by
  obtain ⟨path, result⟩ := o
  cases result with
  | ok lowered =>
    simp only [outcomeReport, diagnosticsReport, blockText, funext (diagnosticReport_eq path)]
  | error failure => exact failureReport_eq path failure

/-- The line with the numbers of paths, of failures among them, and of diagnostics. -/
def summaryLine (files failed diagnostics : Nat) : String :=
  (if failed = 0 then "Finished: " else "Failed: ") ++ toString files ++ " file(s), "
    ++ toString failed ++ " failed, " ++ toString diagnostics ++ " diagnostic(s)\n"

theorem Summary.report_eq (s : Summary) :
    s.report = summaryLine s.files s.failed s.diagnostics := by
  obtain ⟨files, failed, diagnostics⟩ := s
  cases failed <;> simp [Summary.report, summaryLine, line, String.append_assoc]

end Command

/-- The schema of a file that has one. -/
def Outcome.schema? (o : Outcome) : Option Schema.File := o.result.toOption.map Lowered.schema

/-- The schema of the file at a path, if it has one. -/
def schemaAt? [Json.Locating] (fs : FileSystem) (path : String) : Option Schema.File :=
  (loadAndLower fs 0 path).toOption.map Lowered.schema

/-- What is reported about the file at a path if it has a schema, in a list that starts with it. -/
def diagnosticsAt [Json.Locating] (fs : FileSystem) (path : String) : Diagnostics :=
  ((loadAndLower fs 0 path).toOption.map Lowered.diagnostics).getD []

section

variable (o : Outcome) (id : FileId)

theorem Outcome.isFailure_eq : o.isFailure = o.schema?.isNone := by
  obtain ⟨path, result⟩ := o
  cases result <;> rfl

theorem Outcome.schema?_inFile : (o.inFile id).schema? = o.schema? := by
  obtain ⟨path, result⟩ := o
  cases result <;> rfl

theorem Outcome.diagnostics_inFile :
    (o.inFile id).diagnostics = o.diagnostics.map (Diagnostic.inFile id) := by
  obtain ⟨path, result⟩ := o
  cases result <;> rfl

end

section

variable [Json.Locating] (fs : FileSystem)

theorem schema?_outcomeAt (i : Nat) (path : String) :
    (outcomeAt fs i path).schema? = schemaAt? fs path := by
  rw [outcomeAt_inFile fs i 0, Outcome.schema?_inFile]
  rfl

theorem diagnostics_outcomeAt (i : Nat) (path : String) :
    (outcomeAt fs i path).diagnostics
      = (diagnosticsAt fs path).map (Diagnostic.inFile (.ofNat i)) := by
  have first : (outcomeAt fs 0 path).diagnostics = diagnosticsAt fs path := by
    rw [Outcome.diagnostics, diagnosticsAt, outcomeAt]
    change _ = ((loadAndLower fs (.ofNat 0) path).toOption.map Lowered.diagnostics).getD []
    cases loadAndLower fs (.ofNat 0) path <;> rfl
  rw [outcomeAt_inFile fs i 0, Outcome.diagnostics_inFile, first]

/-- A path has a schema if there is a tree at it and the tree can be lowered. -/
theorem isSome_schemaAt? {fs : FileSystem} {path : String} : (schemaAt? fs path).isSome
    ↔ ∃ tree lowered, loadTree fs path = .ok tree ∧ lowerTree tree = .ok lowered := by
  rw [schemaAt?, loadAndLower]
  cases loadTree fs path with
  | error e => simp [Except.toOption]
  | ok tree =>
    have again := lowerTree_inFile tree 0
    simp only [again]
    cases done : lowerTree tree with
    | error e => simp [Except.map, Except.mapError, Except.toOption, done]
    | ok lowered => simp [Except.map, Except.mapError, Except.toOption, done]

/-- What becomes of files, as their positions and paths tell it. -/
theorem map_mapIdx_outcomeAt {β : Type} {f : Outcome → β} {g : Nat → String → β}
    (same : ∀ i path, f (outcomeAt fs i path) = g i path) (paths : List String) :
    (paths.mapIdx (outcomeAt fs)).map f = paths.mapIdx g := by
  refine (List.mapIdx_eq_iff.mpr fun i => ?_).symm
  rw [List.getElem?_map, List.getElem?_mapIdx, Option.map_map]
  exact congrArg (Option.map · paths[i]?) (funext (same i))

/-- What does not depend on the position of a file can be told from the path. -/
theorem map_outcomeAt_byPath {β : Type} {f : Outcome → β} {g : String → β}
    (same : ∀ i path, f (outcomeAt fs i path) = g path) (paths : List String) :
    (paths.mapIdx (outcomeAt fs)).map f = paths.map g := by
  rw [map_mapIdx_outcomeAt fs same]
  exact List.mapIdx_eq_iff.mpr fun _ => List.getElem?_map

namespace Command

/-- How many paths have no schema. -/
def failuresAt (paths : List String) : Nat := paths.countP fun p => (schemaAt? fs p).isNone

/-- How much is reported about the paths that have a schema. -/
def reportsAt (paths : List String) : Nat := (paths.flatMap (diagnosticsAt fs)).length

theorem Summary.of_mapIdx (paths : List String) : Summary.of (paths.mapIdx (outcomeAt fs))
    = ⟨paths.length, failuresAt fs paths, reportsAt fs paths⟩ := by
  have failures := map_outcomeAt_byPath fs (f := Outcome.isFailure) (fun i path => by
    rw [Outcome.isFailure_eq, schema?_outcomeAt]) paths
  have lengths := map_outcomeAt_byPath fs (f := fun o => o.diagnostics.length)
    (fun i path => by rw [diagnostics_outcomeAt, List.length_map]) paths
  have failed := congrArg (List.countP id) failures
  rw [List.countP_map, List.countP_map] at failed
  rw [Summary.of, List.length_mapIdx, List.length_flatMap, lengths, reportsAt,
    ← List.length_flatMap]
  exact congrArg (Summary.mk _ · _) failed

variable {fs}

theorem failuresAt_eq_zero {paths : List String} :
    failuresAt fs paths = 0 ↔ ∀ p ∈ paths, (schemaAt? fs p).isSome := by
  simp [failuresAt, List.countP_eq_zero, Option.isSome_iff_ne_none]

theorem reportsAt_eq_zero {paths : List String} :
    reportsAt fs paths = 0 ↔ ∀ p ∈ paths, diagnosticsAt fs p = [] := by
  rw [reportsAt, List.length_eq_zero_iff, List.flatMap_eq_nil_iff]

end Command

end

end NeutralSchema
