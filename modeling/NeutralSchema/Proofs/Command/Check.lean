import NeutralSchema.Command.Check
import NeutralSchema.Proofs.Command.Lower
import NeutralSchema.Proofs.Diagnostic

/-!
# Checking is lowering without writing

`check` fails where `lower` finds a file without schema, and both say the same about every file, in
text and in documents. Main statement: `check_agrees_with_lower`.
-/
namespace NeutralSchema.Command

open Json

theorem line_ne_empty (text : String) : line text ≠ "" := by
  simp [line]

theorem diagnosticsReport_eq_empty {path : String} {ds : Diagnostics} :
    diagnosticsReport path ds = "" ↔ ds = [] := by
  cases ds with
  | nil => simp [diagnosticsReport]
  | cons d ds => simp [diagnosticsReport, diagnosticReport, line_ne_empty]

theorem failureReport_ne_empty (path : String) (failure : Failure) :
    failureReport path failure ≠ "" := by
  cases failure <;> simp [failureReport, loweringReport, line_ne_empty]

/-- `check` prints what `lower` prints, unless that is nothing. -/
theorem checkedReport_eq (o : Outcome) : checkedReport o
    = if outcomeReport o = "" then line ("  ok " ++ o.path) else outcomeReport o := by
  obtain ⟨path, result⟩ := o
  cases result with
  | ok lowered => simp [checkedReport, outcomeReport, diagnosticsReport_eq_empty]
  | error failure => simp [checkedReport, outcomeReport, failureReport_ne_empty]

theorem errors_givenUp (errors message : String) (cause : Option String) :
    ∃ rest, (Result.givenUp errors message cause).errors = errors ++ rest := by
  simp only [Result.givenUp, String.append_assoc]
  exact ⟨_, rfl⟩

/-- What is printed about files, with a line for each about which nothing is. -/
def withOkLines (paths blocks : List String) : List String :=
  List.zipWith (fun path block => if block = "" then "  ok " ++ path ++ "\n" else block) paths blocks

theorem map_checkedReport [Locating] (fs : FileSystem) (paths : List String) :
    (paths.mapIdx (outcomeAt fs)).map checkedReport = withOkLines paths (blocksAt fs paths) := by
  apply List.ext_getElem?
  intro i
  rw [← map_outcomeReport, withOkLines, List.getElem?_zipWith, List.getElem?_map,
    List.getElem?_map, List.getElem?_mapIdx]
  cases paths[i]? with
  | none => rfl
  | some path => exact congrArg some (checkedReport_eq _)

theorem checking_eq (files : Nat) : line ("Checking " ++ toString files ++ " file(s)")
    = "Checking " ++ toString files ++ " file(s)\n" := by
  simp [line, String.append_assoc]

/-- The entries of the report on a file. -/
def reportFields (o : Outcome) : Fields :=
  [("path", .string o.path), ("diagnostics", .array (o.diagnostics.map Diagnostic.encode))]
    ++ match o.result with
      | .ok _ => []
      | .error failure => [("error", .string failure.text)]

theorem reportDocument_eq (o : Outcome) : reportDocument o = .object (reportFields o) := by
  obtain ⟨path, result⟩ := o
  cases result <;> rfl

theorem countP_reportFields (outcomes : List Outcome) :
    (outcomes.map reportFields).countP (fun doc => (doc.lookup "error").isSome)
      = (Summary.of outcomes).failed := by
  rw [List.countP_map]
  refine List.countP_congr fun o _ => ?_
  obtain ⟨path, result⟩ := o
  cases result <;> rfl

theorem isExact_reports (outcomes : List Outcome) :
    (Json.array (outcomes.map reportDocument)).isExact := by
  refine Tree.leavesAll_map (fun o => ?_) outcomes
  have diagnostics := Tree.leavesAll_map Diagnostic.leaves_encode o.diagnostics
  obtain ⟨path, result⟩ := o
  cases result <;>
    simp [reportDocument, leaves, leavesEntries, diagnostics, isExactScalar]

/-- Whether the entries of a report hold some diagnostics, for every decoder with room for four
containers. -/
def HoldsDiagnostics (doc : Fields) (ds : Diagnostics) : Prop :=
  ∃ v, doc.lookup "diagnostics" = some v
    ∧ ∀ access room, 4 ≤ room → decodeList (Diagnostic.decode access) room v = .ok ds

/-- Whether printed lines and the entries of a report say of a file what became of it. The lines show
of each diagnostic its code, its message and its place, or why the file has no schema. -/
def ReportedAlike (path : String) (block : String) (doc : Fields) :
    Except Failure Lowered → Prop
  | .ok lowered =>
    block = String.join (lowered.diagnostics.map fun d =>
        "warning[" ++ kindText d.kind ++ "]: " ++ d.message ++ "\n"
          ++ "  --> " ++ placeText path d.source ++ "\n")
      ∧ (block = "" ↔ lowered.diagnostics = [])
      ∧ doc.map Prod.fst = ["path", "diagnostics"] ∧ HoldsDiagnostics doc lowered.diagnostics
  | .error failure =>
    block = errorText path failure ∧ ShowsError path block failure ∧ block ≠ ""
      ∧ doc.map Prod.fst = ["path", "diagnostics", "error"] ∧ HoldsDiagnostics doc []
      ∧ doc.lookup "error" = some (.string (failureText failure))

theorem holdsDiagnostics (o : Outcome) : HoldsDiagnostics (reportFields o) o.diagnostics :=
  ⟨_, rfl, fun access _ enough => Diagnostic.decodeList_encode access enough o.diagnostics⟩

theorem reportedAlike (o : Outcome) :
    ReportedAlike o.path (outcomeReport o) (reportFields o) o.result := by
  have held := holdsDiagnostics o
  have block := outcomeReport_eq o
  obtain ⟨path, result⟩ := o
  cases result with
  | ok lowered => exact ⟨block, diagnosticsReport_eq_empty, rfl, held⟩
  | error failure =>
    refine ⟨block, ?_, failureReport_ne_empty path failure, rfl, held, ?_⟩
    · rw [block]
      exact showsError_errorText path failure
    · rw [← text_eq]
      rfl

section

variable [Locating] (fs : FileSystem) (paths : List String)

/-- Whatever becomes of the schemas, `lower` first prints its reports and the summary. -/
theorem errors_lower (options : LowerOptions) (service : ServiceReplies) :
    ∃ rest, ((lower fs options paths).perform fs service).result.errors
      = printedAt fs paths ++ rest := by
  rw [lower_eq]
  split
  case isTrue =>
    cases options.output with
    | none => exact ⟨"", (String.append_empty).symm⟩
    | some path =>
      simp only [deliver, Action.perform]
      split
      · exact ⟨_, rfl⟩
      · exact errors_givenUp ..
  case isFalse => exact ⟨_, rfl⟩

theorem check_eq (format : ReportFormat) (parallel : Bool) :
    check fs format parallel paths =
      let (output, errors) := checkReport (paths.mapIdx (outcomeAt fs)) format
      .of (failuresAt fs paths = 0) output errors := by
  rw [check, lowerPaths_eq_mapIdx fs paths (Schedule.serves_of parallel paths.length),
    Summary.of_mapIdx]

theorem exit_check (format : ReportFormat) (parallel : Bool) :
    (check fs format parallel paths).exit = 0 ↔ ∀ p ∈ paths, (schemaAt? fs p).isSome := by
  rw [check_eq, ← failuresAt_eq_zero]
  simp [Result.of]

end

/-- `check` succeeds, in either format, exactly if every tree is there and can be lowered, which is
when `lower` goes on to write if warnings are not denied. Both print the same about the same files
in the same order, and the same summary, only that `check` starts with a line of its own and has a
line for each file about which nothing is printed. Its reports as documents are one for each path,
in order: they hold the diagnostics of the file, which are decoded unchanged, and an error exactly
if the file has no schema. -/
theorem check_agrees_with_lower [Locating] (fs : FileSystem) (options : LowerOptions)
    (parallel : Bool) (paths : List String) (service : ServiceReplies) :
    let lowers := ∀ p ∈ paths, ∃ tree lowered,
      loadTree fs p = .ok tree ∧ lowerTree tree = .ok lowered
    let summary := summaryLine paths.length (failuresAt fs paths) (reportsAt fs paths)
    (∀ format, (check fs format parallel paths).exit = 0 ↔ lowers)
      ∧ ((lower fs { options with denyWarnings := false } paths).delivery?.isSome ↔ lowers)
      ∧ ∃ (blocks : List String) (docs : List Fields),
        blocks.length = paths.length ∧ docs.length = paths.length
        ∧ (∀ i path, paths[i]? = some path → ∃ block doc, blocks[i]? = some block
          ∧ docs[i]? = some doc ∧ doc.lookup "path" = some (.string path)
          ∧ ReportedAlike path block doc (loadAndLower fs (.ofNat i) path))
        ∧ (∃ rest, ((lower fs options paths).perform fs service).result.errors
          = String.join blocks ++ summary ++ rest)
        ∧ (check fs .text parallel paths).output = ""
        ∧ (check fs .text parallel paths).errors
          = "Checking " ++ toString paths.length ++ " file(s)\n"
            ++ String.join (withOkLines paths blocks) ++ summary
        ∧ docs.countP (fun doc => (doc.lookup "error").isSome) = failuresAt fs paths
        ∧ (check fs .json parallel paths).errors = ""
        ∧ ∃ text, (check fs .json parallel paths).output = text ++ "\n"
          ∧ Json.read text = .ok (.array (docs.map .object)) := by
  intro lowers summary
  have allLower : (∀ p ∈ paths, (schemaAt? fs p).isSome) ↔ lowers := by
    simp only [lowers, isSome_schemaAt?]
  refine ⟨fun format => ?_, ?_, blocksAt fs paths,
    (paths.mapIdx (outcomeAt fs)).map reportFields, by simp [blocksAt], by simp, ?_,
    errors_lower fs paths options service, ?_, ?_, ?_, ?_, ?_⟩
  · rw [exit_check, allLower]
  · rw [isSome_delivery?_lower, LowerOptions.Accepts, allLower]
    exact and_iff_left fun denied => absurd denied Bool.false_ne_true
  · intro i path known
    refine ⟨_, _, ?_, ?_, rfl, reportedAlike (outcomeAt fs i path)⟩
    · rw [← map_outcomeReport]
      simp [known]
    · simp [known]
  · rw [check_eq]
    rfl
  · rw [check_eq]
    simp only [checkReport, map_checkedReport, Summary.report_eq, Summary.of_mapIdx,
      List.length_mapIdx, checking_eq]
    rfl
  · rw [countP_reportFields, Summary.of_mapIdx]
  · rw [check_eq]
    rfl
  · have documents : ((paths.mapIdx (outcomeAt fs)).map reportFields).map .object
        = (paths.mapIdx (outcomeAt fs)).map reportDocument := by
      rw [List.map_map]
      exact List.map_congr_left fun o _ => (reportDocument_eq o).symm
    rw [documents]
    refine ⟨_, ?_, read_indented_of_isExact (isExact_reports (paths.mapIdx (outcomeAt fs)))⟩
    rw [check_eq]
    rfl

theorem counts_noisyFiles :
    failuresAt noisyFiles ["a", ""] = 1 ∧ reportsAt noisyFiles ["a", ""] = 1 := by
  have found : (schemaAt? noisyFiles "a").isNone = false := by
    rw [schemaAt?, loadAndLower_noisyFiles]
    rfl
  have reported : (diagnosticsAt noisyFiles "a").length = 1 := by
    rw [diagnosticsAt, loadAndLower_noisyFiles]
    rfl
  have missing : (schemaAt? noisyFiles "").isNone = true := rfl
  have silent : diagnosticsAt noisyFiles "" = [] := rfl
  simp [failuresAt, reportsAt, found, reported, missing, silent]

/-- A file with a diagnostic and a path that leads nowhere. -/
theorem check_agrees_with_lower_noisy :
    ∃ first second : Fields,
      (check noisyFiles .text false ["a", ""]).exit ≠ 0
        ∧ first.map Prod.fst = ["path", "diagnostics"]
        ∧ second.map Prod.fst = ["path", "diagnostics", "error"]
        ∧ (check noisyFiles .text false ["a", ""]).errors
          = "Checking 2 file(s)\n"
            ++ "warning[unexpected-statement]: Unexpected statement kind: empty\n  --> a@0..0\n"
            ++ "error: Failed to read : No such file or directory (os error 2)\n"
            ++ "Failed: 2 file(s), 1 failed, 1 diagnostic(s)\n"
        ∧ ∃ text, (check noisyFiles .json false ["a", ""]).output = text ++ "\n"
          ∧ Json.read text = .ok (.array [.object first, .object second]) := by
  obtain ⟨exit, -, blocks, docs, sized, sized', each, -, -, lines, -, -, text, printed, read⟩ :=
    check_agrees_with_lower noisyFiles ⟨.compact, none, false, false⟩ false ["a", ""] fun _ => none
  obtain ⟨warning, failure, rfl⟩ := List.length_eq_two.mp sized
  obtain ⟨first, second, rfl⟩ := List.length_eq_two.mp sized'
  obtain ⟨_, _, block, doc, -, noisy⟩ := each 0 "a" rfl
  obtain rfl := Option.some.inj block
  obtain rfl := Option.some.inj doc
  obtain ⟨_, _, block, doc, -, missing⟩ := each 1 "" rfl
  obtain rfl := Option.some.inj block
  obtain rfl := Option.some.inj doc
  have outcome : loadAndLower noisyFiles (.ofNat 0) "a" = _ := loadAndLower_noisyFiles
  rw [outcome] at noisy
  obtain ⟨shown, quiet, keys, -⟩ := noisy
  obtain ⟨told, -, loud', keys', -⟩ := missing
  have loud : warning ≠ "" := fun h => absurd (quiet.mp h) (by decide)
  refine ⟨first, second, ?_, keys, keys', ?_, text, printed, read⟩
  · intro succeeded
    obtain ⟨tree, -, loaded, -⟩ := (exit .text).mp succeeded "" (by simp)
    cases loaded
  · rw [lines, withOkLines, List.zipWith_cons_cons, List.zipWith_cons_cons, if_neg loud,
      if_neg loud', shown, told, counts_noisyFiles.1, counts_noisyFiles.2]
    rfl

end NeutralSchema.Command
