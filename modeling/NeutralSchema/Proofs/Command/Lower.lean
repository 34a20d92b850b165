import NeutralSchema.Command.Lower
import NeutralSchema.Proofs.Command.Report
import NeutralSchema.Proofs.FileSystem

/-!
# All schemas or none

`lower` writes the schemas of all of its files, to one place, or it writes nothing and leaves
everything as it was. Main statement: `lower_all_or_nothing`.
-/
namespace NeutralSchema.Command

/-- What a command writes or prints besides errors, and the file that it writes to, if it writes to
one. -/
def Action.delivery? : Action → Option (Option String × String)
  | .finish result => if result.output.isEmpty then none else some (none, result.output)
  | .write path text _ => some (some path, text)
  | .post .. => none

/-- Whether every file has a schema and, when warnings are denied, nothing is reported about any. -/
def LowerOptions.Accepts [Json.Locating] (options : LowerOptions) (fs : FileSystem)
    (paths : List String) : Prop :=
  (∀ p ∈ paths, (schemaAt? fs p).isSome)
    ∧ (options.denyWarnings → ∀ p ∈ paths, diagnosticsAt fs p = [])

instance [Json.Locating] (options : LowerOptions) (fs : FileSystem) (paths : List String) :
    Decidable (options.Accepts fs paths) :=
  inferInstanceAs (Decidable (_ ∧ (_ → _)))

/-- The document of the schemas of files: for a single path its schema, and otherwise an object by
path, without repetitions. -/
def schemasDocument (schema : String → Schema.File) : List String → Json
  | [p] => (schema p).encode
  | paths => .object (paths.eraseDups.map fun p => (p, (schema p).encode))

theorem isPlain_schemasDocument (schema : String → Schema.File) (paths : List String) :
    (schemasDocument schema paths).isPlain := by
  have entries : Json.isPlainEntries (paths.eraseDups.map fun p => (p, (schema p).encode)) := by
    have plain := Json.isPlainEntries_map Schema.File.isPlain_encode
      (paths.eraseDups.map fun p => (p, schema p))
    rwa [List.map_map] at plain
  rcases paths with _ | ⟨p, _ | ⟨q, paths⟩⟩
  · exact entries
  · exact Schema.File.isPlain_encode (schema p)
  · exact entries

/-- What is written of the schemas of paths denotes one document. A repeated path counts once. -/
theorem schemasText_eq (format : OutputFormat) (schema : String → Schema.File)
    (paths : List String) :
    schemasText format (paths.map fun p => (p, schema p))
      = format.print (schemasDocument schema paths) := by
  have object : renderSchemas format (paths.map fun p => (p, schema p))
      = format.print (.object (paths.eraseDups.map fun p => (p, (schema p).encode))) := by
    rw [renderSchemas, Schema.encodeMap, OrderedMap.toList_ofList_map, List.map_map]
    rfl
  rcases paths with _ | ⟨p, _ | ⟨q, paths⟩⟩
  · exact object
  · rfl
  · exact object

section

variable [Json.Locating] (fs : FileSystem)

omit [Json.Locating] in
theorem loweredSchemas_eq (outcomes : List Outcome) :
    loweredSchemas outcomes = outcomes.filterMap fun o => o.schema?.map (o.path, ·) := by
  apply List.filterMap_congr
  rintro ⟨path, result⟩ -
  cases result <;> rfl

theorem loweredSchemas_mapIdx (paths : List String) :
    loweredSchemas (paths.mapIdx (outcomeAt fs)) = tabulate (schemaAt? fs) paths := by
  have byPath := map_outcomeAt_byPath fs (f := fun o => o.schema?.map (o.path, ·))
    (fun i path => congrArg (Option.map (path, ·)) (schema?_outcomeAt fs i path)) paths
  have filtered := congrArg (List.filterMap id) byPath
  rw [List.filterMap_map, List.filterMap_map] at filtered
  rw [loweredSchemas_eq]
  exact filtered

/-- The lines on each of some files. -/
def blocksAt (paths : List String) : List String :=
  paths.mapIdx fun i path => blockText path (loadAndLower fs (.ofNat i) path)

theorem map_outcomeReport (paths : List String) :
    (paths.mapIdx (outcomeAt fs)).map outcomeReport = blocksAt fs paths :=
  map_mapIdx_outcomeAt fs (fun i path => outcomeReport_eq (outcomeAt fs i path)) paths

/-- What `lower` prints in any case: the lines on its files, and the line that sums them up. -/
def printedAt (paths : List String) : String :=
  String.join (blocksAt fs paths)
    ++ summaryLine paths.length (failuresAt fs paths) (reportsAt fs paths)

theorem lowerReport_mapIdx (paths : List String) :
    lowerReport (paths.mapIdx (outcomeAt fs)) = printedAt fs paths := by
  rw [lowerReport, map_outcomeReport, Summary.report_eq, Summary.of_mapIdx, printedAt]

omit [Json.Locating] in
theorem deniedReport_eq (s : Summary) :
    deniedReport s = "error: " ++ toString s.diagnostics
      ++ " diagnostic(s) with warnings denied; no output written\n" := by
  simp [deniedReport, line, String.append_assoc]

/-- `lower` looks at its files by path alone, apart from what it prints about them. -/
theorem lower_eq (options : LowerOptions) (paths : List String) :
    lower fs options paths =
      if options.Accepts fs paths then
        deliver (printedAt fs paths)
          (schemasText options.format (tabulate (schemaAt? fs) paths)) options.output
      else .finish (.of false "" (printedAt fs paths ++ if failuresAt fs paths > 0 then ""
        else "error: " ++ toString (reportsAt fs paths)
          ++ " diagnostic(s) with warnings denied; no output written\n")) := by
  have placed := lowerPaths_eq_mapIdx fs paths
    (Schedule.serves_of options.parallel paths.length)
  have accepts : options.Accepts fs paths ↔ failuresAt fs paths = 0
      ∧ (options.denyWarnings → reportsAt fs paths = 0) := by
    rw [LowerOptions.Accepts, failuresAt_eq_zero, reportsAt_eq_zero]
  simp only [lower, placed, lowerReport_mapIdx, Summary.of_mapIdx, loweredSchemas_mapIdx,
    deniedReport_eq]
  generalize failuresAt fs paths = failed, reportsAt fs paths = reported at accepts ⊢
  by_cases fails : failed > 0
  · have refused : ¬options.Accepts fs paths := fun h => fails.ne' (accepts.mp h).1
    rw [if_pos fails, if_neg refused, if_pos fails, String.append_empty]
  · rw [if_neg fails, if_neg fails]
    by_cases denied : (options.denyWarnings && decide (reported > 0)) = true
    · have refused : ¬options.Accepts fs paths := by
        rw [accepts]
        simp only [Bool.and_eq_true, decide_eq_true_eq] at denied
        exact fun h => denied.2.ne' (h.2 denied.1)
      rw [if_pos denied, if_neg refused]
    · have accepted : options.Accepts fs paths := by
        rw [accepts]
        simp only [Bool.and_eq_true, decide_eq_true_eq, not_and] at denied
        exact ⟨Nat.eq_zero_of_not_pos fails, fun deny => Nat.eq_zero_of_not_pos (denied deny)⟩
      rw [if_neg denied, if_pos accepted]

end

theorem delivery?_deliver (errors text : String) (output : Option String) :
    (deliver errors text output).delivery? = some (output, text ++ "\n") := by
  cases output with
  | none =>
    have visible : (line text).isEmpty = false := by simp [line]
    simp only [deliver, Action.delivery?, Result.of, visible]
    rfl
  | some path => rfl

theorem isSome_delivery?_lower [Json.Locating] (fs : FileSystem) (options : LowerOptions)
    (paths : List String) :
    (lower fs options paths).delivery?.isSome ↔ options.Accepts fs paths := by
  rw [lower_eq]
  split
  case isTrue accepted => simp [delivery?_deliver, accepted]
  case isFalse refused => simp [Action.delivery?, Result.of, refused]

theorem givenUp_some (errors message cause : String) : Result.givenUp errors message (some cause)
    = ⟨"", errors ++ "Error: " ++ message ++ "\n\nCaused by:\n    " ++ cause ++ "\n", 1⟩ := by
  simp only [Result.givenUp, String.append_assoc]

/-- `lower` writes its text, with a line break, exactly if every file has a schema and, when
warnings are denied, nothing is reported about any. Otherwise it fails, prints only errors, and
leaves the file system as it was. The text goes either to the standard output or to the file that is
named, and changes nothing else. It denotes the schema of a single path, or one object with the
schemas of several by path, and `lower` succeeds unless the file cannot be written. In all cases the
summary counts the paths, the files without schema, and what is reported about the others. -/
theorem lower_all_or_nothing [Json.Locating] (fs : FileSystem) (options : LowerOptions)
    (paths : List String) (service : ServiceReplies) :
    let run := (lower fs options paths).perform fs service
    let failed := paths.countP fun p => (schemaAt? fs p).isNone
    let reported := (paths.flatMap (diagnosticsAt fs)).length
    let summary := (if failed = 0 then "Finished: " else "Failed: ") ++ toString paths.length
      ++ " file(s), " ++ toString failed ++ " failed, " ++ toString reported ++ " diagnostic(s)\n"
    let report := String.join (blocksAt fs paths) ++ summary
    ((lower fs options paths).delivery?.isSome ↔ options.Accepts fs paths)
      ∧ (¬options.Accepts fs paths →
        run = ⟨⟨"", report ++ if failed > 0 then "" else "error: " ++ toString reported
          ++ " diagnostic(s) with warnings denied; no output written\n", 1⟩, fs, none⟩)
      ∧ (options.Accepts fs paths → ∃ (schema : String → Schema.File) (text : String),
        (∀ p ∈ paths, schemaAt? fs p = some (schema p))
        ∧ text = options.format.print (schemasDocument schema paths)
        ∧ Json.read text = .ok (schemasDocument schema paths)
        ∧ (lower fs options paths).delivery? = some (options.output, text ++ "\n")
        ∧ (options.output = none → run = ⟨⟨text ++ "\n", report, 0⟩, fs, none⟩)
        ∧ ∀ path, options.output = some path →
          (∀ written, fs.write path (text ++ "\n") = .ok written →
            fs.HasWritten written path (text ++ "\n")
              ∧ run = ⟨⟨"", report ++ ("Wrote " ++ path ++ "\n"), 0⟩, written, none⟩)
          ∧ ∀ e, fs.write path (text ++ "\n") = .error e →
            run = ⟨⟨"", report ++ "Error: " ++ ("Failed to write " ++ path)
              ++ "\n\nCaused by:\n    " ++ e.message ++ "\n", 1⟩, fs, none⟩) := by
  intro run failed reported summary report
  have action := lower_eq fs options paths
  refine ⟨isSome_delivery?_lower fs options paths, ?refused, ?accepted⟩
  case refused =>
    intro refused
    simp only [run, action, if_neg refused]
    rfl
  case accepted =>
    intro accepted
    obtain ⟨schema, schemas⟩ : ∃ schema : String → Schema.File,
        ∀ p ∈ paths, schemaAt? fs p = some (schema p) := by
      refine ⟨fun p => (schemaAt? fs p).getD ⟨∅, ∅⟩, fun p mem => ?_⟩
      obtain ⟨s, found⟩ := Option.isSome_iff_exists.mp (accepted.1 p mem)
      simp only [found, Option.getD_some]
    have delivered : lower fs options paths
        = deliver report (options.format.print (schemasDocument schema paths)) options.output := by
      rw [action, if_pos accepted, tabulate_eq_map schemas, schemasText_eq]
      rfl
    refine ⟨schema, _, schemas, rfl, read_print _ (isPlain_schemasDocument schema paths), ?_, ?_,
      fun path named => ⟨fun written done => ⟨FileSystem.write_ok done, ?_⟩, fun e fails => ?_⟩⟩
    · rw [delivered, delivery?_deliver]
    · intro unnamed
      simp only [run, delivered, unnamed]
      rfl
    · simp only [run, delivered, named, deliver, line, Action.perform, done]
      rfl
    · simp only [run, delivered, named, deliver, line, Action.perform, fails, givenUp_some]

/-- A file with a diagnostic is not written when warnings are denied. It is written otherwise, but
not where there is no such path. -/
theorem lower_all_or_nothing_noisy :
    let run (output : Option String) (denyWarnings : Bool) : Execution :=
      (lower noisyFiles ⟨.compact, output, denyWarnings, false⟩ ["a"]).perform noisyFiles
        fun _ => none
    (run none true).result.output = "" ∧ (run none true).result.exit = 1
      ∧ (∃ schema, schemaAt? noisyFiles "a" = some schema
        ∧ (run none false).result.output = Json.compact schema.encode ++ "\n"
        ∧ (run none false).result.exit = 0)
      ∧ (run (some "") false).result.output = "" ∧ (run (some "") false).result.exit = 1 := by
  have found : (schemaAt? noisyFiles "a").isSome := by
    rw [schemaAt?, loadAndLower_noisyFiles]
    rfl
  have reported : diagnosticsAt noisyFiles "a" ≠ [] := by
    rw [diagnosticsAt, loadAndLower_noisyFiles]
    decide
  have accepted (output : Option String) :
      LowerOptions.Accepts ⟨.compact, output, false, false⟩ noisyFiles ["a"] := by
    simp [LowerOptions.Accepts, found]
  have refused : ¬LowerOptions.Accepts ⟨.compact, none, true, false⟩ noisyFiles ["a"] := by
    simp [LowerOptions.Accepts, reported]
  have nowhere (text : String) : noisyFiles.write "" text = .error .notFound := rfl
  obtain ⟨-, denied, -⟩ :=
    lower_all_or_nothing noisyFiles ⟨.compact, none, true, false⟩ ["a"] fun _ => none
  obtain ⟨-, -, allowed⟩ :=
    lower_all_or_nothing noisyFiles ⟨.compact, none, false, false⟩ ["a"] fun _ => none
  obtain ⟨-, -, misplaced⟩ :=
    lower_all_or_nothing noisyFiles ⟨.compact, some "", false, false⟩ ["a"] fun _ => none
  obtain ⟨schema, text, schemas, rfl, -, -, printed, -⟩ := allowed (accepted none)
  obtain ⟨_, _, -, -, -, -, -, unwritten⟩ := misplaced (accepted (some ""))
  have nothing := congrArg Execution.result (denied refused)
  have everything := congrArg Execution.result (printed rfl)
  have failure := congrArg Execution.result ((unwritten "" rfl).2 _ (nowhere _))
  exact ⟨congrArg Result.output nothing, congrArg Result.exit nothing,
    ⟨schema "a", schemas "a" List.mem_cons_self, congrArg Result.output everything,
      congrArg Result.exit everything⟩,
    congrArg Result.output failure, congrArg Result.exit failure⟩

end NeutralSchema.Command
