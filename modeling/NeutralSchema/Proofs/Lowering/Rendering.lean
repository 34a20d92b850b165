import NeutralSchema.Batch
import NeutralSchema.OutputFormat
import NeutralSchema.Proofs.FileSystem
import NeutralSchema.Proofs.Lowering.Depth
import NeutralSchema.Proofs.Lowering.Violations
import NeutralSchema.Proofs.Schema.Decoding

/-!
# Reading rendered schemas back

A rendered schema denotes the schema that it was rendered from, as long as it nests no more
containers than the reader takes. A tree that is small enough to be loaded may have a schema that is
too deep. Main statement: `rendered_schema_read_back`.
-/
namespace NeutralSchema

theorem read_print (format : OutputFormat) {v : Json} (plain : v.isPlain) :
    Json.read (format.print v) = .ok v := by
  cases format with
  | compact => exact Json.read_compact plain
  | indented => exact Json.read_indented plain

theorem read_renderSchema (format : OutputFormat) (s : Schema.File) :
    Json.read (renderSchema format s) = .ok s.encode :=
  read_print format (Schema.File.isPlain_encode s)

theorem decodeText_renderSchema (format : OutputFormat) (s : Schema.File) :
    Json.decodeText Schema.File.decode (renderSchema format s)
      = Json.within Json.nestingLimit s.encode.depth s := by
  rw [Json.decodeText, read_renderSchema]
  exact Schema.File.decode_encode .streamed Json.nestingLimit s

theorem nesting_le_of_loadTree [Json.Locating] {fs : FileSystem} {path : String} {f : Tree.File}
    (loaded : loadTree fs path = .ok f) : f.nesting ≤ Json.nestingLimit := by
  unfold loadTree at loaded
  split at loaded
  · cases loaded
  · split at loaded
    · cases loaded
    · next tree decoded =>
      have less : tree.nesting ≤ Json.nestingLimit := by
        unfold Json.decodeText at decoded
        split at decoded
        · exact Tree.File.nesting_decode .streamed Json.nestingLimit _ tree decoded
        · cases decoded
      -- The path that a tree is given does not count.
      cases loaded
      split <;> exact less

theorem schema_of_lowerTree {f : Tree.File} {lowered : Lowered}
    (done : lowerTree f = .ok lowered) : lowered.schema = f.translation := by
  unfold lowerTree at done
  split at done
  · next schema diagnostics outcome =>
    cases done
    exact (lowerFile_eq_ok_iff.mp outcome).2.1
  · cases done

/-- The text of a lowered schema denotes that schema if it nests at most as many containers as the
reader takes, and otherwise is too deep for it. It nests at most one container more than the tree,
and two more for each body without braces inside another; so small trees are always read back. -/
theorem rendered_schema_read_back [Json.Locating] {fs : FileSystem} {path : String}
    {f : Tree.File} {lowered : Lowered} (format : OutputFormat) (loaded : loadTree fs path = .ok f)
    (done : lowerTree f = .ok lowered) :
    Json.decodeText Schema.File.decode (renderSchema format lowered.schema)
        = (if lowered.schema.encode.depth ≤ Json.nestingLimit then .ok lowered.schema
          else Json.malformed .tooDeep)
      ∧ f.nesting ≤ Json.nestingLimit
      ∧ lowered.schema.encode.depth ≤ max 7 (f.nesting + 2 * f.bareBodies + 1)
      ∧ (f.nesting + 2 * f.bareBodies < Json.nestingLimit →
        Json.decodeText Schema.File.decode (renderSchema format lowered.schema)
          = .ok lowered.schema) := by
  have readBack := decodeText_renderSchema format lowered.schema
  have bounded : lowered.schema.encode.depth ≤ max 7 (f.nesting + 2 * f.bareBodies + 1) := by
    rw [schema_of_lowerTree done]
    exact depth_fileTranslation f
  refine ⟨readBack, nesting_le_of_loadTree loaded, bounded, ?_⟩
  intro small
  have fits : lowered.schema.encode.depth ≤ Json.nestingLimit := by
    rw [Json.nestingLimit] at small ⊢
    omega
  rw [readBack, Json.within, if_pos fits]

/-- The document of so many loops inside each other, none of them with braces. -/
def loopsDocument : Nat → Json
  | 0 => .object [("kind", .string "empty")]
  | n + 1 =>
    .object [("kind", .string "while"), ("condition", .object [("kind", .string "this")]),
      ("body", loopsDocument n)]

def loops : Nat → Tree.Stmt
  | 0 => .bare .zero .empty
  | n + 1 => .while .zero (.self .zero .this) (loops n)

/-- The document of a class with one method. -/
def methodDocument (body : Json) : Json :=
  .object [("path", .string "a"), ("text", .string ""), ("items", .array [.object [("kind", .string "class"),
    ("name", .object [("text", .string "A")]), ("members", .array [.object [
      ("kind", .string "method"), ("name", .object [("text", .string "run")]),
      ("return_type", .object [("name", .object [("intrinsic", .string "void")])]),
      ("body", .object [("statements", .array [body])])]])]])]

def methodTree (body : Tree.Stmt) : Tree.File :=
  ⟨0, "a", "", [.classDecl ⟨⟨"A", .zero⟩, [.method ⟨⟨"run", .zero⟩, [],
    some (.mk (.intrinsic "void") []), .none, some [body], .zero⟩], .zero⟩]⟩

/-- A file system with one file. -/
def singleFile (text : String) : FileSystem := ⟨[], [(["a"], .file text.toUTF8)]⟩

theorem read_singleFile (text : String) : (singleFile text).read "a" = .ok text := by
  have parts : "a".splitOn "/" = ["a"] := by
    rw [String.splitOn, if_neg (by decide), String.splitOnAux, if_neg (by decide),
      if_neg (by decide), String.splitOnAux, if_pos (by decide)]
    rfl
  have relative : "a".startsWith "/" = false := by simp
  have place : (singleFile text).locate "a" = .ok ["a"] := by
    rw [FileSystem.locate, if_neg (by decide), if_neg (by decide), if_neg (by decide), parts,
      relative]
    rfl
  exact FileSystem.read_of_file place rfl

theorem loadTree_singleFile [Json.Locating] {v : Json} {f : Tree.File} (plain : v.isPlain)
    (decoded : Tree.File.decode .streamed Json.nestingLimit v = .ok f)
    (named : f.path.isEmpty = false) : loadTree (singleFile (Json.compact v)) "a" = .ok f := by
  have tree : Json.decodeText Tree.File.decode (Json.compact v) = .ok f := by
    rw [Json.decodeText, Json.read_compact plain]
    exact decoded
  rw [loadTree, read_singleFile]
  simp only [tree, named]
  rfl

theorem lowerTree_eq_ok {f : Tree.File} (goesOn : ∀ v ∈ f.visits, v.violation? f = none) :
    lowerTree f = .ok ⟨f.translation, f.visits.flatMap (Visit.reports f.id)⟩ := by
  have outcome : (lowerFile f).runFrom []
      = (.ok f.translation, [] ++ f.visits.flatMap (Visit.reports f.id)) :=
    lowerFile_eq_ok_iff.mpr ⟨goesOn, rfl, rfl⟩
  rw [lowerTree, outcome]
  rfl

set_option maxRecDepth 4000 in
/-- The schema of forty loops nests as many containers as the reader takes. -/
theorem loops_read_back :
    ∃ lowered, loadTree (singleFile (Json.compact (methodDocument (loopsDocument 40)))) "a"
        = .ok (methodTree (loops 40))
      ∧ lowerTree (methodTree (loops 40)) = .ok lowered
      ∧ lowered.schema.encode.depth = 127
      ∧ ∀ format, Json.decodeText Schema.File.decode (renderSchema format lowered.schema)
        = .ok lowered.schema := by
  have loaded := loadTree_singleFile (v := methodDocument (loopsDocument 40))
    (f := methodTree (loops 40)) (by decide) rfl rfl
  have done := lowerTree_eq_ok (f := methodTree (loops 40)) (by decide)
  refine ⟨_, loaded, done, rfl, fun format => ?_⟩
  obtain ⟨readBack, -⟩ := rendered_schema_read_back format loaded done
  exact readBack

set_option maxRecDepth 4000 in
/-- With one more loop the tree is loaded and lowered as well, but the text of its schema is
refused. -/
theorem deeper_loops_refused :
    ∃ lowered, loadTree (singleFile (Json.compact (methodDocument (loopsDocument 41)))) "a"
        = .ok (methodTree (loops 41))
      ∧ lowerTree (methodTree (loops 41)) = .ok lowered
      ∧ ∀ format, Json.decodeText Schema.File.decode (renderSchema format lowered.schema)
        ≠ .ok lowered.schema := by
  have loaded := loadTree_singleFile (v := methodDocument (loopsDocument 41))
    (f := methodTree (loops 41)) (by decide) rfl rfl
  have done := lowerTree_eq_ok (f := methodTree (loops 41)) (by decide)
  refine ⟨_, loaded, done, fun format => ?_⟩
  have tooDeep : (methodTree (loops 41)).translation.encode.depth = 130 := rfl
  rw [decodeText_renderSchema, Json.within, if_neg (by rw [tooDeep]; decide)]
  intro equal
  cases equal

end NeutralSchema
