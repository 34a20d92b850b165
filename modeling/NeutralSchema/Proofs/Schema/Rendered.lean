import NeutralSchema.Proofs.Json.Brackets
import NeutralSchema.Proofs.Lowering.Rendering

/-!
# Schemas and their texts

In either layout the text of a schema denotes that schema and no other, whether a tree lowers to it
or not. Main statement: `renderSchema_faithful`.
-/
namespace NeutralSchema

/-- Nothing is lost in the document of a schema, however deep it is. -/
theorem Schema.File.encode_injective : Function.Injective Schema.File.encode := by
  intro s t same
  have first := Schema.File.decode_encode .collected s.encode.depth s
  have second := Schema.File.decode_encode .collected s.encode.depth t
  rw [Json.within, if_pos (Nat.le_refl _)] at first
  rw [← same, Json.within, if_pos (Nat.le_refl _), first] at second
  exact Except.ok.inj second

/-- Layouts do not hide a difference between schemas. -/
theorem renderSchema_inj {format other : OutputFormat} {s t : Schema.File}
    (same : renderSchema format s = renderSchema other t) : s = t := by
  have document := read_renderSchema format s
  rw [same, read_renderSchema] at document
  exact Schema.File.encode_injective (Except.ok.inj document).symm

/-- In both layouts the brackets of a schema are the containers of its document. -/
theorem nesting_renderSchema (format : OutputFormat) (s : Schema.File) :
    Json.nesting (renderSchema format s) = s.encode.depth := by
  cases format with
  | compact => exact Json.nesting_compact (Schema.File.isPlain_encode s)
  | indented => exact Json.nesting_indented (Schema.File.isPlain_encode s)

/-- The text of a schema is decoded to that schema, all maps in order, if it opens no more brackets
at once than the reader takes, and otherwise is too deep. So both layouts are decoded alike, and two
schemas never have the same text. -/
theorem renderSchema_faithful (s : Schema.File) :
    (∀ format, Json.decodeText Schema.File.decode (renderSchema format s)
        = if Json.nesting (renderSchema format s) ≤ Json.nestingLimit then .ok s
          else Json.malformed .tooDeep)
      ∧ Json.decodeText Schema.File.decode (renderSchema .compact s)
        = Json.decodeText Schema.File.decode (renderSchema .indented s)
      ∧ ∀ (t : Schema.File) (format other : OutputFormat),
        renderSchema format s = renderSchema other t → s = t := by
  have decoded (format : OutputFormat) := decodeText_renderSchema format s
  refine ⟨fun format => ?_, ?_, fun t format other => renderSchema_inj⟩
  · rw [decoded, nesting_renderSchema, Json.within]
  · rw [decoded, decoded]

/-- A schema with empty slots, with brackets and a quotation mark in its strings, and without most
of what may be left out. -/
def bracketedSchema : Schema.File :=
  ⟨.ofList [("\"[", ⟨["[[", ""]⟩)],
    .ofList [("A", ⟨.ofList [("x", ⟨.named "B" [.array []], .inside, some "\\"⟩)],
      .ofList [("run", ⟨[⟨"p", .int32⟩], .void,
        [.return none, .if (some (.array [none, some (.identifier "\n")])) [] none,
          .for none none none [.expression none]]⟩)], none⟩)]⟩

theorem renderSchema_faithful_bracketed :
    (∀ format, Json.nesting (renderSchema format bracketedSchema) = 11)
      ∧ ∀ format, Json.decodeText Schema.File.decode (renderSchema format bracketedSchema)
        = .ok bracketedSchema := by
  have shallow (format : OutputFormat) :
      Json.nesting (renderSchema format bracketedSchema) = 11 := by
    rw [nesting_renderSchema]
    rfl
  obtain ⟨decoded, -⟩ := renderSchema_faithful bracketedSchema
  refine ⟨shallow, fun format => ?_⟩
  rw [decoded, shallow, if_pos (by decide)]

end NeutralSchema
