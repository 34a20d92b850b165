import NeutralSchema.Span.Codec

/-!
# Diagnostics

What lowering reports about constructs it leaves out. A diagnostic never stops lowering.
-/
namespace NeutralSchema

inductive DiagnosticKind where
  | invalidName
  | unexpectedExpression
  | unexpectedStatement
  /-- A loop initializer is not a single declarator. -/
  | unsupportedLoopInitializer
  | multipleConstructors
  deriving DecidableEq, Repr

def DiagnosticKind.code : DiagnosticKind → String
  | .invalidName => "invalid-name"
  | .unexpectedExpression => "unexpected-expression"
  | .unexpectedStatement => "unexpected-statement"
  | .unsupportedLoopInitializer => "unsupported-loop-initializer"
  | .multipleConstructors => "multiple-constructors"

instance : Json.Enumerated DiagnosticKind where
  all := [.invalidName, .unexpectedExpression, .unexpectedStatement,
    .unsupportedLoopInitializer, .multipleConstructors]
  name := DiagnosticKind.code

structure Diagnostic where
  kind : DiagnosticKind
  message : String
  source : Option FileSpan
  deriving DecidableEq, Repr

namespace Diagnostic

open Json

/-- The message, with the location if it is known. -/
def text (d : Diagnostic) : String :=
  match d.source with
  | some source => d.message ++ " (" ++ source.text ++ ")"
  | none => d.message

def encode (d : Diagnostic) : Json :=
  .object [("kind", .string d.kind.code), ("message", .string d.message),
    ("source", ofOption (d.source.map FileSpan.encode))]

def decode (access : Access) : Nat → Json → Decoded Diagnostic :=
  decodeRecord access "struct Diagnostic" [field "kind", field "message", field "source"]
    fun room fields => do
      let kind ← fields.required "kind" (decodeName access room)
      let message ← fields.required "message" decodeString
      let source ← fields.optional "source" (FileSpan.decode access room)
      return ⟨kind, message, source⟩

end Diagnostic
end NeutralSchema
