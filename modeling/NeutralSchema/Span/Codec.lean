import NeutralSchema.Span
import NeutralSchema.Json.Decode

/-!
# Locations as documents
-/
namespace NeutralSchema

open Json

def Span.encode (s : Span) : Json :=
  .object [("start", natural s.start.toNat), ("end", natural s.stop.toNat)]

def Span.decode (access : Access) : Nat → Json → Decoded Span :=
  decodeRecord access "struct Span" [field "start", field "end"] fun _ fields => do
    let start ← fields.required "start" decodeWord32
    let stop ← fields.required "end" decodeWord32
    return ⟨start, stop⟩

/-- The span of a node, which is empty where none is given. -/
def Json.Fields.span (fields : Fields) (access : Access) (room : Nat) : Decoded Span :=
  fields.withDefault "span" .zero (Span.decode access room)

def FileSpan.encode (s : FileSpan) : Json :=
  .object [("file", natural s.file.toNat), ("span", s.span.encode)]

def FileSpan.decode (access : Access) : Nat → Json → Decoded FileSpan :=
  decodeRecord access "struct FileSpan" [field "file", field "span"] fun room fields => do
    let file ← fields.required "file" decodeWord32
    let span ← fields.required "span" (Span.decode access room)
    return ⟨file, span⟩

end NeutralSchema
