/-!
# Locations in source files

A span counts bytes of the source text; a file span also names the file.
-/
namespace NeutralSchema

structure Span where
  start : UInt32
  stop : UInt32
  deriving DecidableEq, Repr

namespace Span

def zero : Span := ⟨0, 0⟩

instance : Inhabited Span := ⟨zero⟩

/-- The number of bytes covered; a reversed span covers none. -/
def length (s : Span) : Nat := s.stop.toNat - s.start.toNat

def isEmpty (s : Span) : Bool := s.stop ≤ s.start

def text (s : Span) : String := toString s.start.toNat ++ ".." ++ toString s.stop.toNat

end Span

/-- The number of a file among those handled together. -/
abbrev FileId := UInt32

structure FileSpan where
  file : FileId
  span : Span
  deriving DecidableEq, Repr

def FileSpan.text (s : FileSpan) : String :=
  "file " ++ toString s.file.toNat ++ "@" ++ s.span.text

end NeutralSchema
