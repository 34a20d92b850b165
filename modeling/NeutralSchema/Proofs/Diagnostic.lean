import NeutralSchema.Diagnostic
import NeutralSchema.Proofs.Schema.Decoding
import NeutralSchema.Proofs.Tree.Exact

/-!
# Decoding encoded diagnostics

The document of a diagnostic nests three containers at most, and decodes to that diagnostic. Main
statement: `Diagnostic.decodeList_encode`.
-/
namespace NeutralSchema

open Json

theorem decodeWord32_natural (n : UInt32) : decodeWord32 (natural n.toNat) = .ok n := by
  have fits : n.toNat < UInt32.size := n.toNat_lt
  simp [decodeWord32, natural, fits]

theorem depth_natural (n : Nat) : (natural n).depth = 0 := rfl

theorem Span.decode_encode (access : Access) (room : Nat) (s : Span) :
    Span.decode access room s.encode = within room s.encode.depth s := by
  refine decodeRecord_object access _ _ room (by simp) fun room => ?_
  simp [decodeWord32_natural, depth_natural, depthEntries]

theorem FileSpan.decode_encode (access : Access) (room : Nat) (s : FileSpan) :
    FileSpan.decode access room s.encode = within room s.encode.depth s := by
  refine decodeRecord_object access _ _ room (by simp) fun room => ?_
  simp [decodeWord32_natural, Span.decode_encode, depth_natural, depthEntries]

theorem DiagnosticKind.variant_code (kind : DiagnosticKind) : variant kind.code = .ok kind := by
  cases kind <;> rfl

namespace Diagnostic

theorem decodeNullable_source (access : Access) (room : Nat) (source : Option FileSpan) :
    decodeNullable (FileSpan.decode access room) (ofOption (source.map FileSpan.encode))
      = within room (ofOption (source.map FileSpan.encode)).depth source := by
  cases source with
  | none => rfl
  | some s =>
    change (FileSpan.decode access room s.encode).map some = _
    rw [FileSpan.decode_encode, exceptMap_within]
    rfl

theorem decode_encode (access : Access) (room : Nat) (d : Diagnostic) :
    Diagnostic.decode access room d.encode = within room d.encode.depth d := by
  refine decodeRecord_object access _ _ room (by simp) fun room => ?_
  simp [Schema.decodeName_name (DiagnosticKind.variant_code d.kind), decodeString,
    decodeNullable_source, depthEntries, depth]

theorem depth_encode_le (d : Diagnostic) : d.encode.depth ≤ 3 := by
  obtain ⟨kind, message, source⟩ := d
  cases source with
  | none => exact Nat.le_of_ble_eq_true rfl
  | some s => exact Nat.le_of_ble_eq_true rfl

/-- A list of diagnostics nests four containers at most. -/
theorem decodeList_encode (access : Access) {room : Nat} (enough : 4 ≤ room)
    (ds : List Diagnostic) :
    decodeList (Diagnostic.decode access) room (.array (ds.map encode)) = .ok ds := by
  have shallow : depthAll (ds.map encode) ≤ 3 := by
    induction ds with
    | nil => exact Nat.zero_le 3
    | cons d ds ih => exact Nat.max_le.mpr ⟨depth_encode_le d, ih⟩
  rw [Json.decodeList_encode (decode_encode access) room ds, within, if_pos]
  exact Nat.le_trans (Nat.succ_le_succ shallow) enough

theorem leaves_encode (d : Diagnostic) : d.encode.leaves isExactScalar := by
  obtain ⟨kind, message, source⟩ := d
  cases source <;> simp [encode, FileSpan.encode, ofOption, leaves, leavesEntries, isExactScalar]

end Diagnostic

end NeutralSchema
