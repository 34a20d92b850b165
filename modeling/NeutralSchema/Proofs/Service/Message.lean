import NeutralSchema.Proofs.Json.Decoding
import NeutralSchema.Proofs.Json.Visible
import NeutralSchema.Proofs.Json.Yields
import NeutralSchema.Service.Message

/-!
# Reading what was written for the service

A request is posted as a text that is decoded to that request and no other one, and a response that
is written as a text is read back. What the texts of a response are can be told from the entries of
its document. Main statements: `Request.decodeText_body`, `Response.read_compact`,
`Response.holdsText_of_read`.
-/
namespace NeutralSchema.Service

open Json

namespace Request

theorem isPlain_encode (r : Request) : r.encode.isPlain := rfl

theorem decode_encode (access : Access) (room : Nat) (r : Request) :
    Request.decode access room r.encode = within room r.encode.depth r :=
  decodeRecord_object access _ _ room (by simp) fun room => by
    simp [decodeString, depthEntries, depth]

/-- The text of a request denotes that request and no other one. -/
theorem decodeText_body (r other : Request) :
    decodeText Request.decode r.body = .ok other ↔ other = r := by
  have shallow : r.encode.depth ≤ nestingLimit := Nat.le_of_ble_eq_true rfl
  rw [decodeText, body, read_compact (isPlain_encode r)]
  simp only [decode_encode, within, if_pos shallow, Except.ok.injEq]
  exact eq_comm

/-- No control character is posted as it is. -/
theorem visible_body (r : Request) {c : Char} (mem : c ∈ r.body.toList) : 0x20 ≤ c.toNat :=
  of_decide_eq_true (List.all_eq_true.mp (visible_compact (isExact_of_isPlain _ (isPlain_encode r)))
    c mem)

end Request

theorem decodeWord64_natural (n : UInt64) : decodeWord64 (natural n.toNat) = .ok n := by
  have fits : n.toNat < UInt64.size := n.toNat_lt
  simp [decodeWord64, natural, fits]

namespace Response

theorem isExact_encode (r : Response) : r.encode.isExact := by
  obtain ⟨elapsed, exception, result⟩ := r
  have fits : elapsed.toNat < UInt64.size := elapsed.toNat_lt
  have time : (natural elapsed.toNat).leaves isExactScalar := by
    simp only [natural, leaves, isExactScalar, Bool.and_eq_true, decide_eq_true_eq]
    omega
  cases exception <;> cases result <;>
    simp [encode, textEntry, isExact, leaves, leavesEntries, time, isExactScalar]

theorem decode_encode (access : Access) (room : Nat) (r : Response) :
    Response.decode access room r.encode = within room r.encode.depth r := by
  obtain ⟨elapsed, exception, result⟩ := r
  have flat : (natural elapsed.toNat).depth = 0 := rfl
  cases exception <;> cases result <;>
    exact decodeRecord_object access _ _ room (by simp [textEntry]) fun room => by
      simp [textEntry, decodeWord64_natural, decodeNullable, decodeString, Except.map,
        depthEntries, depth, flat]

/-- A response that is written as a text is read back. -/
theorem read_compact (r : Response) : Response.read r.encode.compact = .ok r := by
  have shallow : r.encode.depth ≤ nestingLimit := by
    obtain ⟨elapsed, exception, result⟩ := r
    cases exception <;> cases result <;> exact Nat.le_of_ble_eq_true rfl
  rw [Response.read, decodeText, read_compact_of_isExact (isExact_encode r)]
  simp only [decode_encode, within, if_pos shallow]

/-- What the document of a response has under a name: an entry, or the element at the place of the
field where the response is written as a list. -/
def valueAt? (name : String) : Json → Option Json
  | .object entries => entries.lookup name
  | .array vs => (["elapsedMs", "exceptionText", "result"].zip vs).lookup name
  | _ => none

/-- Whether a response that has an entry under a name holds a text there, or none. An entry that is
missing or `null` is no text; an empty string is one. -/
def HoldsText (entry : Option Json) : Option String → Prop
  | none => entry = none ∨ entry = some .null
  | some text => entry = some (.string text)

theorem HoldsText.unique {entry : Option Json} {text text' : Option String}
    (first : HoldsText entry text) (second : HoldsText entry text') : text = text' := by
  cases text <;> cases text' <;> simp_all [HoldsText]

theorem holdsText_optional (fields : Fields) (name : String) :
    Yields (fields.optional name decodeString) (HoldsText (fields.lookup name)) := by
  unfold Fields.optional Fields.withDefault
  cases fields.lookup name with
  | none => exact .ok (.inl rfl)
  | some v =>
    change Yields (decodeNullable decodeString v) _
    unfold decodeNullable
    split
    · exact .ok (.inr rfl)
    · refine .map ?_
      unfold decodeString
      split
      · exact .ok rfl
      · exact .mismatch _ _

/-- The fields of a response are what its document has under their names. -/
theorem lookup_record (access : Access) (v : Json) :
    Yields (record access "struct RunResponse"
      [omittable "elapsedMs", omittable "exceptionText", omittable "result"] v)
      fun fields => ∀ name, fields.lookup name = valueAt? name v := by
  unfold record
  split
  · unfold named
    split
    · exact .unfit _
    · exact .ok fun _ => rfl
  · unfold positional
    split
    · exact .unfit _
    · split_ifs
      · exact .ok fun _ => rfl
      · cases access
        · exact .malformed _
        · exact .unfit _
  · exact .mismatch _ _

theorem holdsText_decode (access : Access) (room : Nat) (v : Json) :
    Yields (Response.decode access room v) fun r =>
      HoldsText (valueAt? "exceptionText" v) r.exception
        ∧ HoldsText (valueAt? "result" v) r.result := by
  cases room with
  | zero => exact .noRoom _ _
  | succ room =>
    refine .bind (lookup_record access v) fun fields known => ?_
    refine .bind (.any _) fun elapsed _ => ?_
    refine .bind (holdsText_optional fields "exceptionText") fun exception thrown => ?_
    refine .bind (holdsText_optional fields "result") fun result printed => .pure ?_
    rw [known] at thrown printed
    exact ⟨thrown, printed⟩

/-- The texts of a response are those of its document. -/
theorem holdsText_of_read {body : String} {r : Response} (decoded : Response.read body = .ok r) :
    ∃ v, Json.read body = .ok v ∧ HoldsText (valueAt? "exceptionText" v) r.exception
      ∧ HoldsText (valueAt? "result" v) r.result := by
  rw [Response.read, decodeText] at decoded
  cases known : Json.read body with
  | error e =>
    rw [known] at decoded
    cases decoded
  | ok v =>
    rw [known] at decoded
    exact ⟨v, rfl, holdsText_decode .streamed nestingLimit v r decoded⟩

end Response

end NeutralSchema.Service
