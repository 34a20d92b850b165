import NeutralSchema.Proofs.Lowering.Separation
import NeutralSchema.Proofs.Text.Bytes

/-!
# Source text under a span

A span has a text exactly if it lies inside the source text, between characters, and the text is
what the bytes under the span are. Main statement: `sourceText_exact`.
-/
namespace NeutralSchema

namespace Span

/-- Whether a span lies inside a text: its ends are in order, not behind the end of the text, and
between characters. -/
def Inside (span : Span) (text : String) : Prop :=
  span.start ≤ span.stop ∧ span.stop.toNat ≤ text.utf8ByteSize
    ∧ String.Pos.Raw.IsValid text ⟨span.start.toNat⟩
    ∧ String.Pos.Raw.IsValid text ⟨span.stop.toNat⟩

instance (span : Span) (text : String) : Decidable (span.Inside text) :=
  inferInstanceAs (Decidable (_ ∧ _ ∧ _ ∧ _))

/-- The bytes of a text under a span. -/
def bytes (span : Span) (text : String) : ByteArray :=
  text.toUTF8.extract span.start.toNat span.stop.toNat

end Span

section

variable {f : Tree.File} {span : Span} {part : String}

theorem isSome_textAt?_iff : (f.textAt? span).isSome ↔ span.Inside f.text := by
  rw [Tree.File.textAt?, Text.isSome_slice?_iff, Span.Inside, UInt32.le_iff_toNat_le]
  constructor
  · rintro ⟨ordered, starts, stops⟩
    exact ⟨ordered, stops.le_rawEndPos, starts, stops⟩
  · rintro ⟨ordered, -, starts, stops⟩
    exact ⟨ordered, starts, stops⟩

theorem textAt?_eq_none_iff : f.textAt? span = none ↔ ¬span.Inside f.text := by
  rw [← isSome_textAt?_iff, Option.not_isSome_iff_eq_none]

/-- Two slices, of which the second starts where the first ends, are one slice together. -/
theorem textAt?_append {a b c : UInt32} {left right : String} (first : f.textAt? ⟨a, b⟩ = some left)
    (second : f.textAt? ⟨b, c⟩ = some right) : f.textAt? ⟨a, c⟩ = some (left ++ right) := by
  obtain ⟨before, rest, whole, starts, ends⟩ := Text.slice?_eq_some_iff.mp first
  obtain ⟨before', after, whole', starts', ends'⟩ := Text.slice?_eq_some_iff.mp second
  -- both cut the text at `b`
  obtain ⟨rfl, rfl⟩ : before ++ left = before' ∧ rest = right ++ after := by
    apply Text.append_inj_of_size
    · rw [String.append_assoc, ← whole, whole']
    · rw [String.utf8ByteSize_append, ends, starts']
  refine Text.slice?_eq_some_iff.mpr ⟨before, after, ?_, starts, ?_⟩
  · rw [whole, String.append_assoc]
  · rw [String.utf8ByteSize_append] at ends' ⊢
    rw [← ends', Nat.add_assoc]

theorem textAt?_whole (fits : f.text.utf8ByteSize < UInt32.size) :
    f.textAt? ⟨0, .ofNat f.text.utf8ByteSize⟩ = some f.text := by
  have length : (UInt32.ofNat f.text.utf8ByteSize).toNat = f.text.utf8ByteSize :=
    UInt32.toNat_ofNat_of_lt fits
  refine Text.slice?_eq_some_iff.mpr ⟨"", "", by simp, rfl, ?_⟩
  simp [length]

theorem runFrom_sourceText_inside (text : f.textAt? span = some part) (collected : Diagnostics) :
    (sourceText f span).runFrom collected = (.ok part, collected) := by
  rw [sourceText, text]
  rfl

theorem runFrom_sourceText_outside (outside : ¬span.Inside f.text) (collected : Diagnostics) :
    (sourceText f span).runFrom collected
      = (.error (.spanOutOfBounds f.path ⟨f.id, span⟩ f.text.utf8ByteSize), collected) := by
  rw [sourceText, textAt?_eq_none_iff.mpr outside, Text.byteLength_toList]
  rfl

theorem violation?_initializer (span : Span) : (Visit.initializer span).violation? f
    = if span.Inside f.text then none
      else some (.spanOutOfBounds f.path ⟨f.id, span⟩ f.text.utf8ByteSize) := by
  by_cases inside : span.Inside f.text
  · obtain ⟨part, text⟩ := Option.isSome_iff_exists.mp (isSome_textAt?_iff.mpr inside)
    simp [Visit.violation?, text, inside]
  · simp [Visit.violation?, textAt?_eq_none_iff.mpr inside, inside, Text.byteLength_toList,
      Tree.File.fileSpan]

/-- A property with a type violates nothing except by its initializer. -/
theorem findSome?_violation_property {p : Tree.Property} {t : Tree.ResolvedType}
    (typed : p.type = some t) (className : String) :
    (p.visits className).findSome? (Visit.violation? f)
      = p.initializer.bind fun e => (Visit.initializer e.span).violation? f := by
  have type : (Tree.typeVisits false (.field className (Name.normalize p.name.text)) p.span
      p.type).findSome? (Visit.violation? f) = none := by
    simp [Tree.typeVisits, typed, List.findSome?_eq_none_iff, Visit.violation?]
  rw [Tree.Property.visits, List.findSome?_cons, List.findSome?_append, type]
  cases p.initializer with
  | none => rfl
  | some e => simp [Visit.violation?]

/-- What lowering an instance property with a type adds to its class, or the error that stops it. -/
theorem fst_runFrom_property {p : Tree.Property} {t : Tree.ResolvedType}
    (own : p.modifiers.isStatic = false) (typed : p.type = some t) (declared className : String)
    (c : Schema.Class) (collected : Diagnostics) :
    ((lowerMember f declared className c (.property p)).runFrom collected).1
      = match p.initializer.bind fun e => (Visit.initializer e.span).violation? f with
        | some e => .error e
        | none => .ok { c with
            fields := c.fields.insert (Name.normalize p.name.text) (p.translation f) } := by
  have visits : Tree.memberVisits declared className c.constructor.isSome [.property p]
      = p.visits className := by
    simp [Tree.memberVisits, own]
  rw [lowerMember_eq, runFrom_afterVisits, visits, findSome?_violation_property typed]
  cases p.initializer.bind fun e => (Visit.initializer e.span).violation? f with
  | some e => rfl
  | none => simp [Tree.memberTranslation, own]

end

/-- A span has a text exactly if it lies inside the source text, between characters, and the text is
the bytes under the span. So the texts under two adjacent spans are the text under both together,
and the text under the span of all bytes is the source text, where its length fits a span. Asking
for the text under any other span is an error that tells the path, the span and the length of the
source text. An instance property with a type lowers with that error exactly if it has an
initializer with such a span, and otherwise the default value of its field is the bytes under the
initializer, if it has one. -/
theorem sourceText_exact (f : Tree.File) :
    (∀ span, (f.textAt? span).isSome ↔ span.Inside f.text)
      ∧ (∀ span part, f.textAt? span = some part → part.toUTF8 = span.bytes f.text)
      ∧ (∀ a b c left right, f.textAt? ⟨a, b⟩ = some left → f.textAt? ⟨b, c⟩ = some right →
        f.textAt? ⟨a, c⟩ = some (left ++ right))
      ∧ (f.text.utf8ByteSize < UInt32.size →
        f.textAt? ⟨0, .ofNat f.text.utf8ByteSize⟩ = some f.text)
      ∧ (∀ span collected,
        let run := (sourceText f span).runFrom collected
        (span.Inside f.text →
            ∃ part : String, run = (.ok part, collected) ∧ part.toUTF8 = span.bytes f.text)
          ∧ (¬span.Inside f.text →
            run = (.error (.spanOutOfBounds f.path ⟨f.id, span⟩ f.text.utf8ByteSize), collected)))
      ∧ ∀ (p : Tree.Property) (t : Tree.ResolvedType) (declared className : String)
          (c : Schema.Class) (collected : Diagnostics),
        p.modifiers.isStatic = false → p.type = some t →
        let outcome := ((lowerMember f declared className c (.property p)).runFrom collected).1
        (∀ e, outcome = .error e ↔ ∃ initializer, p.initializer = some initializer
            ∧ ¬initializer.span.Inside f.text
            ∧ e = .spanOutOfBounds f.path ⟨f.id, initializer.span⟩ f.text.utf8ByteSize)
          ∧ ((∀ initializer, p.initializer = some initializer → initializer.span.Inside f.text) →
            ∃ field, outcome = .ok { c with
                fields := c.fields.insert (Name.normalize p.name.text) field }
              ∧ field.defaultValue.map String.toUTF8
                = p.initializer.map fun e => e.span.bytes f.text) := by
  have text (span : Span) (inside : span.Inside f.text) :
      ∃ part : String, f.textAt? span = some part ∧ part.toUTF8 = span.bytes f.text := by
    obtain ⟨part, found⟩ := Option.isSome_iff_exists.mp (isSome_textAt?_iff.mpr inside)
    exact ⟨part, found, Text.toUTF8_of_slice? found⟩
  refine ⟨fun span => isSome_textAt?_iff, fun span part found => Text.toUTF8_of_slice? found,
    fun a b c left right first second => textAt?_append first second, textAt?_whole,
    fun span collected => ⟨fun inside => ?_, fun outside => ?_⟩, ?property⟩
  · obtain ⟨part, found, bytes⟩ := text span inside
    exact ⟨part, runFrom_sourceText_inside found collected, bytes⟩
  · exact runFrom_sourceText_outside outside collected
  case property =>
    intro p t declared className c collected own typed outcome
    have lowered : outcome = _ := fst_runFrom_property own typed declared className c collected
    rw [lowered]
    cases initializer : p.initializer with
    | none =>
      refine ⟨fun e => by simp, fun _ => ⟨_, rfl, ?_⟩⟩
      simp [Tree.Property.translation, initializer]
    | some i =>
      by_cases inside : i.span.Inside f.text
      · obtain ⟨part, found, bytes⟩ := text i.span inside
        refine ⟨fun e => by simp [violation?_initializer, inside], fun _ => ?_⟩
        simp only [Option.bind_some, violation?_initializer, if_pos inside]
        refine ⟨_, rfl, ?_⟩
        rw [Tree.Property.translation, initializer, Option.bind_some, found, Option.map_some,
          bytes, Option.map_some]
      · simp [violation?_initializer, inside, eq_comm]

/-- A text of three characters that take one, two and three bytes. -/
def accented : Tree.File := ⟨7, "a.ts", "aé€", []⟩

/-- A property with an initializer at a span. -/
def initializedAt (span : Span) : Tree.Property :=
  ⟨⟨"x", ⟨0, 0⟩⟩, some (.intrinsic "string"), .none, some (.identifier span "y"), ⟨0, 0⟩⟩

/-- The second byte is inside a character. -/
theorem sourceText_exact_accented :
    let lowered (span : Span) :=
      ((lowerMember accented "A" "a" .empty (.property (initializedAt span))).runFrom []).1
    accented.textAt? ⟨0, 3⟩ = some ("a" ++ "é") ∧ accented.textAt? ⟨0, 6⟩ = some "aé€"
      ∧ (sourceText accented ⟨0, 2⟩).runFrom []
        = (.error (.spanOutOfBounds "a.ts" ⟨7, ⟨0, 2⟩⟩ 6), [])
      ∧ lowered ⟨0, 2⟩ = .error (.spanOutOfBounds "a.ts" ⟨7, ⟨0, 2⟩⟩ 6)
      ∧ ∃ field, lowered ⟨1, 3⟩ = .ok ⟨OrderedMap.insert ∅ "x" field, ∅, none⟩
        ∧ field.defaultValue.map String.toUTF8 = some (Span.bytes ⟨1, 3⟩ "aé€") := by
  obtain ⟨-, -, adjacent, whole, asked, property⟩ := sourceText_exact accented
  have splits : ¬Span.Inside ⟨0, 2⟩ accented.text := by decide
  refine ⟨adjacent 0 1 3 "a" "é" (by decide) (by decide), whole (by decide),
    (asked ⟨0, 2⟩ []).2 splits, ?_, ?_⟩
  · obtain ⟨refused, -⟩ := property (initializedAt ⟨0, 2⟩) _ "A" "a" .empty [] rfl rfl
    exact (refused _).mpr ⟨_, rfl, splits, rfl⟩
  · obtain ⟨-, added⟩ := property (initializedAt ⟨1, 3⟩) _ "A" "a" .empty [] rfl rfl
    refine added fun initializer same => ?_
    cases same
    decide

end NeutralSchema
