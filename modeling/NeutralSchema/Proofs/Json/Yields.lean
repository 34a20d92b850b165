import NeutralSchema.Json.Decode

/-!
# What decoding yields

`Yields x P` says that `P` holds of the value of `x`, if there is one. A property of what a decoder
yields is put together from the properties of its steps.
-/
namespace NeutralSchema.Json

/-- If there is a value, it has the property. -/
def Yields {α : Type} (x : Decoded α) (P : α → Prop) : Prop := ∀ a, x = .ok a → P a

namespace Yields

variable {α β : Type} {P : α → Prop} {Q : β → Prop}

theorem any (x : Decoded α) : Yields x fun _ => True := fun _ _ => trivial

theorem ok {a : α} (h : P a) : Yields (.ok a) P := by
  intro b eq
  cases eq
  exact h

theorem pure {a : α} (h : P a) : Yields (Pure.pure a : Decoded α) P := ok h

theorem unfit (e : DataError) : Yields (Json.unfit e) P := by
  intro a eq
  cases eq

theorem malformed (e : SyntaxError) : Yields (Json.malformed e) P := by
  intro a eq
  cases eq

theorem bind {x : Decoded α} {f : α → Decoded β} (first : Yields x P)
    (rest : ∀ a, P a → Yields (f a) Q) : Yields (x >>= f) Q := by
  intro b eq
  cases outcome : x with
  | error e =>
    rw [outcome] at eq
    cases eq
  | ok a =>
    rw [outcome] at eq
    exact rest a (first a outcome) b eq

theorem map {x : Decoded α} {f : α → β} (h : Yields x fun a => Q (f a)) : Yields (x.map f) Q := by
  intro b eq
  cases outcome : x with
  | error e =>
    rw [outcome] at eq
    cases eq
  | ok a =>
    rw [outcome] at eq
    cases eq
    exact h a outcome

theorem mono {x : Decoded α} {P' : α → Prop} (h : Yields x P) (weaker : ∀ a, P a → P' a) :
    Yields x P' :=
  fun a eq => weaker a (h a eq)

theorem mismatch (expected : String) (v : Json) : Yields (Json.mismatch expected v) P := by
  intro a eq
  cases v with
  | number n => cases n <;> cases eq
  | _ => cases eq

theorem noRoom (expected : String) (v : Json) : Yields (Json.noRoom expected v) P := by
  unfold Json.noRoom
  split
  · exact malformed _
  · exact malformed _
  · exact mismatch expected _

theorem noRoomNode (expected : String) (v : Json) : Yields (Json.noRoomNode expected v) P := by
  unfold Json.noRoomNode
  split
  · exact malformed _
  · exact mismatch expected _

theorem mapM {f : Json → Decoded α} (each : ∀ v, Yields (f v) P) (vs : List Json) :
    Yields (vs.mapM f) fun as => ∀ a ∈ as, P a := by
  induction vs with
  | nil => exact pure (by simp)
  | cons v vs ih =>
    rw [List.mapM_cons]
    refine bind (each v) fun a first => bind ih fun as rest => pure ?_
    intro b mem
    rcases List.mem_cons.mp mem with rfl | mem
    · exact first
    · exact rest b mem

theorem decodeElements {f : Json → Decoded α} (each : ∀ v, Yields (f v) P) (v : Json) :
    Yields (Json.decodeElements f v) fun as => ∀ a ∈ as, P a := by
  unfold Json.decodeElements
  split
  · exact mapM each _
  · exact mismatch _ _

/-- The elements of a list have one container less of room. -/
theorem decodeList {f : Nat → Json → Decoded α} {size : α → Nat}
    (each : ∀ room v, Yields (f room v) (size · ≤ room)) (room : Nat) (v : Json) :
    Yields (Json.decodeList f room v) fun as => ∀ a ∈ as, size a < room := by
  cases room with
  | zero => exact noRoom _ _
  | succ room =>
    exact (decodeElements (each room) v).mono fun as all a mem => Nat.lt_succ_of_le (all a mem)

/-- The parts of a record have one container less of room. -/
theorem decodeRecord {access : Access} {owner : String} {known : List Field}
    {build : Nat → Fields → Decoded α} {size : α → Nat}
    (built : ∀ room fields, Yields (build room fields) (size · ≤ room + 1)) (room : Nat)
    (v : Json) : Yields (Json.decodeRecord access owner known build room v) (size · ≤ room) := by
  cases room with
  | zero => exact noRoom owner v
  | succ room => exact bind (any _) fun fields _ => built room fields

section

variable (fields : Fields) (name : String) {decode : Json → Decoded α}
  (each : ∀ v, Yields (decode v) P)

include each

theorem required : Yields (fields.required name decode) P := by
  unfold Fields.required
  split
  · exact each _
  · exact unfit _

theorem withDefault {default : α} (absent : P default) :
    Yields (fields.withDefault name default decode) P := by
  unfold Fields.withDefault
  split
  · exact each _
  · exact ok absent

theorem optional : Yields (fields.optional name decode) fun a? => ∀ a ∈ a?, P a := by
  refine withDefault fields name (fun v => ?_) (by simp)
  unfold decodeNullable
  split
  · exact ok (by simp)
  · refine map ((each _).mono fun a holds b mem => ?_)
    cases mem
    exact holds

end

end Yields
end NeutralSchema.Json
