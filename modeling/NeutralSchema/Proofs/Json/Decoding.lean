import NeutralSchema.Json.Decode
import NeutralSchema.Proofs.Json.Printed

/-!
# Decoding under a nesting limit

A document of a value decodes to that value as long as there is room for all its containers, and is
too deep otherwise. `within` is that outcome, and the lemmas here say how the parts of a document
add up to it.
-/
namespace NeutralSchema.Json

mutual

/-- How many containers a document nests. -/
def depth : Json → Nat
  | .array elements => depthAll elements + 1
  | .object entries => depthEntries entries + 1
  | .null | .bool _ | .number _ | .string _ | .unreadable _ => 0

def depthAll : List Json → Nat
  | [] => 0
  | v :: vs => max v.depth (depthAll vs)

def depthEntries : List (String × Json) → Nat
  | [] => 0
  | (_, v) :: entries => max v.depth (depthEntries entries)

end

/-- The value, if there is room for as many containers as it nests. -/
def within {α : Type} (room depth : Nat) (a : α) : Decoded α :=
  if depth ≤ room then .ok a else malformed .tooDeep

section

variable {α β : Type} (room d e : Nat) (a : α)

@[simp] theorem ok_bind (f : α → Decoded β) : (Except.ok a : Decoded α) >>= f = f a := rfl

@[simp] theorem map_ok (f : α → β) : f <$> (Except.ok a : Decoded α) = .ok (f a) := rfl

@[simp] theorem within_zero : within room 0 a = .ok a := by
  simp [within]

@[simp] theorem within_succ : within (room + 1) (d + 1) a = within room d a := by
  simp [within]

theorem within_no_room : within 0 (d + 1) a = malformed .tooDeep := by
  simp [within]

/-- Several parts fit if each of them does. -/
theorem within_max : within room (max d e) a
    = if d ≤ room then within room e a else malformed .tooDeep := by
  by_cases fits : d ≤ room
  · simp only [within, Nat.max_le, fits, true_and, if_true]
  · simp only [within, Nat.max_le, fits, false_and, if_false]

theorem within_bind (f : α → Decoded β) :
    (within room d a >>= f) = if d ≤ room then f a else malformed .tooDeep := by
  by_cases fits : d ≤ room
  · rw [within, if_pos fits, if_pos fits]
    rfl
  · rw [within, if_neg fits, if_neg fits]
    rfl

@[simp] theorem map_within (f : α → β) : f <$> within room d a = within room d (f a) := by
  by_cases fits : d ≤ room
  · rw [within, if_pos fits, within, if_pos fits]
    rfl
  · rw [within, if_neg fits, within, if_neg fits]
    rfl

@[simp] theorem exceptMap_within (f : α → β) : (within room d a).map f = within room d (f a) :=
  map_within room d a f

@[simp] theorem ite_tooDeep :
    (if d ≤ room then .ok a else malformed .tooDeep) = within room d a := rfl

end

theorem mapError_bind {ε δ α β : Type} (g : ε → δ) (x : Except ε α) (f : α → Except ε β) :
    (x >>= f).mapError g = x.mapError g >>= fun a => (f a).mapError g := by
  cases x <;> rfl

def isValue : Json → Bool
  | .unreadable _ => false
  | _ => true

/-- Whether all of a document has a value. -/
def hasValue : Json → Bool := leaves isValue

mutual

/-- A document that has a value is readable where it is not too deep. -/
theorem readable_of_hasValue (room : Nat) : ∀ v : Json, v.hasValue →
    (readable room v).mapError .malformed = within room v.depth ()
  | .null, _ | .bool _, _ | .number _, _ | .string _, _ => rfl
  | .unreadable _, valued => absurd valued Bool.false_ne_true
  | .array vs, valued => by
    cases room with
    | zero => rw [depth, within_no_room]; rfl
    | succ room => rw [readable, depth, within_succ, readableAll_of_leavesAll room vs valued]
  | .object entries, valued => by
    cases room with
    | zero => rw [depth, within_no_room]; rfl
    | succ room =>
      rw [readable, depth, within_succ, readableEntries_of_leavesEntries room entries valued]

theorem readableAll_of_leavesAll (room : Nat) : ∀ vs : List Json, leavesAll isValue vs →
    (readableAll room vs).mapError .malformed = within room (depthAll vs) ()
  | [], _ => rfl
  | v :: vs, valued => by
    simp only [leavesAll, Bool.and_eq_true] at valued
    have first := readable_of_hasValue room v valued.1
    have rest := readableAll_of_leavesAll room vs valued.2
    rw [readableAll, mapError_bind, first, within_bind, rest, depthAll, within_max]

theorem readableEntries_of_leavesEntries (room : Nat) : ∀ entries : List (String × Json),
    leavesEntries isValue entries →
      (readableEntries room entries).mapError .malformed = within room (depthEntries entries) ()
  | [], _ => rfl
  | (key, v) :: entries, valued => by
    simp only [leavesEntries, Bool.and_eq_true] at valued
    have first := readable_of_hasValue room v valued.1
    have rest := readableEntries_of_leavesEntries room entries valued.2
    rw [readableEntries, mapError_bind, first, within_bind, rest, depthEntries, within_max]

end

theorem hasValue_of_isExact {v : Json} (exactly : v.isExact) : v.hasValue :=
  leaves_mono (fun w scalar => by cases w <;> first | rfl | exact absurd scalar Bool.false_ne_true)
    v exactly

/-- Reading a plain node as a whole first makes no difference to what it decodes to. -/
theorem collect_bind {α : Type} {access : Access} {room : Nat} {v : Json} (plain : v.isPlain)
    {rest : Decoded α} {a : α} (decoded : rest = within room v.depth a) :
    (collect access room v >>= fun _ => rest) = within room v.depth a := by
  cases access with
  | collected => exact decoded
  | streamed =>
    rw [collect, readable_of_hasValue room v (hasValue_of_isExact (isExact_of_isPlain v plain)),
      within_bind, decoded, within]
    split <;> rfl

section

variable {α : Type} (decode : Json → Decoded α) (name key : String) (v : Json) (fields : Fields)

@[simp] theorem required_cons : Fields.required ((key, v) :: fields) name decode
    = if name == key then decode v else fields.required name decode := by
  by_cases same : name == key <;> simp [Fields.required, List.lookup_cons, same]

@[simp] theorem withDefault_nil (default : α) :
    Fields.withDefault [] name default decode = .ok default := rfl

@[simp] theorem withDefault_cons (default : α) :
    Fields.withDefault ((key, v) :: fields) name default decode
      = if name == key then decode v else fields.withDefault name default decode := by
  by_cases same : name == key <;> simp [Fields.withDefault, List.lookup_cons, same]

@[simp] theorem optional_nil : Fields.optional [] name decode = .ok none := rfl

@[simp] theorem optional_cons : Fields.optional ((key, v) :: fields) name decode
    = if name == key then decodeNullable decode v else fields.optional name decode := by
  rw [Fields.optional, withDefault_cons, Fields.optional]

/-- Entries with different names are the fields of a record. -/
theorem named_of_nodup (known : List Field) {entries : Fields}
    (nodup : (entries.map Prod.fst).Nodup) : named known entries = .ok entries := by
  have once : repeated? known entries = none := by
    induction entries with
    | nil => rfl
    | cons entry entries ih =>
      obtain ⟨fresh, nodup⟩ := List.nodup_cons.mp nodup
      have absent : entries.any (·.1 == entry.1) = false := by
        rw [List.any_eq_false]
        intro e mem same
        exact fresh (eq_of_beq same ▸ List.mem_map_of_mem mem)
      rw [repeated?, absent, Bool.and_false]
      exact ih nodup
  rw [named, once]

end

/-- A record that is written as an object. -/
theorem decodeRecord_object {α : Type} (access : Access) (owner : String) (known : List Field)
    {build : Nat → Fields → Decoded α} {entries : Fields} {a : α} (room : Nat)
    (nodup : (entries.map Prod.fst).Nodup)
    (built : ∀ room, build room entries = within room (depthEntries entries) a) :
    decodeRecord access owner known build room (.object entries)
      = within room (Json.object entries).depth a := by
  cases room with
  | zero => rfl
  | succ room =>
    rw [decodeRecord, record, named_of_nodup known nodup, ok_bind, built, depth, within_succ]

/-- A node whose tag comes first and only once. -/
theorem decodeTagged_first {κ : Type} [Enumerated κ] (access : Access) (owner tag : String)
    (kind : κ) {name : String} {fields : Fields} (known : variant name = .ok kind)
    (others : fields.all (·.1 != tag)) :
    decodeTagged access owner tag (.object ((tag, .string name) :: fields))
      = .ok (kind, .entries fields) := by
  have none : fields.filter (·.1 == tag) = [] := by
    rw [List.filter_eq_nil_iff]
    intro e mem
    simpa using List.all_eq_true.mp others e mem
  have all : fields.filter (·.1 != tag) = fields := List.filter_eq_self.mpr fun e mem =>
    List.all_eq_true.mp others e mem
  simp [decodeTagged, tagged, decodeTag, none, all, known, Except.map]

section

variable {α : Type} {encode : α → Json} {decode : Nat → Json → Decoded α}

theorem isPlainAll_map (plain : ∀ a, (encode a).isPlain) (as : List α) :
    isPlainAll (as.map encode) := by
  induction as with
  | nil => rfl
  | cons a as ih => simp [isPlainAll, plain, ih]

theorem isPlainEntries_map (plain : ∀ a, (encode a).isPlain) (entries : List (String × α)) :
    isPlainEntries (entries.map fun e => (e.1, encode e.2)) := by
  induction entries with
  | nil => rfl
  | cons e entries ih => simp [isPlainEntries, plain, ih]

variable (decoded : ∀ room a, decode room (encode a) = within room (encode a).depth a)

include decoded

theorem mapM_decode (room : Nat) (as : List α) :
    (as.map encode).mapM (decode room) = within room (depthAll (as.map encode)) as := by
  induction as with
  | nil => rfl
  | cons a as ih =>
    simp only [List.map_cons, List.mapM_cons, decoded, ih, within_bind, depthAll, within_max]
    rfl

theorem decodeList_encode (room : Nat) (as : List α) :
    decodeList decode room (.array (as.map encode))
      = within room (Json.array (as.map encode)).depth as := by
  cases room with
  | zero => rfl
  | succ room =>
    rw [decodeList, decodeElements, mapM_decode decoded, depth, within_succ]

theorem decodeEntries_encode (room : Nat) (entries : List (String × α)) :
    decodeEntries decode room (.object (entries.map fun e => (e.1, encode e.2)))
      = within room (Json.object (entries.map fun e => (e.1, encode e.2))).depth entries := by
  cases room with
  | zero => rfl
  | succ room =>
    rw [decodeEntries, depth, within_succ]
    induction entries with
    | nil => rfl
    | cons e entries ih =>
      simp only [List.map_cons, List.mapM_cons, decoded, ih, within_bind, depthEntries,
        within_max, exceptMap_within]
      rfl

end

end NeutralSchema.Json
