import NeutralSchema.Proofs.Json.Decoding

/-!
# Entries that are found once

A record reads each of its names at most once among the entries of an object, wherever it stands
and whatever else stands there.
-/
namespace NeutralSchema.Json

/-- There is room for a document, and all of it has a value. -/
def Fits (room : Nat) (v : Json) : Prop := readable room v = .ok ()

theorem fits_of_depth_le {room : Nat} {v : Json} (valued : v.hasValue) (shallow : v.depth ≤ room) :
    Fits room v := by
  have outcome := readable_of_hasValue room v valued
  rw [within, if_pos shallow] at outcome
  rw [Fits]
  cases read : readable room v with
  | error e => rw [read] at outcome; cases outcome
  | ok u => rfl

theorem bind_eq_ok_iff (x y : Except SyntaxError Unit) :
    (x >>= fun _ => y) = .ok () ↔ x = .ok () ∧ y = .ok () := by
  cases x with
  | error e =>
    constructor
    · intro failed
      cases failed
    · intro both
      cases both.1
  | ok u => exact (and_iff_right rfl).symm

theorem readableAll_eq_ok_iff {room : Nat} {vs : List Json} :
    readableAll room vs = .ok () ↔ ∀ v ∈ vs, Fits room v := by
  induction vs with
  | nil => exact iff_of_true rfl (List.forall_mem_nil _)
  | cons v vs ih => rw [readableAll, bind_eq_ok_iff, ih, List.forall_mem_cons, Fits]

theorem readableEntries_eq_ok_iff {room : Nat} {entries : Fields} :
    readableEntries room entries = .ok () ↔ ∀ e ∈ entries, Fits room e.2 := by
  induction entries with
  | nil => exact iff_of_true rfl (List.forall_mem_nil _)
  | cons e entries ih =>
    obtain ⟨key, v⟩ := e
    rw [readableEntries, bind_eq_ok_iff, ih, List.forall_mem_cons, Fits]

theorem fits_array {room : Nat} {vs : List Json} (fits : Fits room (.array vs)) :
    ∃ inner, room = inner + 1 ∧ ∀ v ∈ vs, Fits inner v := by
  cases room with
  | zero => cases fits
  | succ inner => exact ⟨inner, rfl, readableAll_eq_ok_iff.mp fits⟩

theorem fits_object {room : Nat} {entries : Fields} (fits : Fits room (.object entries)) :
    ∃ inner, room = inner + 1 ∧ ∀ e ∈ entries, Fits inner e.2 := by
  cases room with
  | zero => cases fits
  | succ inner => exact ⟨inner, rfl, readableEntries_eq_ok_iff.mp fits⟩

/-- The entries of a key. -/
def entriesOf (key : String) (entries : Fields) : Fields := entries.filter (·.1 == key)

theorem entriesOf_cons_self (key : String) (v : Json) (entries : Fields) :
    entriesOf key ((key, v) :: entries) = (key, v) :: entriesOf key entries :=
  List.filter_cons_of_pos (beq_self_eq_true key)

theorem entriesOf_cons_of_ne {name key : String} (other : name ≠ key) (v : Json)
    (entries : Fields) : entriesOf key ((name, v) :: entries) = entriesOf key entries :=
  List.filter_cons_of_neg (by simpa using other)

theorem entriesOf_eq_nil_iff {key : String} {entries : Fields} :
    entriesOf key entries = [] ↔ key ∉ entries.map Prod.fst := by
  rw [entriesOf, List.filter_eq_nil_iff, List.mem_map]
  constructor
  · rintro missing ⟨e, there, same⟩
    exact missing e there (beq_iff_eq.mpr same)
  · intro missing e there same
    exact missing ⟨e, there, eq_of_beq same⟩

/-- Where no key is repeated, an entry is the only one of its key. -/
theorem entriesOf_of_mem {entries : Fields} (nodup : (entries.map Prod.fst).Nodup)
    {e : String × Json} (mem : e ∈ entries) : entriesOf e.1 entries = [e] := by
  induction entries with
  | nil => exact absurd mem List.not_mem_nil
  | cons first entries ih =>
    rw [List.map_cons, List.nodup_cons] at nodup
    rcases List.mem_cons.mp mem with rfl | later
    · obtain ⟨key, v⟩ := e
      rw [entriesOf_cons_self, entriesOf_eq_nil_iff.mpr nodup.1]
    · have different : first.1 ≠ e.1 := by
        intro same
        exact nodup.1 (same ▸ List.mem_map_of_mem later)
      rw [entriesOf_cons_of_ne different, ih nodup.2 later]

theorem lookup_eq_head?_entriesOf (key : String) (entries : Fields) :
    entries.lookup key = (entriesOf key entries).head?.map Prod.snd := by
  induction entries with
  | nil => rfl
  | cons e entries ih =>
    obtain ⟨name, v⟩ := e
    by_cases same : name = key
    · subst same
      rw [entriesOf_cons_self, List.lookup_cons, beq_self_eq_true]
      rfl
    · rw [entriesOf_cons_of_ne same, List.lookup_cons, beq_false_of_ne (Ne.symm same), ← ih]

/-- A record takes an object as it is if it finds none of its names twice. -/
theorem named_of_entriesOf {known : List Field} {entries : Fields}
    (once : ∀ field ∈ known, (entriesOf field.name entries).length ≤ 1) :
    named known entries = .ok entries := by
  have none : repeated? known entries = none := by
    induction entries with
    | nil => rfl
    | cons e entries ih =>
      obtain ⟨name, v⟩ := e
      have later : ∀ field ∈ known, (entriesOf field.name entries).length ≤ 1 := by
        intro field mem
        have later := List.sublist_cons_self (name, v) entries
        have less := (later.filter (·.1 == field.name)).length_le
        exact Nat.le_trans less (once field mem)
      have single : (known.any (·.name == name) && entries.any (·.1 == name)) = false := by
        rw [Bool.eq_false_iff]
        intro both
        rw [Bool.and_eq_true, List.any_eq_true, List.any_eq_true] at both
        obtain ⟨⟨field, mem, same⟩, other, there, equal⟩ := both
        have twice := once field mem
        rw [eq_of_beq same, entriesOf_cons_self, List.length_cons] at twice
        have second : other ∈ entriesOf name entries := List.mem_filter.mpr ⟨there, equal⟩
        have some := List.length_pos_of_mem second
        omega
      rw [repeated?, single]
      exact ih later
  rw [named, none]

end NeutralSchema.Json
