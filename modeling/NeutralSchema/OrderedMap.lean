/-!
# Maps in order of insertion

A key stands where it was first inserted and holds the value that was inserted last.
-/
namespace NeutralSchema

/-- Replaces the value of a key in place, or adds the key at the end. -/
def insertEntry {α : Type} (key : String) (value : α) : List (String × α) → List (String × α)
  | [] => [(key, value)]
  | (k, v) :: rest =>
    if k = key then (key, value) :: rest else (k, v) :: insertEntry key value rest

theorem mem_keys_insertEntry {α : Type} {key k : String} {value : α} {entries : List (String × α)}
    (h : k ∈ (insertEntry key value entries).map Prod.fst) :
    k = key ∨ k ∈ entries.map Prod.fst := by
  induction entries with
  | nil => simp_all [insertEntry]
  | cons entry rest ih =>
    obtain ⟨name, v⟩ := entry
    by_cases e : name = key
    · simp_all [insertEntry]
    · simp only [insertEntry, e, if_false, List.map_cons, List.mem_cons] at h ⊢
      rcases h with h | h
      · exact .inr (.inl h)
      · exact (ih h).elim .inl fun h => .inr (.inr h)

theorem nodup_insertEntry {α : Type} {entries : List (String × α)} (key : String) (value : α)
    (nodup : (entries.map Prod.fst).Nodup) :
    ((insertEntry key value entries).map Prod.fst).Nodup := by
  induction entries with
  | nil => simp [insertEntry]
  | cons entry rest ih =>
    obtain ⟨name, v⟩ := entry
    simp only [List.map_cons, List.nodup_cons] at nodup
    by_cases e : name = key
    · subst e
      simpa [insertEntry] using nodup
    · simp only [insertEntry, e, if_false, List.map_cons, List.nodup_cons]
      refine ⟨fun h => ?_, ih nodup.2⟩
      exact (mem_keys_insertEntry h).elim e nodup.1

structure OrderedMap (α : Type) where
  toList : List (String × α)
  nodup : (toList.map Prod.fst).Nodup

namespace OrderedMap

variable {α : Type}

def empty : OrderedMap α := ⟨[], .nil⟩

instance : EmptyCollection (OrderedMap α) := ⟨empty⟩

instance : Inhabited (OrderedMap α) := ⟨empty⟩

def insert (m : OrderedMap α) (key : String) (value : α) : OrderedMap α :=
  ⟨insertEntry key value m.toList, nodup_insertEntry key value m.nodup⟩

/-- The map of a list of insertions. -/
def ofList (entries : List (String × α)) : OrderedMap α :=
  entries.foldl (fun m entry => m.insert entry.1 entry.2) ∅

theorem toList_insert (m : OrderedMap α) (key : String) (value : α) :
    (m.insert key value).toList = insertEntry key value m.toList := rfl

theorem ext {m n : OrderedMap α} (h : m.toList = n.toList) : m = n := by
  cases m
  cases n
  simp_all

end OrderedMap
end NeutralSchema
