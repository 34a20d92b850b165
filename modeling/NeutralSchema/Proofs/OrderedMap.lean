import Mathlib.Data.List.Basic
import Mathlib.Data.List.Induction
import NeutralSchema.OrderedMap

/-!
# Maps and their entries
-/
namespace NeutralSchema

theorem insertEntry_of_fresh {α : Type} {key : String} {value : α} {entries : List (String × α)}
    (fresh : key ∉ entries.map Prod.fst) :
    insertEntry key value entries = entries ++ [(key, value)] := by
  induction entries with
  | nil => rfl
  | cons e entries ih =>
    simp only [List.map_cons, List.mem_cons, not_or] at fresh
    rw [insertEntry, if_neg (Ne.symm fresh.1), ih fresh.2, List.cons_append]

theorem foldl_insert {α : Type} (entries : List (String × α)) (m : OrderedMap α)
    (nodup : ((m.toList ++ entries).map Prod.fst).Nodup) :
    (entries.foldl (fun m entry => m.insert entry.1 entry.2) m).toList = m.toList ++ entries := by
  induction entries generalizing m with
  | nil => simp
  | cons e entries ih =>
    have fresh : e.1 ∉ m.toList.map Prod.fst := by
      rw [List.map_append, List.nodup_append] at nodup
      intro mem
      exact nodup.2.2 _ mem _ (by simp) rfl
    have grown : (m.insert e.1 e.2).toList = m.toList ++ [e] := insertEntry_of_fresh fresh
    rw [List.foldl_cons, ih, grown, List.append_assoc, List.singleton_append]
    rw [grown, List.append_assoc, List.singleton_append]
    exact nodup

/-- A map is what its entries are inserted to. -/
theorem OrderedMap.ofList_toList {α : Type} (m : OrderedMap α) : OrderedMap.ofList m.toList = m := by
  apply OrderedMap.ext
  exact foldl_insert m.toList ∅ m.nodup

theorem nodup_eraseDups : ∀ keys : List String, keys.eraseDups.Nodup
  | [] => List.nodup_nil
  | key :: keys => by
    have rest := nodup_eraseDups (keys.filter fun k => !k == key)
    rw [List.eraseDups_cons, List.nodup_cons, List.mem_eraseDups, List.mem_filter]
    exact ⟨by simp, rest⟩
termination_by keys => keys.length
decreasing_by exact Nat.lt_succ_of_le (List.length_filter_le ..)

/-- The keys that have a value, each with it. -/
def tabulate {α : Type} (value? : String → Option α) (keys : List String) : List (String × α) :=
  keys.filterMap fun key => (value? key).map (key, ·)

section

variable {α : Type} {value? other? : String → Option α} {keys : List String}

theorem map_fst_tabulate : (tabulate value? keys).map Prod.fst
    = keys.filter fun key => (value? key).isSome := by
  induction keys with
  | nil => rfl
  | cons key keys ih =>
    rw [tabulate] at ih ⊢
    cases found : value? key <;> simp [found, ih]

theorem tabulate_congr (same : ∀ k ∈ keys, value? k = other? k) :
    tabulate value? keys = tabulate other? keys := by
  apply List.filterMap_congr
  intro k mem
  rw [same k mem]

theorem tabulate_eq_map {value : String → α} (filled : ∀ k ∈ keys, value? k = some (value k)) :
    tabulate value? keys = keys.map fun k => (k, value k) := by
  rw [tabulate, ← List.filterMap_eq_map]
  apply List.filterMap_congr
  intro k mem
  rw [filled k mem]
  rfl

theorem insertEntry_tabulate_of_mem {key : String} {value : α} (nodup : keys.Nodup)
    (filled : ∀ k ∈ keys, (value? k).isSome) (known : key ∈ keys) :
    insertEntry key value (tabulate value? keys)
      = tabulate (fun k => if k = key then some value else value? k) keys := by
  induction keys with
  | nil => exact absurd known List.not_mem_nil
  | cons k keys ih =>
    obtain ⟨fresh, nodup⟩ := List.nodup_cons.mp nodup
    obtain ⟨v, found⟩ := Option.isSome_iff_exists.mp (filled k List.mem_cons_self)
    have first : tabulate value? (k :: keys) = (k, v) :: tabulate value? keys := by
      simp [tabulate, found]
    rw [first, insertEntry]
    by_cases same : k = key
    · have others : tabulate value? keys
          = tabulate (fun j => if j = key then some value else value? j) keys := by
        apply tabulate_congr
        intro j mem
        rw [if_neg]
        rintro rfl
        exact fresh (same ▸ mem)
      rw [if_pos same, others]
      simp [tabulate, same]
    · have rest := ih nodup (fun j mem => filled j (List.mem_cons_of_mem k mem))
        ((List.mem_cons.mp known).resolve_left (Ne.symm same))
      rw [if_neg same, rest]
      simp [tabulate, same, found]

end

/-- The map of a list of writes, said without inserting them: the keys in the order of their first
writes, each with its last write. -/
def OrderedMap.lastWrites {α : Type} (writes : List (String × α)) : OrderedMap α where
  toList := tabulate (writes.reverse.lookup ·) (writes.map Prod.fst).eraseDups
  nodup := by
    rw [map_fst_tabulate]
    exact (nodup_eraseDups _).filter _

theorem OrderedMap.lastWrites_concat {α : Type} (writes : List (String × α)) (key : String)
    (value : α) :
    OrderedMap.lastWrites (writes ++ [(key, value)])
      = (OrderedMap.lastWrites writes).insert key value := by
  have values : ((writes ++ [(key, value)]).reverse.lookup ·)
      = fun k => if k = key then some value else writes.reverse.lookup k := by
    funext k
    by_cases same : k = key
    · simp [same]
    · simp [List.lookup_cons, beq_false_of_ne same, same]
  have filled : ∀ k ∈ (writes.map Prod.fst).eraseDups, (writes.reverse.lookup k).isSome := by
    intro k mem
    obtain ⟨w, written, rfl⟩ := List.mem_map.mp (List.mem_eraseDups.mp mem)
    rw [List.lookup_isSome_iff]
    exact ⟨w, List.mem_reverse.mpr written, beq_self_eq_true w.1⟩
  apply OrderedMap.ext
  rw [toList_insert]
  simp only [lastWrites, values, List.map_append, List.map_cons, List.map_nil,
    List.eraseDups_append]
  by_cases known : key ∈ (writes.map Prod.fst).eraseDups
  · have kept : [key].removeAll (writes.map Prod.fst) = [] := by
      simp [List.removeAll, List.mem_eraseDups.mp known]
    rw [insertEntry_tabulate_of_mem (nodup_eraseDups _) filled known, kept]
    simp
  · have added : [key].removeAll (writes.map Prod.fst) = [key] := by
      simp only [List.mem_eraseDups] at known
      simp [List.removeAll, known]
    have others : tabulate (writes.reverse.lookup ·) (writes.map Prod.fst).eraseDups
        = tabulate (fun k => if k = key then some value else writes.reverse.lookup k)
            (writes.map Prod.fst).eraseDups := by
      apply tabulate_congr
      intro k mem
      rw [if_neg]
      rintro rfl
      exact known mem
    rw [insertEntry_of_fresh, others, added]
    · simp [tabulate, List.eraseDups_cons]
    · rw [map_fst_tabulate, List.mem_filter]
      exact fun mem => known mem.1

/-- Inserting one by one gives each key its first place and its last value. -/
theorem OrderedMap.ofList_eq_lastWrites {α : Type} (writes : List (String × α)) :
    OrderedMap.ofList writes = OrderedMap.lastWrites writes := by
  induction writes using List.reverseRecOn with
  | nil => rfl
  | append_singleton writes w ih =>
    rw [lastWrites_concat, ← ih, ofList, ofList, List.foldl_append]
    rfl

/-- Writes that agree on the value of each key are the map of the keys without repetitions. -/
theorem OrderedMap.toList_ofList_map {α : Type} (value : String → α) (keys : List String) :
    (OrderedMap.ofList (keys.map fun k => (k, value k))).toList
      = keys.eraseDups.map fun k => (k, value k) := by
  have written : (keys.map fun k => (k, value k)).map Prod.fst = keys := by
    rw [List.map_map]
    exact List.map_id keys
  have last : ∀ k ∈ keys.eraseDups,
      (keys.map fun k => (k, value k)).reverse.lookup k = some (value k) := by
    intro k mem
    rw [← List.map_reverse]
    exact List.lookup_graph value (List.mem_reverse.mpr (List.mem_eraseDups.mp mem))
  simp only [ofList_eq_lastWrites, lastWrites, written]
  exact tabulate_eq_map last

/-- A map is what its own entries leave when they are written. -/
theorem OrderedMap.lastWrites_toList {α : Type} (m : OrderedMap α) :
    OrderedMap.lastWrites m.toList = m := by
  rw [← ofList_eq_lastWrites, ofList_toList]

theorem OrderedMap.mem_of_mem_lastWrites {α : Type} {writes : List (String × α)} {e : String × α}
    (mem : e ∈ (OrderedMap.lastWrites writes).toList) : e ∈ writes := by
  obtain ⟨key, -, written⟩ := List.mem_filterMap.mp mem
  obtain ⟨value, found, rfl⟩ := Option.map_eq_some_iff.mp written
  obtain ⟨before, after, split, -⟩ := List.lookup_eq_some_iff.mp found
  rw [← List.mem_reverse, split]
  simp

end NeutralSchema
