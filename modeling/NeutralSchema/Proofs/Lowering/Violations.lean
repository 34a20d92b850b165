import NeutralSchema.Proofs.Lowering.Separation

/-!
# When lowering fails

A file is lowered exactly when none of its visits is a violation, and the error is that of the first
violation. Main statement: `lowerFile_error_iff`.
-/
namespace NeutralSchema

theorem lowerFile_outcome (f : Tree.File) (collected : Diagnostics) :
    ((lowerFile f).runFrom collected).1
      = match f.visits.findSome? (Visit.violation? f) with
        | some e => .error e
        | none => .ok f.translation := by
  rw [lowerFile_eq]
  exact congrArg Prod.fst (runFrom_afterVisits f f.visits f.translation collected)

/-- A file is lowered exactly when no visit is a violation, and then each visit has reported. -/
theorem lowerFile_eq_ok_iff {f : Tree.File} {s : Schema.File} {collected after : Diagnostics} :
    (lowerFile f).runFrom collected = (.ok s, after)
      ↔ (∀ v ∈ f.visits, v.violation? f = none) ∧ s = f.translation
        ∧ after = collected ++ f.visits.flatMap (Visit.reports f.id) := by
  rw [lowerFile_eq, runFrom_afterVisits_eq_ok_iff]

/-- Lowering a file fails exactly when one of its visits is a violation, and then with the error of
the visit that comes first, whatever was collected before. -/
theorem lowerFile_error_iff (f : Tree.File) (collected : Diagnostics) :
    ((∃ e, ((lowerFile f).runFrom collected).1 = .error e)
        ↔ ∃ v ∈ f.visits, (v.violation? f).isSome)
      ∧ ∀ e, ((lowerFile f).runFrom collected).1 = .error e
        ↔ ∃ before v after, f.visits = before ++ v :: after ∧ v.violation? f = some e
          ∧ ∀ w ∈ before, w.violation? f = none := by
  have first (e : LoweringError) :
      ((lowerFile f).runFrom collected).1 = .error e
        ↔ f.visits.findSome? (Visit.violation? f) = some e := by
    rw [lowerFile_outcome]
    cases f.visits.findSome? (Visit.violation? f) <;> simp
  refine ⟨?_, fun e => (first e).trans List.findSome?_eq_some_iff⟩
  simp only [first]
  rw [← Option.isSome_iff_exists, List.isSome_findSome?, List.any_eq_true]

end NeutralSchema
