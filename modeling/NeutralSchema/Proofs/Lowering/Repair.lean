import NeutralSchema.Proofs.Lowering.Edit
import NeutralSchema.Proofs.Lowering.Violations

/-!
# Repaired trees

A tree that is not fully resolved can be repaired: a missing type becomes `void`, a missing body an
empty one, and the initializer of a property is taken out if no source text stands under its span.
A repaired tree is always lowered. What was reported before lowering stopped is reported again, and
nothing is different if it did not stop. Main statement: `lowerFile_repaired`.
-/
namespace NeutralSchema

/-- Fills in what is missing and takes out what has no source text. -/
def Tree.Edit.repair (f : File) : Edit where
  name n := n
  type t := t
  fills := true
  keeps span := (f.textAt? span).isSome

/-- A file without violations that otherwise is as it was. -/
def Tree.File.repaired (f : File) : File := f.edit (.repair f)

/-- What is left of visits when lowering goes on instead of stopping: it never stops, and it reports
first what was reported up to the stop. -/
structure Resumes (f : Tree.File) (vs ws : List Visit) : Prop where
  goesOn : ∀ w ∈ ws, w.violation? f = none
  before : reportsUntilStop f vs <+: ws.flatMap (Visit.reports f.id)
  same : (∀ v ∈ vs, v.violation? f = none) →
    vs.flatMap (Visit.reports f.id) = ws.flatMap (Visit.reports f.id)

namespace Resumes

variable {f : Tree.File} {v w : Visit} {vs ws vs' ws' : List Visit}

/-- Visits that go on already. -/
theorem refl (goesOn : ∀ v ∈ vs, v.violation? f = none) : Resumes f vs vs := by
  have all := reportsUntilStop_eq_flatMap goesOn
  exact ⟨goesOn, all ▸ List.prefix_refl _, fun _ => rfl⟩

/-- Visits that go on in either tree, with the same reports. -/
theorem single (goesOn : v.violation? f = none) (goesOn' : w.violation? f = none)
    (reports : v.reports f.id = w.reports f.id) : Resumes f [v] [w] := by
  refine ⟨List.forall_mem_singleton.mpr goesOn', ?_, fun _ => by simp [reports]⟩
  rw [reportsUntilStop_cons goesOn]
  simp [reportsUntilStop, reports]

/-- A visit that stops lowering, and others instead. -/
theorem stop {e : LoweringError} (stops : v.violation? f = some e)
    (goesOn : ∀ w ∈ ws, w.violation? f = none) : Resumes f (v :: vs) ws := by
  refine ⟨goesOn, ?_, fun all => ?_⟩
  · rw [reportsUntilStop_cons_stop stops]
    exact List.nil_prefix
  · rw [all v List.mem_cons_self] at stops
    exact absurd stops.symm (Option.some_ne_none e)

theorem append (first : Resumes f vs ws) (rest : Resumes f vs' ws') :
    Resumes f (vs ++ vs') (ws ++ ws') := by
  refine ⟨List.forall_mem_append.mpr ⟨first.goesOn, rest.goesOn⟩, ?_, fun goesOn => ?_⟩
  · rw [List.flatMap_append]
    by_cases goesOn : ∀ v ∈ vs, v.violation? f = none
    · rw [reportsUntilStop_append goesOn, first.same goesOn]
      exact (List.prefix_append_right_inj _).mpr rest.before
    · -- Lowering stops before the second part.
      rw [reportsUntilStop_append_stop goesOn]
      exact first.before.trans (List.prefix_append _ _)
  · rw [List.forall_mem_append] at goesOn
    rw [List.flatMap_append, List.flatMap_append, first.same goesOn.1, rest.same goesOn.2]

end Resumes

theorem repair_invisible (f : Tree.File) : (Tree.Edit.repair f).Invisible f where
  name _ := rfl
  type _ := rfl
  initializer removed := by simpa [Tree.Edit.repair] using removed

/-- With the names as they are, nothing changes in the report of a loop initializer. -/
theorem reports_loopInitializer_repair (f : Tree.File) (file : FileId) (span : Span)
    (initializer : Tree.LoopInitializer) :
    (Visit.loopInitializer span (initializer.edit (.repair f))).reports file
      = (Visit.loopInitializer span initializer).reports file := by
  match initializer with
  | .declarators [] | .declarators [_] => rfl
  | .declarators (d :: e :: ds) =>
    simp [Visit.reports, Tree.LoopInitializer.edit, loopInitializerReports, Tree.Declarator.edit,
      Tree.Edit.ident, Tree.Edit.repair]
  | .expression e => exact Tree.reports_loopExpression_edit _ file span e

/-- Wherever lowering would stop, it goes on in the repaired tree. -/
theorem repair_resumes (f : Tree.File) : (Tree.Edit.repair f).Relates (Resumes f) where
  nil := .refl (by simp)
  append := .append
  name promoted text span := .refl (by simp [Visit.violation?])
  type promoted owner span type := by
    cases type with
    | some t =>
      apply Resumes.refl
      simp [Tree.typeVisits, Visit.violation?]
    | none =>
      have filled : Tree.typeVisits promoted owner span ((Tree.Edit.repair f).declared none)
          = [.type owner span (some (.intrinsic "void"))] := rfl
      rw [filled]
      exact .stop rfl (List.forall_mem_singleton.mpr rfl)
  body owner span body := by
    cases body with
    | some ss => exact .single rfl rfl rfl
    | none => exact .stop rfl (List.forall_mem_singleton.mpr rfl)
  initializer {span} kept := by
    apply Resumes.refl
    obtain ⟨text, covered⟩ := Option.isSome_iff_exists.mp kept
    simp [Visit.violation?, covered]
  removedInitializer {span} removed := by
    have stops : (Visit.initializer span).violation? f
        = some (.spanOutOfBounds f.path (f.fileSpan span) (Text.byteLength f.text.toList)) := by
      rw [Visit.violation?, (repair_invisible f).initializer removed]
    exact .stop stops (List.forall_mem_nil _)
  expression e := .single rfl rfl (Tree.reports_expression_edit _ f.id e).symm
  statement position s := .single rfl rfl (Tree.reports_statement_edit _ f.id position s).symm
  loopInitializer span initializer :=
    .single rfl rfl (reports_loopInitializer_repair f f.id span initializer).symm
  laterConstructor className span := .refl (by simp [Visit.violation?])

/-- A repaired file is always lowered. Its diagnostics begin with those of the file itself, also of
one that is not lowered, and a file that is lowered has the same schema and no more diagnostics. -/
theorem lowerFile_repaired (f : Tree.File) (collected : Diagnostics) :
    (∃ s, ((lowerFile f.repaired).runFrom collected).1 = .ok s)
      ∧ ((lowerFile f).runFrom collected).2 <+: ((lowerFile f.repaired).runFrom collected).2
      ∧ ∀ s, ((lowerFile f).runFrom collected).1 = .ok s →
        (lowerFile f.repaired).runFrom collected = (lowerFile f).runFrom collected := by
  have resumes : Resumes f f.visits f.repaired.visits :=
    Tree.File.visits_edit (repair_resumes f) (repair_invisible f).name f
  have translation : f.repaired.translation = f.translation :=
    Tree.File.translation_edit (repair_invisible f)
  have goesOn : ∀ w ∈ f.repaired.visits, w.violation? f.repaired = none := fun w mem =>
    (Tree.violation?_edit _ f w).trans (resumes.goesOn w mem)
  have outcome : (lowerFile f.repaired).runFrom collected
      = (.ok f.translation, collected ++ f.repaired.visits.flatMap (Visit.reports f.id)) :=
    lowerFile_eq_ok_iff.mpr ⟨goesOn, translation.symm, rfl⟩
  refine ⟨⟨f.translation, by rw [outcome]⟩, ?_, fun s done => ?_⟩
  · rw [outcome, lowerFile_eq, runFrom_afterVisits]
    exact (List.prefix_append_right_inj _).mpr resumes.before
  · have whole : (lowerFile f).runFrom collected
        = (.ok s, ((lowerFile f).runFrom collected).2) := Prod.ext done rfl
    obtain ⟨goesOn, rfl, all⟩ := lowerFile_eq_ok_iff.mp whole
    rw [whole, all, outcome, resumes.same goesOn]

/-- A class with an initializer beyond its text, and a constructor without body whose parameter has
no type. -/
def unfinished : Tree.File :=
  ⟨0, "a.ts", "7", [.classDecl ⟨⟨"A", ⟨0, 1⟩⟩,
    [.property ⟨⟨"x$", ⟨2, 4⟩⟩, some (.intrinsic "number"), .none,
        some (.literal ⟨0, 2⟩ (.numeric "7")), ⟨2, 6⟩⟩,
      .constructor ⟨[⟨⟨"y$", ⟨8, 10⟩⟩, none, ⟨some .inside, false, false⟩, ⟨8, 10⟩⟩], none,
        ⟨7, 11⟩⟩], ⟨0, 12⟩⟩]⟩

theorem lowerFile_repaired_unfinished :
    ((lowerFile unfinished).runFrom []).1.isOk = false
      ∧ ((lowerFile unfinished).runFrom []).2.length = 1
      ∧ (∃ s, ((lowerFile unfinished.repaired).runFrom []).1 = .ok s)
      ∧ ((lowerFile unfinished.repaired).runFrom []).2.length = 3
      ∧ ((lowerFile unfinished).runFrom []).2 <+: ((lowerFile unfinished.repaired).runFrom []).2
      ∧ (lowerFile unfinished.repaired.repaired).runFrom []
        = (lowerFile unfinished.repaired).runFrom [] := by
  obtain ⟨⟨s, done⟩, before, -⟩ := lowerFile_repaired unfinished []
  obtain ⟨-, -, same⟩ := lowerFile_repaired unfinished.repaired []
  exact ⟨by decide, by decide, ⟨s, done⟩, by decide, before, same s done⟩

end NeutralSchema
