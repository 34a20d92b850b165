import NeutralSchema.Proofs.Lowering.Writes
import NeutralSchema.Proofs.Schema.WellFormed

/-!
# Lowering gives well-formed schemas

Every translation is well-formed, and it is complete if none of the visits has anything to report.
Main statement: `File.isWellFormed_translation`.
-/
namespace NeutralSchema

open Schema

/-- If completeness is asked for, visits report nothing. -/
def Quiet (file : FileId) (complete : Bool) (vs : List Visit) : Prop :=
  complete = true → ∀ v ∈ vs, v.reports file = []

section

variable {file : FileId} {complete : Bool}

theorem quiet_append {vs ws : List Visit} :
    Quiet file complete (vs ++ ws) ↔ Quiet file complete vs ∧ Quiet file complete ws := by
  simp only [Quiet, List.mem_append, or_imp, forall_and]

theorem quiet_cons {v : Visit} {vs : List Visit} :
    Quiet file complete (v :: vs)
      ↔ (complete = true → v.reports file = []) ∧ Quiet file complete vs := by
  simp only [Quiet, List.mem_cons, or_imp, forall_and, forall_eq]

theorem Quiet.mono {vs ws : List Visit} (quiet : Quiet file complete ws) (less : vs ⊆ ws) :
    Quiet file complete vs :=
  fun asked v mem => quiet asked v (less mem)

mutual

theorem isNormalized_translation : ∀ t : Tree.ResolvedType, t.translation.isNormalized
  | .mk name arguments => by
    have inner := allNormalized_translationAll arguments
    unfold Tree.ResolvedType.translation
    split <;> simp [DataType.isNormalized, inner, Name.isNormalized_normalize]

theorem allNormalized_translationAll : ∀ ts : List Tree.ResolvedType,
    DataType.allNormalized (Tree.ResolvedType.translationAll ts)
  | [] => rfl
  | t :: ts => by
    have first := isNormalized_translation t
    have rest := allNormalized_translationAll ts
    simp [Tree.ResolvedType.translationAll, DataType.allNormalized, first, rest]

end

theorem isNormalized_typeTranslation (type : Option Tree.ResolvedType) :
    (Tree.typeTranslation type).isNormalized := by
  cases type with
  | none => rfl
  | some t => exact isNormalized_translation t

/-- An expression that no schema expresses is reported, so its slot is empty for a reason. -/
theorem slotIsWellFormed_none {e : Tree.Expr} (unsupported : e.isSupported = false)
    (quiet : complete = true → (Visit.expression e).reports file = []) :
    slotIsWellFormed complete none := by
  cases complete with
  | false => rfl
  | true => simp [Visit.reports, unsupported] at quiet

mutual

theorem slotIsWellFormed_translation : ∀ e : Tree.Expr,
    Quiet file complete e.visits → slotIsWellFormed complete e.translation
  | .call s callee arguments, quiet => by
    simp only [Tree.Expr.visits, quiet_cons, quiet_append] at quiet
    have method := slotIsWellFormed_translation callee quiet.2.1
    have slots := slotsAreWellFormed_translationAll arguments quiet.2.2
    simp [Tree.Expr.translation, slotIsWellFormed, Expression.isWellFormed, method, slots]
  | .binary s left operator right, quiet => by
    simp only [Tree.Expr.visits, quiet_cons, quiet_append] at quiet
    have first := slotIsWellFormed_translation left quiet.2.1
    have second := slotIsWellFormed_translation right quiet.2.2
    simp [Tree.Expr.translation, slotIsWellFormed, Expression.isWellFormed, first, second]
  | .member s target name, quiet => by
    simp only [Tree.Expr.visits, quiet_cons, quiet_append] at quiet
    have object := slotIsWellFormed_translation target quiet.2.1
    simp [Tree.Expr.translation, slotIsWellFormed, Expression.isWellFormed, object,
      Name.isNormalized_normalize]
  | .element s target index, quiet => by
    simp only [Tree.Expr.visits, quiet_cons, quiet_append] at quiet
    have object := slotIsWellFormed_translation target quiet.2.1
    have property := slotIsWellFormed_translation index quiet.2.2
    simp [Tree.Expr.translation, slotIsWellFormed, Expression.isWellFormed, object, property]
  | .identifier s name, _ => Name.isNormalized_normalize name
  | .new s type arguments, quiet => by
    simp only [Tree.Expr.visits, quiet_cons, quiet_append] at quiet
    have slots := slotsAreWellFormed_translationAll arguments quiet.2.2
    simp [Tree.Expr.translation, slotIsWellFormed, Expression.isWellFormed,
      isNormalized_typeTranslation, slots]
  | .conditional s condition whenTrue whenFalse, quiet => by
    simp only [Tree.Expr.visits, quiet_cons, quiet_append] at quiet
    have first := slotIsWellFormed_translation condition quiet.2.1
    have second := slotIsWellFormed_translation whenTrue quiet.2.2.1
    have third := slotIsWellFormed_translation whenFalse quiet.2.2.2
    simp [Tree.Expr.translation, slotIsWellFormed, Expression.isWellFormed, first, second, third]
  | .literal s value, _ => by
    cases value with
    | string | numeric | null => rfl
    | boolean value => cases value <;> rfl
  | .parenthesized s inner, quiet => by
    simp only [Tree.Expr.visits, quiet_cons] at quiet
    exact slotIsWellFormed_translation inner quiet.2
  | .unary s side operator operand, quiet => by
    simp only [Tree.Expr.visits, quiet_cons] at quiet
    exact slotIsWellFormed_translation operand quiet.2
  | .array s elements, quiet => by
    simp only [Tree.Expr.visits, quiet_cons] at quiet
    exact slotsAreWellFormed_translationAll elements quiet.2
  | .self s word, _ => by cases word <;> rfl
  | .wrapped .., quiet | .bare .., quiet | .other .., quiet => by
    simp only [Tree.Expr.visits, quiet_cons] at quiet
    exact slotIsWellFormed_none rfl quiet.1

theorem slotsAreWellFormed_translationAll : ∀ es : List Tree.Expr,
    Quiet file complete (Tree.Expr.visitsAll es) →
      slotsAreWellFormed complete (Tree.Expr.translationAll es)
  | [], _ => rfl
  | e :: es, quiet => by
    simp only [Tree.Expr.visitsAll, quiet_append] at quiet
    have first := slotIsWellFormed_translation e quiet.1
    have rest := slotsAreWellFormed_translationAll es quiet.2
    simp [Tree.Expr.translationAll, slotsAreWellFormed, first, rest]

end

theorem optionalIsWellFormed_optionalTranslation {e : Option Tree.Expr}
    (quiet : Quiet file complete (Tree.optionalVisits e)) :
    optionalIsWellFormed complete (Tree.optionalTranslation e) := by
  cases e with
  | none => rfl
  | some e =>
    have slot := slotIsWellFormed_translation e quiet
    change optionalIsWellFormed complete e.translation
    cases expressed : e.translation with
    | none => rfl
    | some value =>
      rw [expressed] at slot
      exact slot

theorem isWellFormed_declarator {d : Tree.Declarator} (quiet : Quiet file complete d.visits) :
    d.translation.isWellFormed complete := by
  simp only [Tree.Declarator.visits, quiet_cons] at quiet
  simp [Tree.Declarator.translation, Variable.isWellFormed, Name.isNormalized_normalize,
    optionalIsWellFormed_optionalTranslation quiet.2]

theorem blockIsWellFormed_variables {ds : List Tree.Declarator}
    (quiet : Quiet file complete (ds.flatMap Tree.Declarator.visits)) :
    blockIsWellFormed complete (ds.map fun d => .variable d.translation) := by
  induction ds with
  | nil => rfl
  | cons d ds ih =>
    simp only [List.flatMap_cons, quiet_append] at quiet
    simp [blockIsWellFormed, Statement.isWellFormed, isWellFormed_declarator quiet.1, ih quiet.2]

/-- The item variable of a loop, and that it is there if nothing was reported. -/
theorem isWellFormed_loopInitializer {span : Span} {initializer : Tree.LoopInitializer}
    (quiet : Quiet file complete (initializer.visits span)) :
    initializer.translation.all (Variable.isWellFormed complete)
      ∧ (initializer.translation.isSome || !complete) := by
  match initializer with
  | .declarators [] =>
    cases complete with
    | false => exact ⟨rfl, rfl⟩
    | true => exact absurd (quiet rfl _ List.mem_cons_self) (List.cons_ne_nil _ _)
  | .declarators (d :: ds) =>
    simp only [Tree.LoopInitializer.visits, quiet_cons] at quiet
    exact ⟨isWellFormed_declarator quiet.2, rfl⟩
  | .expression e =>
    cases e with
    | identifier own name =>
      refine ⟨?_, rfl⟩
      simp [Tree.LoopInitializer.translation, Variable.named, Variable.isWellFormed,
        optionalIsWellFormed, Name.isNormalized_normalize]
    | _ =>
      cases complete with
      | false => exact ⟨rfl, rfl⟩
      | true => exact absurd (quiet rfl _ List.mem_cons_self) (List.cons_ne_nil _ _)

theorem isWellFormed_optionalInitializer {span : Span} {initializer : Option Tree.LoopInitializer}
    (quiet : Quiet file complete
      ((initializer.map (Tree.LoopInitializer.visits span)).getD [])) :
    (initializer.bind Tree.LoopInitializer.translation).all (Variable.isWellFormed complete) := by
  cases initializer with
  | none => rfl
  | some initializer => exact (isWellFormed_loopInitializer quiet).1

mutual

theorem blockIsWellFormed_translation (position : Position) : ∀ s : Tree.Stmt,
    Quiet file complete (s.visits position) →
      blockIsWellFormed complete (s.translation position)
  | .if span condition thenBranch elseBranch, quiet => by
    simp only [Tree.Stmt.visits, quiet_cons, quiet_append] at quiet
    have value := slotIsWellFormed_translation condition quiet.2.1
    have first := blockIsWellFormed_translation .body thenBranch quiet.2.2.1
    have second := elseIsWellFormed_translationElse elseBranch quiet.2.2.2
    simp [Tree.Stmt.translation, blockIsWellFormed, Statement.isWellFormed, value, first, second]
  | .return span value, quiet => by
    simp only [Tree.Stmt.visits, quiet_cons] at quiet
    simp [Tree.Stmt.translation, blockIsWellFormed, Statement.isWellFormed,
      optionalIsWellFormed_optionalTranslation quiet.2]
  | .throw span value, quiet => by
    simp only [Tree.Stmt.visits, quiet_cons] at quiet
    simp [Tree.Stmt.translation, blockIsWellFormed, Statement.isWellFormed,
      slotIsWellFormed_translation value quiet.2]
  | .expression span value, quiet => by
    simp only [Tree.Stmt.visits, quiet_cons] at quiet
    simp [Tree.Stmt.translation, blockIsWellFormed, Statement.isWellFormed,
      slotIsWellFormed_translation value quiet.2]
  | .variable span declarators, quiet => by
    simp only [Tree.Stmt.visits, quiet_cons] at quiet
    exact blockIsWellFormed_variables quiet.2
  | .while span condition body, quiet => by
    simp only [Tree.Stmt.visits, quiet_cons, quiet_append] at quiet
    have value := slotIsWellFormed_translation condition quiet.2.1
    have content := blockIsWellFormed_translation .body body quiet.2.2
    simp [Tree.Stmt.translation, blockIsWellFormed, Statement.isWellFormed, value, content]
  | .forOf span initializer items body, quiet => by
    simp only [Tree.Stmt.visits, quiet_cons, quiet_append] at quiet
    obtain ⟨item, there⟩ := isWellFormed_loopInitializer quiet.2.1
    have value := slotIsWellFormed_translation items quiet.2.2.1
    have content := blockIsWellFormed_translation .body body quiet.2.2.2
    simp only [Tree.Stmt.translation, blockIsWellFormed, Statement.isWellFormed, item, there,
      value, content, Bool.and_true]
  | .for span initializer condition step body, quiet => by
    simp only [Tree.Stmt.visits, quiet_cons, quiet_append] at quiet
    have item := isWellFormed_optionalInitializer quiet.2.1
    have test := optionalIsWellFormed_optionalTranslation quiet.2.2.1
    have next := optionalIsWellFormed_optionalTranslation quiet.2.2.2.1
    have content := blockIsWellFormed_translation .body body quiet.2.2.2.2
    simp only [Tree.Stmt.translation, blockIsWellFormed, Statement.isWellFormed, item, test,
      next, content, Bool.and_true]
  | .block span statements, quiet => by
    cases position with
    | entry => rfl
    | body =>
      simp only [Tree.Stmt.visits, quiet_cons] at quiet
      exact blockIsWellFormed_translationAll statements quiet.2
  | .bare .., _ | .other .., _ => rfl

theorem elseIsWellFormed_translationElse : ∀ s : Option Tree.Stmt,
    Quiet file complete (Tree.Stmt.visitsElse s) →
      elseIsWellFormed complete (Tree.Stmt.translationElse s)
  | none, _ => rfl
  | some s, quiet => blockIsWellFormed_translation .body s quiet

theorem blockIsWellFormed_translationAll : ∀ ss : List Tree.Stmt,
    Quiet file complete (Tree.Stmt.visitsAll ss) →
      blockIsWellFormed complete (Tree.Stmt.translationAll ss)
  | [], _ => rfl
  | s :: ss, quiet => by
    simp only [Tree.Stmt.visitsAll, quiet_append] at quiet
    have first := blockIsWellFormed_translation .entry s quiet.1
    have rest := blockIsWellFormed_translationAll ss quiet.2
    simp [Tree.Stmt.translationAll, blockIsWellFormed_append, first, rest]

end

theorem blockIsWellFormed_body {owner : Owner} {span : Span} {body : Option Tree.Block}
    (quiet : Quiet file complete (Tree.bodyVisits owner span body)) :
    blockIsWellFormed complete (Tree.bodyTranslation body) := by
  simp only [Tree.bodyVisits, quiet_cons] at quiet
  cases body with
  | none => rfl
  | some ss => exact blockIsWellFormed_translationAll ss quiet.2

theorem all_isWellFormed_parameters (ps : List Tree.Parameter) :
    (ps.map Tree.Parameter.translation).all Parameter.isWellFormed := by
  simp [Tree.Parameter.translation, Parameter.isWellFormed, Name.isNormalized_normalize,
    isNormalized_typeTranslation]

theorem isWellFormed_fieldWrite {f : Tree.File} {hasConstructor : Bool}
    {ms : List Tree.ClassMember} {w : String × Field}
    (mem : w ∈ Tree.fieldWrites f hasConstructor ms) :
    Name.isNormalized w.1 ∧ w.2.type.isNormalized := by
  induction ms generalizing hasConstructor with
  | nil => exact absurd mem List.not_mem_nil
  | cons m ms ih =>
    cases m with
    | property p =>
      cases static : p.modifiers.isStatic with
      | true =>
        simp only [Tree.fieldWrites, static, if_true] at mem
        exact ih mem
      | false =>
        simp only [Tree.fieldWrites, static, Bool.false_eq_true, if_false, List.mem_cons] at mem
        rcases mem with rfl | later
        · exact ⟨Name.isNormalized_normalize _, isNormalized_typeTranslation _⟩
        · exact ih later
    | constructor k =>
      rcases List.mem_append.mp mem with promoted | later
      · cases hasConstructor with
        | true => exact absurd promoted List.not_mem_nil
        | false =>
          obtain ⟨p, -, rfl⟩ := List.mem_map.mp promoted
          exact ⟨Name.isNormalized_normalize _, isNormalized_typeTranslation _⟩
      · exact ih later
    | method | other => exact ih mem

theorem isWellFormed_method {className : String} {m : Tree.Method}
    (quiet : Quiet file complete (m.visits className)) : m.translation.isWellFormed complete := by
  simp only [Tree.Method.visits, quiet_cons, quiet_append] at quiet
  simp [Tree.Method.translation, Method.isWellFormed, all_isWellFormed_parameters,
    isNormalized_typeTranslation, blockIsWellFormed_body quiet.2.2.2, -List.all_map]

theorem isWellFormed_constructor {className : String} {k : Tree.Constructor}
    (quiet : Quiet file complete (k.visits className)) :
    k.translation.isWellFormed complete := by
  simp only [Tree.Constructor.visits, quiet_append] at quiet
  simp [Tree.Constructor.translation, Constructor.isWellFormed, all_isWellFormed_parameters,
    blockIsWellFormed_body quiet.2.2, -List.all_map]

theorem isWellFormed_class {f : Tree.File} {c : Tree.Class}
    (quiet : Quiet file complete c.visits) : (c.assembled f).isWellFormed complete := by
  simp only [Tree.Class.visits, quiet_cons] at quiet
  rw [Class.isWellFormed, Bool.and_eq_true, Bool.and_eq_true]
  refine ⟨⟨?_, ?_⟩, ?_⟩
  · rw [List.all_eq_true]
    intro w mem
    simp [isWellFormed_fieldWrite (OrderedMap.mem_of_mem_lastWrites mem)]
  · rw [List.all_eq_true]
    intro w mem
    obtain ⟨m, member, rfl⟩ := List.mem_map.mp (OrderedMap.mem_of_mem_lastWrites mem)
    have content := isWellFormed_method (quiet.2.mono (Tree.Method.visits_subset member false))
    simp [Name.isNormalized_normalize, content]
  · change (c.firstConstructor?.map Tree.Constructor.translation).all _
    cases first : c.firstConstructor? with
    | none => rfl
    | some k => exact isWellFormed_constructor (quiet.2.mono (Tree.Constructor.visits_subset first))

end

/-- The translation of a file is a well-formed schema, and complete if its visits report nothing. -/
theorem File.isWellFormed_translation {f : Tree.File} {complete : Bool}
    (quiet : Quiet f.id complete f.visits) : f.translation.isWellFormed complete := by
  rw [f.translation_eq_assembled, File.isWellFormed, Bool.and_eq_true]
  constructor
  · rw [List.all_eq_true]
    intro w mem
    obtain ⟨e, -, rfl⟩ := List.mem_map.mp (OrderedMap.mem_of_mem_lastWrites mem)
    simp [Name.isNormalized_normalize, Enum.isWellFormed, Tree.Enum.translation]
  · rw [List.all_eq_true]
    intro w mem
    obtain ⟨c, declared, rfl⟩ := List.mem_map.mp (OrderedMap.mem_of_mem_lastWrites mem)
    have content := isWellFormed_class (f := f) (quiet.mono (Tree.Class.visits_subset declared))
    simp [Name.isNormalized_normalize, content]

end NeutralSchema
