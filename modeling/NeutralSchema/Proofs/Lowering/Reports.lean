import NeutralSchema.Proofs.Lowering.Slots
import NeutralSchema.Proofs.Lowering.Violations

/-!
# Reports of what no schema expresses

Each visit of something that no schema expresses is reported once, where it stands, and nothing else
is. In a block the unexpected expressions are those that its slots have lost. Main statement:
`structuralReports_one_to_one`.
-/
namespace NeutralSchema

/-- Whether a loop initializer is a single declarator or a bare identifier. -/
def Tree.LoopInitializer.isSupported : Tree.LoopInitializer → Bool
  | .declarators [_] => true
  | .expression (.identifier _ _) => true
  | _ => false

/-- Where the initializer of the loop at `span` is reported. -/
def Tree.LoopInitializer.reportSpan (span : Span) : Tree.LoopInitializer → Span
  | .declarators _ => span
  | .expression e => e.span

/-- What a visit finds that no schema expresses, and where. -/
def Visit.offense? : Visit → Option (DiagnosticKind × Span)
  | .expression e => if e.isSupported then none else some (.unexpectedExpression, e.span)
  | .statement position s =>
    if s.isSupported position then none else some (.unexpectedStatement, s.span)
  | .loopInitializer span clause =>
    if clause.isSupported then none
    else some (.unsupportedLoopInitializer, clause.reportSpan span)
  | .laterConstructor _ span => some (.multipleConstructors, span)
  | .name .. | .type .. | .body .. | .initializer .. => none

/-- The diagnostics about anything but names, each by its kind and its source. -/
def structuralReports (ds : Diagnostics) : List (DiagnosticKind × Option FileSpan) :=
  (ds.filter (·.kind ≠ .invalidName)).map fun d => (d.kind, d.source)

/-- The offenses of visits to a file, in order. -/
def offenses (file : FileId) (vs : List Visit) : List (DiagnosticKind × Option FileSpan) :=
  (vs.filterMap Visit.offense?).map fun o => (o.1, some ⟨file, o.2⟩)

@[simp] theorem structuralReports_append (ds es : Diagnostics) :
    structuralReports (ds ++ es) = structuralReports ds ++ structuralReports es := by
  simp [structuralReports]

theorem structuralReports_invalidCharacters (name : String) (source : Option FileSpan) :
    structuralReports (Name.invalidCharacters name source) = [] := by
  have none : (Name.invalidCharacters name source).filter (·.kind ≠ .invalidName) = [] := by
    rw [List.filter_eq_nil_iff]
    intro d mem
    obtain ⟨c, -, rfl⟩ := List.mem_map.mp mem
    simp [Name.invalidCharacter]
  rw [structuralReports, none, List.map_nil]

theorem structuralReports_loopInitializerReports (file : FileId) (span : Span)
    (clause : Tree.LoopInitializer) :
    structuralReports (loopInitializerReports file span clause)
      = offenses file [.loopInitializer span clause] := by
  match clause with
  | .declarators [] | .declarators [_] | .declarators (_ :: _ :: _) => rfl
  | .expression e => cases e <;> rfl

theorem structuralReports_reports (file : FileId) (v : Visit) :
    structuralReports (v.reports file) = offenses file [v] := by
  cases v with
  | name promoted text span => exact structuralReports_invalidCharacters text _
  | loopInitializer span clause => exact structuralReports_loopInitializerReports file span clause
  | expression e =>
    cases supported : e.isSupported <;>
      simp [Visit.reports, Visit.offense?, offenses, structuralReports, supported]
  | statement position s =>
    cases supported : s.isSupported position <;>
      simp [Visit.reports, Visit.offense?, offenses, structuralReports, supported]
  | type | body | initializer | laterConstructor => rfl

/-- Visits report their offenses, each once and in order. -/
theorem structuralReports_flatMap_reports (file : FileId) (vs : List Visit) :
    structuralReports (vs.flatMap (Visit.reports file)) = offenses file vs := by
  induction vs with
  | nil => rfl
  | cons v vs ih =>
    have split : offenses file (v :: vs) = offenses file [v] ++ offenses file vs := by
      simp only [offenses, ← List.map_append, ← List.filterMap_append, List.singleton_append]
    rw [List.flatMap_cons, structuralReports_append, structuralReports_reports, ih, split]

def Visit.isUnexpectedExpression : Visit → Bool
  | .expression e => !e.isSupported
  | _ => false

@[simp] theorem isUnexpectedExpression_expression (e : Tree.Expr) :
    (Visit.expression e).isUnexpectedExpression = !e.isSupported := rfl

@[simp] theorem isUnexpectedExpression_name (promoted : Bool) (text : String) (span : Span) :
    (Visit.name promoted text span).isUnexpectedExpression = false := rfl

@[simp] theorem isUnexpectedExpression_statement (position : Position) (s : Tree.Stmt) :
    (Visit.statement position s).isUnexpectedExpression = false := rfl

@[simp] theorem isUnexpectedExpression_loopInitializer (span : Span)
    (clause : Tree.LoopInitializer) :
    (Visit.loopInitializer span clause).isUnexpectedExpression = false := rfl

def Tree.Slot.isUnexpressed : Tree.Slot → Bool
  | .present e => !e.isSupported
  | .absent | .name _ => false

theorem any_offense_unexpectedExpression (v : Visit) :
    (v.offense?.map fun o => decide (o.1 = .unexpectedExpression)).getD false
      = v.isUnexpectedExpression := by
  cases v with
  | expression e =>
    cases supported : e.isSupported <;>
      simp [Visit.offense?, Visit.isUnexpectedExpression, supported]
  | statement position s =>
    cases supported : s.isSupported position <;>
      simp [Visit.offense?, Visit.isUnexpectedExpression, supported]
  | loopInitializer span clause =>
    cases supported : clause.isSupported <;>
      simp [Visit.offense?, Visit.isUnexpectedExpression, supported]
  | name | type | body | initializer | laterConstructor => rfl

theorem countP_unexpectedExpression_reports (file : FileId) (vs : List Visit) :
    (vs.flatMap (Visit.reports file)).countP (·.kind = .unexpectedExpression)
      = vs.countP Visit.isUnexpectedExpression := by
  have structural (ds : Diagnostics) : ds.countP (·.kind = .unexpectedExpression)
      = (structuralReports ds).countP (·.1 = .unexpectedExpression) := by
    induction ds with
    | nil => rfl
    | cons d ds ih =>
      rcases d with ⟨kind, message, source⟩
      cases kind <;> simpa [structuralReports] using ih
  rw [structural, structuralReports_flatMap_reports, offenses, List.countP_map,
    List.countP_filterMap]
  exact List.countP_congr fun v _ => by rw [← any_offense_unexpectedExpression]; rfl

theorem countP_typeVisits (promoted : Bool) (owner : Owner) (span : Span)
    (type : Option Tree.ResolvedType) :
    (Tree.typeVisits promoted owner span type).countP Visit.isUnexpectedExpression = 0 := by
  rw [List.countP_eq_zero]
  intro v mem
  rcases List.mem_cons.mp mem with rfl | mem
  · exact Bool.false_ne_true
  · obtain ⟨name, -, rfl⟩ := List.mem_map.mp mem
    exact Bool.false_ne_true

mutual

theorem countP_visits : ∀ e : Tree.Expr,
    e.visits.countP Visit.isUnexpectedExpression = e.slots.countP Tree.Slot.isUnexpressed
  | .call s callee arguments => by
    have method := countP_visits callee
    have rest := countP_visitsAll arguments
    simp [Tree.Expr.visits, Tree.Expr.slots, Tree.Slot.isUnexpressed, Tree.Expr.isSupported,
      method, rest]
  | .binary s left operator right => by
    have first := countP_visits left
    have second := countP_visits right
    simp [Tree.Expr.visits, Tree.Expr.slots, Tree.Slot.isUnexpressed, Tree.Expr.isSupported,
      first, second]
  | .member s target name => by
    have object := countP_visits target
    simp [Tree.Expr.visits, Tree.Expr.slots, Tree.Slot.isUnexpressed, Tree.Expr.isSupported,
      object]
  | .element s target index => by
    have object := countP_visits target
    have property := countP_visits index
    simp [Tree.Expr.visits, Tree.Expr.slots, Tree.Slot.isUnexpressed, Tree.Expr.isSupported,
      object, property]
  | .new s type arguments => by
    have rest := countP_visitsAll arguments
    simp [Tree.Expr.visits, Tree.Expr.slots, Tree.Slot.isUnexpressed, Tree.Expr.isSupported,
      countP_typeVisits, rest]
  | .conditional s condition whenTrue whenFalse => by
    have first := countP_visits condition
    have second := countP_visits whenTrue
    have third := countP_visits whenFalse
    simp [Tree.Expr.visits, Tree.Expr.slots, Tree.Slot.isUnexpressed, Tree.Expr.isSupported,
      first, second, third]
  | .parenthesized s inner => by
    have content := countP_visits inner
    simp [Tree.Expr.visits, Tree.Expr.slots, Tree.Slot.isUnexpressed, Tree.Expr.isSupported,
      content]
  | .unary s side operator operand => by
    have content := countP_visits operand
    simp [Tree.Expr.visits, Tree.Expr.slots, Tree.Slot.isUnexpressed, Tree.Expr.isSupported,
      content]
  | .array s elements => by
    have rest := countP_visitsAll elements
    simp [Tree.Expr.visits, Tree.Expr.slots, Tree.Slot.isUnexpressed, Tree.Expr.isSupported,
      rest]
  | .identifier .. | .literal .. | .self .. | .wrapped .. | .bare .. | .other .. => rfl

theorem countP_visitsAll : ∀ es : List Tree.Expr,
    (Tree.Expr.visitsAll es).countP Visit.isUnexpectedExpression
      = (Tree.Expr.slotsAll es).countP Tree.Slot.isUnexpressed
  | [] => rfl
  | e :: es => by
    have first := countP_visits e
    have rest := countP_visitsAll es
    simp [Tree.Expr.visitsAll, Tree.Expr.slotsAll, first, rest]

end

theorem countP_optionalVisits (e : Option Tree.Expr) :
    (Tree.optionalVisits e).countP Visit.isUnexpectedExpression
      = (Tree.optionalSlots e).countP Tree.Slot.isUnexpressed := by
  cases e with
  | none => rfl
  | some e => exact countP_visits e

theorem countP_declaratorVisits (d : Tree.Declarator) :
    d.visits.countP Visit.isUnexpectedExpression
      = (Tree.optionalSlots d.initializer).countP Tree.Slot.isUnexpressed := by
  simp [Tree.Declarator.visits, countP_optionalVisits]

theorem countP_declaratorsVisits (ds : List Tree.Declarator) :
    (ds.flatMap Tree.Declarator.visits).countP Visit.isUnexpectedExpression
      = (ds.flatMap fun d => Tree.optionalSlots d.initializer).countP Tree.Slot.isUnexpressed := by
  induction ds with
  | nil => rfl
  | cons d ds ih => simp [countP_declaratorVisits, ih]

theorem countP_loopInitializerVisits (span : Span) (clause : Tree.LoopInitializer) :
    (clause.visits span).countP Visit.isUnexpectedExpression
      = clause.slots.countP Tree.Slot.isUnexpressed := by
  rw [Tree.LoopInitializer.visits.eq_def, Tree.LoopInitializer.slots.eq_def]
  split
  · simp [countP_declaratorVisits]
  · simp [Tree.Slot.isUnexpressed]
  · simp

theorem countP_optionalInitializerVisits (span : Span) (clause : Option Tree.LoopInitializer) :
    ((clause.map (Tree.LoopInitializer.visits span)).getD []).countP
        Visit.isUnexpectedExpression
      = ((clause.map Tree.LoopInitializer.slots).getD []).countP Tree.Slot.isUnexpressed := by
  cases clause with
  | none => rfl
  | some clause => exact countP_loopInitializerVisits span clause

mutual

theorem countP_stmtVisits (position : Position) : ∀ s : Tree.Stmt,
    (s.visits position).countP Visit.isUnexpectedExpression
      = (s.slots position).countP Tree.Slot.isUnexpressed
  | .if span condition thenBranch elseBranch => by
    have first := countP_stmtVisits .body thenBranch
    have second := countP_elseVisits elseBranch
    simp [Tree.Stmt.visits, Tree.Stmt.slots, countP_visits, first, second]
  | .return span value => by
    simp [Tree.Stmt.visits, Tree.Stmt.slots, countP_optionalVisits]
  | .throw span value => by simp [Tree.Stmt.visits, Tree.Stmt.slots, countP_visits]
  | .expression span value => by simp [Tree.Stmt.visits, Tree.Stmt.slots, countP_visits]
  | .variable span declarators => by
    rw [Tree.Stmt.visits, Tree.Stmt.slots, List.countP_cons, countP_declaratorsVisits]
    simp
  | .while span condition body => by
    have content := countP_stmtVisits .body body
    simp [Tree.Stmt.visits, Tree.Stmt.slots, countP_visits, content]
  | .forOf span clause items body => by
    have content := countP_stmtVisits .body body
    simp [Tree.Stmt.visits, Tree.Stmt.slots, countP_visits, countP_loopInitializerVisits, content]
  | .for span clause condition step body => by
    have content := countP_stmtVisits .body body
    simp [Tree.Stmt.visits, Tree.Stmt.slots, countP_optionalVisits,
      countP_optionalInitializerVisits, content]
  | .block span statements => by
    have content := countP_blockVisits statements
    cases position <;> simp [Tree.Stmt.visits, Tree.Stmt.slots, content]
  | .bare .. | .other .. => by simp [Tree.Stmt.visits, Tree.Stmt.slots]

theorem countP_elseVisits : ∀ s : Option Tree.Stmt,
    (Tree.Stmt.visitsElse s).countP Visit.isUnexpectedExpression
      = (Tree.Stmt.slotsElse s).countP Tree.Slot.isUnexpressed
  | none => rfl
  | some s => countP_stmtVisits .body s

/-- The unexpected expressions of a block are those that none of its slots expresses. -/
theorem countP_blockVisits : ∀ ss : List Tree.Stmt,
    (Tree.Stmt.visitsAll ss).countP Visit.isUnexpectedExpression
      = (Tree.Stmt.slotsAll ss).countP Tree.Slot.isUnexpressed
  | [] => rfl
  | s :: ss => by
    have first := countP_stmtVisits .entry s
    have rest := countP_blockVisits ss
    simp [Tree.Stmt.visitsAll, Tree.Stmt.slotsAll, first, rest]

end

/-- An expression has a translation exactly if a schema expresses it. -/
theorem isSome_translation (e : Tree.Expr) : e.translation.isSome = e.isSupported := by
  cases e <;> rfl

/-- The slots that a translation loses are those that no schema expresses. -/
theorem countP_isLost (slots : List Tree.Slot) :
    (slots.zip (slots.map Tree.Slot.translation)).countP Tree.Slot.isLost
      = slots.countP Tree.Slot.isUnexpressed := by
  induction slots with
  | nil => rfl
  | cons slot slots ih =>
    have same : Tree.Slot.isLost (slot, slot.translation) = slot.isUnexpressed := by
      cases slot with
      | absent | name => rfl
      | present e =>
        rw [Tree.Slot.translation, Tree.Slot.isUnexpressed, ← isSome_translation]
        cases e.translation <;> rfl
    rw [List.map_cons, List.zip_cons_cons, List.countP_cons, List.countP_cons, ih, same]

/-- A successful lowering of a file reports, besides the characters of names, exactly the offenses
of its visits, each once, where it stands and in order. A successful lowering of a block has slots
that stand for those of the tree, and of these it has lost one for each unexpected expression that
it reported. -/
theorem structuralReports_one_to_one :
    (∀ (f : Tree.File) (collected after : Diagnostics) (s : Schema.File),
      (lowerFile f).runFrom collected = (.ok s, after) →
        ∃ reported, after = collected ++ reported
          ∧ structuralReports reported = offenses f.id f.visits)
      ∧ ∀ (file : FileId) (block : Tree.Block) (collected after : Diagnostics)
          (lowered : Schema.Block),
        (lowerStatements file block).runFrom collected = (.ok lowered, after) →
          ∃ reported, after = collected ++ reported
            ∧ Schema.blockSlots lowered
              = (Tree.Stmt.slotsAll block).map Tree.Slot.translation
            ∧ ((Tree.Stmt.slotsAll block).zip (Schema.blockSlots lowered)).countP
                Tree.Slot.isLost
              = reported.countP (·.kind = .unexpectedExpression) := by
  constructor
  · intro f collected after s done
    obtain ⟨-, -, all⟩ := lowerFile_eq_ok_iff.mp done
    exact ⟨_, all, structuralReports_flatMap_reports f.id f.visits⟩
  · intro file block collected after lowered done
    -- Statements do not look at the text of their file.
    rw [lowerStatements_eq (f := ⟨file, "", "", []⟩), runFrom_afterVisits_eq_ok_iff] at done
    obtain ⟨-, rfl, all⟩ := done
    refine ⟨_, all, blockSlots_translationAll block, ?_⟩
    rw [blockSlots_translationAll, countP_isLost, countP_unexpectedExpression_reports,
      countP_blockVisits]

/-- A block that throws an arrow function. -/
def throwingBlock : Tree.Block := [.throw ⟨20, 34⟩ (.bare ⟨26, 34⟩ .arrowFunction)]

/-- A class with that block as the body of a constructor, and with one more constructor. -/
def twoConstructors : Tree.File :=
  ⟨3, "a.ts", "", [.classDecl ⟨⟨"A", ⟨6, 7⟩⟩,
    [.constructor ⟨[], some throwingBlock, ⟨10, 36⟩⟩, .constructor ⟨[], none, ⟨37, 53⟩⟩],
    ⟨0, 55⟩⟩]⟩

theorem structuralReports_twoConstructors :
    (∃ s after reported, (lowerFile twoConstructors).runFrom [] = (.ok s, after)
      ∧ after = [] ++ reported
      ∧ structuralReports reported
        = [(.unexpectedExpression, some ⟨3, ⟨26, 34⟩⟩),
          (.multipleConstructors, some ⟨3, ⟨37, 53⟩⟩)])
      ∧ ∃ lowered after reported, (lowerStatements 3 throwingBlock).runFrom [] = (.ok lowered, after)
        ∧ after = [] ++ reported
        ∧ reported.countP (·.kind = .unexpectedExpression) = 1 := by
  have file : (lowerFile twoConstructors).runFrom []
      = (.ok twoConstructors.translation,
        [] ++ twoConstructors.visits.flatMap (Visit.reports 3)) :=
    lowerFile_eq_ok_iff.mpr ⟨by decide, rfl, rfl⟩
  have block : (lowerStatements 3 throwingBlock).runFrom []
      = (.ok [.throw none], [] ++ (Tree.Stmt.visitsAll throwingBlock).flatMap (Visit.reports 3)) := by
    rfl
  obtain ⟨reported, all, structural⟩ := structuralReports_one_to_one.1 _ _ _ _ file
  obtain ⟨inBlock, allInBlock, -, lost⟩ := structuralReports_one_to_one.2 _ _ _ _ _ block
  refine ⟨⟨_, _, reported, file, all, structural.trans ?_⟩, _, _, inBlock, block, allInBlock, ?_⟩
  · rfl
  · rw [← lost]
    rfl

end NeutralSchema
