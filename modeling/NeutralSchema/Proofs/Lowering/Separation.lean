import NeutralSchema.Proofs.Lowering.Steps
import NeutralSchema.Proofs.Lowering.Translation

/-!
# Lowering visits a tree and then translates it

Lowering a part of a file is nothing but its visits in order, followed by its translation. Main
statement: `lowerFile_eq`.
-/
namespace NeutralSchema

variable (f : Tree.File)

theorem lowerName_eq (promoted : Bool) (text : String) (span : Span) :
    lowerName text ⟨f.id, span⟩
      = afterVisits f [.name promoted text span] (pure (Name.normalize text)) := by
  simp [afterVisits, lowerName, Visit.perform, Visit.violation?, Visit.reports]

mutual

theorem lowerType_eq (promoted : Bool) (span : Span) : ∀ t : Tree.ResolvedType,
    lowerType ⟨f.id, span⟩ t
      = afterVisits f (t.classNames.map (.name promoted · span)) (pure t.translation)
  | .mk name arguments => by
    have inner := lowerTypes_eq promoted span arguments
    unfold lowerType Tree.ResolvedType.classNames Tree.ResolvedType.translation
    generalize (Tree.ResolvedType.mk name []).canonicalName = canonical
    split
    · simp
    · simp
    · simp
    · simp
    · simp [inner]
    · simp [inner, lowerName_eq f promoted]

theorem lowerTypes_eq (promoted : Bool) (span : Span) : ∀ ts : List Tree.ResolvedType,
    lowerTypes ⟨f.id, span⟩ ts
      = afterVisits f ((Tree.ResolvedType.classNamesAll ts).map (.name promoted · span))
          (pure (Tree.ResolvedType.translationAll ts))
  | [] => by
    simp [lowerTypes, Tree.ResolvedType.classNamesAll, Tree.ResolvedType.translationAll]
  | t :: ts => by
    have first := lowerType_eq promoted span t
    have rest := lowerTypes_eq promoted span ts
    simp [lowerTypes, Tree.ResolvedType.classNamesAll, Tree.ResolvedType.translationAll, first,
      rest]

end

theorem lowerDeclaredType_eq (promoted : Bool) (owner : Owner) (span : Span)
    (type : Option Tree.ResolvedType) :
    lowerDeclaredType owner ⟨f.id, span⟩ type
      = afterVisits f (Tree.typeVisits promoted owner span type)
          (pure (Tree.typeTranslation type)) := by
  cases type with
  | none => rw [Tree.typeVisits, afterVisits_cons_stop rfl]; rfl
  | some t =>
    rw [Tree.typeVisits, afterVisits_cons_silent rfl rfl]
    exact lowerType_eq f promoted span t

/-- An expression that no schema expresses is visited and gives nothing. -/
theorem rejectExpression_eq {e : Tree.Expr} (unsupported : e.isSupported = false) :
    rejectExpression f.id e = afterVisits f [.expression e] (pure none) := by
  simp [afterVisits, rejectExpression, report, Visit.perform, Visit.violation?, Visit.reports,
    unsupported]

/-- A visit of an expression that a schema expresses makes no difference. -/
theorem afterVisits_expression {α : Type} {e : Tree.Expr} (supported : e.isSupported = true)
    (vs : List Visit) (x : Lowering α) :
    afterVisits f (.expression e :: vs) x = afterVisits f vs x :=
  afterVisits_cons_silent rfl (by simp [Visit.reports, supported]) vs x

mutual

theorem lowerExpression_eq : ∀ e : Tree.Expr,
    lowerExpression f.id e = afterVisits f e.visits (pure e.translation)
  | .call s callee arguments => by
    have method := lowerExpression_eq callee
    have slots := lowerExpressions_eq arguments
    rw [Tree.Expr.visits, afterVisits_expression f rfl]
    simp [lowerExpression, Tree.Expr.translation, method, slots]
  | .binary s left operator right => by
    have first := lowerExpression_eq left
    have second := lowerExpression_eq right
    rw [Tree.Expr.visits, afterVisits_expression f rfl]
    simp [lowerExpression, Tree.Expr.translation, first, second]
  | .member s target name => by
    have object := lowerExpression_eq target
    rw [Tree.Expr.visits, afterVisits_expression f rfl]
    simp [lowerExpression, Tree.Expr.translation, object, lowerName_eq f false]
  | .element s target index => by
    have object := lowerExpression_eq target
    have property := lowerExpression_eq index
    rw [Tree.Expr.visits, afterVisits_expression f rfl]
    simp [lowerExpression, Tree.Expr.translation, object, property]
  | .identifier s name => by
    rw [Tree.Expr.visits, afterVisits_expression f rfl]
    simp [lowerExpression, Tree.Expr.translation, lowerName_eq f false]
  | .new s type arguments => by
    have slots := lowerExpressions_eq arguments
    rw [Tree.Expr.visits, afterVisits_expression f rfl]
    simp [lowerExpression, Tree.Expr.translation, lowerDeclaredType_eq f false, slots]
  | .conditional s condition whenTrue whenFalse => by
    have first := lowerExpression_eq condition
    have second := lowerExpression_eq whenTrue
    have third := lowerExpression_eq whenFalse
    rw [Tree.Expr.visits, afterVisits_expression f rfl]
    simp [lowerExpression, Tree.Expr.translation, first, second, third]
  | .literal s value => by
    rw [Tree.Expr.visits, afterVisits_expression f rfl]
    simp [lowerExpression, Tree.Expr.translation]
  | .parenthesized s inner => by
    have content := lowerExpression_eq inner
    rw [Tree.Expr.visits, afterVisits_expression f rfl]
    simp [lowerExpression, Tree.Expr.translation, content]
  | .unary s side operator operand => by
    have content := lowerExpression_eq operand
    rw [Tree.Expr.visits, afterVisits_expression f rfl]
    simp [lowerExpression, Tree.Expr.translation, content]
  | .array s elements => by
    have slots := lowerExpressions_eq elements
    rw [Tree.Expr.visits, afterVisits_expression f rfl]
    simp [lowerExpression, Tree.Expr.translation, slots]
  | .self s word => by
    rw [Tree.Expr.visits, afterVisits_expression f rfl]
    simp [lowerExpression, Tree.Expr.translation]
  | .wrapped s form inner => rejectExpression_eq f rfl
  | .bare s form => rejectExpression_eq f rfl
  | .other s construct => rejectExpression_eq f rfl

theorem lowerExpressions_eq : ∀ es : List Tree.Expr,
    lowerExpressions f.id es
      = afterVisits f (Tree.Expr.visitsAll es) (pure (Tree.Expr.translationAll es))
  | [] => by simp [lowerExpressions, Tree.Expr.visitsAll, Tree.Expr.translationAll]
  | e :: es => by
    have first := lowerExpression_eq e
    have rest := lowerExpressions_eq es
    simp [lowerExpressions, Tree.Expr.visitsAll, Tree.Expr.translationAll, first, rest]

end

theorem lowerOptional_eq (e : Option Tree.Expr) :
    lowerOptional f.id e
      = afterVisits f (Tree.optionalVisits e) (pure (Tree.optionalTranslation e)) := by
  cases e with
  | none => simp [lowerOptional, Tree.optionalVisits, Tree.optionalTranslation]
  | some e => exact lowerExpression_eq f e

theorem lowerVariable_eq (d : Tree.Declarator) :
    lowerVariable f.id d = afterVisits f d.visits (pure d.translation) := by
  simp [lowerVariable, Tree.Declarator.visits, Tree.Declarator.translation, lowerOptional_eq,
    lowerName_eq f false]

theorem lowerVariables_eq (ds : List Tree.Declarator) :
    lowerVariables f.id ds
      = afterVisits f (ds.flatMap Tree.Declarator.visits)
          (pure (ds.map fun d => .variable d.translation)) := by
  induction ds with
  | nil => simp [lowerVariables]
  | cons d ds ih => simp [lowerVariables, lowerVariable_eq, ih]

theorem lowerLoopInitializer_eq (span : Span) (initializer : Tree.LoopInitializer) :
    lowerLoopInitializer f.id span initializer
      = afterVisits f (initializer.visits span) (pure initializer.translation) := by
  match initializer with
  | .declarators [] =>
    rw [Tree.LoopInitializer.visits.eq_def, afterVisits_cons_report rfl rfl]
    simp [lowerLoopInitializer, Tree.LoopInitializer.translation]
  | .declarators [d] =>
    rw [Tree.LoopInitializer.visits.eq_def, afterVisits_cons_silent rfl rfl]
    simp [lowerLoopInitializer, Tree.LoopInitializer.translation, lowerVariable_eq]
  | .declarators (d :: _ :: _) =>
    rw [Tree.LoopInitializer.visits.eq_def, afterVisits_cons_report rfl rfl]
    simp [lowerLoopInitializer, Tree.LoopInitializer.translation, lowerVariable_eq]
  | .expression (.identifier own name) =>
    rw [Tree.LoopInitializer.visits.eq_def, afterVisits_cons_silent rfl rfl]
    simp [lowerLoopInitializer, Tree.LoopInitializer.translation, lowerName_eq f false]
  | .expression (.call ..) | .expression (.binary ..) | .expression (.member ..)
  | .expression (.element ..) | .expression (.new ..) | .expression (.conditional ..)
  | .expression (.literal ..) | .expression (.parenthesized ..) | .expression (.unary ..)
  | .expression (.array ..) | .expression (.self ..) | .expression (.wrapped ..)
  | .expression (.bare ..) | .expression (.other ..) =>
    rw [Tree.LoopInitializer.visits.eq_def, afterVisits_cons_report rfl rfl]
    simp [lowerLoopInitializer, Tree.LoopInitializer.translation]

theorem lowerOptionalInitializer_eq (span : Span) (initializer : Option Tree.LoopInitializer) :
    lowerOptionalInitializer f.id span initializer
      = afterVisits f ((initializer.map (Tree.LoopInitializer.visits span)).getD [])
          (pure (initializer.bind Tree.LoopInitializer.translation)) := by
  cases initializer with
  | none => simp [lowerOptionalInitializer]
  | some initializer => exact lowerLoopInitializer_eq f span initializer

theorem rejectStatement_eq {position : Position} {s : Tree.Stmt}
    (unsupported : s.isSupported position = false) :
    rejectStatement f.id s = afterVisits f [.statement position s] (pure []) := by
  simp [afterVisits, rejectStatement, report, Visit.perform, Visit.violation?, Visit.reports,
    unsupported]

theorem afterVisits_statement {α : Type} {position : Position} {s : Tree.Stmt}
    (supported : s.isSupported position = true) (vs : List Visit) (x : Lowering α) :
    afterVisits f (.statement position s :: vs) x = afterVisits f vs x :=
  afterVisits_cons_silent rfl (by simp [Visit.reports, supported]) vs x

mutual

theorem lowerStatementAt_eq (position : Position) : ∀ s : Tree.Stmt,
    lowerStatementAt position f.id s
      = afterVisits f (s.visits position) (pure (s.translation position))
  | .if span condition thenBranch elseBranch => by
    have first := lowerStatementAt_eq .body thenBranch
    have second := lowerElse_eq elseBranch
    rw [Tree.Stmt.visits, afterVisits_statement f rfl]
    simp [lowerStatementAt, Tree.Stmt.translation, lowerExpression_eq, first, second]
  | .return span value => by
    rw [Tree.Stmt.visits, afterVisits_statement f rfl]
    simp [lowerStatementAt, Tree.Stmt.translation, lowerOptional_eq]
  | .throw span value => by
    rw [Tree.Stmt.visits, afterVisits_statement f rfl]
    simp [lowerStatementAt, Tree.Stmt.translation, lowerExpression_eq]
  | .expression span value => by
    rw [Tree.Stmt.visits, afterVisits_statement f rfl]
    simp [lowerStatementAt, Tree.Stmt.translation, lowerExpression_eq]
  | .variable span declarators => by
    rw [Tree.Stmt.visits, afterVisits_statement f rfl]
    simp [lowerStatementAt, Tree.Stmt.translation, lowerVariables_eq]
  | .while span condition body => by
    have content := lowerStatementAt_eq .body body
    rw [Tree.Stmt.visits, afterVisits_statement f rfl]
    simp [lowerStatementAt, Tree.Stmt.translation, lowerExpression_eq, content]
  | .forOf span initializer items body => by
    have content := lowerStatementAt_eq .body body
    rw [Tree.Stmt.visits, afterVisits_statement f rfl]
    simp [lowerStatementAt, Tree.Stmt.translation, lowerLoopInitializer_eq, lowerExpression_eq,
      content]
  | .for span initializer condition step body => by
    have content := lowerStatementAt_eq .body body
    rw [Tree.Stmt.visits, afterVisits_statement f rfl]
    simp [lowerStatementAt, Tree.Stmt.translation, lowerOptionalInitializer_eq, lowerOptional_eq,
      content]
  | .block span statements => by
    cases position with
    | entry => exact rejectStatement_eq f rfl
    | body =>
      have content := lowerStatements_eq statements
      rw [Tree.Stmt.visits, afterVisits_statement f rfl]
      simp [lowerStatementAt, Tree.Stmt.translation, content]
  | .bare span form => rejectStatement_eq f rfl
  | .other span construct => rejectStatement_eq f rfl

theorem lowerElse_eq : ∀ s : Option Tree.Stmt,
    lowerElse f.id s = afterVisits f (Tree.Stmt.visitsElse s) (pure (Tree.Stmt.translationElse s))
  | none => by simp [lowerElse, Tree.Stmt.visitsElse, Tree.Stmt.translationElse]
  | some s => by
    have content := lowerStatementAt_eq .body s
    simp [lowerElse, Tree.Stmt.visitsElse, Tree.Stmt.translationElse, content]

theorem lowerStatements_eq : ∀ ss : List Tree.Stmt,
    lowerStatements f.id ss
      = afterVisits f (Tree.Stmt.visitsAll ss) (pure (Tree.Stmt.translationAll ss))
  | [] => by simp [lowerStatements, Tree.Stmt.visitsAll, Tree.Stmt.translationAll]
  | s :: ss => by
    have first := lowerStatementAt_eq .entry s
    have rest := lowerStatements_eq ss
    simp [lowerStatements, Tree.Stmt.visitsAll, Tree.Stmt.translationAll, first, rest]

end

theorem lowerOwnedBody_eq (owner : Owner) (span : Span) (body : Option Tree.Block) :
    lowerOwnedBody owner ⟨f.id, span⟩ body
      = afterVisits f (Tree.bodyVisits owner span body) (pure (Tree.bodyTranslation body)) := by
  cases body with
  | none => rw [Tree.bodyVisits, afterVisits_cons_stop rfl]; rfl
  | some ss =>
    rw [Tree.bodyVisits, afterVisits_cons_silent rfl rfl]
    exact lowerStatements_eq f ss

theorem lowerEnum_eq (e : Tree.Enum) :
    lowerEnum f.id e
      = afterVisits f e.visits (pure (Name.normalize e.name.text, e.translation)) := by
  have members (ms : List Tree.EnumMember) :
      lowerEnumMembers f.id ms
        = afterVisits f (ms.map fun m => .name false m.name.text m.name.span)
            (pure (ms.map fun m => Name.normalize m.name.text)) := by
    induction ms with
    | nil => simp [lowerEnumMembers]
    | cons m ms ih => simp [lowerEnumMembers, lowerName_eq f false, ih]
  simp [lowerEnum, Tree.Enum.visits, Tree.Enum.translation, lowerName_eq f false, members]

theorem lowerParameter_eq (promoted : Bool) (className : String) (p : Tree.Parameter) :
    lowerParameter f.id className p
      = afterVisits f (p.visits promoted className) (pure p.translation) := by
  simp [lowerParameter, Tree.Parameter.visits, Tree.Parameter.translation,
    lowerName_eq f promoted, lowerDeclaredType_eq f promoted]

theorem lowerParameters_eq (className : String) (ps : List Tree.Parameter) :
    lowerParameters f.id className ps
      = afterVisits f (ps.flatMap (Tree.Parameter.visits false className))
          (pure (ps.map Tree.Parameter.translation)) := by
  induction ps with
  | nil => simp [lowerParameters]
  | cons p ps ih => simp [lowerParameters, lowerParameter_eq f false, ih]

theorem lowerDefault_eq (initializer : Option Tree.Expr) :
    lowerDefault f initializer
      = afterVisits f ((initializer.map fun e => [Visit.initializer e.span]).getD [])
          (pure (initializer.bind fun e => f.textAt? e.span)) := by
  cases initializer with
  | none => simp [lowerDefault]
  | some e =>
    cases covered : f.textAt? e.span with
    | some text =>
      have goesOn : (Visit.initializer e.span).violation? f = none := by
        simp [Visit.violation?, covered]
      simp [lowerDefault, sourceText, covered, afterVisits_cons_silent goesOn rfl]
    | none =>
      have stops : (Visit.initializer e.span).violation? f = some (.spanOutOfBounds f.path
          (f.fileSpan e.span) (Text.byteLength f.text.toList)) := by
        simp [Visit.violation?, covered]
      simp only [lowerDefault, sourceText, covered, Option.map_some, Option.getD_some,
        afterVisits_cons_stop stops]
      rfl

theorem lowerProperty_eq (className : String) (p : Tree.Property) :
    lowerProperty f className p
      = afterVisits f (p.visits className)
          (pure (Name.normalize p.name.text, p.translation f)) := by
  simp [lowerProperty, Tree.Property.visits, Tree.Property.translation, Tree.File.fileSpan,
    lowerName_eq f false, lowerDeclaredType_eq f false, lowerDefault_eq, Tree.lowerVisibility_eq]

theorem lowerMethod_eq (className : String) (m : Tree.Method) :
    lowerMethod f.id className m
      = afterVisits f (m.visits className)
          (pure (Name.normalize m.name.text, m.translation)) := by
  simp [lowerMethod, Tree.Method.visits, Tree.Method.translation, lowerName_eq f false,
    lowerDeclaredType_eq f false, lowerParameters_eq, lowerOwnedBody_eq]

theorem lowerPromoted_eq (className : String) (fields : OrderedMap Schema.Field)
    (ps : List Tree.Parameter) :
    lowerPromoted f.id className fields ps
      = afterVisits f
          ((ps.filter Tree.Parameter.isPromoted).flatMap (Tree.Parameter.visits true className))
          (pure (Tree.promotedTranslation fields ps)) := by
  induction ps generalizing fields with
  | nil => simp [lowerPromoted, Tree.promotedTranslation]
  | cons p ps ih =>
    cases promoted : p.isPromoted with
    | true =>
      simp [lowerPromoted, promoted, lowerParameter_eq f true, ih, Tree.promotedTranslation,
        Tree.Parameter.translation, Tree.Parameter.fieldTranslation, Tree.lowerVisibility_eq]
    | false => simp [lowerPromoted, promoted, ih, Tree.promotedTranslation]

theorem lowerConstructor_eq (className : String) (k : Tree.Constructor) :
    lowerConstructor f.id className k
      = afterVisits f (k.parameters.flatMap (Tree.Parameter.visits false className) ++
            Tree.bodyVisits (.constructor className) k.span k.body)
          (pure k.translation) := by
  simp [lowerConstructor, Tree.Constructor.translation, lowerParameters_eq, lowerOwnedBody_eq]

/-- One member of a class, which has had its first constructor or not. -/
theorem lowerMember_eq (declared className : String) (c : Schema.Class) (m : Tree.ClassMember) :
    lowerMember f declared className c m
      = afterVisits f (Tree.memberVisits declared className c.constructor.isSome [m])
          (pure (Tree.memberTranslation f c m)) := by
  cases m with
  | property p =>
    cases static : p.modifiers.isStatic <;>
      simp [lowerMember, Tree.memberVisits, Tree.memberTranslation, static, lowerProperty_eq]
  | method m =>
    cases static : m.modifiers.isStatic <;>
      simp [lowerMember, Tree.memberVisits, Tree.memberTranslation, static, lowerMethod_eq]
  | constructor k =>
    cases first : c.constructor with
    | some _ =>
      simp only [Tree.memberVisits, Option.isSome_some, if_true, List.append_nil]
      rw [afterVisits_cons_report rfl rfl]
      simp [lowerMember, Tree.memberTranslation, first, Tree.File.fileSpan]
    | none =>
      simp [lowerMember, Tree.memberVisits, Tree.memberTranslation, first, lowerPromoted_eq,
        lowerConstructor_eq, Tree.Constructor.visits]
  | other construct span => simp [lowerMember, Tree.memberVisits, Tree.memberTranslation]

/-- After a member, a class has had its first constructor if the member is one. -/
theorem memberVisits_cons (declared className : String) (c : Schema.Class) (m : Tree.ClassMember)
    (ms : List Tree.ClassMember) :
    Tree.memberVisits declared className c.constructor.isSome (m :: ms)
      = Tree.memberVisits declared className c.constructor.isSome [m]
        ++ Tree.memberVisits declared className
            (Tree.memberTranslation f c m).constructor.isSome ms := by
  cases m with
  | property p => cases static : p.modifiers.isStatic <;>
      simp [Tree.memberVisits, Tree.memberTranslation, static]
  | method m => cases static : m.modifiers.isStatic <;>
      simp [Tree.memberVisits, Tree.memberTranslation, static]
  | constructor k => cases first : c.constructor <;>
      simp [Tree.memberVisits, Tree.memberTranslation, first]
  | other construct span => simp [Tree.memberVisits, Tree.memberTranslation]

theorem lowerMembers_eq (declared className : String) (c : Schema.Class)
    (ms : List Tree.ClassMember) :
    lowerMembers f declared className c ms
      = afterVisits f (Tree.memberVisits declared className c.constructor.isSome ms)
          (pure (ms.foldl (Tree.memberTranslation f) c)) := by
  induction ms generalizing c with
  | nil => simp [lowerMembers, Tree.memberVisits]
  | cons m ms ih =>
    rw [memberVisits_cons f]
    simp [lowerMembers, lowerMember_eq, ih]

theorem lowerClass_eq (c : Tree.Class) :
    lowerClass f c
      = afterVisits f c.visits (pure (Name.normalize c.name.text, c.translation f)) := by
  simp [lowerClass, Tree.Class.visits, Tree.Class.translation, Tree.File.fileSpan,
    lowerName_eq f false, lowerMembers_eq, Schema.Class.empty]

theorem lowerItem_eq (s : Schema.File) (i : Tree.Item) :
    lowerItem f s i = afterVisits f i.visits (pure (Tree.itemTranslation f s i)) := by
  cases i with
  | enumDecl e => simp [lowerItem, Tree.Item.visits, Tree.itemTranslation, lowerEnum_eq]
  | classDecl c => simp [lowerItem, Tree.Item.visits, Tree.itemTranslation, lowerClass_eq]
  | other construct span => simp [lowerItem, Tree.Item.visits, Tree.itemTranslation]

/-- Lowering a file visits all of it in order, and what it gives is the translation. -/
theorem lowerFile_eq : lowerFile f = afterVisits f f.visits (pure f.translation) := by
  have items (s : Schema.File) (is : List Tree.Item) :
      lowerItems f s is
        = afterVisits f (is.flatMap Tree.Item.visits)
            (pure (is.foldl (Tree.itemTranslation f) s)) := by
    induction is generalizing s with
    | nil => simp [lowerItems]
    | cons i is ih => simp [lowerItems, lowerItem_eq, ih]
  exact items .empty f.items

end NeutralSchema
