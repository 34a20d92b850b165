import NeutralSchema.Proofs.Lowering.Translation
import NeutralSchema.Proofs.Lowering.Visits
import NeutralSchema.Proofs.Tree.Relocation

/-!
# Lowering a relocated tree

The visits of a relocated tree are those of the tree, relocated, and its translation is the same.
Main statements: `File.visits_relocate` and `File.translation_relocate`.
-/
namespace NeutralSchema

def Visit.relocate (place : Span → Span) : Visit → Visit
  | .name promoted text span => .name promoted text (place span)
  | .type owner span declared => .type owner (place span) declared
  | .body owner span block => .body owner (place span) (block.map (Tree.Stmt.relocateAll place))
  | .initializer span => .initializer span
  | .expression e => .expression (e.relocate place)
  | .statement position s => .statement position (s.relocate place)
  | .loopInitializer span clause =>
    .loopInitializer (place span) (clause.relocate place)
  | .laterConstructor className span => .laterConstructor className (place span)

namespace Tree

section

variable (place : Span → Span)

theorem typeVisits_relocate (promoted : Bool) (owner : Owner) (span : Span)
    (type : Option ResolvedType) :
    typeVisits promoted owner (place span) type
      = (typeVisits promoted owner span type).map (Visit.relocate place) := by
  simp [typeVisits, Visit.relocate, Function.comp_def]

mutual

theorem Expr.visits_relocate : ∀ e : Expr,
    (e.relocate place).visits = e.visits.map (Visit.relocate place)
  | .call span callee arguments => by
    have method := visits_relocate callee
    have slots := visitsAll_relocate arguments
    simp [Expr.visits, Expr.relocate, Visit.relocate, method, slots]
  | .binary span left operator right => by
    have first := visits_relocate left
    have second := visits_relocate right
    simp [Expr.visits, Expr.relocate, Visit.relocate, first, second]
  | .member span target name => by
    have object := visits_relocate target
    simp [Expr.visits, Expr.relocate, Visit.relocate, Ident.relocate, object]
  | .element span target index => by
    have object := visits_relocate target
    have property := visits_relocate index
    simp [Expr.visits, Expr.relocate, Visit.relocate, object, property]
  | .new span type arguments => by
    have slots := visitsAll_relocate arguments
    simp [Expr.visits, Expr.relocate, Visit.relocate, typeVisits_relocate, slots]
  | .conditional span condition whenTrue whenFalse => by
    have first := visits_relocate condition
    have second := visits_relocate whenTrue
    have third := visits_relocate whenFalse
    simp [Expr.visits, Expr.relocate, Visit.relocate, first, second, third]
  | .parenthesized span inner => by
    have content := visits_relocate inner
    simp [Expr.visits, Expr.relocate, Visit.relocate, content]
  | .unary span side operator operand => by
    have content := visits_relocate operand
    simp [Expr.visits, Expr.relocate, Visit.relocate, content]
  | .array span elements => by
    have slots := visitsAll_relocate elements
    simp [Expr.visits, Expr.relocate, Visit.relocate, slots]
  | .identifier .. | .literal .. | .self .. | .wrapped .. | .bare .. | .other .. => rfl

theorem Expr.visitsAll_relocate : ∀ es : List Expr,
    Expr.visitsAll (Expr.relocateAll place es)
      = (Expr.visitsAll es).map (Visit.relocate place)
  | [] => rfl
  | e :: es => by
    have first := visits_relocate e
    have rest := visitsAll_relocate es
    simp [Expr.relocateAll, Expr.visitsAll, first, rest]

end

theorem optionalVisits_relocate (e : Option Expr) :
    optionalVisits (e.map (Expr.relocate place))
      = (optionalVisits e).map (Visit.relocate place) := by
  cases e with
  | none => rfl
  | some e => exact e.visits_relocate place

theorem Declarator.visits_relocate (d : Declarator) :
    (d.relocate place).visits = d.visits.map (Visit.relocate place) := by
  simp [Declarator.visits, Declarator.relocate, Ident.relocate, Visit.relocate,
    optionalVisits_relocate]

/-- The visits of parts in order. -/
theorem flatMap_relocate {α : Type} {visits : α → List Visit} {relocate : α → α}
    (each : ∀ a, visits (relocate a) = (visits a).map (Visit.relocate place)) (as : List α) :
    (as.map relocate).flatMap visits = (as.flatMap visits).map (Visit.relocate place) := by
  induction as with
  | nil => rfl
  | cons a as ih => simp [each, ih]

theorem LoopInitializer.visits_relocate (span : Span) (initializer : LoopInitializer) :
    (initializer.relocate place).visits (place span)
      = (initializer.visits span).map (Visit.relocate place) := by
  match initializer with
  | .declarators [] => rfl
  | .declarators (d :: ds) =>
    simp [LoopInitializer.visits, LoopInitializer.relocate, Visit.relocate,
      Declarator.visits_relocate]
  | .expression e => cases e <;> rfl

theorem optionalInitializerVisits_relocate (span : Span) (initializer : Option LoopInitializer) :
    ((initializer.map (LoopInitializer.relocate place)).map
        (LoopInitializer.visits (place span))).getD []
      = ((initializer.map (LoopInitializer.visits span)).getD []).map (Visit.relocate place) := by
  cases initializer with
  | none => rfl
  | some initializer => exact initializer.visits_relocate place span

mutual

theorem Stmt.visits_relocate (position : Position) : ∀ s : Stmt,
    (s.relocate place).visits position = (s.visits position).map (Visit.relocate place)
  | .if span condition thenBranch elseBranch => by
    have first := visits_relocate .body thenBranch
    have second := visitsElse_relocate elseBranch
    simp [Stmt.visits, Stmt.relocate, Visit.relocate, Expr.visits_relocate, first, second]
  | .return span value => by
    simp [Stmt.visits, Stmt.relocate, Visit.relocate, optionalVisits_relocate]
  | .throw span value => by
    simp [Stmt.visits, Stmt.relocate, Visit.relocate, Expr.visits_relocate]
  | .expression span value => by
    simp [Stmt.visits, Stmt.relocate, Visit.relocate, Expr.visits_relocate]
  | .variable span declarators => by
    have each := flatMap_relocate place (Declarator.visits_relocate place) declarators
    simp only [Stmt.visits, Stmt.relocate, List.map_cons, Visit.relocate, each]
  | .while span condition body => by
    have content := visits_relocate .body body
    simp [Stmt.visits, Stmt.relocate, Visit.relocate, Expr.visits_relocate, content]
  | .forOf span initializer items body => by
    have content := visits_relocate .body body
    simp [Stmt.visits, Stmt.relocate, Visit.relocate, LoopInitializer.visits_relocate,
      Expr.visits_relocate, content]
  | .for span initializer condition step body => by
    have content := visits_relocate .body body
    simp only [Stmt.visits, Stmt.relocate, Visit.relocate, optionalInitializerVisits_relocate,
      optionalVisits_relocate, content, List.map_cons, List.map_append]
  | .block span statements => by
    have content := visitsAll_relocate statements
    cases position <;> simp [Stmt.visits, Stmt.relocate, Visit.relocate, content]
  | .bare .. | .other .. => rfl

theorem Stmt.visitsElse_relocate : ∀ s : Option Stmt,
    Stmt.visitsElse (Stmt.relocateElse place s)
      = (Stmt.visitsElse s).map (Visit.relocate place)
  | none => rfl
  | some s => by
    have content := visits_relocate .body s
    simp [Stmt.relocateElse, Stmt.visitsElse, content]

theorem Stmt.visitsAll_relocate : ∀ ss : List Stmt,
    Stmt.visitsAll (Stmt.relocateAll place ss)
      = (Stmt.visitsAll ss).map (Visit.relocate place)
  | [] => rfl
  | s :: ss => by
    have first := visits_relocate .entry s
    have rest := visitsAll_relocate ss
    simp [Stmt.relocateAll, Stmt.visitsAll, first, rest]

end

theorem bodyVisits_relocate (owner : Owner) (span : Span) (body : Option Block) :
    bodyVisits owner (place span) (body.map (Stmt.relocateAll place))
      = (bodyVisits owner span body).map (Visit.relocate place) := by
  cases body with
  | none => rfl
  | some ss => simp [bodyVisits, Visit.relocate, Stmt.visitsAll_relocate]

theorem Parameter.visits_relocate (promoted : Bool) (className : String) (p : Parameter) :
    (p.relocate place).visits promoted className
      = (p.visits promoted className).map (Visit.relocate place) := by
  simp [Parameter.visits, Parameter.relocate, Ident.relocate, Visit.relocate,
    typeVisits_relocate]

/-- Instance properties have their initializers at the same spans. -/
theorem Property.visits_relocate (className : String) (p : Property)
    (own : p.modifiers.isStatic = false) :
    (p.relocate place).visits className = (p.visits className).map (Visit.relocate place) := by
  have initializer : (((p.relocate place).initializer.map fun e => [Visit.initializer e.span]).getD [])
      = (((p.initializer.map fun e => [Visit.initializer e.span]).getD [])).map
          (Visit.relocate place) := by
    cases given : p.initializer <;>
      simp [Property.relocate, Property.relocateInitializer, given, own, Visit.relocate]
  rw [Property.visits, Property.visits, initializer]
  simp [Property.relocate, Ident.relocate, Visit.relocate, typeVisits_relocate]

theorem Method.visits_relocate (className : String) (m : Method) :
    (m.relocate place).visits className = (m.visits className).map (Visit.relocate place) := by
  have parameters := flatMap_relocate place (Parameter.visits_relocate place false className)
    m.parameters
  simp [Method.visits, Method.relocate, Ident.relocate, Visit.relocate, typeVisits_relocate,
    bodyVisits_relocate, parameters]

theorem Constructor.visits_relocate (className : String) (k : Constructor) :
    (k.relocate place).visits className = (k.visits className).map (Visit.relocate place) := by
  have filtered : (k.relocate place).parameters.filter Parameter.isPromoted
      = (k.parameters.filter Parameter.isPromoted).map (Parameter.relocate place) :=
    List.filter_map
  have promoted := flatMap_relocate place (Parameter.visits_relocate place true className)
    (k.parameters.filter Parameter.isPromoted)
  have parameters := flatMap_relocate place (Parameter.visits_relocate place false className)
    k.parameters
  rw [Constructor.visits, Constructor.visits, filtered, promoted]
  simp [Constructor.relocate, bodyVisits_relocate, parameters]

theorem memberVisits_relocate (declared className : String) (hasConstructor : Bool)
    (ms : List ClassMember) :
    memberVisits declared className hasConstructor (ms.map (ClassMember.relocate place))
      = (memberVisits declared className hasConstructor ms).map (Visit.relocate place) := by
  induction ms generalizing hasConstructor with
  | nil => rfl
  | cons m ms ih =>
    cases m with
    | property p =>
      have modifiers : (p.relocate place).modifiers = p.modifiers := rfl
      cases static : p.modifiers.isStatic <;>
        simp [ClassMember.relocate, memberVisits, modifiers, static, Property.visits_relocate, ih]
    | method m =>
      have modifiers : (m.relocate place).modifiers = m.modifiers := rfl
      cases static : m.modifiers.isStatic <;>
        simp [ClassMember.relocate, memberVisits, modifiers, static, Method.visits_relocate, ih]
    | constructor k =>
      have span : (k.relocate place).span = place k.span := rfl
      cases hasConstructor <;>
        simp [ClassMember.relocate, memberVisits, span, Visit.relocate,
          Constructor.visits_relocate, ih]
    | other construct span => exact ih hasConstructor

theorem Item.visits_relocate (i : Item) :
    (i.relocate place).visits = i.visits.map (Visit.relocate place) := by
  cases i with
  | enumDecl e =>
    simp [Item.relocate, Item.visits, Enum.visits, Enum.relocate, EnumMember.relocate,
      Ident.relocate, Visit.relocate, Function.comp_def]
  | classDecl c =>
    simp [Item.relocate, Item.visits, Class.visits, Class.relocate, Ident.relocate,
      Visit.relocate, memberVisits_relocate]
  | other => rfl

theorem File.visits_relocate (id : FileId) (path : String) (f : File) :
    (f.relocate place id path).visits = f.visits.map (Visit.relocate place) :=
  flatMap_relocate place (Item.visits_relocate place) f.items

end

section

variable (place : Span → Span)

mutual

theorem Expr.translation_relocate : ∀ e : Expr,
    (e.relocate place).translation = e.translation
  | .call span callee arguments => by
    have method := translation_relocate callee
    have slots := translationAll_relocate arguments
    simp [Expr.relocate, Expr.translation, method, slots]
  | .binary span left operator right => by
    have first := translation_relocate left
    have second := translation_relocate right
    simp [Expr.relocate, Expr.translation, first, second]
  | .member span target name => by
    have object := translation_relocate target
    simp [Expr.relocate, Expr.translation, Ident.relocate, object]
  | .element span target index => by
    have object := translation_relocate target
    have property := translation_relocate index
    simp [Expr.relocate, Expr.translation, object, property]
  | .new span type arguments => by
    have slots := translationAll_relocate arguments
    simp [Expr.relocate, Expr.translation, slots]
  | .conditional span condition whenTrue whenFalse => by
    have first := translation_relocate condition
    have second := translation_relocate whenTrue
    have third := translation_relocate whenFalse
    simp [Expr.relocate, Expr.translation, first, second, third]
  | .parenthesized span inner => by
    have content := translation_relocate inner
    simp [Expr.relocate, Expr.translation, content]
  | .unary span side operator operand => by
    have content := translation_relocate operand
    simp [Expr.relocate, Expr.translation, content]
  | .array span elements => by
    have slots := translationAll_relocate elements
    simp [Expr.relocate, Expr.translation, slots]
  | .identifier .. | .literal .. | .self .. | .wrapped .. | .bare .. | .other .. => rfl

theorem Expr.translationAll_relocate : ∀ es : List Expr,
    Expr.translationAll (Expr.relocateAll place es) = Expr.translationAll es
  | [] => rfl
  | e :: es => by
    have first := translation_relocate e
    have rest := translationAll_relocate es
    simp [Expr.relocateAll, Expr.translationAll, first, rest]

end

theorem optionalTranslation_relocate (e : Option Expr) :
    optionalTranslation (e.map (Expr.relocate place)) = optionalTranslation e := by
  cases e with
  | none => rfl
  | some e => exact e.translation_relocate place

theorem Declarator.translation_relocate (d : Declarator) :
    (d.relocate place).translation = d.translation := by
  simp [Declarator.relocate, Declarator.translation, Ident.relocate,
    optionalTranslation_relocate]

theorem LoopInitializer.translation_relocate (initializer : LoopInitializer) :
    (initializer.relocate place).translation = initializer.translation := by
  match initializer with
  | .declarators [] => rfl
  | .declarators (d :: ds) => exact congrArg some (d.translation_relocate place)
  | .expression e => cases e <;> rfl

theorem optionalInitializer_relocate (initializer : Option LoopInitializer) :
    (initializer.map (LoopInitializer.relocate place)).bind LoopInitializer.translation
      = initializer.bind LoopInitializer.translation := by
  cases initializer with
  | none => rfl
  | some initializer => exact initializer.translation_relocate place

mutual

theorem Stmt.translation_relocate (position : Position) : ∀ s : Stmt,
    (s.relocate place).translation position = s.translation position
  | .if span condition thenBranch elseBranch => by
    have first := translation_relocate .body thenBranch
    have second := translationElse_relocate elseBranch
    simp [Stmt.relocate, Stmt.translation, Expr.translation_relocate, first, second]
  | .return span value => by
    simp [Stmt.relocate, Stmt.translation, optionalTranslation_relocate]
  | .throw span value => by simp [Stmt.relocate, Stmt.translation, Expr.translation_relocate]
  | .expression span value => by
    simp [Stmt.relocate, Stmt.translation, Expr.translation_relocate]
  | .variable span declarators => by
    simp [Stmt.relocate, Stmt.translation, Declarator.translation_relocate]
  | .while span condition body => by
    have content := translation_relocate .body body
    simp [Stmt.relocate, Stmt.translation, Expr.translation_relocate, content]
  | .forOf span initializer items body => by
    have content := translation_relocate .body body
    simp [Stmt.relocate, Stmt.translation, LoopInitializer.translation_relocate,
      Expr.translation_relocate, content]
  | .for span initializer condition step body => by
    have content := translation_relocate .body body
    simp only [Stmt.relocate, Stmt.translation, optionalInitializer_relocate,
      optionalTranslation_relocate, content]
  | .block span statements => by
    have content := translationAll_relocate statements
    cases position <;> simp [Stmt.relocate, Stmt.translation, content]
  | .bare .. | .other .. => rfl

theorem Stmt.translationElse_relocate : ∀ s : Option Stmt,
    Stmt.translationElse (Stmt.relocateElse place s) = Stmt.translationElse s
  | none => rfl
  | some s => by
    have content := translation_relocate .body s
    simp [Stmt.relocateElse, Stmt.translationElse, content]

theorem Stmt.translationAll_relocate : ∀ ss : List Stmt,
    Stmt.translationAll (Stmt.relocateAll place ss) = Stmt.translationAll ss
  | [] => rfl
  | s :: ss => by
    have first := translation_relocate .entry s
    have rest := translationAll_relocate ss
    simp [Stmt.relocateAll, Stmt.translationAll, first, rest]

end

theorem bodyTranslation_relocate (body : Option Block) :
    bodyTranslation (body.map (Stmt.relocateAll place)) = bodyTranslation body := by
  cases body with
  | none => rfl
  | some ss => exact Stmt.translationAll_relocate place ss

theorem parameters_relocate (ps : List Parameter) :
    (ps.map (Parameter.relocate place)).map Parameter.translation
      = ps.map Parameter.translation := by
  simp [Parameter.relocate, Parameter.translation, Ident.relocate, Function.comp_def]

theorem Method.translation_relocate (m : Method) :
    (m.relocate place).translation = m.translation := by
  simp only [Method.relocate, Method.translation, parameters_relocate, bodyTranslation_relocate]

theorem Constructor.translation_relocate (k : Constructor) :
    (k.relocate place).translation = k.translation := by
  simp only [Constructor.relocate, Constructor.translation, parameters_relocate,
    bodyTranslation_relocate]

theorem promotedTranslation_relocate (fields : OrderedMap Schema.Field) (ps : List Parameter) :
    promotedTranslation fields (ps.map (Parameter.relocate place))
      = promotedTranslation fields ps := by
  have filtered : (ps.map (Parameter.relocate place)).filter Parameter.isPromoted
      = (ps.filter Parameter.isPromoted).map (Parameter.relocate place) := List.filter_map
  rw [promotedTranslation, filtered, List.foldl_map]
  rfl

variable (id : FileId) (path : String) (f : File)

/-- The initializer of an instance property selects the same text. -/
theorem Property.translation_relocate (p : Property) (own : p.modifiers.isStatic = false) :
    (p.relocate place).translation (f.relocate place id path) = p.translation f := by
  have text (span : Span) : (f.relocate place id path).textAt? span = f.textAt? span := rfl
  cases given : p.initializer <;>
    simp [Property.relocate, Property.relocateInitializer, Property.translation, given, own, text]

theorem memberTranslation_relocate (c : Schema.Class) (m : ClassMember) :
    memberTranslation (f.relocate place id path) c (m.relocate place)
      = memberTranslation f c m := by
  cases m with
  | property p =>
    have modifiers : (p.relocate place).modifiers = p.modifiers := rfl
    have name : (p.relocate place).name.text = p.name.text := rfl
    cases static : p.modifiers.isStatic <;>
      simp [ClassMember.relocate, memberTranslation, modifiers, name, static,
        Property.translation_relocate]
  | method m =>
    have modifiers : (m.relocate place).modifiers = m.modifiers := rfl
    have name : (m.relocate place).name.text = m.name.text := rfl
    simp only [ClassMember.relocate, memberTranslation, modifiers, name,
      Method.translation_relocate]
  | constructor k =>
    have fields := promotedTranslation_relocate place c.fields k.parameters
    cases first : c.constructor with
    | some _ => simp only [ClassMember.relocate, memberTranslation, first]
    | none =>
      simp only [ClassMember.relocate, memberTranslation, first, Constructor.translation_relocate]
      simp only [Constructor.relocate, fields]
  | other => rfl

theorem itemTranslation_relocate (s : Schema.File) (i : Item) :
    itemTranslation (f.relocate place id path) s (i.relocate place) = itemTranslation f s i := by
  cases i with
  | enumDecl e =>
    simp [Item.relocate, itemTranslation, Enum.translation, Enum.relocate, EnumMember.relocate,
      Ident.relocate, Function.comp_def]
  | classDecl c =>
    have members : (c.relocate place).translation (f.relocate place id path)
        = c.translation f := by
      simp only [Class.translation, Class.relocate, List.foldl_map, memberTranslation_relocate]
    simp only [Item.relocate, itemTranslation, members]
    rfl
  | other => rfl

theorem File.translation_relocate :
    (f.relocate place id path).translation = f.translation := by
  have items : (f.relocate place id path).items = f.items.map (Item.relocate place) := rfl
  simp only [File.translation, items, List.foldl_map, itemTranslation_relocate]

end

end Tree
end NeutralSchema
