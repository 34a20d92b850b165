import NeutralSchema.Proofs.Lowering.Steps
import NeutralSchema.Proofs.Lowering.Translation
import NeutralSchema.Proofs.Tree.Edit

/-!
# Lowering an edited tree

An edit that keeps the translation of every name and type keeps the translation of the whole tree,
and its visits stand where those of the tree stand. How they compare is said once for each kind of
place. Main statements: `File.translation_edit` and `File.visits_edit`.
-/
namespace NeutralSchema.Tree

/-- What an edit has to keep, so that the translation of a file stays what it is. -/
structure Edit.Invisible (E : Edit) (f : File) : Prop where
  name (n : String) : Name.normalize (E.name n) = Name.normalize n
  type (t : ResolvedType) : (E.type t).translation = t.translation
  initializer {span : Span} (removed : E.keeps span = false) : f.textAt? span = none

/-- A relation between visits of a tree and of the edited tree that is put together from single
places. -/
structure Edit.Relates (E : Edit) (R : List Visit → List Visit → Prop) : Prop where
  nil : R [] []
  append {vs ws vs' ws' : List Visit} (first : R vs ws) (rest : R vs' ws') :
    R (vs ++ vs') (ws ++ ws')
  name (promoted : Bool) (text : String) (span : Span) :
    R [.name promoted text span] [.name promoted (E.name text) span]
  type (promoted : Bool) (owner : Owner) (span : Span) (type : Option ResolvedType) :
    R (typeVisits promoted owner span type) (typeVisits promoted owner span (E.declared type))
  body (owner : Owner) (span : Span) (body : Option Block) :
    R [.body owner span body] [.body owner span (E.body body)]
  initializer {span : Span} (kept : E.keeps span = true) : R [.initializer span] [.initializer span]
  removedInitializer {span : Span} (removed : E.keeps span = false) : R [.initializer span] []
  expression (e : Expr) : R [.expression e] [.expression (e.edit E)]
  statement (position : Position) (s : Stmt) :
    R [.statement position s] [.statement position (s.edit E)]
  loopInitializer (span : Span) (initializer : LoopInitializer) :
    R [.loopInitializer span initializer] [.loopInitializer span (initializer.edit E)]
  laterConstructor (className : String) (span : Span) :
    R [.laterConstructor className span] [.laterConstructor (E.name className) span]

section

variable {E : Edit} {f : File}

theorem typeTranslation_edit (keeps : E.Invisible f) (type : Option ResolvedType) :
    typeTranslation (E.declared type) = typeTranslation type := by
  cases type with
  | some t => exact keeps.type t
  | none =>
    rw [Edit.declared]
    cases E.fills <;> rfl

mutual

theorem Expr.translation_edit (keeps : E.Invisible f) : ∀ e : Expr,
    (e.edit E).translation = e.translation
  | .call span callee arguments => by
    have method := translation_edit keeps callee
    have slots := translationAll_edit keeps arguments
    simp [Expr.edit, Expr.translation, method, slots]
  | .binary span left operator right => by
    have first := translation_edit keeps left
    have second := translation_edit keeps right
    simp [Expr.edit, Expr.translation, first, second]
  | .member span target name => by
    have object := translation_edit keeps target
    simp [Expr.edit, Expr.translation, object, Edit.ident, keeps.name]
  | .element span target index => by
    have object := translation_edit keeps target
    have property := translation_edit keeps index
    simp [Expr.edit, Expr.translation, object, property]
  | .identifier span name => by simp [Expr.edit, Expr.translation, keeps.name]
  | .new span type arguments => by
    have slots := translationAll_edit keeps arguments
    simp [Expr.edit, Expr.translation, typeTranslation_edit keeps, slots]
  | .conditional span condition whenTrue whenFalse => by
    have first := translation_edit keeps condition
    have second := translation_edit keeps whenTrue
    have third := translation_edit keeps whenFalse
    simp [Expr.edit, Expr.translation, first, second, third]
  | .parenthesized span inner => by
    have content := translation_edit keeps inner
    simp [Expr.edit, Expr.translation, content]
  | .unary span side operator operand => by
    have content := translation_edit keeps operand
    simp [Expr.edit, Expr.translation, content]
  | .array span elements => by
    have slots := translationAll_edit keeps elements
    simp [Expr.edit, Expr.translation, slots]
  | .literal .. | .self .. | .wrapped .. | .bare .. | .other .. => rfl

theorem Expr.translationAll_edit (keeps : E.Invisible f) : ∀ es : List Expr,
    Expr.translationAll (Expr.editAll E es) = Expr.translationAll es
  | [] => rfl
  | e :: es => by
    have first := translation_edit keeps e
    have rest := translationAll_edit keeps es
    simp [Expr.editAll, Expr.translationAll, first, rest]

end

theorem optionalTranslation_edit (keeps : E.Invisible f) (e : Option Expr) :
    optionalTranslation (e.map (Expr.edit E)) = optionalTranslation e := by
  cases e with
  | none => rfl
  | some e => exact e.translation_edit keeps

theorem Declarator.translation_edit (keeps : E.Invisible f) (d : Declarator) :
    (d.edit E).translation = d.translation := by
  simp [Declarator.edit, Declarator.translation, Edit.ident, keeps.name,
    optionalTranslation_edit keeps]

theorem LoopInitializer.translation_edit (keeps : E.Invisible f) (initializer : LoopInitializer) :
    (initializer.edit E).translation = initializer.translation := by
  match initializer with
  | .declarators [] => rfl
  | .declarators (d :: ds) => exact congrArg some (d.translation_edit keeps)
  | .expression e =>
    cases e with
    | identifier span name =>
      simp [LoopInitializer.edit, Expr.edit, LoopInitializer.translation, keeps.name]
    | _ => rfl

theorem optionalInitializer_edit (keeps : E.Invisible f) (initializer : Option LoopInitializer) :
    (initializer.map (LoopInitializer.edit E)).bind LoopInitializer.translation
      = initializer.bind LoopInitializer.translation := by
  cases initializer with
  | none => rfl
  | some initializer => exact initializer.translation_edit keeps

mutual

theorem Stmt.translation_edit (keeps : E.Invisible f) (position : Position) : ∀ s : Stmt,
    (s.edit E).translation position = s.translation position
  | .if span condition thenBranch elseBranch => by
    have first := translation_edit keeps .body thenBranch
    have second := translationElse_edit keeps elseBranch
    simp [Stmt.edit, Stmt.translation, Expr.translation_edit keeps, first, second]
  | .return span value => by
    simp [Stmt.edit, Stmt.translation, optionalTranslation_edit keeps]
  | .throw span value => by simp [Stmt.edit, Stmt.translation, Expr.translation_edit keeps]
  | .expression span value => by simp [Stmt.edit, Stmt.translation, Expr.translation_edit keeps]
  | .variable span declarators => by
    simp [Stmt.edit, Stmt.translation, Declarator.translation_edit keeps]
  | .while span condition body => by
    have content := translation_edit keeps .body body
    simp [Stmt.edit, Stmt.translation, Expr.translation_edit keeps, content]
  | .forOf span initializer items body => by
    have content := translation_edit keeps .body body
    simp [Stmt.edit, Stmt.translation, LoopInitializer.translation_edit keeps,
      Expr.translation_edit keeps, content]
  | .for span initializer condition step body => by
    have content := translation_edit keeps .body body
    simp only [Stmt.edit, Stmt.translation, optionalInitializer_edit keeps,
      optionalTranslation_edit keeps, content]
  | .block span statements => by
    have content := translationAll_edit keeps statements
    cases position <;> simp [Stmt.edit, Stmt.translation, content]
  | .bare .. | .other .. => rfl

theorem Stmt.translationElse_edit (keeps : E.Invisible f) : ∀ s : Option Stmt,
    Stmt.translationElse (Stmt.editElse E s) = Stmt.translationElse s
  | none => rfl
  | some s => by
    have content := translation_edit keeps .body s
    simp [Stmt.editElse, Stmt.translationElse, content]

theorem Stmt.translationAll_edit (keeps : E.Invisible f) : ∀ ss : List Stmt,
    Stmt.translationAll (Stmt.editAll E ss) = Stmt.translationAll ss
  | [] => rfl
  | s :: ss => by
    have first := translation_edit keeps .entry s
    have rest := translationAll_edit keeps ss
    simp [Stmt.editAll, Stmt.translationAll, first, rest]

end

theorem bodyTranslation_edit (keeps : E.Invisible f) (body : Option Block) :
    bodyTranslation (E.body body) = bodyTranslation body := by
  cases body with
  | some ss => exact Stmt.translationAll_edit keeps ss
  | none =>
    rw [Edit.body]
    cases E.fills <;> rfl

theorem Parameter.translation_edit (keeps : E.Invisible f) (p : Parameter) :
    (p.edit E).translation = p.translation := by
  simp [Parameter.edit, Parameter.translation, Edit.ident, keeps.name, typeTranslation_edit keeps]

theorem parameters_edit (keeps : E.Invisible f) (ps : List Parameter) :
    (ps.map (Parameter.edit E)).map Parameter.translation = ps.map Parameter.translation := by
  rw [List.map_map]
  exact List.map_congr_left fun p _ => p.translation_edit keeps

theorem Property.translation_edit (keeps : E.Invisible f) (p : Property) :
    (p.edit E).translation f = p.translation f := by
  have text : (p.edit E).initializer.bind (fun e => f.textAt? e.span)
      = p.initializer.bind fun e => f.textAt? e.span := by
    cases given : p.initializer with
    | none => simp [Property.edit, given]
    | some e =>
      cases kept : E.keeps e.span with
      | true => simp [Property.edit, given, Option.filter, kept]
      | false => simp [Property.edit, given, Option.filter, kept, keeps.initializer kept]
  rw [Property.translation, text]
  simp [Property.translation, Property.edit, typeTranslation_edit keeps]

theorem Method.translation_edit (keeps : E.Invisible f) (m : Method) :
    (m.edit E).translation = m.translation := by
  simp only [Method.edit, Method.translation, parameters_edit keeps, typeTranslation_edit keeps,
    bodyTranslation_edit keeps]

theorem Constructor.translation_edit (keeps : E.Invisible f) (k : Constructor) :
    (k.edit E).translation = k.translation := by
  simp only [Constructor.edit, Constructor.translation, parameters_edit keeps,
    bodyTranslation_edit keeps]

theorem promotedTranslation_edit (keeps : E.Invisible f) (fields : OrderedMap Schema.Field)
    (ps : List Parameter) :
    promotedTranslation fields (ps.map (Parameter.edit E)) = promotedTranslation fields ps := by
  have promoted : Parameter.isPromoted ∘ Parameter.edit E = Parameter.isPromoted := rfl
  have field (p : Parameter) : (p.edit E).fieldTranslation = p.fieldTranslation := by
    simp [Parameter.edit, Parameter.fieldTranslation, typeTranslation_edit keeps]
  have key (p : Parameter) :
      Name.normalize (p.edit E).name.text = Name.normalize p.name.text := keeps.name p.name.text
  simp only [promotedTranslation, List.filter_map, promoted, List.foldl_map, field, key]

theorem memberTranslation_edit (keeps : E.Invisible f) (c : Schema.Class) (m : ClassMember) :
    memberTranslation f c (m.edit E) = memberTranslation f c m := by
  cases m with
  | property p =>
    have key : Name.normalize (p.edit E).name.text = Name.normalize p.name.text :=
      keeps.name p.name.text
    have static : (p.edit E).modifiers = p.modifiers := rfl
    simp only [ClassMember.edit, memberTranslation, static, key, p.translation_edit keeps]
  | method m =>
    have key : Name.normalize (m.edit E).name.text = Name.normalize m.name.text :=
      keeps.name m.name.text
    have static : (m.edit E).modifiers = m.modifiers := rfl
    simp only [ClassMember.edit, memberTranslation, static, key, m.translation_edit keeps]
  | constructor k =>
    have parameters : (k.edit E).parameters = k.parameters.map (Parameter.edit E) := rfl
    simp only [ClassMember.edit, memberTranslation, parameters, promotedTranslation_edit keeps,
      k.translation_edit keeps]
  | other => rfl

theorem Class.translation_edit (keeps : E.Invisible f) (c : Class) :
    (c.edit E).translation f = c.translation f := by
  simp only [Class.edit, Class.translation, List.foldl_map, memberTranslation_edit keeps]

theorem Enum.translation_edit (keeps : E.Invisible f) (e : Enum) :
    (e.edit E).translation = e.translation := by
  simp [Enum.edit, Enum.translation, EnumMember.edit, Edit.ident, keeps.name]

theorem itemTranslation_edit (keeps : E.Invisible f) (s : Schema.File) (i : Item) :
    itemTranslation f s (i.edit E) = itemTranslation f s i := by
  cases i with
  | enumDecl e =>
    have key : Name.normalize (e.edit E).name.text = Name.normalize e.name.text :=
      keeps.name e.name.text
    simp only [Item.edit, itemTranslation, key, e.translation_edit keeps]
  | classDecl c =>
    have key : Name.normalize (c.edit E).name.text = Name.normalize c.name.text :=
      keeps.name c.name.text
    simp only [Item.edit, itemTranslation, key, c.translation_edit keeps]
  | other => rfl

/-- The translation of a file takes no notice of an edit that keeps those of names and types. -/
theorem File.translation_edit (keeps : E.Invisible f) : (f.edit E).translation = f.translation := by
  -- Of the file itself the translation looks at the text alone.
  have items : (f.edit E).translation
      = (f.items.map (Item.edit E)).foldl (itemTranslation f) .empty := rfl
  rw [items, List.foldl_map, File.translation]
  simp only [itemTranslation_edit keeps]

end

section

variable {E : Edit} {R : List Visit → List Visit → Prop} (related : E.Relates R)

theorem Edit.Relates.cons (related : E.Relates R) {v w : Visit} {vs ws : List Visit}
    (first : R [v] [w]) (rest : R vs ws) : R (v :: vs) (w :: ws) :=
  related.append first rest

mutual

theorem Expr.visits_edit (related : E.Relates R) : ∀ e : Expr, R e.visits (e.edit E).visits
  | .call span callee arguments => by
    have method := visits_edit related callee
    have slots := visitsAll_edit related arguments
    exact related.cons (related.expression _) (related.append method slots)
  | .binary span left operator right => by
    have first := visits_edit related left
    have second := visits_edit related right
    exact related.cons (related.expression _) (related.append first second)
  | .member span target name => by
    have object := visits_edit related target
    exact related.cons (related.expression _) (related.append object (related.name ..))
  | .element span target index => by
    have object := visits_edit related target
    have property := visits_edit related index
    exact related.cons (related.expression _) (related.append object property)
  | .identifier span name => related.cons (related.expression _) (related.name ..)
  | .new span type arguments => by
    have slots := visitsAll_edit related arguments
    exact related.cons (related.expression _) (related.append (related.type ..) slots)
  | .conditional span condition whenTrue whenFalse => by
    have first := visits_edit related condition
    have second := visits_edit related whenTrue
    have third := visits_edit related whenFalse
    exact related.cons (related.expression _)
      (related.append first (related.append second third))
  | .parenthesized span inner =>
    related.cons (related.expression _) (visits_edit related inner)
  | .unary span side operator operand =>
    related.cons (related.expression _) (visits_edit related operand)
  | .array span elements =>
    related.cons (related.expression _) (visitsAll_edit related elements)
  | .literal .. | .self .. | .wrapped .. | .bare .. | .other .. => related.expression _

theorem Expr.visitsAll_edit (related : E.Relates R) : ∀ es : List Expr,
    R (Expr.visitsAll es) (Expr.visitsAll (Expr.editAll E es))
  | [] => related.nil
  | e :: es => related.append (visits_edit related e) (visitsAll_edit related es)

end

include related

theorem optionalVisits_edit (e : Option Expr) :
    R (optionalVisits e) (optionalVisits (e.map (Expr.edit E))) := by
  cases e with
  | none => exact related.nil
  | some e => exact e.visits_edit related

theorem Declarator.visits_edit (d : Declarator) : R d.visits (d.edit E).visits :=
  related.cons (related.name ..) (optionalVisits_edit related d.initializer)

/-- The visits of parts in order. -/
theorem flatMap_edit {α : Type} {visits visits' : α → List Visit} {edit : α → α}
    (each : ∀ a, R (visits a) (visits' (edit a))) (as : List α) :
    R (as.flatMap visits) ((as.map edit).flatMap visits') := by
  induction as with
  | nil => exact related.nil
  | cons a as ih =>
    rw [List.map_cons, List.flatMap_cons, List.flatMap_cons]
    exact related.append (each a) ih

theorem LoopInitializer.visits_edit (span : Span) (initializer : LoopInitializer) :
    R (initializer.visits span) ((initializer.edit E).visits span) := by
  have itself := related.loopInitializer span initializer
  match initializer with
  | .declarators [] => exact itself
  | .declarators (d :: ds) => exact related.cons itself (d.visits_edit related)
  | .expression e =>
    cases e with
    | identifier own name => exact related.cons itself (related.name ..)
    | _ => exact itself

theorem optionalInitializerVisits_edit (span : Span) (initializer : Option LoopInitializer) :
    R ((initializer.map (LoopInitializer.visits span)).getD [])
      (((initializer.map (LoopInitializer.edit E)).map (LoopInitializer.visits span)).getD []) := by
  cases initializer with
  | none => exact related.nil
  | some initializer => exact initializer.visits_edit related span

omit related

mutual

theorem Stmt.visits_edit (related : E.Relates R) (position : Position) : ∀ s : Stmt,
    R (s.visits position) ((s.edit E).visits position)
  | .if span condition thenBranch elseBranch => by
    have first := condition.visits_edit related
    have second := visits_edit related .body thenBranch
    have third := visitsElse_edit related elseBranch
    exact related.cons (related.statement ..)
      (related.append first (related.append second third))
  | .return span value =>
    related.cons (related.statement ..) (optionalVisits_edit related value)
  | .throw span value | .expression span value =>
    related.cons (related.statement ..) (value.visits_edit related)
  | .variable span declarators =>
    related.cons (related.statement ..)
      (flatMap_edit related (Declarator.visits_edit related) declarators)
  | .while span condition body => by
    have first := condition.visits_edit related
    have content := visits_edit related .body body
    exact related.cons (related.statement ..) (related.append first content)
  | .forOf span initializer items body => by
    have item := initializer.visits_edit related span
    have collection := items.visits_edit related
    have content := visits_edit related .body body
    exact related.cons (related.statement ..)
      (related.append item (related.append collection content))
  | .for span initializer condition step body => by
    have item := optionalInitializerVisits_edit related span initializer
    have second := optionalVisits_edit related condition
    have third := optionalVisits_edit related step
    have content := visits_edit related .body body
    exact related.cons (related.statement ..)
      (related.append item (related.append second (related.append third content)))
  | .block span statements => by
    have content := visitsAll_edit related statements
    cases position with
    | entry => exact related.statement ..
    | body => exact related.cons (related.statement ..) content
  | .bare .. | .other .. => related.statement ..

theorem Stmt.visitsElse_edit (related : E.Relates R) : ∀ s : Option Stmt,
    R (Stmt.visitsElse s) (Stmt.visitsElse (Stmt.editElse E s))
  | none => related.nil
  | some s => visits_edit related .body s

theorem Stmt.visitsAll_edit (related : E.Relates R) : ∀ ss : List Stmt,
    R (Stmt.visitsAll ss) (Stmt.visitsAll (Stmt.editAll E ss))
  | [] => related.nil
  | s :: ss => related.append (visits_edit related .entry s) (visitsAll_edit related ss)

end

include related

theorem bodyVisits_edit (owner : Owner) (span : Span) (body : Option Block) :
    R (bodyVisits owner span body) (bodyVisits owner span (E.body body)) := by
  refine related.cons (related.body owner span body) ?_
  cases body with
  | some ss => exact Stmt.visitsAll_edit related ss
  | none =>
    rw [Edit.body]
    cases E.fills <;> exact related.nil

-- What owns a type or a body is called by normalized names.
variable (name : ∀ n, Name.normalize (E.name n) = Name.normalize n)

include name

theorem Parameter.visits_edit (promoted : Bool) (className : String) (p : Parameter) :
    R (p.visits promoted className) ((p.edit E).visits promoted className) := by
  have owner : Name.normalize (p.edit E).name.text = Name.normalize p.name.text := name p.name.text
  rw [Parameter.visits, Parameter.visits, owner]
  exact related.cons (related.name ..) (related.type ..)

theorem parametersVisits_edit (className : String) (ps : List Parameter) :
    R (ps.flatMap (Parameter.visits false className))
      ((ps.map (Parameter.edit E)).flatMap (Parameter.visits false className)) :=
  flatMap_edit related (Parameter.visits_edit related name false className) ps

theorem Property.visits_edit (className : String) (p : Property) :
    R (p.visits className) ((p.edit E).visits className) := by
  have owner : Name.normalize (p.edit E).name.text = Name.normalize p.name.text := name p.name.text
  have initializer : R ((p.initializer.map fun e => [Visit.initializer e.span]).getD [])
      (((p.edit E).initializer.map fun e => [Visit.initializer e.span]).getD []) := by
    cases given : p.initializer with
    | none => simpa [Property.edit, given] using related.nil
    | some e =>
      cases kept : E.keeps e.span with
      | true =>
        simpa [Property.edit, given, Option.filter, kept] using related.initializer kept
      | false =>
        simpa [Property.edit, given, Option.filter, kept] using related.removedInitializer kept
  rw [Property.visits, Property.visits, owner]
  exact related.cons (related.name ..) (related.append (related.type ..) initializer)

theorem Method.visits_edit (className : String) (m : Method) :
    R (m.visits className) ((m.edit E).visits className) := by
  have owner : Name.normalize (m.edit E).name.text = Name.normalize m.name.text := name m.name.text
  have parameters := parametersVisits_edit related name className m.parameters
  rw [Method.visits, Method.visits, owner]
  exact related.cons (related.name ..) (related.append (related.type ..)
    (related.append parameters (bodyVisits_edit related ..)))

theorem Constructor.visits_edit (className : String) (k : Constructor) :
    R (k.visits className) ((k.edit E).visits className) := by
  have filtered : (k.edit E).parameters.filter Parameter.isPromoted
      = (k.parameters.filter Parameter.isPromoted).map (Parameter.edit E) := List.filter_map
  have promoted := flatMap_edit related (Parameter.visits_edit related name true className)
    (k.parameters.filter Parameter.isPromoted)
  have parameters := parametersVisits_edit related name className k.parameters
  rw [Constructor.visits, Constructor.visits, filtered]
  exact related.append promoted
    (related.append parameters (bodyVisits_edit related ..))

theorem memberVisits_edit (declared className : String) (hasConstructor : Bool)
    (ms : List ClassMember) :
    R (memberVisits declared className hasConstructor ms)
      (memberVisits (E.name declared) className hasConstructor (ms.map (ClassMember.edit E))) := by
  induction ms generalizing hasConstructor with
  | nil => exact related.nil
  | cons m ms ih =>
    cases m with
    | property p =>
      have static : (p.edit E).modifiers = p.modifiers := rfl
      simp only [List.map_cons, ClassMember.edit, memberVisits, static]
      refine related.append ?_ (ih hasConstructor)
      split
      · exact related.nil
      · exact p.visits_edit related name className
    | method m =>
      have static : (m.edit E).modifiers = m.modifiers := rfl
      simp only [List.map_cons, ClassMember.edit, memberVisits, static]
      refine related.append ?_ (ih hasConstructor)
      split
      · exact related.nil
      · exact m.visits_edit related name className
    | constructor k =>
      simp only [List.map_cons, ClassMember.edit, memberVisits]
      refine related.append ?_ (ih true)
      split
      · exact related.laterConstructor declared k.span
      · exact k.visits_edit related name className
    | other => exact ih hasConstructor

theorem Class.visits_edit (c : Class) : R c.visits (c.edit E).visits := by
  have members := memberVisits_edit related name c.name.text (Name.normalize c.name.text) false
    c.members
  have className : Name.normalize (c.edit E).name.text = Name.normalize c.name.text :=
    name c.name.text
  rw [Class.visits, Class.visits, className]
  exact related.cons (related.name ..) members

theorem Item.visits_edit (i : Item) : R i.visits (i.edit E).visits := by
  cases i with
  | enumDecl e =>
    have members : R (e.members.map fun m => .name false m.name.text m.name.span)
        ((e.members.map (EnumMember.edit E)).map fun m => .name false m.name.text m.name.span) := by
      induction e.members with
      | nil => exact related.nil
      | cons m ms ih => exact related.cons (related.name ..) ih
    exact related.cons (related.name ..) members
  | classDecl c => exact c.visits_edit related name
  | other => exact related.nil

/-- The visits of a file and of the edited file are related if those of each place are. -/
theorem File.visits_edit (f : File) : R f.visits (f.edit E).visits :=
  flatMap_edit related (Item.visits_edit related name) f.items

end

section

variable (E : Edit) (file : FileId)

theorem reports_expression_edit (e : Expr) :
    (Visit.expression (e.edit E)).reports file = (Visit.expression e).reports file := by
  have supported : (e.edit E).isSupported = e.isSupported := by cases e <;> rfl
  simp only [Visit.reports, supported, Expr.span_edit, Expr.description_edit]

theorem reports_statement_edit (position : Position) (s : Stmt) :
    (Visit.statement position (s.edit E)).reports file
      = (Visit.statement position s).reports file := by
  have supported : (s.edit E).isSupported position = s.isSupported position := by cases s <;> rfl
  simp only [Visit.reports, supported, Stmt.span_edit, Stmt.description_edit]

theorem reports_loopExpression_edit (span : Span) (e : Expr) :
    (Visit.loopInitializer span ((LoopInitializer.expression e).edit E)).reports file
      = (Visit.loopInitializer span (.expression e)).reports file := by
  cases e with
  | wrapped span form inner => cases form <;> rfl
  | _ => rfl

/-- Of the file itself a visit sees what an edit leaves as it is. -/
theorem violation?_edit (f : File) (v : Visit) : v.violation? (f.edit E) = v.violation? f := by
  cases v <;> rfl

theorem reportsUntilStop_edit (f : File) (vs : List Visit) :
    reportsUntilStop (f.edit E) vs = reportsUntilStop f vs := by
  simp only [reportsUntilStop, violation?_edit]
  rfl

end

end NeutralSchema.Tree
