import NeutralSchema.Proofs.Lowering.Raising

/-!
# The schemas that lowering gives

Lowering gives the well-formed schemas, and the complete ones are those that it gives without any
report: the tree that a schema is raised to holds nothing that stops lowering, and nothing to report
but its empty slots. Main statement: `lowerFile_image`.
-/
namespace NeutralSchema

open Schema

/-- No visit stops lowering, and if completeness is asked for, none reports anything. -/
structure Passes (f : Tree.File) (complete : Bool) (vs : List Visit) : Prop where
  goesOn : ∀ v ∈ vs, v.violation? f = none
  quiet : Quiet f.id complete vs

section

variable {f : Tree.File} {complete : Bool}

theorem passes_nil : Passes f complete [] :=
  ⟨fun _ mem => absurd mem List.not_mem_nil, fun _ _ mem => absurd mem List.not_mem_nil⟩

theorem Passes.cons {v : Visit} {vs : List Visit} (goesOn : v.violation? f = none)
    (silent : complete = true → v.reports f.id = []) (later : Passes f complete vs) :
    Passes f complete (v :: vs) :=
  ⟨List.forall_mem_cons.mpr ⟨goesOn, later.goesOn⟩, quiet_cons.mpr ⟨silent, later.quiet⟩⟩

/-- A visit that is reported passes where completeness is not asked for. -/
theorem passes_incomplete {v : Visit} (goesOn : v.violation? f = none)
    (incomplete : complete = false) : Passes f complete [v] :=
  passes_nil.cons goesOn fun asked => absurd (incomplete.symm.trans asked) Bool.false_ne_true

theorem Passes.append {vs ws : List Visit} (first : Passes f complete vs)
    (second : Passes f complete ws) : Passes f complete (vs ++ ws) :=
  ⟨List.forall_mem_append.mpr ⟨first.goesOn, second.goesOn⟩,
    quiet_append.mpr ⟨first.quiet, second.quiet⟩⟩

theorem Passes.flatMap {α : Type} {l : List α} {visits : α → List Visit}
    (each : ∀ a ∈ l, Passes f complete (visits a)) : Passes f complete (l.flatMap visits) := by
  induction l with
  | nil => exact passes_nil
  | cons a l ih =>
    rw [List.forall_mem_cons] at each
    rw [List.flatMap_cons]
    exact each.1.append (ih each.2)

theorem Passes.name {promoted : Bool} {text : String} {span : Span} {vs : List Visit}
    (allowed : text.toList.all Name.isAllowed) (later : Passes f complete vs) :
    Passes f complete (.name promoted text span :: vs) :=
  later.cons rfl fun _ => Name.invalidCharacters_eq_nil_iff.mpr allowed

theorem passes_names {promoted : Bool} {names : List String} {span : Span}
    (allowed : ∀ name ∈ names, name.toList.all Name.isAllowed) :
    Passes f complete (names.map (.name promoted · span)) := by
  induction names with
  | nil => exact passes_nil
  | cons name names ih =>
    rw [List.forall_mem_cons] at allowed
    exact (ih allowed.2).name allowed.1

end

namespace Schema

section

variable (f : Tree.File) {complete : Bool}

mutual

theorem all_isAllowed_classNames : ∀ t : DataType, t.isNormalized →
    ∀ name ∈ t.raise.classNames, name.toList.all Name.isAllowed
  | .int32, _ | .string, _ | .boolean, _ | .void, _ => fun _ mem => absurd mem List.not_mem_nil
  | .array arguments, normal => all_isAllowed_classNamesAll arguments normal
  | .named name arguments, normal => by
    simp only [DataType.isNormalized, Bool.and_eq_true] at normal
    have inner := all_isAllowed_classNamesAll arguments normal.2
    have other := declaredName_ne normal.1
    simp only [List.mem_cons, not_or] at other
    rw [DataType.raise, Tree.ResolvedType.generic, Tree.ResolvedType.classNames]
    split
    next h => exact absurd h other.1
    next h => exact absurd h other.2.1
    next h => exact absurd h other.2.2.1
    next h => exact absurd h other.2.2.2.1
    next h => exact absurd h other.2.2.2.2.1
    · exact List.forall_mem_cons.mpr ⟨all_isAllowed_declaredName normal.1, inner⟩

theorem all_isAllowed_classNamesAll : ∀ ts : List DataType, DataType.allNormalized ts →
    ∀ name ∈ Tree.ResolvedType.classNamesAll (DataType.raiseAll ts),
      name.toList.all Name.isAllowed
  | [], _ => fun _ mem => absurd mem List.not_mem_nil
  | t :: ts, normal => by
    simp only [DataType.allNormalized, Bool.and_eq_true] at normal
    have first := all_isAllowed_classNames t normal.1
    have rest := all_isAllowed_classNamesAll ts normal.2
    rw [DataType.raiseAll, Tree.ResolvedType.classNamesAll]
    exact List.forall_mem_append.mpr ⟨first, rest⟩

end

theorem passes_type (complete : Bool) {t : DataType} (normal : t.isNormalized) (promoted : Bool)
    (owner : Owner) (span : Span) :
    Passes f complete (Tree.typeVisits promoted owner span (some t.raise)) :=
  (passes_names (all_isAllowed_classNames t normal)).cons rfl fun _ => rfl

mutual

theorem Expression.passes : ∀ e : Expression,
    e.isWellFormed complete → Passes f complete e.raise.visits
  | .call method arguments, wf => by
    simp only [Expression.isWellFormed, Bool.and_eq_true] at wf
    have callee := passes_slot method wf.1
    have slots := passes_slots arguments wf.2
    exact (callee.append slots).cons rfl fun _ => rfl
  | .binary left right operator, wf => by
    simp only [Expression.isWellFormed, Bool.and_eq_true] at wf
    have first := passes_slot left wf.1
    have second := passes_slot right wf.2
    exact (first.append second).cons rfl fun _ => rfl
  | .access target property, wf => by
    simp only [Expression.isWellFormed, Bool.and_eq_true] at wf
    have object := passes_slot target wf.1
    have index := passes_slot property wf.2
    exact (object.append index).cons rfl fun _ => rfl
  | .identifier text, wf => by
    apply Passes.cons rfl (fun _ => rfl)
    exact passes_nil.name (Name.all_isAllowed_of_isNormalized wf)
  | .new type arguments, wf => by
    simp only [Expression.isWellFormed, Bool.and_eq_true] at wf
    have own := passes_type f complete wf.1 false .newExpression .zero
    have slots := passes_slots arguments wf.2
    exact (own.append slots).cons rfl fun _ => rfl
  | .conditional condition whenTrue whenFalse, wf => by
    simp only [Expression.isWellFormed, Bool.and_eq_true] at wf
    have first := passes_slot condition wf.1.1
    have second := passes_slot whenTrue wf.1.2
    have third := passes_slot whenFalse wf.2
    exact (first.append (second.append third)).cons rfl fun _ => rfl
  | .literal kind value, _ => passes_nil.cons rfl fun _ => rfl
  | .parenthesized inner, wf => (passes_slot inner wf).cons rfl fun _ => rfl
  | .unary side operator operand, wf => (passes_slot operand wf).cons rfl fun _ => rfl
  | .array items, wf => (passes_slots items wf).cons rfl fun _ => rfl

theorem passes_slot : ∀ slot : Option Expression,
    slotIsWellFormed complete slot → Passes f complete (raiseSlot slot).visits
  | none, wf => by
    have incomplete : complete = false := by simpa [slotIsWellFormed] using wf
    exact passes_incomplete rfl incomplete
  | some e, wf => Expression.passes e wf

theorem passes_slots : ∀ slots : List (Option Expression), slotsAreWellFormed complete slots →
    Passes f complete (Tree.Expr.visitsAll (raiseSlots slots))
  | [], _ => passes_nil
  | slot :: slots, wf => by
    simp only [slotsAreWellFormed, Bool.and_eq_true] at wf
    exact (passes_slot slot wf.1).append (passes_slots slots wf.2)

end

theorem passes_optional {e : Option Expression} (wf : optionalIsWellFormed complete e) :
    Passes f complete (Tree.optionalVisits (e.map Expression.raise)) := by
  cases e with
  | none => exact passes_nil
  | some e => exact Expression.passes f e wf

theorem Variable.passes {v : Variable} (wf : v.isWellFormed complete) :
    Passes f complete v.raise.visits := by
  simp only [Variable.isWellFormed, Bool.and_eq_true] at wf
  exact (passes_optional f wf.2).name (Name.all_isAllowed_of_isNormalized wf.1)

theorem passes_declarator (span : Span) {v : Variable} (wf : v.isWellFormed complete) :
    Passes f complete (Tree.LoopInitializer.visits span (.declarators [v.raise])) :=
  (Variable.passes f wf).cons rfl fun _ => rfl

theorem passes_declarators (span : Span) {item : Option Variable}
    (there : item.isSome || !complete) (wf : item.all (Variable.isWellFormed complete)) :
    Passes f complete
      (Tree.LoopInitializer.visits span (.declarators (item.map Variable.raise).toList)) := by
  cases item with
  | none =>
    have incomplete : complete = false := by simpa using there
    exact passes_incomplete rfl incomplete
  | some v => exact passes_declarator f span wf

theorem passes_optionalInitializer (span : Span) {item : Option Variable}
    (wf : item.all (Variable.isWellFormed complete)) :
    Passes f complete ((((item.map fun v => Tree.LoopInitializer.declarators [v.raise])).map
      (Tree.LoopInitializer.visits span)).getD []) := by
  cases item with
  | none => exact passes_nil
  | some v => exact passes_declarator f span wf

mutual

theorem Statement.passes : ∀ s : Statement,
    s.isWellFormed complete → Passes f complete (s.raise.visits .entry)
  | .if condition thenBlock elseBlock, wf => by
    simp only [Statement.isWellFormed, Bool.and_eq_true] at wf
    have value := passes_slot f condition wf.1.1
    have first := passes_body thenBlock wf.1.2
    have second := passes_else elseBlock wf.2
    exact (value.append (first.append second)).cons rfl fun _ => rfl
  | .return value, wf => (passes_optional f wf).cons rfl fun _ => rfl
  | .throw value, wf => (passes_slot f value wf).cons rfl fun _ => rfl
  | .expression value, wf => (passes_slot f value wf).cons rfl fun _ => rfl
  | .variable declared, wf => by
    have own : Passes f complete ([declared.raise].flatMap Tree.Declarator.visits) :=
      (Variable.passes f wf).append passes_nil
    exact own.cons rfl fun _ => rfl
  | .while condition body, wf => by
    simp only [Statement.isWellFormed, Bool.and_eq_true] at wf
    have value := passes_slot f condition wf.1
    have content := passes_body body wf.2
    exact (value.append content).cons rfl fun _ => rfl
  | .foreach item items body, wf => by
    simp only [Statement.isWellFormed, Bool.and_eq_true] at wf
    have clause := passes_declarators f .zero wf.1.1.1 wf.1.1.2
    have value := passes_slot f items wf.1.2
    have content := passes_body body wf.2
    exact (clause.append (value.append content)).cons rfl fun _ => rfl
  | .for item condition step body, wf => by
    simp only [Statement.isWellFormed, Bool.and_eq_true] at wf
    have clause := passes_optionalInitializer f .zero wf.1.1.1
    have test := passes_optional f wf.1.1.2
    have next := passes_optional f wf.1.2
    have content := passes_body body wf.2
    exact (clause.append (test.append (next.append content))).cons rfl fun _ => rfl

theorem passes_body : ∀ ss : List Statement, blockIsWellFormed complete ss →
    Passes f complete (Tree.Stmt.visits .body (.block .zero (raiseBlock ss)))
  | ss, wf => (passes_block ss wf).cons rfl fun _ => rfl

theorem passes_else : ∀ block : Option (List Statement), elseIsWellFormed complete block →
    Passes f complete (Tree.Stmt.visitsElse (raiseElse block))
  | none, _ => passes_nil
  | some block, wf => (passes_block block wf).cons rfl fun _ => rfl

theorem passes_block : ∀ ss : List Statement, blockIsWellFormed complete ss →
    Passes f complete (Tree.Stmt.visitsAll (raiseBlock ss))
  | [], _ => passes_nil
  | s :: ss, wf => by
    simp only [blockIsWellFormed, Bool.and_eq_true] at wf
    exact (Statement.passes s wf.1).append (passes_block ss wf.2)

end

theorem passes_parameters (complete : Bool) {ps : List Parameter}
    (wf : ps.all Parameter.isWellFormed) (className : String) : Passes f complete
      ((ps.map Parameter.raise).flatMap (Tree.Parameter.visits false className)) := by
  apply Passes.flatMap
  intro raised mem
  obtain ⟨p, given, rfl⟩ := List.mem_map.mp mem
  have own := List.all_eq_true.mp wf p given
  simp only [Parameter.isWellFormed, Bool.and_eq_true] at own
  exact (passes_type f complete own.2 false _ _).name (Name.all_isAllowed_of_isNormalized own.1)

theorem passes_statements {ss : Block} (wf : blockIsWellFormed complete ss) (owner : Owner)
    (span : Span) : Passes f complete (Tree.bodyVisits owner span (some (raiseBlock ss))) :=
  (passes_block f ss wf).cons rfl fun _ => rfl

theorem Field.passes {start : Nat} {name : String} {field : Field}
    (holds : Holds f start field.defaultChars) (normal : Name.isNormalized name)
    (wf : field.type.isNormalized) (className : String) :
    Passes f complete ((field.raise start name).visits className) := by
  obtain ⟨type, visibility, defaultValue⟩ := field
  have value : Passes f complete
      (((Field.raise start name ⟨type, visibility, defaultValue⟩).initializer.map
        fun e => [Visit.initializer e.span]).getD []) := by
    cases defaultValue with
    | none => exact passes_nil
    | some text =>
      apply Passes.cons _ (fun _ => rfl) passes_nil
      have covered : f.textAt? ⟨.ofNat start, .ofNat (start + Text.byteLength text.toList)⟩
          = some (String.ofList text.toList) := holds.textAt?
      simp only [Tree.Expr.span, Visit.violation?, covered]
  have own := passes_type f complete wf false (.field className (Name.normalize name)) .zero
  exact (own.append value).name (Name.all_isAllowed_of_isNormalized normal)

theorem Method.passes {name : String} {m : Method} (normal : Name.isNormalized name)
    (wf : m.isWellFormed complete) (className : String) :
    Passes f complete ((m.raise name).visits className) := by
  simp only [Method.isWellFormed, Bool.and_eq_true] at wf
  have own := passes_type f complete wf.1.2 false
    (.returnType className (Name.normalize name)) .zero
  have parameters := passes_parameters f complete wf.1.1 className
  have body := passes_statements f wf.2 (.method className (Name.normalize name)) .zero
  exact (own.append (parameters.append body)).name (Name.all_isAllowed_of_isNormalized normal)

theorem Constructor.passes {k : Constructor} (wf : k.isWellFormed complete) (className : String) :
    Passes f complete (k.raise.visits className) := by
  simp only [Constructor.isWellFormed, Bool.and_eq_true] at wf
  rw [Tree.Constructor.visits, Constructor.filter_isPromoted_raise]
  have parameters := passes_parameters f complete wf.1 className
  have body := passes_statements f wf.2 (.constructor className) .zero
  exact parameters.append body

theorem passes_raiseFields {declared className : String} {start : Nat}
    {fields : List (String × Field)} {ms : List Tree.ClassMember}
    (holds : Holds f start (fields.flatMap fun e => e.2.defaultChars))
    (wf : fields.all fun e => Name.isNormalized e.1 && e.2.type.isNormalized)
    (later : Passes f complete (Tree.memberVisits declared className false ms)) :
    Passes f complete
      (Tree.memberVisits declared className false (raiseFields start fields ++ ms)) := by
  induction fields generalizing start with
  | nil => exact later
  | cons e fields ih =>
    simp only [List.all_cons, Bool.and_eq_true] at wf
    obtain ⟨own, others⟩ := holds_append holds
    exact (Field.passes f own wf.1.1 wf.1.2 className).append (ih others wf.2)

theorem passes_raiseCallables {methods : List (String × Method)} {constructor : Option Constructor}
    (methodsWf : methods.all fun e => Name.isNormalized e.1 && e.2.isWellFormed complete)
    (constructorWf : constructor.all (Constructor.isWellFormed complete))
    (declared className : String) : Passes f complete
      (Tree.memberVisits declared className false (raiseCallables methods constructor)) := by
  induction methods with
  | nil =>
    cases constructor with
    | none => exact passes_nil
    | some k => exact (Constructor.passes f constructorWf className).append passes_nil
  | cons e methods ih =>
    simp only [List.all_cons, Bool.and_eq_true] at methodsWf
    exact (Method.passes f methodsWf.1.1 methodsWf.1.2 className).append (ih methodsWf.2)

theorem Class.passes {start : Nat} {name : String} {c : Class}
    (holds : Holds f start c.defaultChars) (normal : Name.isNormalized name)
    (wf : c.isWellFormed complete) : Passes f complete (c.raise start name).visits := by
  simp only [Class.isWellFormed, Bool.and_eq_true] at wf
  have callables := passes_raiseCallables f wf.1.2 wf.2 name (Name.normalize name)
  have members := passes_raiseFields f holds wf.1.1 callables
  exact members.name (Name.all_isAllowed_of_isNormalized normal)

theorem Enum.passes {name : String} {e : Enum} (normal : Name.isNormalized name)
    (wf : e.isWellFormed) : Passes f complete (e.raise name).visits := by
  have values : Passes f complete (e.values.map (.name false · .zero)) := by
    apply passes_names
    intro value mem
    exact Name.all_isAllowed_of_isNormalized (List.all_eq_true.mp wf value mem)
  have members : (e.raise name).members.map (fun m => Visit.name false m.name.text m.name.span)
      = e.values.map (.name false · .zero) := by
    rw [Enum.raise, List.map_map]
    rfl
  rw [← members] at values
  exact values.name (Name.all_isAllowed_of_isNormalized normal)

theorem passes_raiseClasses {start : Nat} {classes : List (String × Class)}
    (holds : Holds f start (classes.flatMap fun e => e.2.defaultChars))
    (wf : classes.all fun e => Name.isNormalized e.1 && e.2.isWellFormed complete) :
    Passes f complete ((raiseClasses start classes).flatMap Tree.Item.visits) := by
  induction classes generalizing start with
  | nil => exact passes_nil
  | cons e classes ih =>
    simp only [List.all_cons, Bool.and_eq_true] at wf
    obtain ⟨own, others⟩ := holds_append holds
    exact (Class.passes f own wf.1.1 wf.1.2).append (ih others wf.2)

end

theorem File.passes {complete : Bool} {s : File} (wf : s.isWellFormed complete)
    (fits : Text.byteLength s.defaultChars < UInt32.size) :
    Passes s.raise complete s.raise.visits := by
  simp only [File.isWellFormed, Bool.and_eq_true] at wf
  have enums : Passes s.raise complete
      ((s.enums.toList.map fun e => .enumDecl (e.2.raise e.1)).flatMap Tree.Item.visits) := by
    rw [List.flatMap_map]
    apply Passes.flatMap
    intro e mem
    have both := List.all_eq_true.mp wf.1 e mem
    rw [Bool.and_eq_true] at both
    exact Enum.passes _ both.1 both.2
  have classes := passes_raiseClasses s.raise (File.holds_raise fits) wf.2
  have together := enums.append classes
  rw [← List.flatMap_append] at together
  exact together

end Schema

/-- The schemas that lowering gives are the well-formed ones, and those that it gives without adding
a report are the complete ones. Only their default values have to fit into a text that spans can
point into. -/
theorem lowerFile_image (s : Schema.File) (fits : Text.byteLength s.defaultChars < UInt32.size)
    (collected : Diagnostics) :
    ((∃ f after, (lowerFile f).runFrom collected = (.ok s, after)) ↔ s.isWellFormed false)
      ∧ ((∃ f, (lowerFile f).runFrom collected = (.ok s, collected)) ↔ s.isWellFormed true) := by
  constructor
  · constructor
    · rintro ⟨f, after, done⟩
      obtain ⟨-, rfl, -⟩ := lowerFile_eq_ok_iff.mp done
      exact File.isWellFormed_translation fun asked => absurd asked Bool.false_ne_true
    · intro wf
      have passes := File.passes wf fits
      exact ⟨s.raise, _,
        lowerFile_eq_ok_iff.mpr ⟨passes.goesOn, (File.translation_raise wf fits).symm, rfl⟩⟩
  · constructor
    · rintro ⟨f, done⟩
      obtain ⟨-, rfl, same⟩ := lowerFile_eq_ok_iff.mp done
      have silent : f.visits.flatMap (Visit.reports f.id) = [] :=
        List.self_eq_append_right.mp same
      exact File.isWellFormed_translation fun _ => List.flatMap_eq_nil_iff.mp silent
    · intro wf
      have passes := File.passes wf fits
      have silent : s.raise.visits.flatMap (Visit.reports s.raise.id) = [] :=
        List.flatMap_eq_nil_iff.mpr (passes.quiet rfl)
      refine ⟨s.raise, lowerFile_eq_ok_iff.mpr
        ⟨passes.goesOn, (File.translation_raise wf fits).symm, ?_⟩⟩
      rw [silent, List.append_nil]

/-- A class whose type only a differently spelled name gives, two default values, and an empty
slot. -/
def emptySlot : Schema.File where
  enums := .ofList [("e", ⟨["a_1"]⟩)]
  classes := .ofList [("c", ⟨
    .ofList [("x", ⟨.named "number" [.array []], .inside, some "1 + 1"⟩),
      ("y", ⟨.named "array" [], .everywhere, some "ä"⟩)],
    .ofList [("m", ⟨[⟨"p", .int32⟩], .void, [.return none, .throw none]⟩)],
    some ⟨[], [.foreach none (some (.identifier "this")) []]⟩⟩)]

theorem lowerFile_image_emptySlot :
    Text.byteLength emptySlot.defaultChars < UInt32.size
      ∧ (∃ f after, (lowerFile f).runFrom [] = (.ok emptySlot, after))
      ∧ ¬∃ f, (lowerFile f).runFrom [] = (.ok emptySlot, []) := by
  have fits : Text.byteLength emptySlot.defaultChars < UInt32.size := by decide
  obtain ⟨given, silent⟩ := lowerFile_image emptySlot fits []
  refine ⟨fits, given.mpr (by decide), ?_⟩
  rw [silent]
  decide

end NeutralSchema
