import NeutralSchema.Proofs.Lowering.WellFormed
import NeutralSchema.Proofs.Schema.Raising
import NeutralSchema.Proofs.Text.Bytes

/-!
# The translation of what was raised

The tree that a well-formed schema is raised to translates to that schema again. Main statement:
`Schema.File.translation_raise`.
-/
namespace NeutralSchema

namespace Schema

theorem declaredName_ne {name : String} (normal : Name.isNormalized name) :
    declaredName name ∉ ["number", "string", "boolean", "void", "Array"] := by
  unfold declaredName
  split
  · decide
  · decide
  · decide
  · decide
  · next h₁ h₂ h₃ h₄ =>
    have array : name ≠ "Array" := by
      rintro rfl
      exact absurd normal (by decide)
    simp only [List.mem_cons, List.not_mem_nil, or_false, not_or]
    exact ⟨h₁, h₂, h₃, h₄, array⟩

theorem normalize_declaredName {name : String} (normal : Name.isNormalized name) :
    Name.normalize (declaredName name) = name := by
  unfold declaredName
  split
  · rfl
  · rfl
  · rfl
  · rfl
  · exact Name.normalize_of_isNormalized normal

theorem all_isAllowed_declaredName {name : String} (normal : Name.isNormalized name) :
    (declaredName name).toList.all Name.isAllowed := by
  unfold declaredName
  split
  · decide
  · decide
  · decide
  · decide
  · exact Name.all_isAllowed_of_isNormalized normal

mutual

theorem DataType.translation_raise : ∀ t : DataType, t.isNormalized → t.raise.translation = t
  | .int32, _ | .string, _ | .boolean, _ | .void, _ => rfl
  | .array arguments, normal => by
    have inner := DataType.translationAll_raiseAll arguments normal
    exact congrArg DataType.array inner
  | .named name arguments, normal => by
    simp only [DataType.isNormalized, Bool.and_eq_true] at normal
    have inner := DataType.translationAll_raiseAll arguments normal.2
    have own := normalize_declaredName normal.1
    -- The declared name means none of the types that translation knows by name.
    have other := declaredName_ne normal.1
    simp only [List.mem_cons, not_or] at other
    rw [DataType.raise, Tree.ResolvedType.generic, Tree.ResolvedType.translation]
    split
    next h => exact absurd h other.1
    next h => exact absurd h other.2.1
    next h => exact absurd h other.2.2.1
    next h => exact absurd h other.2.2.2.1
    next h => exact absurd h other.2.2.2.2.1
    · rw [inner]
      exact congrArg (DataType.named · arguments) own

theorem DataType.translationAll_raiseAll : ∀ ts : List DataType,
    DataType.allNormalized ts → Tree.ResolvedType.translationAll (DataType.raiseAll ts) = ts
  | [], _ => rfl
  | t :: ts, normal => by
    simp only [DataType.allNormalized, Bool.and_eq_true] at normal
    have first := DataType.translation_raise t normal.1
    have rest := DataType.translationAll_raiseAll ts normal.2
    rw [DataType.raiseAll, Tree.ResolvedType.translationAll, first, rest]

end

theorem raiseLiteral_spec {kind : LiteralKind} {value : String} (allowed : kind.allows value) :
    lowerLiteral (raiseLiteral kind value) = .literal kind value := by
  cases kind with
  | string | numeric => rfl
  | boolean =>
    simp only [LiteralKind.allows, Bool.or_eq_true, decide_eq_true_eq] at allowed
    rcases allowed with rfl | rfl <;> rfl
  | null =>
    simp only [LiteralKind.allows, decide_eq_true_eq] at allowed
    rw [allowed]
    rfl

theorem lowerSide_raise (side : OperatorSide) : lowerSide side.raise = side := by
  cases side <;> rfl

section

variable {complete : Bool}

mutual

theorem Expression.translation_raise : ∀ e : Expression,
    e.isWellFormed complete → e.raise.translation = some e
  | .call method arguments, wf => by
    simp only [Expression.isWellFormed, Bool.and_eq_true] at wf
    have callee := translation_raiseSlot method wf.1
    have slots := translationAll_raiseSlots arguments wf.2
    rw [Expression.raise, Tree.Expr.translation, callee, slots]
  | .binary left right operator, wf => by
    simp only [Expression.isWellFormed, Bool.and_eq_true] at wf
    have first := translation_raiseSlot left wf.1
    have second := translation_raiseSlot right wf.2
    rw [Expression.raise, Tree.Expr.translation, first, second]
  | .access target property, wf => by
    simp only [Expression.isWellFormed, Bool.and_eq_true] at wf
    have object := translation_raiseSlot target wf.1
    have index := translation_raiseSlot property wf.2
    rw [Expression.raise, Tree.Expr.translation, object, index]
  | .identifier text, wf => by
    simp only [Expression.isWellFormed] at wf
    rw [Expression.raise, Tree.Expr.translation, Name.normalize_of_isNormalized wf]
  | .new type arguments, wf => by
    simp only [Expression.isWellFormed, Bool.and_eq_true] at wf
    have own : Tree.typeTranslation (some type.raise) = type :=
      DataType.translation_raise type wf.1
    have slots := translationAll_raiseSlots arguments wf.2
    rw [Expression.raise, Tree.Expr.translation, own, slots]
  | .conditional condition whenTrue whenFalse, wf => by
    simp only [Expression.isWellFormed, Bool.and_eq_true] at wf
    have first := translation_raiseSlot condition wf.1.1
    have second := translation_raiseSlot whenTrue wf.1.2
    have third := translation_raiseSlot whenFalse wf.2
    rw [Expression.raise, Tree.Expr.translation, first, second, third]
  | .literal kind value, wf => by
    simp only [Expression.isWellFormed] at wf
    rw [Expression.raise, Tree.Expr.translation, raiseLiteral_spec wf]
  | .parenthesized inner, wf => by
    have content := translation_raiseSlot inner wf
    rw [Expression.raise, Tree.Expr.translation, content]
  | .unary side operator operand, wf => by
    have content := translation_raiseSlot operand wf
    rw [Expression.raise, Tree.Expr.translation, content, lowerSide_raise]
  | .array items, wf => by
    have slots := translationAll_raiseSlots items wf
    rw [Expression.raise, Tree.Expr.translation, slots]

theorem translation_raiseSlot : ∀ slot : Option Expression,
    slotIsWellFormed complete slot → (raiseSlot slot).translation = slot
  | none, _ => rfl
  | some e, wf => Expression.translation_raise e wf

theorem translationAll_raiseSlots : ∀ slots : List (Option Expression),
    slotsAreWellFormed complete slots → Tree.Expr.translationAll (raiseSlots slots) = slots
  | [], _ => rfl
  | slot :: slots, wf => by
    simp only [slotsAreWellFormed, Bool.and_eq_true] at wf
    have first := translation_raiseSlot slot wf.1
    have rest := translationAll_raiseSlots slots wf.2
    rw [raiseSlots, Tree.Expr.translationAll, first, rest]

end

theorem optionalTranslation_raise {e : Option Expression}
    (wf : optionalIsWellFormed complete e) :
    Tree.optionalTranslation (e.map Expression.raise) = e := by
  cases e with
  | none => rfl
  | some e => exact Expression.translation_raise e wf

theorem Variable.translation_raise {v : Variable} (wf : v.isWellFormed complete) :
    v.raise.translation = v := by
  simp only [Variable.isWellFormed, Bool.and_eq_true] at wf
  rw [Variable.raise, Tree.Declarator.translation, Name.normalize_of_isNormalized wf.1,
    optionalTranslation_raise wf.2]

theorem translation_declarators {item : Option Variable}
    (wf : item.all (Variable.isWellFormed complete)) :
    (Tree.LoopInitializer.declarators (item.map Variable.raise).toList).translation = item := by
  cases item with
  | none => rfl
  | some v => exact congrArg some (Variable.translation_raise wf)

theorem translation_optionalInitializer {item : Option Variable}
    (wf : item.all (Variable.isWellFormed complete)) :
    (item.map fun v => Tree.LoopInitializer.declarators [v.raise]).bind
      Tree.LoopInitializer.translation = item := by
  cases item with
  | none => rfl
  | some v => exact congrArg some (Variable.translation_raise wf)

mutual

theorem Statement.translation_raise : ∀ s : Statement,
    s.isWellFormed complete → s.raise.translation .entry = [s]
  | .if condition thenBlock elseBlock, wf => by
    simp only [Statement.isWellFormed, Bool.and_eq_true] at wf
    have value := translation_raiseSlot condition wf.1.1
    have first := translationAll_raiseBlock thenBlock wf.1.2
    have second := translationElse_raiseElse elseBlock wf.2
    simp only [Statement.raise, Tree.Stmt.translation, value, first, second]
  | .return value, wf => by
    simp only [Statement.raise, Tree.Stmt.translation, optionalTranslation_raise wf]
  | .throw value, wf => by
    simp only [Statement.raise, Tree.Stmt.translation, translation_raiseSlot value wf]
  | .expression value, wf => by
    simp only [Statement.raise, Tree.Stmt.translation, translation_raiseSlot value wf]
  | .variable declared, wf => by
    simp only [Statement.raise, Tree.Stmt.translation, List.map_cons, List.map_nil,
      Variable.translation_raise wf]
  | .while condition body, wf => by
    simp only [Statement.isWellFormed, Bool.and_eq_true] at wf
    have value := translation_raiseSlot condition wf.1
    have content := translationAll_raiseBlock body wf.2
    simp only [Statement.raise, Tree.Stmt.translation, value, content]
  | .foreach item items body, wf => by
    simp only [Statement.isWellFormed, Bool.and_eq_true] at wf
    have variable_ := translation_declarators wf.1.1.2
    have value := translation_raiseSlot items wf.1.2
    have content := translationAll_raiseBlock body wf.2
    simp only [Statement.raise, Tree.Stmt.translation, variable_, value, content]
  | .for item condition step body, wf => by
    simp only [Statement.isWellFormed, Bool.and_eq_true] at wf
    have variable_ := translation_optionalInitializer wf.1.1.1
    have test := optionalTranslation_raise wf.1.1.2
    have next := optionalTranslation_raise wf.1.2
    have content := translationAll_raiseBlock body wf.2
    simp only [Statement.raise, Tree.Stmt.translation, variable_, test, next, content]

theorem translationElse_raiseElse : ∀ block : Option (List Statement),
    elseIsWellFormed complete block → Tree.Stmt.translationElse (raiseElse block) = block
  | none, _ => rfl
  | some block, wf => congrArg some (translationAll_raiseBlock block wf)

theorem translationAll_raiseBlock : ∀ ss : List Statement,
    blockIsWellFormed complete ss → Tree.Stmt.translationAll (raiseBlock ss) = ss
  | [], _ => rfl
  | s :: ss, wf => by
    simp only [blockIsWellFormed, Bool.and_eq_true] at wf
    have first := Statement.translation_raise s wf.1
    have rest := translationAll_raiseBlock ss wf.2
    rw [raiseBlock, Tree.Stmt.translationAll, first, rest, List.singleton_append]

end

theorem Parameter.translation_raise {p : Parameter} (wf : p.isWellFormed) :
    p.raise.translation = p := by
  simp only [Parameter.isWellFormed, Bool.and_eq_true] at wf
  have own : Tree.typeTranslation (some p.type.raise) = p.type :=
    DataType.translation_raise p.type wf.2
  rw [Parameter.raise, Tree.Parameter.translation, own, Name.normalize_of_isNormalized wf.1]

theorem map_translation_raise {ps : List Parameter} (wf : ps.all Parameter.isWellFormed) :
    (ps.map Parameter.raise).map Tree.Parameter.translation = ps := by
  rw [List.all_eq_true] at wf
  rw [List.map_map]
  calc ps.map (Tree.Parameter.translation ∘ Parameter.raise)
    _ = ps.map id := List.map_congr_left fun p mem => Parameter.translation_raise (wf p mem)
    _ = ps := List.map_id ps

theorem Method.translation_raise {name : String} {m : Method} (wf : m.isWellFormed complete) :
    (m.raise name).translation = m := by
  simp only [Method.isWellFormed, Bool.and_eq_true] at wf
  have own : Tree.typeTranslation (some m.returns.raise) = m.returns :=
    DataType.translation_raise m.returns wf.1.2
  have body : Tree.bodyTranslation (some (raiseBlock m.body)) = m.body :=
    translationAll_raiseBlock m.body wf.2
  rw [Method.raise, Tree.Method.translation, own, body, map_translation_raise wf.1.1]

theorem Constructor.translation_raise {k : Constructor} (wf : k.isWellFormed complete) :
    k.raise.translation = k := by
  simp only [Constructor.isWellFormed, Bool.and_eq_true] at wf
  have body : Tree.bodyTranslation (some (raiseBlock k.body)) = k.body :=
    translationAll_raiseBlock k.body wf.2
  rw [Constructor.raise, Tree.Constructor.translation, body, map_translation_raise wf.1]

end

/-- A text that spans can point into has some characters at an offset. -/
structure Holds (f : Tree.File) (start : Nat) (chars : List Char) : Prop where
  fits : Text.byteLength f.text.toList < UInt32.size
  split : ∃ before after, Text.byteLength before = start
    ∧ f.text = String.ofList (before ++ (chars ++ after))

theorem holds_append {f : Tree.File} {start : Nat} {cs ds : List Char}
    (holds : Holds f start (cs ++ ds)) :
    Holds f start cs ∧ Holds f (start + Text.byteLength cs) ds := by
  obtain ⟨fits, before, after, offset, text⟩ := holds
  refine ⟨⟨fits, before, ds ++ after, offset, ?_⟩, ⟨fits, before ++ cs, after, ?_, ?_⟩⟩
  · rw [text, List.append_assoc]
  · rw [Text.byteLength_append, offset]
  · rw [text, List.append_assoc, List.append_assoc]

theorem Holds.textAt? {f : Tree.File} {start : Nat} {chars : List Char}
    (holds : Holds f start chars) :
    f.textAt? ⟨.ofNat start, .ofNat (start + Text.byteLength chars)⟩
      = some (String.ofList chars) := by
  obtain ⟨fits, before, after, rfl, text⟩ := holds
  rw [text, String.toList_ofList, Text.byteLength_append, Text.byteLength_append] at fits
  have first : (UInt32.ofNat (Text.byteLength before)).toNat = Text.byteLength before :=
    UInt32.toNat_ofNat_of_lt' (by omega)
  have second : (UInt32.ofNat (Text.byteLength before + Text.byteLength chars)).toNat
      = Text.byteLength before + Text.byteLength chars :=
    UInt32.toNat_ofNat_of_lt' (by omega)
  rw [Tree.File.textAt?, first, second, text]
  exact Text.slice?_append before chars after

theorem Visibility.translation_raise (v : Visibility) : v.raise.translation = v := by
  cases v <;> rfl

theorem Field.translation_raise {f : Tree.File} {start : Nat} {name : String} {field : Field}
    (holds : Holds f start field.defaultChars) (normal : field.type.isNormalized) :
    (field.raise start name).translation f = field := by
  obtain ⟨type, visibility, defaultValue⟩ := field
  have own : Tree.typeTranslation (some type.raise) = type := DataType.translation_raise type normal
  have value : (Field.raise start name ⟨type, visibility, defaultValue⟩).initializer.bind
      (fun e => f.textAt? e.span) = defaultValue := by
    cases defaultValue with
    | none => rfl
    | some text => exact holds.textAt?.trans (congrArg some String.ofList_toList)
  rw [Tree.Property.translation, value]
  simp only [Field.raise, own, Tree.Modifiers.fieldVisibility, Option.map_some, Option.getD_some,
    Visibility.translation_raise]

section

variable {f : Tree.File}

theorem fieldWrites_raiseFields {start : Nat} {fields : List (String × Field)}
    (holds : Holds f start (fields.flatMap fun e => e.2.defaultChars))
    (wf : fields.all fun e => Name.isNormalized e.1 && e.2.type.isNormalized)
    (ms : List Tree.ClassMember) :
    Tree.fieldWrites f false (raiseFields start fields ++ ms)
      = fields ++ Tree.fieldWrites f false ms := by
  induction fields generalizing start with
  | nil => rfl
  | cons e fields ih =>
    obtain ⟨name, field⟩ := e
    simp only [List.all_cons, Bool.and_eq_true] at wf
    obtain ⟨own, later⟩ := holds_append holds
    have first : (Name.normalize (field.raise start name).name.text,
        (field.raise start name).translation f) = (name, field) := by
      rw [Field.translation_raise own wf.1.2]
      exact congrArg (·, field) (Name.normalize_of_isNormalized wf.1.1)
    have rest := ih later wf.2
    rw [raiseFields, List.cons_append, Tree.fieldWrites, first, rest]
    rfl

/-- A raised parameter has no modifiers, so none is promoted to a field. -/
theorem Constructor.filter_isPromoted_raise (k : Constructor) :
    k.raise.parameters.filter Tree.Parameter.isPromoted = [] := by
  simp [Constructor.raise, Parameter.raise, Tree.Parameter.isPromoted, Tree.Modifiers.none]

theorem fieldWrites_raiseCallables (methods : List (String × Method))
    (constructor : Option Constructor) :
    Tree.fieldWrites f false (raiseCallables methods constructor) = [] := by
  induction methods with
  | nil =>
    cases constructor with
    | none => rfl
    | some k =>
      simp [raiseCallables, Tree.fieldWrites, Tree.filter_isModified,
        Constructor.filter_isPromoted_raise]
  | cons e methods ih => exact ih

theorem filterMap_raiseFields {α : Type} {pick : Tree.ClassMember → Option α}
    (skips : ∀ p, pick (.property p) = none) (start : Nat) (fields : List (String × Field)) :
    (raiseFields start fields).filterMap pick = [] := by
  induction fields generalizing start with
  | nil => rfl
  | cons e fields ih => rw [raiseFields, List.filterMap_cons, skips, ih]

theorem methodWrites_raise {complete : Bool} {start : Nat} {fields : List (String × Field)}
    {methods : List (String × Method)} {constructor : Option Constructor}
    (wf : methods.all fun e => Name.isNormalized e.1 && e.2.isWellFormed complete) :
    Tree.methodWrites (raiseFields start fields ++ raiseCallables methods constructor)
      = methods := by
  have none_ : (constructor.toList.map fun k => Tree.ClassMember.constructor k.raise).filterMap
      Tree.ClassMember.instanceMethod? = [] := by
    cases constructor <;> rfl
  rw [Tree.methodWrites, List.filterMap_append, raiseCallables, List.filterMap_append,
    filterMap_raiseFields (fun _ => rfl), none_, List.nil_append, List.append_nil]
  induction methods with
  | nil => rfl
  | cons e methods ih =>
    obtain ⟨name, m⟩ := e
    simp only [List.all_cons, Bool.and_eq_true] at wf
    have first : (Name.normalize (m.raise name).name.text, (m.raise name).translation)
        = (name, m) := by
      rw [Method.translation_raise wf.1.2]
      exact congrArg (·, m) (Name.normalize_of_isNormalized wf.1.1)
    exact congrArg₂ List.cons first (ih wf.2)

theorem findSome?_raise {start : Nat} {fields : List (String × Field)}
    {methods : List (String × Method)} {constructor : Option Constructor} :
    (raiseFields start fields ++ raiseCallables methods constructor).findSome?
      Tree.ClassMember.constructor? = constructor.map Constructor.raise := by
  have fromMethods : (methods.map fun e => Tree.ClassMember.method (e.2.raise e.1)).filterMap
      Tree.ClassMember.constructor? = [] := by
    simp [Tree.ClassMember.constructor?]
  rw [← List.head?_filterMap, List.filterMap_append, raiseCallables, List.filterMap_append,
    filterMap_raiseFields (fun _ => rfl), fromMethods]
  cases constructor <;> rfl

theorem Class.assembled_raise {complete : Bool} {start : Nat} {name : String} {c : Class}
    (holds : Holds f start c.defaultChars) (wf : c.isWellFormed complete) :
    (c.raise start name).assembled f = c := by
  simp only [Class.isWellFormed, Bool.and_eq_true] at wf
  have first : (c.constructor.map Constructor.raise).map Tree.Constructor.translation
      = c.constructor := by
    cases given : c.constructor with
    | none => rfl
    | some k =>
      rw [given] at wf
      exact congrArg some (Constructor.translation_raise wf.2)
  rw [Tree.Class.assembled, Tree.Class.firstConstructor?]
  simp only [Class.raise]
  rw [fieldWrites_raiseFields holds wf.1.1, fieldWrites_raiseCallables, List.append_nil,
    methodWrites_raise wf.1.2, findSome?_raise, first, OrderedMap.lastWrites_toList,
    OrderedMap.lastWrites_toList]

theorem Enum.translation_raise {name : String} {e : Enum} (wf : e.isWellFormed) :
    (e.raise name).translation = e := by
  have values : (e.raise name).members.map (fun m => Name.normalize m.name.text) = e.values := by
    rw [Enum.raise, List.map_map]
    calc e.values.map ((fun m : Tree.EnumMember => Name.normalize m.name.text) ∘ fun value =>
          ⟨⟨value, .zero⟩, none⟩)
      _ = e.values.map id := List.map_congr_left fun value mem =>
        Name.normalize_of_isNormalized (List.all_eq_true.mp wf value mem)
      _ = e.values := List.map_id _
  rw [Tree.Enum.translation, values]

theorem map_assembled_raiseClasses {complete : Bool} {start : Nat}
    {classes : List (String × Class)}
    (holds : Holds f start (classes.flatMap fun e => e.2.defaultChars))
    (wf : classes.all fun e => Name.isNormalized e.1 && e.2.isWellFormed complete) :
    ((raiseClasses start classes).filterMap Tree.Item.class?).map
      (fun c => (Name.normalize c.name.text, c.assembled f)) = classes := by
  induction classes generalizing start with
  | nil => rfl
  | cons e classes ih =>
    obtain ⟨name, c⟩ := e
    simp only [List.all_cons, Bool.and_eq_true] at wf
    obtain ⟨own, later⟩ := holds_append holds
    have first : (Name.normalize (c.raise start name).name.text,
        (c.raise start name).assembled f) = (name, c) := by
      rw [Class.assembled_raise own wf.1.2]
      exact congrArg (·, c) (Name.normalize_of_isNormalized wf.1.1)
    exact congrArg₂ List.cons first (ih later wf.2)

theorem filterMap_enum?_raiseClasses (start : Nat) (classes : List (String × Class)) :
    (raiseClasses start classes).filterMap Tree.Item.enum? = [] := by
  induction classes generalizing start with
  | nil => rfl
  | cons e classes ih => exact ih _

end

theorem File.holds_raise {s : File} (fits : Text.byteLength s.defaultChars < UInt32.size) :
    Holds s.raise 0 s.defaultChars where
  fits := by
    rw [File.raise, String.toList_ofList]
    exact fits
  split := ⟨[], [], rfl, by rw [List.append_nil, List.nil_append, File.raise]⟩

/-- A well-formed schema is the translation of the tree that it is raised to. -/
theorem File.translation_raise {complete : Bool} {s : File} (wf : s.isWellFormed complete)
    (fits : Text.byteLength s.defaultChars < UInt32.size) : s.raise.translation = s := by
  simp only [File.isWellFormed, Bool.and_eq_true] at wf
  have enums : s.raise.enums.map (fun e => (Name.normalize e.name.text, e.translation))
      = s.enums.toList := by
    rw [Tree.File.enums, File.raise, List.filterMap_append, filterMap_enum?_raiseClasses,
      List.append_nil, List.filterMap_map, List.map_filterMap]
    calc s.enums.toList.filterMap _
      _ = s.enums.toList.filterMap some := List.filterMap_congr fun e mem => by
        have both := List.all_eq_true.mp wf.1 e mem
        rw [Bool.and_eq_true] at both
        have pair : (Name.normalize (e.2.raise e.1).name.text, (e.2.raise e.1).translation)
            = e := by
          rw [Enum.translation_raise both.2]
          exact congrArg (·, e.2) (Name.normalize_of_isNormalized both.1)
        exact congrArg some pair
      _ = s.enums.toList := List.filterMap_some
  have classes : s.raise.classes.map (fun c => (Name.normalize c.name.text, c.assembled s.raise))
      = s.classes.toList := by
    have fromEnums : (s.enums.toList.map fun e => Tree.Item.enumDecl (e.2.raise e.1)).filterMap
        Tree.Item.class? = [] := by
      simp [Tree.Item.class?]
    have items : s.raise.classes
        = (raiseClasses 0 s.classes.toList).filterMap Tree.Item.class? := by
      rw [Tree.File.classes, File.raise, List.filterMap_append, fromEnums, List.nil_append]
    rw [items]
    exact map_assembled_raiseClasses (File.holds_raise fits) wf.2
  rw [Tree.File.translation_eq_assembled, Tree.File.assembled, enums, classes,
    OrderedMap.lastWrites_toList, OrderedMap.lastWrites_toList]

end Schema
end NeutralSchema
