import NeutralSchema.Proofs.Lowering.Spelling

/-!
# Expressions that lowering does not tell apart

Lowering forgets where an expression stands, how its names are spelled, which of the unsupported
forms it has, and whether a member is accessed by its name or by an index that reads like it. It
forgets nothing else. Main definition: `Expr.Related`; main statement:
`lowerExpression_eq_iff_related`.
-/
namespace NeutralSchema

namespace Tree

/-- Whether two types have the same schema type, by their names and arguments. A primitive type is
told by its name alone. -/
inductive ResolvedType.Related : ResolvedType → ResolvedType → Prop
  | primitive {t u : ResolvedType} (known : t.canonicalName ∈ primitiveNames)
    (same : u.canonicalName = t.canonicalName) : ResolvedType.Related t u
  | array {t u : ResolvedType} (first : t.canonicalName = "Array")
    (second : u.canonicalName = "Array")
    (arguments : t.arguments.Forall₂ ResolvedType.Related u.arguments) : ResolvedType.Related t u
  | named {t u : ResolvedType} (first : t.canonicalName ∉ "Array" :: primitiveNames)
    (second : u.canonicalName ∉ "Array" :: primitiveNames)
    (same : Name.normalize t.canonicalName = Name.normalize u.canonicalName)
    (arguments : t.arguments.Forall₂ ResolvedType.Related u.arguments) : ResolvedType.Related t u

def SelfWord.text : SelfWord → String
  | .this => "this"
  | .super => "super"

/-- Whether two expressions have the same place in a schema, by their structure. -/
inductive Expr.Related : Expr → Expr → Prop
  | unsupported {e e' : Expr} (first : e.isSupported = false) (second : e'.isSupported = false) :
    Expr.Related e e'
  | call {s s' : Span} {callee callee' : Expr} {arguments arguments' : List Expr}
    (first : Expr.Related callee callee') (rest : arguments.Forall₂ Expr.Related arguments') :
    Expr.Related (.call s callee arguments) (.call s' callee' arguments')
  | binary {s s' : Span} {left left' right right' : Expr} (operator : String)
    (first : Expr.Related left left') (second : Expr.Related right right') :
    Expr.Related (.binary s left operator right) (.binary s' left' operator right')
  | member {s s' : Span} {target target' : Expr} {name name' : Ident}
    (object : Expr.Related target target')
    (same : Name.normalize name.text = Name.normalize name'.text) :
    Expr.Related (.member s target name) (.member s' target' name')
  | element {s s' : Span} {target target' index index' : Expr}
    (object : Expr.Related target target') (place : Expr.Related index index') :
    Expr.Related (.element s target index) (.element s' target' index')
  /-- An index that is related to the identifier of a member. -/
  | memberElement {s s' : Span} {target target' index : Expr} {name : Ident}
    (object : Expr.Related target target')
    (place : Expr.Related (.identifier name.span name.text) index) :
    Expr.Related (.member s target name) (.element s' target' index)
  | elementMember {s s' : Span} {target target' index : Expr} {name : Ident}
    (object : Expr.Related target target')
    (place : Expr.Related index (.identifier name.span name.text)) :
    Expr.Related (.element s target index) (.member s' target' name)
  | identifier {s s' : Span} {name name' : String}
    (same : Name.normalize name = Name.normalize name') :
    Expr.Related (.identifier s name) (.identifier s' name')
  /-- An identifier that is normalized to a keyword. -/
  | identifierSelf {s s' : Span} {name : String} {word : SelfWord}
    (same : Name.normalize name = word.text) : Expr.Related (.identifier s name) (.self s' word)
  | selfIdentifier {s s' : Span} {name : String} {word : SelfWord}
    (same : Name.normalize name = word.text) : Expr.Related (.self s word) (.identifier s' name)
  | new {s s' : Span} {type type' : ResolvedType} {arguments arguments' : List Expr}
    (types : type.Related type') (rest : arguments.Forall₂ Expr.Related arguments') :
    Expr.Related (.new s (some type) arguments) (.new s' (some type') arguments')
  | conditional {s s' : Span}
    {condition condition' whenTrue whenTrue' whenFalse whenFalse' : Expr}
    (first : Expr.Related condition condition') (second : Expr.Related whenTrue whenTrue')
    (third : Expr.Related whenFalse whenFalse') :
    Expr.Related (.conditional s condition whenTrue whenFalse)
      (.conditional s' condition' whenTrue' whenFalse')
  | literal {s s' : Span} (value : Literal) : Expr.Related (.literal s value) (.literal s' value)
  | parenthesized {s s' : Span} {inner inner' : Expr} (content : Expr.Related inner inner') :
    Expr.Related (.parenthesized s inner) (.parenthesized s' inner')
  | unary {s s' : Span} (side : UnarySide) (operator : String) {operand operand' : Expr}
    (content : Expr.Related operand operand') :
    Expr.Related (.unary s side operator operand) (.unary s' side operator operand')
  | array {s s' : Span} {elements elements' : List Expr}
    (content : elements.Forall₂ Expr.Related elements') :
    Expr.Related (.array s elements) (.array s' elements')
  | self {s s' : Span} (word : SelfWord) : Expr.Related (.self s word) (.self s' word)

theorem translation_eq_array_iff {t : ResolvedType} {arguments : List Schema.DataType} :
    t.translation = .array arguments
      ↔ t.canonicalName = "Array" ∧ ResolvedType.translationAll t.arguments = arguments := by
  obtain ⟨name, ts⟩ := t
  have canonical : (ResolvedType.mk name ts).canonicalName
      = (ResolvedType.mk name []).canonicalName := rfl
  rw [canonical, ResolvedType.translation]
  split <;> simp_all [ResolvedType.arguments]

theorem translation_eq_named_iff {t : ResolvedType} {name : String}
    {arguments : List Schema.DataType} :
    t.translation = .named name arguments
      ↔ t.canonicalName ∉ "Array" :: primitiveNames ∧ Name.normalize t.canonicalName = name
        ∧ ResolvedType.translationAll t.arguments = arguments := by
  obtain ⟨own, ts⟩ := t
  have canonical : (ResolvedType.mk own ts).canonicalName
      = (ResolvedType.mk own []).canonicalName := rfl
  rw [canonical, ResolvedType.translation]
  split <;> simp_all [primitiveNames, ResolvedType.arguments]

/-- Primitive types are told apart by their names, and from all others. -/
theorem translation_eq_primitive_iff {t u : ResolvedType}
    (known : t.canonicalName ∈ primitiveNames) :
    t.translation = u.translation ↔ u.canonicalName = t.canonicalName := by
  obtain ⟨own, ts⟩ := t
  obtain ⟨other, us⟩ := u
  have canonical : (ResolvedType.mk own ts).canonicalName
      = (ResolvedType.mk own []).canonicalName := rfl
  have canonical' : (ResolvedType.mk other us).canonicalName
      = (ResolvedType.mk other []).canonicalName := rfl
  rw [canonical] at known
  rw [canonical, canonical', ResolvedType.translation, ResolvedType.translation]
  simp only [primitiveNames, List.mem_cons, List.not_mem_nil, or_false] at known
  rcases known with name | name | name | name <;> simp only [name] <;> split <;> simp_all

theorem related_primitive_iff {t u : ResolvedType} (known : t.canonicalName ∈ primitiveNames) :
    t.Related u ↔ u.canonicalName = t.canonicalName := by
  refine ⟨fun related => ?_, .primitive known⟩
  cases related with
  | primitive _ same => exact same
  | array first =>
    rw [first] at known
    exact absurd known (by decide)
  | named first => exact absurd (List.mem_cons_of_mem _ known) first

mutual

/-- Types have the same schema type exactly when they are related. -/
theorem ResolvedType.translation_eq_iff : ∀ t u : ResolvedType,
    t.translation = u.translation ↔ t.Related u
  | .mk name ts, u => by
    have inner := ResolvedType.translationAll_eq_iff ts u.arguments
    by_cases primitive : (ResolvedType.mk name ts).canonicalName ∈ primitiveNames
    · rw [translation_eq_primitive_iff primitive, related_primitive_iff primitive]
    · by_cases array : (ResolvedType.mk name ts).canonicalName = "Array"
      · have own : (ResolvedType.mk name ts).translation = .array (translationAll ts) :=
          translation_eq_array_iff.mpr ⟨array, rfl⟩
        rw [own, eq_comm, translation_eq_array_iff, eq_comm (b := translationAll ts), inner]
        constructor
        · rintro ⟨same, arguments⟩
          exact .array array same arguments
        · intro related
          cases related with
          | primitive known => exact absurd known primitive
          | array _ same arguments => exact ⟨same, arguments⟩
          | named first => exact absurd (array ▸ List.mem_cons_self) first
      · have class' : (ResolvedType.mk name ts).canonicalName ∉ "Array" :: primitiveNames :=
          List.not_mem_cons_of_ne_of_not_mem array primitive
        have own : (ResolvedType.mk name ts).translation
            = .named (Name.normalize (ResolvedType.mk name ts).canonicalName)
                (translationAll ts) :=
          translation_eq_named_iff.mpr ⟨class', rfl, rfl⟩
        rw [own, eq_comm, translation_eq_named_iff, eq_comm (b := translationAll ts), inner]
        constructor
        · rintro ⟨other, same, arguments⟩
          exact .named class' other same.symm arguments
        · intro related
          cases related with
          | primitive known => exact absurd known primitive
          | array same => exact absurd same array
          | named _ other same arguments => exact ⟨other, same.symm, arguments⟩

theorem ResolvedType.translationAll_eq_iff : ∀ ts us : List ResolvedType,
    translationAll ts = translationAll us ↔ ts.Forall₂ ResolvedType.Related us
  | [], us => by cases us <;> simp [translationAll]
  | t :: ts, [] => by simp [translationAll]
  | t :: ts, u :: us => by
    have first := ResolvedType.translation_eq_iff t u
    have rest := ResolvedType.translationAll_eq_iff ts us
    simp [translationAll, first, rest]

end

theorem lowerSelf_eq (word : SelfWord) : lowerSelf word = .identifier word.text := by
  cases word <;> rfl

theorem SelfWord.text_injective {word word' : SelfWord} (same : word.text = word'.text) :
    word = word' := by
  cases word <;> cases word' <;> first | rfl | exact absurd same (by decide)

theorem lowerSide_injective {side side' : UnarySide} (same : lowerSide side = lowerSide side') :
    side = side' := by
  cases side <;> cases side' <;> first | rfl | exact nomatch same

/-- The kind of a literal in a schema and its text there. -/
def Literal.lowered : Literal → Schema.LiteralKind × String
  | .string value => (.string, value)
  | .numeric text => (.numeric, text)
  | .boolean value => (.boolean, if value then "true" else "false")
  | .null => (.null, "null")

theorem lowerLiteral_eq (value : Literal) :
    lowerLiteral value = .literal value.lowered.1 value.lowered.2 := by
  cases value <;> rfl

theorem Literal.lowered_injective {value value' : Literal} (same : value.lowered = value'.lowered) :
    value = value' := by
  cases value <;> cases value' <;> simp [Literal.lowered] at same ⊢
  case string | numeric => exact same
  case boolean b b' => cases b <;> cases b' <;> simp at same ⊢

theorem translation_eq_none_iff {e : Expr} : e.translation = none ↔ e.isSupported = false := by
  cases e <;> simp [Expr.translation, Expr.isSupported]

/-- Whatever is related to an identifier has its slot. -/
theorem translation_of_related_identifier {s : Span} {name : String} {e : Expr}
    (related : (Expr.identifier s name).Related e ∨ e.Related (.identifier s name)) :
    e.translation = some (.identifier (Name.normalize name)) := by
  rcases related with related | related <;> cases related with
  | unsupported first second => simp [Expr.isSupported] at first second
  | identifier same => simp [Expr.translation, same]
  | _ same => simp [Expr.translation, lowerSelf_eq, same]

mutual

/-- Related expressions have the same slot. -/
theorem Expr.translation_eq : ∀ {e e' : Expr}, e.Related e' → e.translation = e'.translation
  | _, _, .unsupported first second => by
    rw [translation_eq_none_iff.mpr first, translation_eq_none_iff.mpr second]
  | .call .., _, .call first rest => by
    have method := Expr.translation_eq first
    have slots := Expr.translationAll_eq rest
    simp only [Expr.translation, method, slots]
  | .binary .., _, .binary _ first second => by
    have left := Expr.translation_eq first
    have right := Expr.translation_eq second
    simp only [Expr.translation, left, right]
  | .member .., _, .member object same => by
    have target := Expr.translation_eq object
    simp only [Expr.translation, target, same]
  | .element .., _, .element object place => by
    have target := Expr.translation_eq object
    have index := Expr.translation_eq place
    simp only [Expr.translation, target, index]
  | .member .., _, .memberElement object place => by
    have target := Expr.translation_eq object
    have index := translation_of_related_identifier (.inl place)
    simp only [Expr.translation, target, index]
  | .element .., _, .elementMember object place => by
    have target := Expr.translation_eq object
    have index := translation_of_related_identifier (.inr place)
    simp only [Expr.translation, target, index]
  | .identifier .., _, .identifier same => by simp only [Expr.translation, same]
  | .identifier .., _, .identifierSelf same => by
    simp only [Expr.translation, lowerSelf_eq, same]
  | .self .., _, .selfIdentifier same => by simp only [Expr.translation, lowerSelf_eq, same]
  | .new .., _, .new types rest => by
    have type := (ResolvedType.translation_eq_iff _ _).mpr types
    have slots := Expr.translationAll_eq rest
    simp only [Expr.translation, typeTranslation, Option.map_some, Option.getD_some, type, slots]
  | .conditional .., _, .conditional first second third => by
    have condition := Expr.translation_eq first
    have whenTrue := Expr.translation_eq second
    have whenFalse := Expr.translation_eq third
    simp only [Expr.translation, condition, whenTrue, whenFalse]
  | .literal .., _, .literal _ => rfl
  | .parenthesized .., _, .parenthesized content => by
    have inner := Expr.translation_eq content
    simp only [Expr.translation, inner]
  | .unary .., _, .unary _ _ content => by
    have operand := Expr.translation_eq content
    simp only [Expr.translation, operand]
  | .array .., _, .array content => by
    have items := Expr.translationAll_eq content
    simp only [Expr.translation, items]
  | .self .., _, .self _ => rfl

theorem Expr.translationAll_eq : ∀ {es es' : List Expr}, es.Forall₂ Expr.Related es' →
    Expr.translationAll es = Expr.translationAll es'
  | [], [], .nil => rfl
  | _ :: _, _ :: _, .cons first rest => by
    have head := Expr.translation_eq first
    have tail := Expr.translationAll_eq rest
    simp only [Expr.translationAll, head, tail]

end

/-- What an identifier is related to, by its slot. -/
theorem related_identifier {s : Span} {name : String} {e : Expr}
    (same : e.translation = some (.identifier (Name.normalize name))) :
    (Expr.identifier s name).Related e ∧ e.Related (.identifier s name) := by
  cases e with
  | identifier own other =>
    have names : Name.normalize other = Name.normalize name := by
      simpa [Expr.translation] using same
    exact ⟨.identifier names.symm, .identifier names⟩
  | self own word =>
    have names : Name.normalize name = word.text := by
      simpa [Expr.translation, lowerSelf_eq, eq_comm] using same
    exact ⟨.identifierSelf names, .selfIdentifier names⟩
  | _ => simp [Expr.translation, lowerLiteral_eq] at same

/-- A type that is not missing. -/
theorem exists_type {file : File} {span : Span} {type : Option ResolvedType}
    (goesOn : ∀ v ∈ typeVisits false .newExpression span type, v.violation? file = none) :
    ∃ t, type = some t := by
  cases type with
  | none => exact nomatch goesOn _ List.mem_cons_self
  | some t => exact ⟨t, rfl⟩

variable {f g : File}

mutual

/-- Expressions that are lowered to the same slot are related, where none of their types is
missing. -/
theorem Expr.related_of_translation_eq : ∀ {e e' : Expr},
    (∀ v ∈ e.visits, v.violation? f = none) → (∀ v ∈ e'.visits, v.violation? g = none) →
    e.translation = e'.translation → e.Related e'
  | .call s callee arguments, e', goesOn, goesOn', same => by
    cases e' with
    | call s' callee' arguments' =>
      simp only [Expr.visits, List.forall_mem_cons, List.forall_mem_append] at goesOn goesOn'
      simp only [Expr.translation, Option.some.injEq, Schema.Expression.call.injEq] at same
      have first := Expr.related_of_translation_eq goesOn.2.1 goesOn'.2.1 same.1
      have rest := Expr.relatedAll_of_translationAll_eq goesOn.2.2 goesOn'.2.2 same.2
      exact .call first rest
    | _ => simp [Expr.translation, lowerLiteral_eq, lowerSelf_eq] at same
  | .binary s left operator right, e', goesOn, goesOn', same => by
    cases e' with
    | binary s' left' operator' right' =>
      simp only [Expr.visits, List.forall_mem_cons, List.forall_mem_append] at goesOn goesOn'
      simp only [Expr.translation, Option.some.injEq, Schema.Expression.binary.injEq] at same
      obtain ⟨sameLeft, sameRight, rfl⟩ := same
      have first := Expr.related_of_translation_eq goesOn.2.1 goesOn'.2.1 sameLeft
      have second := Expr.related_of_translation_eq goesOn.2.2 goesOn'.2.2 sameRight
      exact .binary operator first second
    | _ => simp [Expr.translation, lowerLiteral_eq, lowerSelf_eq] at same
  | .member s target name, e', goesOn, goesOn', same => by
    simp only [Expr.visits, List.forall_mem_cons, List.forall_mem_append] at goesOn
    cases e' with
    | member s' target' name' =>
      simp only [Expr.visits, List.forall_mem_cons, List.forall_mem_append] at goesOn'
      simp only [Expr.translation, Option.some.injEq, Schema.Expression.access.injEq,
        Schema.Expression.identifier.injEq] at same
      exact .member (Expr.related_of_translation_eq goesOn.2.1 goesOn'.2.1 same.1) same.2
    | element s' target' index =>
      simp only [Expr.visits, List.forall_mem_cons, List.forall_mem_append] at goesOn'
      simp only [Expr.translation, Option.some.injEq, Schema.Expression.access.injEq] at same
      have object := Expr.related_of_translation_eq goesOn.2.1 goesOn'.2.1 same.1
      exact .memberElement object (related_identifier same.2.symm).1
    | _ => simp [Expr.translation, lowerLiteral_eq, lowerSelf_eq] at same
  | .element s target index, e', goesOn, goesOn', same => by
    simp only [Expr.visits, List.forall_mem_cons, List.forall_mem_append] at goesOn
    cases e' with
    | member s' target' name =>
      simp only [Expr.visits, List.forall_mem_cons, List.forall_mem_append] at goesOn'
      simp only [Expr.translation, Option.some.injEq, Schema.Expression.access.injEq] at same
      have object := Expr.related_of_translation_eq goesOn.2.1 goesOn'.2.1 same.1
      exact .elementMember object (related_identifier same.2).2
    | element s' target' index' =>
      simp only [Expr.visits, List.forall_mem_cons, List.forall_mem_append] at goesOn'
      simp only [Expr.translation, Option.some.injEq, Schema.Expression.access.injEq] at same
      have object := Expr.related_of_translation_eq goesOn.2.1 goesOn'.2.1 same.1
      exact .element object (Expr.related_of_translation_eq goesOn.2.2 goesOn'.2.2 same.2)
    | _ => simp [Expr.translation, lowerLiteral_eq, lowerSelf_eq] at same
  | .identifier s name, e', _, _, same => (related_identifier same.symm).1
  | .new s type arguments, e', goesOn, goesOn', same => by
    cases e' with
    | new s' type' arguments' =>
      simp only [Expr.visits, List.forall_mem_cons, List.forall_mem_append] at goesOn goesOn'
      obtain ⟨t, rfl⟩ := exists_type goesOn.2.1
      obtain ⟨t', rfl⟩ := exists_type goesOn'.2.1
      simp only [Expr.translation, Option.some.injEq, Schema.Expression.new.injEq,
        typeTranslation, Option.map_some, Option.getD_some] at same
      have types := (ResolvedType.translation_eq_iff t t').mp same.1
      exact .new types (Expr.relatedAll_of_translationAll_eq goesOn.2.2 goesOn'.2.2 same.2)
    | _ => simp [Expr.translation, lowerLiteral_eq, lowerSelf_eq] at same
  | .conditional s condition whenTrue whenFalse, e', goesOn, goesOn', same => by
    cases e' with
    | conditional s' condition' whenTrue' whenFalse' =>
      simp only [Expr.visits, List.forall_mem_cons, List.forall_mem_append] at goesOn goesOn'
      simp only [Expr.translation, Option.some.injEq, Schema.Expression.conditional.injEq] at same
      have first := Expr.related_of_translation_eq goesOn.2.1 goesOn'.2.1 same.1
      have second := Expr.related_of_translation_eq goesOn.2.2.1 goesOn'.2.2.1 same.2.1
      have third := Expr.related_of_translation_eq goesOn.2.2.2 goesOn'.2.2.2 same.2.2
      exact .conditional first second third
    | _ => simp [Expr.translation, lowerLiteral_eq, lowerSelf_eq] at same
  | .literal s value, e', _, _, same => by
    cases e' with
    | literal s' value' =>
      simp only [Expr.translation, lowerLiteral_eq, Option.some.injEq,
        Schema.Expression.literal.injEq] at same
      obtain rfl := Literal.lowered_injective (Prod.ext same.1 same.2)
      exact .literal value
    | _ => simp [Expr.translation, lowerLiteral_eq, lowerSelf_eq] at same
  | .parenthesized s inner, e', goesOn, goesOn', same => by
    cases e' with
    | parenthesized s' inner' =>
      simp only [Expr.visits, List.forall_mem_cons] at goesOn goesOn'
      simp only [Expr.translation, Option.some.injEq, Schema.Expression.parenthesized.injEq] at same
      exact .parenthesized (Expr.related_of_translation_eq goesOn.2 goesOn'.2 same)
    | _ => simp [Expr.translation, lowerLiteral_eq, lowerSelf_eq] at same
  | .unary s side operator operand, e', goesOn, goesOn', same => by
    cases e' with
    | unary s' side' operator' operand' =>
      simp only [Expr.visits, List.forall_mem_cons] at goesOn goesOn'
      simp only [Expr.translation, Option.some.injEq, Schema.Expression.unary.injEq] at same
      obtain ⟨sides, rfl, sameOperand⟩ := same
      obtain rfl := lowerSide_injective sides
      exact .unary side operator (Expr.related_of_translation_eq goesOn.2 goesOn'.2 sameOperand)
    | _ => simp [Expr.translation, lowerLiteral_eq, lowerSelf_eq] at same
  | .array s elements, e', goesOn, goesOn', same => by
    cases e' with
    | array s' elements' =>
      simp only [Expr.visits, List.forall_mem_cons] at goesOn goesOn'
      simp only [Expr.translation, Option.some.injEq, Schema.Expression.array.injEq] at same
      exact .array (Expr.relatedAll_of_translationAll_eq goesOn.2 goesOn'.2 same)
    | _ => simp [Expr.translation, lowerLiteral_eq, lowerSelf_eq] at same
  | .self s word, e', _, _, same => by
    cases e' with
    | identifier s' name =>
      simp only [Expr.translation, lowerSelf_eq, Option.some.injEq,
        Schema.Expression.identifier.injEq] at same
      exact .selfIdentifier same.symm
    | self s' word' =>
      simp only [Expr.translation, lowerSelf_eq, Option.some.injEq,
        Schema.Expression.identifier.injEq] at same
      obtain rfl := SelfWord.text_injective same
      exact .self word
    | _ => simp [Expr.translation, lowerLiteral_eq, lowerSelf_eq] at same
  | .wrapped .., _, _, _, same | .bare .., _, _, _, same | .other .., _, _, _, same =>
    .unsupported rfl (translation_eq_none_iff.mp same.symm)

theorem Expr.relatedAll_of_translationAll_eq : ∀ {es es' : List Expr},
    (∀ v ∈ Expr.visitsAll es, v.violation? f = none) →
    (∀ v ∈ Expr.visitsAll es', v.violation? g = none) →
    Expr.translationAll es = Expr.translationAll es' → es.Forall₂ Expr.Related es'
  | [], [], _, _, _ => .nil
  | [], _ :: _, _, _, same | _ :: _, [], _, _, same => by simp [Expr.translationAll] at same
  | e :: es, e' :: es', goesOn, goesOn', same => by
    simp only [Expr.visitsAll, List.forall_mem_append] at goesOn goesOn'
    simp only [Expr.translationAll, List.cons.injEq] at same
    have first := Expr.related_of_translation_eq goesOn.1 goesOn'.1 same.1
    have rest := Expr.relatedAll_of_translationAll_eq goesOn.2 goesOn'.2 same.2
    exact .cons first rest

end

end Tree

theorem lowerExpression_eq_ok_iff {f : Tree.File} {e : Tree.Expr} {slot : Option Schema.Expression}
    {collected after : Diagnostics} :
    (lowerExpression f.id e).runFrom collected = (.ok slot, after)
      ↔ (∀ v ∈ e.visits, v.violation? f = none) ∧ slot = e.translation
        ∧ after = collected ++ e.visits.flatMap (Visit.reports f.id) := by
  rw [lowerExpression_eq, runFrom_afterVisits_eq_ok_iff]

/-- Two expressions that are lowered, each in some file, have the same slot exactly when they are
related. -/
theorem lowerExpression_eq_iff_related {f g : Tree.File} {e e' : Tree.Expr}
    {slot slot' : Option Schema.Expression} {collected collected' after after' : Diagnostics}
    (done : (lowerExpression f.id e).runFrom collected = (.ok slot, after))
    (done' : (lowerExpression g.id e').runFrom collected' = (.ok slot', after')) :
    slot = slot' ↔ e.Related e' := by
  obtain ⟨goesOn, rfl, -⟩ := lowerExpression_eq_ok_iff.mp done
  obtain ⟨goesOn', rfl, -⟩ := lowerExpression_eq_ok_iff.mp done'
  exact ⟨Tree.Expr.related_of_translation_eq goesOn goesOn', Tree.Expr.translation_eq⟩

/-- The call `A$.This(...b)`, with a name that is reported and an argument that is not supported. -/
def memberCall : Tree.Expr :=
  .call ⟨0, 14⟩ (.member ⟨0, 7⟩ (.identifier ⟨0, 2⟩ "A$") ⟨"This", ⟨3, 7⟩⟩)
    [.wrapped ⟨8, 12⟩ .spread (.identifier ⟨11, 12⟩ "b")]

/-- A call of a member of `a` by its index, with a regular expression. -/
def elementCall (index : Tree.Expr) : Tree.Expr :=
  .call .zero (.element .zero (.identifier .zero "a") index) [.bare .zero .regexLiteral]

/-- The keyword `this` is an index that reads like the name `This`, and the string is not. -/
theorem lowerExpression_eq_iff_related_memberCall :
    ∃ slot after slot' after' other last,
      (lowerExpression 0 memberCall).runFrom [] = (.ok slot, after)
      ∧ (lowerExpression 0 (elementCall (.self .zero .this))).runFrom [] = (.ok slot', after')
      ∧ (lowerExpression 0 (elementCall (.literal .zero (.string "this")))).runFrom []
        = (.ok other, last)
      ∧ after.length = 2 ∧ slot = slot' ∧ memberCall.Related (elementCall (.self .zero .this))
      ∧ slot ≠ other ∧ ¬memberCall.Related (elementCall (.literal .zero (.string "this"))) := by
  have exactly (e : Tree.Expr) {slot slot' : Option Schema.Expression} {after after' : Diagnostics}
      (done : (lowerExpression 0 memberCall).runFrom [] = (.ok slot, after))
      (done' : (lowerExpression 0 e).runFrom [] = (.ok slot', after')) :
      slot = slot' ↔ memberCall.Related e :=
    lowerExpression_eq_iff_related (f := ⟨0, "a.ts", "", []⟩) (g := ⟨0, "a.ts", "", []⟩) done done'
  have alike : memberCall.Related (elementCall (.self .zero .this)) :=
    .call (.memberElement (.identifier rfl) (.identifierSelf rfl))
      (.cons (.unsupported rfl rfl) .nil)
  refine ⟨_, _, _, _, _, _, rfl, rfl, rfl, rfl, (exactly _ rfl rfl).mpr alike, alike, nofun, ?_⟩
  rw [← exactly _ rfl rfl]
  nofun

end NeutralSchema
