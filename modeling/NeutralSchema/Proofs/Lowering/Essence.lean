import NeutralSchema.Lowering.File

/-!
# What lowering ignores

The essence of a tree is the tree with everything that lowering ignores taken out, or replaced by
fixed content where something has to stand. A tree lowers like its essence, so two trees of one
essence have the same outcome and the same diagnostics. Main statement: `lowerFile_eq_of_essence_eq`.
-/
namespace NeutralSchema

namespace Tree

mutual

/-- A type by its name alone. Primitive types lose their arguments. -/
def ResolvedType.essence : ResolvedType → ResolvedType
  | .mk name arguments =>
    match (ResolvedType.mk name []).canonicalName with
    | "number" => .symbol "number"
    | "string" => .symbol "string"
    | "boolean" => .symbol "boolean"
    | "void" => .symbol "void"
    | name => .generic name (ResolvedType.essenceAll arguments)

def ResolvedType.essenceAll : List ResolvedType → List ResolvedType
  | [] => []
  | t :: ts => t.essence :: ResolvedType.essenceAll ts

end

/-- What stands where an expression has to stand but is ignored. -/
def Expr.blank : Expr := .literal .zero .null

mutual

/-- An expression without the operands of unsupported kinds. Where no report can point to it, its
span is ignored as well. -/
def Expr.essence : Expr → Expr
  | .call _ callee arguments => .call .zero callee.essence (Expr.essenceAll arguments)
  | .binary _ left operator right => .binary .zero left.essence operator right.essence
  | .member _ target name => .member .zero target.essence name
  | .element _ target index => .element .zero target.essence index.essence
  | .identifier span name => .identifier span name
  | .new span type arguments =>
    .new span (type.map ResolvedType.essence) (Expr.essenceAll arguments)
  | .conditional _ condition whenTrue whenFalse =>
    .conditional .zero condition.essence whenTrue.essence whenFalse.essence
  | .literal _ value => .literal .zero value
  | .parenthesized _ inner => .parenthesized .zero inner.essence
  | .unary _ side operator operand => .unary .zero side operator operand.essence
  | .array _ elements => .array .zero (Expr.essenceAll elements)
  | .self _ word => .self .zero word
  | .wrapped span form _ => .wrapped span form .blank
  | .bare span form => .bare span form
  | .other span construct => .other span construct

def Expr.essenceAll : List Expr → List Expr
  | [] => []
  | e :: es => e.essence :: Expr.essenceAll es

end

/-- A declarator without its type. -/
def Declarator.essence (d : Declarator) : Declarator :=
  ⟨d.name, none, d.initializer.map Expr.essence, .zero⟩

def Declarator.blank : Declarator := ⟨⟨"", .zero⟩, none, none, .zero⟩

/-- Of several declarators only the first counts, and how many there are; of an expression other
than an identifier, only what reports call it and its span. -/
def LoopInitializer.essence : LoopInitializer → LoopInitializer
  | .declarators [] => .declarators []
  | .declarators (d :: ds) => .declarators (d.essence :: ds.map fun _ => .blank)
  | .expression (.identifier span name) => .expression (.identifier span name)
  | .expression e => .expression (.other e.span e.description)

mutual

/-- A statement without the statements of blocks that are entries of a statement list. -/
def Stmt.essence (position : Position) : Stmt → Stmt
  | .if _ condition thenBranch elseBranch =>
    .if .zero condition.essence (thenBranch.essence .body) (Stmt.essenceElse elseBranch)
  | .return _ value => .return .zero (value.map Expr.essence)
  | .throw _ value => .throw .zero value.essence
  | .expression _ value => .expression .zero value.essence
  | .variable _ declarators => .variable .zero (declarators.map Declarator.essence)
  | .while _ condition body => .while .zero condition.essence (body.essence .body)
  | .forOf span initializer items body =>
    .forOf span initializer.essence items.essence (body.essence .body)
  | .for span initializer condition step body =>
    .for span (initializer.map LoopInitializer.essence) (condition.map Expr.essence)
      (step.map Expr.essence) (body.essence .body)
  | .block span statements =>
    match position with
    | .entry => .block span []
    | .body => .block .zero (Stmt.essenceAll statements)
  | .bare span form => .bare span form
  | .other span construct => .other span construct

def Stmt.essenceElse : Option Stmt → Option Stmt
  | none => none
  | some s => some (s.essence .body)

def Stmt.essenceAll : List Stmt → List Stmt
  | [] => []
  | s :: ss => s.essence .entry :: Stmt.essenceAll ss

end

/-- A parameter of a method, where modifiers say nothing. -/
def Parameter.essence (p : Parameter) : Parameter :=
  ⟨p.name, p.type.map ResolvedType.essence, .none, p.span⟩

/-- A parameter of a constructor, where modifiers other than `static` declare a field. -/
def Parameter.promotableEssence (p : Parameter) : Parameter :=
  ⟨p.name, p.type.map ResolvedType.essence, { p.modifiers with isStatic := false }, p.span⟩

/-- An instance property. Of its initializer only the source text counts. -/
def Property.essence (p : Property) : Property :=
  ⟨p.name, p.type.map ResolvedType.essence, ⟨p.modifiers.visibility, false, false⟩,
    p.initializer.map fun e => .other e.span "", p.span⟩

/-- An instance method. -/
def Method.essence (m : Method) : Method :=
  ⟨m.name, m.parameters.map Parameter.essence, m.returnType.map ResolvedType.essence, .none,
    m.body.map Stmt.essenceAll, m.span⟩

/-- The first constructor of a class. -/
def Constructor.essence (k : Constructor) : Constructor :=
  ⟨k.parameters.map Parameter.promotableEssence, k.body.map Stmt.essenceAll, k.span⟩

/-- The members of a class, which has had its first constructor or not: of later constructors only
the span counts, and static members and others are taken out. -/
def memberEssences (hasConstructor : Bool) : List ClassMember → List ClassMember
  | [] => []
  | .property p :: ms =>
    if p.modifiers.isStatic then memberEssences hasConstructor ms
    else .property p.essence :: memberEssences hasConstructor ms
  | .method m :: ms =>
    if m.modifiers.isStatic then memberEssences hasConstructor ms
    else .method m.essence :: memberEssences hasConstructor ms
  | .constructor k :: ms =>
    .constructor (if hasConstructor then ⟨[], none, k.span⟩ else k.essence)
      :: memberEssences true ms
  | .other _ _ :: ms => memberEssences hasConstructor ms

def Class.essence (c : Class) : Class := ⟨c.name, memberEssences false c.members, .zero⟩

/-- An enum without the values of its members. -/
def Enum.essence (e : Enum) : Enum := ⟨e.name, e.members.map fun m => ⟨m.name, none⟩, .zero⟩

def Item.essence? : Item → Option Item
  | .enumDecl e => some (.enumDecl e.essence)
  | .classDecl c => some (.classDecl c.essence)
  | .other _ _ => none

/-- A file without what lowering ignores. -/
def File.essence (f : File) : File := { f with items := f.items.filterMap Item.essence? }

end Tree

section

variable (source : FileSpan) (file : FileId)

mutual

theorem lowerType_essence : ∀ t : Tree.ResolvedType,
    lowerType source t.essence = lowerType source t
  | .mk name arguments => by
    have inner := lowerTypes_essence arguments
    have canonical (n : String) (ts : List Tree.ResolvedType) :
        (Tree.ResolvedType.mk (.symbol n) ts).canonicalName = n := rfl
    unfold Tree.ResolvedType.essence
    split
    next h => simp [lowerType, h, Tree.ResolvedType.symbol, canonical]
    next h => simp [lowerType, h, Tree.ResolvedType.symbol, canonical]
    next h => simp [lowerType, h, Tree.ResolvedType.symbol, canonical]
    next h => simp [lowerType, h, Tree.ResolvedType.symbol, canonical]
    next => simp [lowerType, Tree.ResolvedType.generic, canonical, inner]

theorem lowerTypes_essence : ∀ ts : List Tree.ResolvedType,
    lowerTypes source (Tree.ResolvedType.essenceAll ts) = lowerTypes source ts
  | [] => rfl
  | t :: ts => by
    have first := lowerType_essence t
    have rest := lowerTypes_essence ts
    simp [Tree.ResolvedType.essenceAll, lowerTypes, first, rest]

end

theorem lowerDeclaredType_essence (owner : Owner) (type : Option Tree.ResolvedType) :
    lowerDeclaredType owner source (type.map Tree.ResolvedType.essence)
      = lowerDeclaredType owner source type := by
  cases type with
  | none => rfl
  | some t => exact lowerType_essence source t

mutual

theorem lowerExpression_essence : ∀ e : Tree.Expr,
    lowerExpression file e.essence = lowerExpression file e
  | .call span callee arguments => by
    have method := lowerExpression_essence callee
    have slots := lowerExpressions_essence arguments
    simp [Tree.Expr.essence, lowerExpression, method, slots]
  | .binary span left operator right => by
    have first := lowerExpression_essence left
    have second := lowerExpression_essence right
    simp [Tree.Expr.essence, lowerExpression, first, second]
  | .member span target name => by
    have object := lowerExpression_essence target
    simp [Tree.Expr.essence, lowerExpression, object]
  | .element span target index => by
    have object := lowerExpression_essence target
    have property := lowerExpression_essence index
    simp [Tree.Expr.essence, lowerExpression, object, property]
  | .new span type arguments => by
    have slots := lowerExpressions_essence arguments
    simp [Tree.Expr.essence, lowerExpression, lowerDeclaredType_essence, slots]
  | .conditional span condition whenTrue whenFalse => by
    have first := lowerExpression_essence condition
    have second := lowerExpression_essence whenTrue
    have third := lowerExpression_essence whenFalse
    simp [Tree.Expr.essence, lowerExpression, first, second, third]
  | .parenthesized span inner => by
    have content := lowerExpression_essence inner
    simp [Tree.Expr.essence, lowerExpression, content]
  | .unary span side operator operand => by
    have content := lowerExpression_essence operand
    simp [Tree.Expr.essence, lowerExpression, content]
  | .array span elements => by
    have slots := lowerExpressions_essence elements
    simp [Tree.Expr.essence, lowerExpression, slots]
  | .wrapped span form inner => by cases form <;> rfl
  | .identifier .. | .literal .. | .self .. | .bare .. | .other .. => rfl

theorem lowerExpressions_essence : ∀ es : List Tree.Expr,
    lowerExpressions file (Tree.Expr.essenceAll es) = lowerExpressions file es
  | [] => rfl
  | e :: es => by
    have first := lowerExpression_essence e
    have rest := lowerExpressions_essence es
    simp [Tree.Expr.essenceAll, lowerExpressions, first, rest]

end

theorem lowerOptional_essence (e : Option Tree.Expr) :
    lowerOptional file (e.map Tree.Expr.essence) = lowerOptional file e := by
  cases e with
  | none => rfl
  | some e => exact lowerExpression_essence file e

theorem lowerVariable_essence (d : Tree.Declarator) :
    lowerVariable file d.essence = lowerVariable file d := by
  simp [lowerVariable, Tree.Declarator.essence, lowerOptional_essence]

theorem lowerVariables_essence (ds : List Tree.Declarator) :
    lowerVariables file (ds.map Tree.Declarator.essence) = lowerVariables file ds := by
  induction ds with
  | nil => rfl
  | cons d ds ih => simp [lowerVariables, lowerVariable_essence, ih]

theorem lowerLoopInitializer_essence (span : Span) (initializer : Tree.LoopInitializer) :
    lowerLoopInitializer file span initializer.essence
      = lowerLoopInitializer file span initializer := by
  match initializer with
  | .declarators [] => rfl
  | .declarators [d] =>
    simp [Tree.LoopInitializer.essence, lowerLoopInitializer, lowerVariable_essence]
  | .declarators (d :: e :: ds) =>
    -- The report counts the declarators and names the first one.
    have name : d.essence.name = d.name := rfl
    simp [Tree.LoopInitializer.essence, lowerLoopInitializer, lowerVariable_essence, name]
  | .expression e => cases e <;> rfl

theorem lowerOptionalInitializer_essence (span : Span)
    (initializer : Option Tree.LoopInitializer) :
    lowerOptionalInitializer file span (initializer.map Tree.LoopInitializer.essence)
      = lowerOptionalInitializer file span initializer := by
  cases initializer with
  | none => rfl
  | some initializer => exact lowerLoopInitializer_essence file span initializer

mutual

theorem lowerStatementAt_essence (position : Position) : ∀ s : Tree.Stmt,
    lowerStatementAt position file (s.essence position) = lowerStatementAt position file s
  | .if span condition thenBranch elseBranch => by
    have first := lowerStatementAt_essence .body thenBranch
    have second := lowerElse_essence elseBranch
    simp [Tree.Stmt.essence, lowerStatementAt, lowerExpression_essence, first, second]
  | .return span value => by
    simp [Tree.Stmt.essence, lowerStatementAt, lowerOptional_essence]
  | .throw span value => by
    simp [Tree.Stmt.essence, lowerStatementAt, lowerExpression_essence]
  | .expression span value => by
    simp [Tree.Stmt.essence, lowerStatementAt, lowerExpression_essence]
  | .variable span declarators => by
    simp [Tree.Stmt.essence, lowerStatementAt, lowerVariables_essence]
  | .while span condition body => by
    have content := lowerStatementAt_essence .body body
    simp [Tree.Stmt.essence, lowerStatementAt, lowerExpression_essence, content]
  | .forOf span initializer items body => by
    have content := lowerStatementAt_essence .body body
    simp [Tree.Stmt.essence, lowerStatementAt, lowerLoopInitializer_essence,
      lowerExpression_essence, content]
  | .for span initializer condition step body => by
    have content := lowerStatementAt_essence .body body
    simp [Tree.Stmt.essence, lowerStatementAt, lowerOptionalInitializer_essence,
      lowerOptional_essence, content]
  | .block span statements => by
    cases position with
    | entry => rfl
    | body =>
      have content := lowerStatements_essence statements
      simp [Tree.Stmt.essence, lowerStatementAt, content]
  | .bare .. | .other .. => rfl

theorem lowerElse_essence : ∀ s : Option Tree.Stmt,
    lowerElse file (Tree.Stmt.essenceElse s) = lowerElse file s
  | none => rfl
  | some s => by
    have content := lowerStatementAt_essence .body s
    simp [Tree.Stmt.essenceElse, lowerElse, content]

theorem lowerStatements_essence : ∀ ss : List Tree.Stmt,
    lowerStatements file (Tree.Stmt.essenceAll ss) = lowerStatements file ss
  | [] => rfl
  | s :: ss => by
    have first := lowerStatementAt_essence .entry s
    have rest := lowerStatements_essence ss
    simp [Tree.Stmt.essenceAll, lowerStatements, first, rest]

end

theorem lowerOwnedBody_essence (owner : Owner) (body : Option Tree.Block) :
    lowerOwnedBody owner source (body.map Tree.Stmt.essenceAll)
      = lowerOwnedBody owner source body := by
  cases body with
  | none => rfl
  | some block => exact lowerStatements_essence source.file block

theorem lowerEnum_essence (e : Tree.Enum) : lowerEnum file e.essence = lowerEnum file e := by
  have members (ms : List Tree.EnumMember) :
      lowerEnumMembers file (ms.map fun m => ⟨m.name, none⟩) = lowerEnumMembers file ms := by
    induction ms with
    | nil => rfl
    | cons m ms ih => simp [lowerEnumMembers, ih]
  simp [lowerEnum, Tree.Enum.essence, members]

theorem lowerParameter_essence (className : String) (p : Tree.Parameter) :
    lowerParameter file className p.essence = lowerParameter file className p := by
  simp [lowerParameter, Tree.Parameter.essence, lowerDeclaredType_essence]

theorem lowerParameter_promotableEssence (className : String) (p : Tree.Parameter) :
    lowerParameter file className p.promotableEssence = lowerParameter file className p := by
  simp [lowerParameter, Tree.Parameter.promotableEssence, lowerDeclaredType_essence]

theorem lowerParameters_map {className : String} {change : Tree.Parameter → Tree.Parameter}
    (same : ∀ p, lowerParameter file className (change p) = lowerParameter file className p)
    (ps : List Tree.Parameter) :
    lowerParameters file className (ps.map change) = lowerParameters file className ps := by
  induction ps with
  | nil => rfl
  | cons p ps ih => simp [lowerParameters, same, ih]

theorem lowerPromoted_essence (className : String) (fields : OrderedMap Schema.Field)
    (ps : List Tree.Parameter) :
    lowerPromoted file className fields (ps.map Tree.Parameter.promotableEssence)
      = lowerPromoted file className fields ps := by
  induction ps generalizing fields with
  | nil => rfl
  | cons p ps ih =>
    have promoted : p.promotableEssence.isPromoted = p.isPromoted := rfl
    have visibility : p.promotableEssence.modifiers.visibility = p.modifiers.visibility := rfl
    simp only [List.map_cons, lowerPromoted, promoted, visibility,
      lowerParameter_promotableEssence, ih]

theorem lowerConstructor_essence (className : String) (k : Tree.Constructor) :
    lowerConstructor file className k.essence = lowerConstructor file className k := by
  have parameters := lowerParameters_map file (lowerParameter_promotableEssence file className)
    k.parameters
  simp [lowerConstructor, Tree.Constructor.essence, parameters, lowerOwnedBody_essence]

theorem lowerMethod_essence (className : String) (m : Tree.Method) :
    lowerMethod file className m.essence = lowerMethod file className m := by
  have parameters := lowerParameters_map file (lowerParameter_essence file className) m.parameters
  simp [lowerMethod, Tree.Method.essence, lowerDeclaredType_essence, parameters,
    lowerOwnedBody_essence]

end

section

variable (f : Tree.File)

theorem lowerProperty_essence (className : String) (p : Tree.Property) :
    lowerProperty f className p.essence = lowerProperty f className p := by
  have initializer : lowerDefault f p.essence.initializer = lowerDefault f p.initializer := by
    cases given : p.initializer <;> simp [Tree.Property.essence, given, lowerDefault, Tree.Expr.span]
  simp only [lowerProperty, initializer]
  simp [Tree.Property.essence, lowerDeclaredType_essence]

/-- Members lower like their essences, from a class that has a constructor already or not. -/
theorem lowerMembers_essence (declared className : String) (c : Schema.Class)
    (ms : List Tree.ClassMember) :
    lowerMembers f declared className c (Tree.memberEssences c.constructor.isSome ms)
      = lowerMembers f declared className c ms := by
  induction ms generalizing c with
  | nil => rfl
  | cons m ms ih =>
    cases m with
    | property p =>
      cases static : p.modifiers.isStatic with
      | true => simp [Tree.memberEssences, static, lowerMembers, lowerMember, ih]
      | false =>
        have instance_ : p.essence.modifiers.isStatic = false := rfl
        simp only [Tree.memberEssences, static, Bool.false_eq_true, if_false, lowerMembers,
          lowerMember, instance_, lowerProperty_essence, bind_assoc, pure_bind]
        apply bind_congr
        intro entry
        exact ih { c with fields := c.fields.insert entry.1 entry.2 }
    | method m =>
      cases static : m.modifiers.isStatic with
      | true => simp [Tree.memberEssences, static, lowerMembers, lowerMember, ih]
      | false =>
        have instance_ : m.essence.modifiers.isStatic = false := rfl
        simp only [Tree.memberEssences, static, Bool.false_eq_true, if_false, lowerMembers,
          lowerMember, instance_, lowerMethod_essence, bind_assoc, pure_bind]
        apply bind_congr
        intro entry
        exact ih { c with methods := c.methods.insert entry.1 entry.2 }
    | constructor k =>
      cases first : c.constructor with
      | some _ =>
        have rest := ih c
        simp only [first, Option.isSome_some] at rest
        simp only [Tree.memberEssences, Option.isSome_some, if_true, lowerMembers, lowerMember,
          first, bind_assoc, pure_bind, rest]
      | none =>
        have parameters : k.essence.parameters
            = k.parameters.map Tree.Parameter.promotableEssence := rfl
        simp only [Tree.memberEssences, Option.isSome_none, Bool.false_eq_true, if_false,
          lowerMembers, lowerMember, first, parameters, lowerPromoted_essence,
          lowerConstructor_essence, bind_assoc, pure_bind]
        apply bind_congr
        intro fields
        apply bind_congr
        intro lowered
        exact ih { c with fields := fields, constructor := some lowered }
    | other construct span => simp [Tree.memberEssences, lowerMembers, lowerMember, ih]

theorem lowerClass_essence (c : Tree.Class) : lowerClass f c.essence = lowerClass f c := by
  have members (name : String) :
      lowerMembers f c.name.text name .empty (Tree.memberEssences false c.members)
        = lowerMembers f c.name.text name .empty c.members :=
    lowerMembers_essence f c.name.text name .empty c.members
  simp [lowerClass, Tree.Class.essence, members]

theorem lowerItems_essence (s : Schema.File) (is : List Tree.Item) :
    lowerItems f s (is.filterMap Tree.Item.essence?) = lowerItems f s is := by
  induction is generalizing s with
  | nil => rfl
  | cons i is ih =>
    rw [List.filterMap_cons]
    cases i with
    | enumDecl e => simp [Tree.Item.essence?, lowerItems, lowerItem, lowerEnum_essence, ih]
    | classDecl c => simp [Tree.Item.essence?, lowerItems, lowerItem, lowerClass_essence, ih]
    | other construct span => simp [Tree.Item.essence?, lowerItems, lowerItem, ih]

end

/-- Lowering looks at the declarations of a file one by one, and otherwise only at its id, its path
and its text. -/
theorem lowerItems_withItems (f : Tree.File) (declared : List Tree.Item) (s : Schema.File)
    (is : List Tree.Item) : lowerItems { f with items := declared } s is = lowerItems f s is := by
  have members (own name : String) (c : Schema.Class) (ms : List Tree.ClassMember) :
      lowerMembers { f with items := declared } own name c ms = lowerMembers f own name c ms := by
    induction ms generalizing c with
    | nil => rfl
    | cons m ms ih =>
      have first : lowerMember { f with items := declared } own name c m
          = lowerMember f own name c m := by cases m <;> rfl
      simp only [lowerMembers, first, ih]
  induction is generalizing s with
  | nil => rfl
  | cons i is ih =>
    have first : lowerItem { f with items := declared } s i = lowerItem f s i := by
      cases i with
      | enumDecl | other => rfl
      | classDecl c => simp only [lowerItem, lowerClass, members, Tree.File.fileSpan]
    simp only [lowerItems, first, ih]

theorem lowerFile_essence (f : Tree.File) : lowerFile f.essence = lowerFile f := by
  rw [lowerFile, Tree.File.essence, lowerItems_withItems, lowerItems_essence, lowerFile]

/-- Two files that differ in nothing but what lowering ignores have the same schema or the same
error, and the same diagnostics. -/
theorem lowerFile_eq_of_essence_eq {f g : Tree.File} (alike : f.essence = g.essence)
    (collected : Diagnostics) :
    (lowerFile f).runFrom collected = (lowerFile g).runFrom collected := by
  rw [← lowerFile_essence f, alike, lowerFile_essence]

/-- A class with two constructors, the first one of statements that are lowered in part. -/
def sparse : Tree.File :=
  ⟨0, "a.ts", "7", [.enumDecl ⟨⟨"E", ⟨0, 1⟩⟩, [⟨⟨"V", ⟨2, 3⟩⟩, none⟩], ⟨0, 4⟩⟩,
    .classDecl ⟨⟨"A", ⟨0, 1⟩⟩,
      [.property ⟨⟨"x", ⟨0, 1⟩⟩, some (.intrinsic "number"), .none,
          some (.literal ⟨0, 1⟩ (.numeric "7")), ⟨0, 1⟩⟩,
        .constructor ⟨[], some
          [.block ⟨2, 3⟩ [], .expression ⟨4, 5⟩ (.wrapped ⟨6, 7⟩ .await .blank),
            .for ⟨8, 9⟩ (some (.declarators [⟨⟨"i", ⟨1, 2⟩⟩, none, none, ⟨3, 4⟩⟩, .blank])) none
              none (.block ⟨5, 6⟩ []),
            .forOf ⟨8, 9⟩ (.expression (.call ⟨1, 2⟩ .blank [])) .blank (.block ⟨5, 6⟩ [])],
          ⟨0, 9⟩⟩,
        .constructor ⟨[], none, ⟨10, 12⟩⟩], ⟨0, 13⟩⟩]⟩

/-- The same with more of what lowering ignores. -/
def ornate : Tree.File :=
  ⟨0, "a.ts", "7", [.other "function" ⟨20, 30⟩,
    .enumDecl ⟨⟨"E", ⟨0, 1⟩⟩, [⟨⟨"V", ⟨2, 3⟩⟩, some .blank⟩], ⟨0, 4⟩⟩,
    .classDecl ⟨⟨"A", ⟨0, 1⟩⟩,
      [.method ⟨⟨"$", ⟨0, 1⟩⟩, [], none, ⟨none, true, false⟩, none, ⟨0, 1⟩⟩,
        .property ⟨⟨"x", ⟨0, 1⟩⟩, some ⟨.symbol "number", [.symbol "$"]⟩, ⟨none, false, true⟩,
          some (.bare ⟨0, 1⟩ .arrowFunction), ⟨0, 1⟩⟩,
        .other "accessor" ⟨1, 2⟩,
        .constructor ⟨[], some
          [.block ⟨2, 3⟩ [.throw ⟨0, 0⟩ (.new ⟨0, 0⟩ none [])],
            .expression ⟨4, 5⟩ (.wrapped ⟨6, 7⟩ .await (.new ⟨0, 0⟩ none [])),
            .for ⟨8, 9⟩ (some (.declarators
                [⟨⟨"i", ⟨1, 2⟩⟩, some (.symbol "$"), none, ⟨3, 4⟩⟩,
                  ⟨⟨"$", ⟨1, 2⟩⟩, none, some (.new ⟨0, 0⟩ none []), ⟨3, 4⟩⟩])) none
              none (.block ⟨5, 6⟩ []),
            .forOf ⟨8, 9⟩ (.expression (.call ⟨1, 2⟩ (.identifier ⟨0, 0⟩ "$") [])) .blank
              (.block ⟨5, 6⟩ [])],
          ⟨0, 9⟩⟩,
        .constructor ⟨[⟨⟨"$", ⟨0, 0⟩⟩, none, .none, ⟨0, 0⟩⟩], some [.bare ⟨0, 0⟩ .try],
          ⟨10, 12⟩⟩], ⟨0, 13⟩⟩]⟩

theorem lowerFile_sparse_eq_ornate :
    sparse.items.length < ornate.items.length ∧ sparse.essence = ornate.essence
      ∧ (lowerFile sparse).runFrom [] = (lowerFile ornate).runFrom [] :=
  ⟨by decide, rfl, lowerFile_eq_of_essence_eq rfl []⟩

end NeutralSchema
