import NeutralSchema.Proofs.Json.Decoding
import NeutralSchema.Proofs.Lowering.Translation
import NeutralSchema.Proofs.Tree.Nesting
import NeutralSchema.Schema.Encode

/-!
# How deeply lowered schemas nest

A schema nests hardly more than its tree, except where a branch or loop body has no braces: there
the tree has one container and the schema has three. Main statement: `depth_fileTranslation`.
-/
namespace NeutralSchema

/-- A statement without braces adds one bare body where it stands as a body. -/
def Position.bareBody : Position → Nat
  | .entry => 0
  | .body => 1

namespace Tree

mutual

/-- How many bodies without braces stand inside each other in a statement, itself included if it is
such a body. -/
def Stmt.bareBodies (position : Position) : Stmt → Nat
  | .if _ _ thenBranch elseBranch =>
    max (thenBranch.bareBodies .body) (Stmt.bareBodiesElse elseBranch) + position.bareBody
  | .while _ _ body => body.bareBodies .body + position.bareBody
  | .forOf _ _ _ body => body.bareBodies .body + position.bareBody
  | .for _ _ _ _ body => body.bareBodies .body + position.bareBody
  | .block _ statements =>
    match position with
    | .entry => 0
    | .body => Stmt.bareBodiesAll statements
  | .return .. | .throw .. | .expression .. | .variable .. | .bare .. | .other .. =>
    position.bareBody

def Stmt.bareBodiesElse : Option Stmt → Nat
  | none => 0
  | some s => s.bareBodies .body

def Stmt.bareBodiesAll : List Stmt → Nat
  | [] => 0
  | s :: ss => max (s.bareBodies .entry) (Stmt.bareBodiesAll ss)

end

/-- The bare bodies in a member of a class. -/
def ClassMember.bareBodies : ClassMember → Nat
  | .method m => (m.body.map Stmt.bareBodiesAll).getD 0
  | .constructor k => (k.body.map Stmt.bareBodiesAll).getD 0
  | .property _ | .other _ _ => 0

/-- The largest count of a list. -/
def largest {α : Type} (count : α → Nat) (as : List α) : Nat :=
  as.foldr (fun a n => max (count a) n) 0

def Item.bareBodies : Item → Nat
  | .classDecl c => largest ClassMember.bareBodies c.members
  | .enumDecl _ | .other _ _ => 0

/-- How many bodies without braces stand inside each other in a file. -/
def File.bareBodies (f : File) : Nat := largest Item.bareBodies f.items

end Tree

open Json (depth depthAll depthEntries)
open Schema (DataType Expression Statement)

mutual

theorem depth_typeTranslation : ∀ t : Tree.ResolvedType, t.translation.encode.depth ≤ t.nesting
  | .mk name arguments => by
    have rest := depth_argumentsEntry arguments
    rw [Tree.ResolvedType.translation, Tree.ResolvedType.nesting]
    split <;> simp only [DataType.encode, depth, depthEntries] <;> omega

theorem depth_argumentsEntry : ∀ ts : List Tree.ResolvedType,
    depthEntries (DataType.argumentsEntry (Tree.ResolvedType.translationAll ts))
      ≤ Tree.ResolvedType.nestingAll ts
  | [] => Nat.le_refl 0
  | t :: ts => by
    have first := depth_typeTranslation t
    have rest := depthAll_typeTranslationAll ts
    simp only [Tree.ResolvedType.translationAll, DataType.argumentsEntry, depth, depthEntries,
      depthAll, Tree.ResolvedType.nestingAll]
    omega

theorem depthAll_typeTranslationAll : ∀ ts : List Tree.ResolvedType,
    depthAll (DataType.encodeAll (Tree.ResolvedType.translationAll ts)) + 1
      ≤ max 1 (Tree.ResolvedType.nestingAll ts)
  | [] => Nat.le_refl 1
  | t :: ts => by
    have first := depth_typeTranslation t
    have rest := depthAll_typeTranslationAll ts
    simp only [Tree.ResolvedType.translationAll, DataType.encodeAll, depthAll,
      Tree.ResolvedType.nestingAll]
    omega

end

/-- A missing type becomes `void`, which is a container as well. -/
theorem depth_declaredType (type : Option Tree.ResolvedType) :
    (Tree.typeTranslation type).encode.depth ≤ max 1 (Tree.typeNesting type) := by
  cases type with
  | none => exact Nat.le_refl 1
  | some t => exact Nat.le_trans (depth_typeTranslation t) (Nat.le_max_right _ _)

mutual

theorem depth_translation : ∀ e : Tree.Expr,
    (Expression.encodeSlot e.translation).depth ≤ e.nesting + 1
  | .call s callee arguments => by
    have method := depth_translation callee
    have rest := depthAll_translationAll arguments
    simp only [Tree.Expr.translation, Expression.encodeSlot, Expression.encode, Schema.node, depth,
      depthEntries, Tree.Expr.nesting]
    omega
  | .binary s left operator right => by
    have first := depth_translation left
    have second := depth_translation right
    simp only [Tree.Expr.translation, Expression.encodeSlot, Expression.encode, Schema.node, depth,
      depthEntries, Tree.Expr.nesting]
    omega
  | .member s target name => by
    have object := depth_translation target
    simp only [Tree.Expr.translation, Expression.encodeSlot, Expression.encode, Schema.node, depth,
      depthEntries, Tree.Expr.nesting]
    omega
  | .element s target index => by
    have object := depth_translation target
    have property := depth_translation index
    simp only [Tree.Expr.translation, Expression.encodeSlot, Expression.encode, Schema.node, depth,
      depthEntries, Tree.Expr.nesting]
    omega
  | .new s type arguments => by
    have first := depth_declaredType type
    have rest := depthAll_translationAll arguments
    simp only [Tree.Expr.translation, Expression.encodeSlot, Expression.encode, Schema.node, depth,
      depthEntries, Tree.Expr.nesting]
    omega
  | .conditional s condition whenTrue whenFalse => by
    have first := depth_translation condition
    have second := depth_translation whenTrue
    have third := depth_translation whenFalse
    simp only [Tree.Expr.translation, Expression.encodeSlot, Expression.encode, Schema.node, depth,
      depthEntries, Tree.Expr.nesting]
    omega
  | .parenthesized s inner => by
    have content := depth_translation inner
    simp only [Tree.Expr.translation, Expression.encodeSlot, Expression.encode, Schema.node, depth,
      depthEntries, Tree.Expr.nesting]
    omega
  | .unary s side operator operand => by
    have content := depth_translation operand
    simp only [Tree.Expr.translation, Expression.encodeSlot, Expression.encode, Schema.node, depth,
      depthEntries, Tree.Expr.nesting]
    omega
  | .array s elements => by
    have rest := depthAll_translationAll elements
    simp only [Tree.Expr.translation, Expression.encodeSlot, Expression.encode, Schema.node, depth,
      depthEntries, Tree.Expr.nesting]
    omega
  | .literal s value => by cases value <;> exact Nat.le_succ 1
  | .self s word => by cases word <;> exact Nat.le_succ 1
  | .identifier .. => Nat.le_succ 1
  | .wrapped .. | .bare .. | .other .. => Nat.zero_le _

theorem depthAll_translationAll : ∀ es : List Tree.Expr,
    depthAll (Expression.encodeSlots (Tree.Expr.translationAll es)) ≤ Tree.Expr.nestingAll es
  | [] => Nat.le_refl 0
  | e :: es => by
    have first := depth_translation e
    have rest := depthAll_translationAll es
    simp only [Tree.Expr.translationAll, Expression.encodeSlots, depthAll, Tree.Expr.nestingAll]
    omega

end

theorem depth_optionalTranslation (e : Option Tree.Expr) :
    (Expression.encodeSlot (Tree.optionalTranslation e)).depth ≤ Tree.optionalNesting e + 1 := by
  cases e with
  | none => exact Nat.zero_le _
  | some e => exact depth_translation e

theorem depth_declarator (d : Tree.Declarator) :
    (depthEntries d.translation.fields) ≤ d.nesting := by
  have content := depth_optionalTranslation d.initializer
  simp only [Tree.Declarator.translation, Schema.Variable.fields, depth, depthEntries,
    Tree.Declarator.nesting]
  omega

theorem depth_loopInitializer (clause : Option Tree.LoopInitializer) :
    (Schema.Variable.encodeSlot (clause.bind Tree.LoopInitializer.translation)).depth
      ≤ (clause.map Tree.LoopInitializer.nesting).getD 0 + 1 := by
  match clause with
  | none => exact Nat.zero_le _
  | some (.declarators []) => exact Nat.zero_le _
  | some (.declarators (d :: ds)) =>
    have first := depth_declarator d
    show depthEntries d.translation.fields + 1 ≤ max (d.nesting + 1) _ + 1 + 1
    omega
  | some (.expression e) =>
    cases e with
    | identifier s name => exact Nat.succ_le_succ (Nat.zero_le _)
    | _ => exact Nat.zero_le _

theorem depthAll_encodeAll_append (ss ts : List Statement) :
    depthAll (Statement.encodeAll (ss ++ ts))
      = max (depthAll (Statement.encodeAll ss)) (depthAll (Statement.encodeAll ts)) := by
  induction ss with
  | nil => exact (Nat.zero_max _).symm
  | cons s ss ih =>
    rw [List.cons_append, Statement.encodeAll, Statement.encodeAll, depthAll, depthAll, ih,
      Nat.max_assoc]

theorem depthAll_variables (ds : List Tree.Declarator) :
    depthAll (Statement.encodeAll (ds.map fun d => .variable d.translation))
      ≤ Tree.listNesting Tree.Declarator.nesting ds := by
  induction ds with
  | nil => exact Nat.le_refl 0
  | cons d ds ih =>
    have first := depth_declarator d
    simp only [List.map_cons, Statement.encodeAll, Statement.encode, Schema.node, depth,
      depthEntries, depthAll, Tree.listNesting]
    omega

mutual

/-- As a body a statement is in two more containers of the schema: a block and its list. -/
theorem depthAll_stmtTranslation (position : Position) : ∀ s : Tree.Stmt,
    depthAll (Statement.encodeAll (s.translation position)) + 2 * position.bareBody
      ≤ s.nesting + 2 * s.bareBodies position + 1
  | .if span condition thenBranch elseBranch => by
    have test := depth_translation condition
    have first := depthAll_stmtTranslation .body thenBranch
    have second := depth_elseEntry elseBranch
    simp only [Position.bareBody] at first
    simp only [Tree.Stmt.translation, Statement.encodeAll, Statement.encode, Schema.node, depth,
      depthEntries, depthAll, Tree.Stmt.nesting, Tree.Stmt.bareBodies]
    omega
  | .return span value => by
    have content := depth_optionalTranslation value
    simp only [Tree.Stmt.translation, Statement.encodeAll, Statement.encode, Schema.node, depth,
      depthEntries, depthAll, Tree.Stmt.nesting, Tree.Stmt.bareBodies]
    omega
  | .throw span value => by
    have content := depth_translation value
    simp only [Tree.Stmt.translation, Statement.encodeAll, Statement.encode, Schema.node, depth,
      depthEntries, depthAll, Tree.Stmt.nesting, Tree.Stmt.bareBodies]
    omega
  | .expression span value => by
    have content := depth_translation value
    simp only [Tree.Stmt.translation, Statement.encodeAll, Statement.encode, Schema.node, depth,
      depthEntries, depthAll, Tree.Stmt.nesting, Tree.Stmt.bareBodies]
    omega
  | .variable span declarators => by
    have all := depthAll_variables declarators
    simp only [Tree.Stmt.translation, Tree.Stmt.nesting, Tree.Stmt.bareBodies]
    omega
  | .while span condition body => by
    have test := depth_translation condition
    have content := depthAll_stmtTranslation .body body
    simp only [Position.bareBody] at content
    simp only [Tree.Stmt.translation, Statement.encodeAll, Statement.encode, Schema.node, depth,
      depthEntries, depthAll, Tree.Stmt.nesting, Tree.Stmt.bareBodies]
    omega
  | .forOf span clause items body => by
    have item := depth_loopInitializer (some clause)
    have collection := depth_translation items
    have content := depthAll_stmtTranslation .body body
    simp only [Position.bareBody] at content
    simp only [Option.bind_some, Option.map_some, Option.getD_some] at item
    simp only [Tree.Stmt.translation, Statement.encodeAll, Statement.encode, Schema.node, depth,
      depthEntries, depthAll, Tree.Stmt.nesting, Tree.Stmt.bareBodies]
    omega
  | .for span clause condition step body => by
    have item := depth_loopInitializer clause
    have test := depth_optionalTranslation condition
    have progress := depth_optionalTranslation step
    have content := depthAll_stmtTranslation .body body
    simp only [Position.bareBody] at content
    simp only [Tree.Stmt.translation, Statement.encodeAll, Statement.encode, Schema.node, depth,
      depthEntries, depthAll, Tree.Stmt.nesting, Tree.Stmt.bareBodies]
    omega
  | .block span statements => by
    have content := depthAll_stmtTranslationAll statements
    cases position with
    | entry => exact Nat.zero_le _
    | body =>
      simp only [Tree.Stmt.translation, Position.bareBody, Tree.Stmt.nesting, Tree.Stmt.bareBodies]
      omega
  | .bare .. | .other .. => by
    simp only [Tree.Stmt.translation, Statement.encodeAll, depthAll, Tree.Stmt.nesting,
      Tree.Stmt.bareBodies]
    omega

theorem depth_elseEntry : ∀ s : Option Tree.Stmt,
    depthEntries (Statement.elseEntry (Tree.Stmt.translationElse s))
      ≤ Tree.Stmt.nestingElse s + 2 * Tree.Stmt.bareBodiesElse s + 1
  | none => Nat.zero_le _
  | some s => by
    have content := depthAll_stmtTranslation .body s
    simp only [Position.bareBody] at content
    simp only [Tree.Stmt.translationElse, Statement.elseEntry, depth, depthEntries,
      Tree.Stmt.nestingElse, Tree.Stmt.bareBodiesElse]
    omega

theorem depthAll_stmtTranslationAll : ∀ ss : List Tree.Stmt,
    depthAll (Statement.encodeAll (Tree.Stmt.translationAll ss))
      ≤ Tree.Stmt.nestingAll ss + 2 * Tree.Stmt.bareBodiesAll ss
  | [] => Nat.zero_le _
  | s :: ss => by
    have first := depthAll_stmtTranslation .entry s
    have rest := depthAll_stmtTranslationAll ss
    simp only [Position.bareBody] at first
    simp only [Tree.Stmt.translationAll, depthAll_encodeAll_append, Tree.Stmt.nestingAll,
      Tree.Stmt.bareBodiesAll]
    omega

end

theorem le_largest {α : Type} (count : α → Nat) {a : α} {as : List α} (mem : a ∈ as) :
    count a ≤ Tree.largest count as := by
  induction as with
  | nil => cases mem
  | cons b as ih =>
    rcases List.mem_cons.mp mem with rfl | mem
    · exact Nat.le_max_left _ _
    · exact Nat.le_trans (ih mem) (Nat.le_max_right _ _)

theorem lt_listNesting {α : Type} (size : α → Nat) {a : α} {as : List α} (mem : a ∈ as) :
    size a < Tree.listNesting size as :=
  Tree.listNesting_le_iff.mp (Nat.le_refl _) a mem

theorem depth_parameters (ps : List Tree.Parameter) :
    depthAll ((ps.map Tree.Parameter.translation).map Schema.Parameter.encode)
      ≤ Tree.listNesting Tree.Parameter.nesting ps := by
  induction ps with
  | nil => exact Nat.le_refl 0
  | cons p ps ih =>
    have type := depth_declaredType p.type
    simp only [List.map_cons, Tree.Parameter.translation, Schema.Parameter.encode, depth,
      depthEntries, depthAll, Tree.listNesting, Tree.Parameter.nesting]
    omega

theorem depth_body (body : Option Tree.Block) :
    (Schema.Block.encode (Tree.bodyTranslation body)).depth
      ≤ max 2 (Tree.bodyNesting body + 2 * (body.map Tree.Stmt.bareBodiesAll).getD 0 + 1) := by
  cases body with
  | none => exact Nat.le_max_left _ _
  | some statements =>
    have content := depthAll_stmtTranslationAll statements
    simp only [Tree.bodyTranslation, Tree.bodyNesting, Option.map_some, Option.getD_some,
      Schema.Block.encode, depth, depthEntries]
    omega

theorem depth_method (m : Tree.Method) :
    m.translation.encode.depth
      ≤ max 3 (m.nesting + 2 * (Tree.ClassMember.method m).bareBodies + 1) := by
  have parameters := depth_parameters m.parameters
  have returns := depth_declaredType m.returnType
  have body := depth_body m.body
  simp only [Tree.Method.translation, Schema.Method.encode, depth, depthEntries,
    Tree.Method.nesting, Tree.ClassMember.bareBodies]
  omega

theorem depth_constructor (k : Tree.Constructor) :
    k.translation.encode.depth
      ≤ max 3 (k.nesting + 2 * (Tree.ClassMember.constructor k).bareBodies + 1) := by
  have parameters := depth_parameters k.parameters
  have body := depth_body k.body
  simp only [Tree.Constructor.translation, Schema.Constructor.encode, depth, depthEntries,
    Tree.Constructor.nesting, Tree.ClassMember.bareBodies]
  omega

theorem depth_field (type : Option Tree.ResolvedType) (visibility : Schema.Visibility)
    (defaultValue : Option String) :
    (Schema.Field.encode ⟨Tree.typeTranslation type, visibility, defaultValue⟩).depth
      ≤ max 2 (Tree.typeNesting type + 1) := by
  have content := depth_declaredType type
  have flat : depthEntries
      (Schema.optionalEntry "defaultValue" (defaultValue.map Json.string)) = 0 := by
    cases defaultValue <;> rfl
  simp only [Schema.Field.encode, depth, depthEntries, flat]
  omega

/-- How many containers the values of a map nest. -/
def mapDepth {α : Type} (encode : α → Json) (m : OrderedMap α) : Nat :=
  depthEntries (m.toList.map fun entry => (entry.1, encode entry.2))

theorem mapDepth_insert {α : Type} {encode : α → Json} {m : OrderedMap α} {n : Nat}
    (before : mapDepth encode m ≤ n) (key : String) {value : α}
    (less : (encode value).depth ≤ n) : mapDepth encode (m.insert key value) ≤ n := by
  rcases m with ⟨entries, nodup⟩
  simp only [mapDepth, OrderedMap.toList_insert] at before ⊢
  clear nodup
  induction entries with
  | nil => exact Nat.max_le.mpr ⟨less, Nat.zero_le n⟩
  | cons e entries ih =>
    obtain ⟨first, rest⟩ := Nat.max_le.mp before
    by_cases same : e.1 = key
    · rw [insertEntry, if_pos same]
      exact Nat.max_le.mpr ⟨less, rest⟩
    · rw [insertEntry, if_neg same]
      exact Nat.max_le.mpr ⟨first, ih rest⟩

/-- The members of a class nest at most so many containers. -/
structure ClassFits (n : Nat) (c : Schema.Class) : Prop where
  fields : mapDepth Schema.Field.encode c.fields ≤ n
  methods : mapDepth Schema.Method.encode c.methods ≤ n
  constructor : ∀ k ∈ c.constructor, k.encode.depth ≤ n

theorem depth_class {n : Nat} {c : Schema.Class} (fits : ClassFits n c) : c.encode.depth ≤ n + 2 := by
  have fields := fits.fields
  have methods := fits.methods
  have entry : depthEntries
      (Schema.optionalEntry "constructor" (c.constructor.map Schema.Constructor.encode)) ≤ n := by
    cases found : c.constructor with
    | none => exact Nat.zero_le n
    | some k => exact Nat.max_le.mpr ⟨fits.constructor k found, Nat.zero_le n⟩
  simp only [mapDepth] at fields methods
  simp only [Schema.Class.encode, Schema.encodeMap, depth, depthEntries]
  omega

theorem mapDepth_promoted {n : Nat} {fields : OrderedMap Schema.Field}
    (before : mapDepth Schema.Field.encode fields ≤ n) {ps : List Tree.Parameter}
    (room : Tree.listNesting Tree.Parameter.nesting ps ≤ n) (least : 2 ≤ n) :
    mapDepth Schema.Field.encode (Tree.promotedTranslation fields ps) ≤ n := by
  have each : ∀ p ∈ ps.filter Tree.Parameter.isPromoted, p.fieldTranslation.encode.depth ≤ n := by
    intro p mem
    have inside := lt_listNesting Tree.Parameter.nesting (List.mem_filter.mp mem).1
    have content := depth_field p.type p.modifiers.fieldVisibility none
    simp only [Tree.Parameter.nesting] at inside
    simp only [Tree.Parameter.fieldTranslation]
    omega
  rw [Tree.promotedTranslation]
  refine List.foldlRecOn (motive := fun m => mapDepth Schema.Field.encode m ≤ n) _ _ before
    fun m fits p mem => ?_
  exact mapDepth_insert fits _ (each p mem)

/-- One more member leaves a class within a bound that holds for the member. -/
theorem classFits_member (f : Tree.File) {n : Nat} {c : Schema.Class} (before : ClassFits n c)
    {m : Tree.ClassMember} (room : m.nesting + 2 * m.bareBodies + 1 ≤ n) (least : 3 ≤ n) :
    ClassFits n (Tree.memberTranslation f c m) := by
  cases m with
  | property p =>
    rw [Tree.memberTranslation]
    split
    · exact before
    · refine { before with fields := mapDepth_insert before.fields _ ?_ }
      have content := depth_field p.type p.modifiers.fieldVisibility
        (p.initializer.bind fun e => f.textAt? e.span)
      simp only [Tree.ClassMember.nesting, Tree.Property.nesting] at room
      simp only [Tree.Property.translation]
      omega
  | method m =>
    rw [Tree.memberTranslation]
    split
    · exact before
    · refine { before with methods := mapDepth_insert before.methods _ ?_ }
      have content := depth_method m
      simp only [Tree.ClassMember.nesting] at room
      omega
  | constructor k =>
    rw [Tree.memberTranslation.eq_def]
    simp only
    split
    · exact before
    · have content := depth_constructor k
      simp only [Tree.ClassMember.nesting] at room
      refine ⟨mapDepth_promoted before.fields ?_ (by omega), before.methods, ?_⟩
      · simp only [Tree.Constructor.nesting] at room
        omega
      · intro l found
        cases found
        omega
  | other construct span => exact before

theorem depth_classTranslation (f : Tree.File) (c : Tree.Class) :
    (c.translation f).encode.depth
      ≤ max 5 (c.nesting + 2 * (Tree.Item.classDecl c).bareBodies + 1) := by
  have fits : ClassFits (max 3 (Tree.listNesting Tree.ClassMember.nesting c.members
      + 2 * Tree.largest Tree.ClassMember.bareBodies c.members)) (c.translation f) := by
    refine List.foldlRecOn _ _ ⟨Nat.zero_le _, Nat.zero_le _, nofun⟩ fun s before m mem => ?_
    have inside := lt_listNesting Tree.ClassMember.nesting mem
    have counted := le_largest Tree.ClassMember.bareBodies mem
    exact classFits_member f before (by omega) (Nat.le_max_left _ _)
  have bounded := depth_class fits
  simp only [Tree.Class.nesting, Tree.Item.bareBodies]
  omega

theorem depth_enumTranslation (e : Tree.Enum) : e.translation.encode.depth ≤ e.nesting + 1 := by
  have values (ms : List Tree.EnumMember) :
      depthAll ((ms.map fun m => Name.normalize m.name.text).map
        fun name => Json.object [("name", .string name)])
        ≤ Tree.listNesting (fun _ => 1) ms := by
    induction ms with
    | nil => exact Nat.le_refl 0
    | cons m ms ih =>
      simp only [List.map_cons, depth, depthEntries, depthAll, Tree.listNesting]
      omega
  have all := values e.members
  simp only [Tree.Enum.translation, Schema.Enum.encode, depth, depthEntries, Tree.Enum.nesting]
  omega

/-- The declarations of a schema nest at most so many containers. -/
structure FileFits (n : Nat) (s : Schema.File) : Prop where
  enums : mapDepth Schema.Enum.encode s.enums ≤ n
  classes : mapDepth Schema.Class.encode s.classes ≤ n

theorem depth_file {n : Nat} {s : Schema.File} (fits : FileFits n s) : s.encode.depth ≤ n + 2 := by
  have enums := fits.enums
  have classes := fits.classes
  simp only [mapDepth] at enums classes
  simp only [Schema.File.encode, Schema.encodeMap, depth, depthEntries]
  omega

/-- One more declaration leaves a schema within a bound that holds for the declaration. -/
theorem fileFits_item (f : Tree.File) {n : Nat} {s : Schema.File} (before : FileFits n s)
    {i : Tree.Item} (room : i.nesting + 2 * i.bareBodies + 1 ≤ n) (least : 5 ≤ n) :
    FileFits n (Tree.itemTranslation f s i) := by
  cases i with
  | enumDecl e =>
    have content := depth_enumTranslation e
    simp only [Tree.Item.nesting, Tree.Item.bareBodies] at room
    exact { before with enums := mapDepth_insert before.enums _ (by omega) }
  | classDecl c =>
    have content := depth_classTranslation f c
    simp only [Tree.Item.nesting] at room
    exact { before with classes := mapDepth_insert before.classes _ (by omega) }
  | other construct span => exact before

/-- A schema nests at most one container more than its tree, and two more for each bare body inside
another. No smaller tree makes up for the containers that every method has. -/
theorem depth_fileTranslation (f : Tree.File) :
    f.translation.encode.depth ≤ max 7 (f.nesting + 2 * f.bareBodies + 1) := by
  have fits : FileFits (max 5 (Tree.listNesting Tree.Item.nesting f.items
      + 2 * Tree.largest Tree.Item.bareBodies f.items)) f.translation := by
    refine List.foldlRecOn _ _ ⟨Nat.zero_le _, Nat.zero_le _⟩ fun s before i mem => ?_
    have inside := lt_listNesting Tree.Item.nesting mem
    have counted := le_largest Tree.Item.bareBodies mem
    exact fileFits_item f before (by omega) (Nat.le_max_left _ _)
  have bounded := depth_file fits
  simp only [Tree.File.nesting, Tree.File.bareBodies]
  omega

end NeutralSchema
