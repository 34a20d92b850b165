import NeutralSchema.Proofs.Lowering.Separation

/-!
# Expression slots

The expression slots of a syntax block and those of the schema block that it lowers to stand in the
same order, so that each slot of the schema has a place of the tree that it stands for. Main
statement: `blockSlots_translationAll`.
-/
namespace NeutralSchema

namespace Schema

mutual

/-- The expression slots inside an expression, in order. -/
def Expression.slots : Expression → List (Option Expression)
  | .call method arguments => slotsOf method ++ slotsOfAll arguments
  | .binary left right _ => slotsOf left ++ slotsOf right
  | .access target property => slotsOf target ++ slotsOf property
  | .new _ arguments => slotsOfAll arguments
  | .conditional condition whenTrue whenFalse =>
    slotsOf condition ++ (slotsOf whenTrue ++ slotsOf whenFalse)
  | .parenthesized inner => slotsOf inner
  | .unary _ _ operand => slotsOf operand
  | .array items => slotsOfAll items
  | .identifier _ | .literal _ _ => []

/-- A slot and the slots inside it. -/
def slotsOf : Option Expression → List (Option Expression)
  | none => [none]
  | some e => some e :: e.slots

def slotsOfAll : List (Option Expression) → List (Option Expression)
  | [] => []
  | slot :: rest => slotsOf slot ++ slotsOfAll rest

end

/-- The slots of a variable that may be absent. -/
def itemSlots (item : Option Variable) : List (Option Expression) :=
  (item.map fun v => slotsOf v.initializer).getD []

mutual

/-- The expression slots of a statement, in order. -/
def Statement.slots : Statement → List (Option Expression)
  | .if condition thenBlock elseBlock =>
    slotsOf condition ++ (blockSlots thenBlock ++ elseSlots elseBlock)
  | .return value => slotsOf value
  | .throw value => slotsOf value
  | .expression value => slotsOf value
  | .variable declared => slotsOf declared.initializer
  | .while condition body => slotsOf condition ++ blockSlots body
  | .foreach item items body => itemSlots item ++ (slotsOf items ++ blockSlots body)
  | .for item condition step body =>
    itemSlots item ++ (slotsOf condition ++ (slotsOf step ++ blockSlots body))

def elseSlots : Option (List Statement) → List (Option Expression)
  | none => []
  | some block => blockSlots block

/-- The expression slots of a block, in order. -/
def blockSlots : List Statement → List (Option Expression)
  | [] => []
  | s :: ss => s.slots ++ blockSlots ss

end

theorem blockSlots_append (ss ts : List Statement) :
    blockSlots (ss ++ ts) = blockSlots ss ++ blockSlots ts := by
  induction ss with
  | nil => simp [blockSlots]
  | cons s ss ih => simp [blockSlots, ih]

end Schema

namespace Tree

/-- What a slot of a schema stands for. -/
inductive Slot where
  /-- An expression that the tree does without. -/
  | absent
  /-- The name of a member. -/
  | name (ident : Ident)
  /-- An expression that the tree has. -/
  | present (e : Expr)

def Slot.translation : Slot → Option Schema.Expression
  | .absent => none
  | .name ident => some (.identifier (Name.normalize ident.text))
  | .present e => e.translation

/-- Whether the tree has an expression that its slot has lost. -/
def Slot.isLost : Slot × Option Schema.Expression → Bool
  | (.present _, none) => true
  | _ => false

mutual

/-- The slots of an expression: its own, then those inside it, if a schema expresses it. -/
def Expr.slots (e : Expr) : List Slot :=
  .present e ::
    match e with
    | .call _ callee arguments => callee.slots ++ Expr.slotsAll arguments
    | .binary _ left _ right => left.slots ++ right.slots
    | .member _ target name => target.slots ++ [.name name]
    | .element _ target index => target.slots ++ index.slots
    | .new _ _ arguments => Expr.slotsAll arguments
    | .conditional _ condition whenTrue whenFalse =>
      condition.slots ++ (whenTrue.slots ++ whenFalse.slots)
    | .parenthesized _ inner => inner.slots
    | .unary _ _ _ operand => operand.slots
    | .array _ elements => Expr.slotsAll elements
    | .identifier .. | .literal .. | .self .. | .wrapped .. | .bare .. | .other .. => []

def Expr.slotsAll : List Expr → List Slot
  | [] => []
  | e :: es => e.slots ++ Expr.slotsAll es

end

def optionalSlots : Option Expr → List Slot
  | none => [.absent]
  | some e => e.slots

/-- The slots of the item variable of a loop: none without a variable. -/
def LoopInitializer.slots : LoopInitializer → List Slot
  | .declarators (d :: _) => optionalSlots d.initializer
  | .expression (.identifier _ _) => [.absent]
  | _ => []

mutual

/-- The slots of a statement, if a schema expresses it where it stands. -/
def Stmt.slots (position : Position) : Stmt → List Slot
  | .if _ condition thenBranch elseBranch =>
    condition.slots ++ (thenBranch.slots .body ++ Stmt.slotsElse elseBranch)
  | .return _ value => optionalSlots value
  | .throw _ value => value.slots
  | .expression _ value => value.slots
  | .variable _ declarators => declarators.flatMap fun d => optionalSlots d.initializer
  | .while _ condition body => condition.slots ++ body.slots .body
  | .forOf _ initializer items body => initializer.slots ++ (items.slots ++ body.slots .body)
  | .for _ initializer condition step body =>
    (initializer.map LoopInitializer.slots).getD [] ++
      (optionalSlots condition ++ (optionalSlots step ++ body.slots .body))
  | .block _ statements =>
    match position with
    | .entry => []
    | .body => Stmt.slotsAll statements
  | .bare .. | .other .. => []

def Stmt.slotsElse : Option Stmt → List Slot
  | none => []
  | some s => s.slots .body

/-- The slots of the entries of a statement list. -/
def Stmt.slotsAll : List Stmt → List Slot
  | [] => []
  | s :: ss => s.slots .entry ++ Stmt.slotsAll ss

end

end Tree

open Schema (slotsOf slotsOfAll itemSlots blockSlots elseSlots)

mutual

theorem slotsOf_translation : ∀ e : Tree.Expr,
    slotsOf e.translation = e.slots.map Tree.Slot.translation
  | .call s callee arguments => by
    have method := slotsOf_translation callee
    have rest := slotsOfAll_translationAll arguments
    simp [Tree.Expr.slots, Tree.Expr.translation, Tree.Slot.translation, slotsOf,
      Schema.Expression.slots, method, rest]
  | .binary s left operator right => by
    have first := slotsOf_translation left
    have second := slotsOf_translation right
    simp [Tree.Expr.slots, Tree.Expr.translation, Tree.Slot.translation, slotsOf,
      Schema.Expression.slots, first, second]
  | .member s target name => by
    have object := slotsOf_translation target
    simp [Tree.Expr.slots, Tree.Expr.translation, Tree.Slot.translation, slotsOf,
      Schema.Expression.slots, object]
  | .element s target index => by
    have object := slotsOf_translation target
    have property := slotsOf_translation index
    simp [Tree.Expr.slots, Tree.Expr.translation, Tree.Slot.translation, slotsOf,
      Schema.Expression.slots, object, property]
  | .new s type arguments => by
    have rest := slotsOfAll_translationAll arguments
    simp [Tree.Expr.slots, Tree.Expr.translation, Tree.Slot.translation, slotsOf,
      Schema.Expression.slots, rest]
  | .conditional s condition whenTrue whenFalse => by
    have first := slotsOf_translation condition
    have second := slotsOf_translation whenTrue
    have third := slotsOf_translation whenFalse
    simp [Tree.Expr.slots, Tree.Expr.translation, Tree.Slot.translation, slotsOf,
      Schema.Expression.slots, first, second, third]
  | .parenthesized s inner => by
    have content := slotsOf_translation inner
    simp [Tree.Expr.slots, Tree.Expr.translation, Tree.Slot.translation, slotsOf,
      Schema.Expression.slots, content]
  | .unary s side operator operand => by
    have content := slotsOf_translation operand
    simp [Tree.Expr.slots, Tree.Expr.translation, Tree.Slot.translation, slotsOf,
      Schema.Expression.slots, content]
  | .array s elements => by
    have rest := slotsOfAll_translationAll elements
    simp [Tree.Expr.slots, Tree.Expr.translation, Tree.Slot.translation, slotsOf,
      Schema.Expression.slots, rest]
  | .literal s value => by cases value <;> rfl
  | .self s word => by cases word <;> rfl
  | .identifier .. | .wrapped .. | .bare .. | .other .. => rfl

theorem slotsOfAll_translationAll : ∀ es : List Tree.Expr,
    slotsOfAll (Tree.Expr.translationAll es)
      = (Tree.Expr.slotsAll es).map Tree.Slot.translation
  | [] => rfl
  | e :: es => by
    have first := slotsOf_translation e
    have rest := slotsOfAll_translationAll es
    simp [Tree.Expr.slotsAll, Tree.Expr.translationAll, slotsOfAll, first, rest]

end

theorem slotsOf_optionalTranslation (e : Option Tree.Expr) :
    slotsOf (Tree.optionalTranslation e)
      = (Tree.optionalSlots e).map Tree.Slot.translation := by
  cases e with
  | none => rfl
  | some e => exact slotsOf_translation e

theorem itemSlots_translation (initializer : Tree.LoopInitializer) :
    itemSlots initializer.translation = initializer.slots.map Tree.Slot.translation := by
  rw [Tree.LoopInitializer.translation.eq_def, Tree.LoopInitializer.slots.eq_def]
  split
  · exact slotsOf_optionalTranslation _
  · rfl
  · simp [itemSlots]

theorem itemSlots_bind_translation (initializer : Option Tree.LoopInitializer) :
    itemSlots (initializer.bind Tree.LoopInitializer.translation)
      = ((initializer.map Tree.LoopInitializer.slots).getD []).map Tree.Slot.translation := by
  cases initializer with
  | none => rfl
  | some initializer => exact itemSlots_translation initializer

theorem blockSlots_variables (ds : List Tree.Declarator) :
    blockSlots (ds.map fun d => .variable d.translation)
      = (ds.flatMap fun d => Tree.optionalSlots d.initializer).map Tree.Slot.translation := by
  induction ds with
  | nil => rfl
  | cons d ds ih =>
    have first : Schema.Statement.slots (.variable d.translation)
        = (Tree.optionalSlots d.initializer).map Tree.Slot.translation :=
      slotsOf_optionalTranslation d.initializer
    simp [blockSlots, first, ih]

mutual

theorem blockSlots_translation (position : Position) : ∀ s : Tree.Stmt,
    blockSlots (s.translation position) = (s.slots position).map Tree.Slot.translation
  | .if span condition thenBranch elseBranch => by
    have first := blockSlots_translation .body thenBranch
    have second := elseSlots_translationElse elseBranch
    simp [Tree.Stmt.slots, Tree.Stmt.translation, blockSlots, Schema.Statement.slots,
      slotsOf_translation, first, second]
  | .return span value => by
    simp [Tree.Stmt.slots, Tree.Stmt.translation, blockSlots, Schema.Statement.slots,
      slotsOf_optionalTranslation]
  | .throw span value => by
    simp [Tree.Stmt.slots, Tree.Stmt.translation, blockSlots, Schema.Statement.slots,
      slotsOf_translation]
  | .expression span value => by
    simp [Tree.Stmt.slots, Tree.Stmt.translation, blockSlots, Schema.Statement.slots,
      slotsOf_translation]
  | .variable span declarators => by
    rw [Tree.Stmt.translation, Tree.Stmt.slots, blockSlots_variables]
  | .while span condition body => by
    have content := blockSlots_translation .body body
    simp [Tree.Stmt.slots, Tree.Stmt.translation, blockSlots, Schema.Statement.slots,
      slotsOf_translation, content]
  | .forOf span initializer items body => by
    have content := blockSlots_translation .body body
    simp [Tree.Stmt.slots, Tree.Stmt.translation, blockSlots, Schema.Statement.slots,
      itemSlots_translation, slotsOf_translation, content]
  | .for span initializer condition step body => by
    have content := blockSlots_translation .body body
    simp [Tree.Stmt.slots, Tree.Stmt.translation, blockSlots, Schema.Statement.slots,
      itemSlots_bind_translation, slotsOf_optionalTranslation, content]
  | .block span statements => by
    cases position with
    | entry => rfl
    | body => exact blockSlots_translationAll statements
  | .bare .. | .other .. => rfl

theorem elseSlots_translationElse : ∀ s : Option Tree.Stmt,
    elseSlots (Tree.Stmt.translationElse s)
      = (Tree.Stmt.slotsElse s).map Tree.Slot.translation
  | none => rfl
  | some s => blockSlots_translation .body s

/-- Slot by slot, a lowered block holds the translations of what the syntax block has there. -/
theorem blockSlots_translationAll : ∀ ss : List Tree.Stmt,
    blockSlots (Tree.Stmt.translationAll ss)
      = (Tree.Stmt.slotsAll ss).map Tree.Slot.translation
  | [] => rfl
  | s :: ss => by
    have first := blockSlots_translation .entry s
    have rest := blockSlots_translationAll ss
    simp [Tree.Stmt.slotsAll, Tree.Stmt.translationAll, Schema.blockSlots_append, first, rest]

end

end NeutralSchema
