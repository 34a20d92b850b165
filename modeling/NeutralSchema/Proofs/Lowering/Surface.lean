import Mathlib.Logic.Relation
import NeutralSchema.Proofs.Lowering.Essence

/-!
# Surface syntax

Braces around the only statement of a body, and one statement for several variables or one for each,
are matters of style. A file can be restyled in one place by putting braces around a body or by
splitting a variable statement of a statement list. Lowering takes no notice of it, however often
and wherever it is done. Main statement: `lowerFile_restyled`.
-/
namespace NeutralSchema

namespace Tree

def Stmt.isBlock : Stmt → Bool
  | .block .. => true
  | _ => false

/-- One variable statement for each declarator, each with a span of its own. -/
def splitVariables (pieces : List (Span × Declarator)) : List Stmt :=
  pieces.map fun p => .variable p.1 [p.2]

mutual

/-- Whether one place inside a statement is restyled. -/
inductive Stmt.Restyled : Stmt → Stmt → Prop
  | thenBranch {span : Span} {condition : Expr} {s t : Stmt} {elseBranch : Option Stmt}
    (branch : Stmt.BodyRestyled s t) :
    Stmt.Restyled (.if span condition s elseBranch) (.if span condition t elseBranch)
  | elseBranch {span : Span} {condition : Expr} {thenBranch s t : Stmt}
    (branch : Stmt.BodyRestyled s t) :
    Stmt.Restyled (.if span condition thenBranch (some s)) (.if span condition thenBranch (some t))
  | while {span : Span} {condition : Expr} {s t : Stmt} (body : Stmt.BodyRestyled s t) :
    Stmt.Restyled (.while span condition s) (.while span condition t)
  | forOf {span : Span} {initializer : LoopInitializer} {items : Expr} {s t : Stmt}
    (body : Stmt.BodyRestyled s t) :
    Stmt.Restyled (.forOf span initializer items s) (.forOf span initializer items t)
  | for {span : Span} {initializer : Option LoopInitializer} {condition step : Option Expr}
    {s t : Stmt} (body : Stmt.BodyRestyled s t) :
    Stmt.Restyled (.for span initializer condition step s)
      (.for span initializer condition step t)
  | block {span : Span} {ss ts : List Stmt} (entries : Stmt.EntriesRestyled ss ts) :
    Stmt.Restyled (.block span ss) (.block span ts)

/-- Whether one place of a branch or loop body is restyled: it is put into braces, or something
inside it is restyled. -/
inductive Stmt.BodyRestyled : Stmt → Stmt → Prop
  | braces {s : Stmt} (span : Span) (unbraced : s.isBlock = false) :
    Stmt.BodyRestyled s (.block span [s])
  | inside {s t : Stmt} (restyled : Stmt.Restyled s t) : Stmt.BodyRestyled s t

/-- Whether one place of a statement list is restyled: a variable statement is split, or something
inside an entry is restyled. -/
inductive Stmt.EntriesRestyled : List Stmt → List Stmt → Prop
  | split (span : Span) (pieces : List (Span × Declarator)) (rest : List Stmt) :
    Stmt.EntriesRestyled (.variable span (pieces.map Prod.snd) :: rest)
      (splitVariables pieces ++ rest)
  | entry {s t : Stmt} (restyled : Stmt.Restyled s t) (rest : List Stmt) :
    Stmt.EntriesRestyled (s :: rest) (t :: rest)
  | later (s : Stmt) {ss ts : List Stmt} (rest : Stmt.EntriesRestyled ss ts) :
    Stmt.EntriesRestyled (s :: ss) (s :: ts)

end

/-- Whether one element of a list is replaced by a related one. -/
inductive Replaced {α : Type} (R : α → α → Prop) : List α → List α → Prop
  | head {a b : α} (related : R a b) (as : List α) : Replaced R (a :: as) (b :: as)
  | tail (a : α) {as bs : List α} (rest : Replaced R as bs) : Replaced R (a :: as) (a :: bs)

/-- Whether one place of a body is restyled. -/
inductive ClassMember.Restyled : ClassMember → ClassMember → Prop
  | method (m : Method) {ss ts : Block} (body : Stmt.EntriesRestyled ss ts) :
    ClassMember.Restyled (.method { m with body := some ss }) (.method { m with body := some ts })
  | constructor (k : Constructor) {ss ts : Block} (body : Stmt.EntriesRestyled ss ts) :
    ClassMember.Restyled (.constructor { k with body := some ss })
      (.constructor { k with body := some ts })

inductive Item.Restyled : Item → Item → Prop
  | classDecl (c : Class) {ms ns : List ClassMember}
    (members : Replaced ClassMember.Restyled ms ns) :
    Item.Restyled (.classDecl { c with members := ms }) (.classDecl { c with members := ns })

/-- Whether one place of a file is restyled. -/
inductive File.Restyled : File → File → Prop
  | items (f : File) {is js : List Item} (replaced : Replaced Item.Restyled is js) :
    File.Restyled { f with items := is } { f with items := js }

end Tree

section

variable {file : FileId}

/-- The variables of a statement are lowered like those of a statement for each. -/
theorem lowerStatements_splitVariables (pieces : List (Span × Tree.Declarator))
    (rest : List Tree.Stmt) :
    lowerStatements file (Tree.splitVariables pieces ++ rest) = do
      let first ← lowerVariables file (pieces.map Prod.snd)
      return first ++ (← lowerStatements file rest) := by
  induction pieces with
  | nil => simp [Tree.splitVariables, lowerVariables]
  | cons piece pieces ih =>
    rw [Tree.splitVariables] at ih
    simp [Tree.splitVariables, lowerStatements, lowerStatementAt, lowerVariables, ih]

/-- As a body, a statement other than a block is lowered like a block of it. -/
theorem lowerStatementAt_braces {s : Tree.Stmt} (span : Span) (unbraced : s.isBlock = false) :
    lowerStatementAt .body file (.block span [s]) = lowerStatementAt .body file s := by
  have entry : lowerStatementAt .entry file s = lowerStatementAt .body file s := by
    cases s with
    | block => exact nomatch unbraced
    | _ => simp only [lowerStatementAt]
  simp [lowerStatementAt, lowerStatements, entry]

mutual

theorem Tree.Stmt.Restyled.lower_eq (position : Position) {s t : Stmt} : s.Restyled t →
    lowerStatementAt position file t = lowerStatementAt position file s
  | .thenBranch branch => by simp only [lowerStatementAt, BodyRestyled.lower_eq branch]
  | .elseBranch branch => by
    simp only [lowerStatementAt, lowerElse, BodyRestyled.lower_eq branch]
  | .while body => by simp only [lowerStatementAt, BodyRestyled.lower_eq body]
  | .forOf body => by simp only [lowerStatementAt, BodyRestyled.lower_eq body]
  | .for body => by simp only [lowerStatementAt, BodyRestyled.lower_eq body]
  | .block entries => by
    cases position with
    -- The report of a block does not look into it.
    | entry => rfl
    | body => simp only [lowerStatementAt, EntriesRestyled.lower_eq entries]

theorem Tree.Stmt.BodyRestyled.lower_eq {s t : Stmt} : s.BodyRestyled t →
    lowerStatementAt .body file t = lowerStatementAt .body file s
  | .braces span unbraced => lowerStatementAt_braces span unbraced
  | .inside restyled => restyled.lower_eq .body

theorem Tree.Stmt.EntriesRestyled.lower_eq {ss ts : List Stmt} : EntriesRestyled ss ts →
    lowerStatements file ts = lowerStatements file ss
  | .split span pieces rest => by
    rw [lowerStatements_splitVariables, lowerStatements, lowerStatementAt]
  | .entry restyled rest => by simp only [lowerStatements, restyled.lower_eq .entry]
  | .later s rest => by simp only [lowerStatements, EntriesRestyled.lower_eq rest]

end

end

section

variable {f : Tree.File}

theorem Tree.ClassMember.Restyled.lower_eq {m n : ClassMember} (restyled : m.Restyled n)
    (declared className : String) (c : Schema.Class) :
    lowerMember f declared className c n = lowerMember f declared className c m := by
  cases restyled with
  | method m body => simp only [lowerMember, lowerMethod, lowerOwnedBody, body.lower_eq]
  | constructor k body => simp only [lowerMember, lowerConstructor, lowerOwnedBody, body.lower_eq]

theorem lowerMembers_replaced {ms ns : List Tree.ClassMember}
    (replaced : Tree.Replaced Tree.ClassMember.Restyled ms ns) (declared className : String)
    (c : Schema.Class) :
    lowerMembers f declared className c ns = lowerMembers f declared className c ms := by
  induction replaced generalizing c with
  | head restyled ms => simp only [lowerMembers, restyled.lower_eq]
  | tail m rest ih => simp only [lowerMembers, ih]

theorem Tree.Item.Restyled.lower_eq {i j : Item} (restyled : i.Restyled j) (s : Schema.File) :
    lowerItem f s j = lowerItem f s i := by
  cases restyled with
  | classDecl c members => simp only [lowerItem, lowerClass, lowerMembers_replaced members]

theorem lowerItems_replaced {is js : List Tree.Item}
    (replaced : Tree.Replaced Tree.Item.Restyled is js) (s : Schema.File) :
    lowerItems f s js = lowerItems f s is := by
  induction replaced generalizing s with
  | head restyled is => simp only [lowerItems, restyled.lower_eq]
  | tail i rest ih => simp only [lowerItems, ih]

end

/-- Restyling one place of a file makes no difference. -/
theorem Tree.File.Restyled.lower_eq {f g : File} (restyled : f.Restyled g) :
    lowerFile g = lowerFile f := by
  cases restyled with
  | items f replaced =>
    simp only [lowerFile, lowerItems_withItems, lowerItems_replaced replaced]

/-- A file that is restyled in any number of places has the same schema or the same error, and the
same diagnostics. -/
theorem lowerFile_restyled {f g : Tree.File}
    (restyled : Relation.ReflTransGen Tree.File.Restyled f g) (collected : Diagnostics) :
    (lowerFile g).runFrom collected = (lowerFile f).runFrom collected := by
  induction restyled with
  | refl => rfl
  | tail _ step ih => rw [step.lower_eq, ih]

/-- A method that is one loop. -/
def loopMethod (body : Tree.Stmt) : Tree.Method :=
  ⟨⟨"run", ⟨2, 5⟩⟩, [], some (.intrinsic "void"), .none,
    some [.while ⟨6, 60⟩ (.self ⟨7, 11⟩ .this) body], ⟨2, 61⟩⟩

def loopClass (body : Tree.Stmt) : Tree.Class :=
  ⟨⟨"A", ⟨0, 1⟩⟩, [.method (loopMethod body)], ⟨0, 62⟩⟩

def loopTree (body : Tree.Stmt) : Tree.File :=
  ⟨0, "a.ts", "", [.classDecl (loopClass body)]⟩

theorem loopTree_restyled {s t : Tree.Stmt} (body : s.BodyRestyled t) :
    (loopTree s).Restyled (loopTree t) := by
  have method : (Tree.ClassMember.method (loopMethod s)).Restyled (.method (loopMethod t)) :=
    .method (loopMethod s) (.entry (.while body) [])
  have item : (Tree.Item.classDecl (loopClass s)).Restyled (.classDecl (loopClass t)) :=
    .classDecl (loopClass s) (.head method [])
  exact .items (loopTree s) (.head item [])

/-- Two variables, the second one with an instance of a type that is not resolved. -/
def unresolvedVariables : List (Span × Tree.Declarator) :=
  [(⟨12, 20⟩, ⟨⟨"a$", ⟨12, 14⟩⟩, none, none, ⟨12, 14⟩⟩),
    (⟨22, 30⟩, ⟨⟨"b$", ⟨22, 24⟩⟩, none, some (.new ⟨24, 30⟩ none []), ⟨22, 30⟩⟩)]

def joinedVariables : Tree.Stmt :=
  .variable ⟨12, 30⟩ (unresolvedVariables.map Prod.snd)

def bareLoop : Tree.File := loopTree joinedVariables

def bracedLoop : Tree.File :=
  loopTree (.block ⟨40, 60⟩ (Tree.splitVariables unresolvedVariables))

/-- Braces are put around the body of a loop and then its variables are split. Both files are
reported about twice and not lowered. -/
theorem lowerFile_restyled_loop :
    Relation.ReflTransGen Tree.File.Restyled bareLoop bracedLoop
      ∧ ((lowerFile bareLoop).runFrom []).1.isOk = false
      ∧ ((lowerFile bareLoop).runFrom []).2.length = 2
      ∧ (lowerFile bracedLoop).runFrom [] = (lowerFile bareLoop).runFrom [] := by
  have wrapped : bareLoop.Restyled (loopTree (.block ⟨40, 60⟩ [joinedVariables])) :=
    loopTree_restyled (.braces ⟨40, 60⟩ rfl)
  have split : (loopTree (.block ⟨40, 60⟩ [joinedVariables])).Restyled bracedLoop := by
    apply loopTree_restyled
    apply Tree.Stmt.BodyRestyled.inside
    apply Tree.Stmt.Restyled.block
    exact .split ⟨12, 30⟩ unresolvedVariables []
  have restyled : Relation.ReflTransGen Tree.File.Restyled bareLoop bracedLoop :=
    .tail (.single wrapped) split
  exact ⟨restyled, by decide, by decide, lowerFile_restyled restyled []⟩

end NeutralSchema
