import NeutralSchema.Proofs.Lowering.Occurrences
import NeutralSchema.Proofs.Lowering.Related

/-!
# Lowering is local

Around a part that is lowered by itself, what is lowered and what is reported do not depend on the
part. So one part may be replaced by another, and only what it is lowered to and what it reports
change. Main statement: `lowerStatements_local`.
-/
namespace NeutralSchema

def Part.translation : ∀ k : Part, k.Syntax → k.hole.Content
  | .expression, e => e.translation
  | .statement position, s => s.translation position
  | .entries, ss => Tree.Stmt.translationAll ss

theorem lowerPart_eq (f : Tree.File) (k : Part) (x : k.Syntax) :
    lowerPart f.id k x = afterVisits f (k.visits x) (pure (k.translation x)) := by
  cases k with
  | expression => exact lowerExpression_eq f x
  | statement position => exact lowerStatementAt_eq f position x
  | entries => exact lowerStatements_eq f x

theorem lowerPart_eq_ok_iff {f : Tree.File} {k : Part} {x : k.Syntax} {a : k.hole.Content}
    {collected after : Diagnostics} :
    (lowerPart f.id k x).runFrom collected = (.ok a, after)
      ↔ (∀ v ∈ k.visits x, v.violation? f = none) ∧ a = k.translation x
        ∧ after = collected ++ (k.visits x).flatMap (Visit.reports f.id) := by
  rw [lowerPart_eq, runFrom_afterVisits_eq_ok_iff]

namespace Tree

theorem Expr.translationAll_append (es es' : List Expr) :
    Expr.translationAll (es ++ es') = Expr.translationAll es ++ Expr.translationAll es' := by
  induction es with
  | nil => rfl
  | cons e es ih => simp [Expr.translationAll, ih]

theorem Stmt.translationAll_append (ss ss' : List Stmt) :
    Stmt.translationAll (ss ++ ss') = Stmt.translationAll ss ++ Stmt.translationAll ss' := by
  induction ss with
  | nil => rfl
  | cons s ss ih => simp [Stmt.translationAll, ih]

/-- What is lowered around the part that a frame leaves open. -/
def frameImage {k l : Part} : Frame k l → Schema.Context k.hole l.hole
  | .callee _ arguments => .inside (.method (Expr.translationAll arguments)) .hole
  | .argument _ callee before after =>
    .inside (.argument callee.translation (Expr.translationAll before)
      (Expr.translationAll after)) .hole
  | .left _ operator right => .inside (.left right.translation operator) .hole
  | .right _ left operator => .inside (.right left.translation operator) .hole
  | .memberTarget _ name =>
    .inside (.target (some (.identifier (Name.normalize name.text)))) .hole
  | .elementTarget _ index => .inside (.target index.translation) .hole
  | .index _ target => .inside (.property target.translation) .hole
  | .newArgument _ type before after =>
    .inside (.newArgument (typeTranslation type) (Expr.translationAll before)
      (Expr.translationAll after)) .hole
  | .condition _ whenTrue whenFalse =>
    .inside (.condition whenTrue.translation whenFalse.translation) .hole
  | .whenTrue _ condition whenFalse =>
    .inside (.whenTrue condition.translation whenFalse.translation) .hole
  | .whenFalse _ condition whenTrue =>
    .inside (.whenFalse condition.translation whenTrue.translation) .hole
  | .parenthesized _ => .inside .parenthesized .hole
  | .operand _ side operator => .inside (.operand (lowerSide side) operator) .hole
  | .item _ before after =>
    .inside (.item (Expr.translationAll before) (Expr.translationAll after)) .hole
  | .ifCondition _ _ thenBranch elseBranch =>
    .inside (.ifCondition (thenBranch.translation .body) (Stmt.translationElse elseBranch)) .hole
  | .returned .. => .inside .returned .hole
  | .thrown .. => .inside .thrown .hole
  | .evaluated .. => .inside .evaluated .hole
  | .initial _ _ before name _ _ after =>
    .inside (.splice (before.map fun d => .variable d.translation)
        (after.map fun d => .variable d.translation))
      (.inside (.initial (Name.normalize name.text)) .hole)
  | .whileCondition _ _ body => .inside (.whileCondition (body.translation .body)) .hole
  | .forOfInitial _ _ name _ _ _ items body =>
    .inside (.foreachInitial (Name.normalize name.text) items.translation
      (body.translation .body)) .hole
  | .forOfItems _ _ initializer body =>
    .inside (.foreachItems initializer.translation (body.translation .body)) .hole
  | .forInitial _ _ name _ _ _ condition step body =>
    .inside (.forInitial (Name.normalize name.text) (optionalTranslation condition)
      (optionalTranslation step) (body.translation .body)) .hole
  | .forCondition _ _ initializer step body =>
    .inside (.forCondition (initializer.bind LoopInitializer.translation)
      (optionalTranslation step) (body.translation .body)) .hole
  | .forStep _ _ initializer condition body =>
    .inside (.forStep (initializer.bind LoopInitializer.translation)
      (optionalTranslation condition) (body.translation .body)) .hole
  | .thenBranch _ _ condition elseBranch =>
    .inside (.thenBlock condition.translation (Stmt.translationElse elseBranch)) .hole
  | .elseBranch _ _ condition thenBranch =>
    .inside (.elseBlock condition.translation (thenBranch.translation .body)) .hole
  | .whileBody _ _ condition => .inside (.whileBody condition.translation) .hole
  | .forOfBody _ _ initializer items =>
    .inside (.foreachBody initializer.translation items.translation) .hole
  | .forBody _ _ initializer condition step =>
    .inside (.forBody (initializer.bind LoopInitializer.translation)
      (optionalTranslation condition) (optionalTranslation step)) .hole
  | .braces _ | .entry => .hole
  | .splice before after =>
    .inside (.splice (Stmt.translationAll before) (Stmt.translationAll after)) .hole

/-- The visits of the first clause of a loop header that may be absent. -/
def clauseVisits (span : Span) (initializer : Option LoopInitializer) : List Visit :=
  (initializer.map (LoopInitializer.visits span)).getD []

/-- The visits around the part that a frame leaves open, before it. A supported expression or
statement does nothing when it is itself visited, and the header of a loop is visited as if its
first declarator had no initializer, which its report does not show. -/
def visitsBefore {k l : Part} : Frame k l → List Visit
  | .argument _ callee before _ => callee.visits ++ Expr.visitsAll before
  | .right _ left _ => left.visits
  | .index _ target => target.visits
  | .newArgument span type before _ =>
    typeVisits false .newExpression span type ++ Expr.visitsAll before
  | .whenTrue _ condition _ => condition.visits
  | .whenFalse _ condition whenTrue => condition.visits ++ whenTrue.visits
  | .item _ before _ => Expr.visitsAll before
  | .initial _ _ before name _ _ _ =>
    before.flatMap Declarator.visits ++ [.name false name.text name.span]
  | .forOfInitial _ span name type own others _ _ | .forInitial _ span name type own others _ _ _ =>
    (LoopInitializer.declarators (⟨name, type, none, own⟩ :: others)).visits span
  | .forOfItems _ span initializer _ => initializer.visits span
  | .forCondition _ span initializer _ _ => clauseVisits span initializer
  | .forStep _ span initializer condition _ =>
    clauseVisits span initializer ++ optionalVisits condition
  | .thenBranch _ _ condition _ | .whileBody _ _ condition => condition.visits
  | .elseBranch _ _ condition thenBranch => condition.visits ++ thenBranch.visits .body
  | .forOfBody _ span initializer items => initializer.visits span ++ items.visits
  | .forBody _ span initializer condition step =>
    clauseVisits span initializer ++ (optionalVisits condition ++ optionalVisits step)
  | .splice before _ => Stmt.visitsAll before
  | _ => []

/-- The visits around the part that a frame leaves open, after it. -/
def visitsAfter {k l : Part} : Frame k l → List Visit
  | .callee _ arguments => Expr.visitsAll arguments
  | .argument _ _ _ after | .newArgument _ _ _ after | .item _ _ after => Expr.visitsAll after
  | .left _ _ right => right.visits
  | .memberTarget _ name => [.name false name.text name.span]
  | .elementTarget _ index => index.visits
  | .condition _ whenTrue whenFalse => whenTrue.visits ++ whenFalse.visits
  | .whenTrue _ _ whenFalse => whenFalse.visits
  | .ifCondition _ _ thenBranch elseBranch =>
    thenBranch.visits .body ++ Stmt.visitsElse elseBranch
  | .initial _ _ _ _ _ _ after => after.flatMap Declarator.visits
  | .whileCondition _ _ body | .forOfItems _ _ _ body | .forStep _ _ _ _ body =>
    body.visits .body
  | .forOfInitial _ _ _ _ _ _ items body => items.visits ++ body.visits .body
  | .forInitial _ _ _ _ _ _ condition step body =>
    optionalVisits condition ++ (optionalVisits step ++ body.visits .body)
  | .forCondition _ _ _ step body => optionalVisits step ++ body.visits .body
  | .thenBranch _ _ _ elseBranch => Stmt.visitsElse elseBranch
  | .splice _ after => Stmt.visitsAll after
  | _ => []

/-- What a part is lowered to stands where the part stands. -/
theorem translation_fillFrame {k l : Part} (F : Frame k l) (x : k.Syntax) :
    l.translation (fillFrame F x) = (frameImage F).fill (k.translation x) := by
  cases F <;>
    simp [Part.translation, fillFrame, frameImage, Schema.Context.fill, Nested.fill,
      Schema.fillFrame, Expr.translation, Expr.translationAll_append, Expr.translationAll,
      Stmt.translation, Stmt.translationAll_append, Stmt.translationAll, Stmt.translationElse,
      Declarator.translation, LoopInitializer.translation, optionalTranslation]

end Tree

/-- How the first declarator of a loop header is initialized does not matter to the visit of the
header. -/
theorem afterVisits_header {α : Type} (f : Tree.File) (span : Span) (name : Tree.Ident)
    (type : Option Tree.ResolvedType) (e : Tree.Expr) (own : Span) (ds : List Tree.Declarator)
    (vs : List Visit) (y : Lowering α) :
    afterVisits f (.loopInitializer span (.declarators (⟨name, type, some e, own⟩ :: ds)) :: vs) y
      = afterVisits f
          (.loopInitializer span (.declarators (⟨name, type, none, own⟩ :: ds)) :: vs) y := by
  cases ds <;> rfl

theorem afterVisits_fillFrame {α : Type} (f : Tree.File) {k l : Part} (F : Tree.Frame k l)
    (x : k.Syntax) (y : Lowering α) :
    afterVisits f (l.visits (Tree.fillFrame F x)) y
      = afterVisits f (Tree.visitsBefore F ++ k.visits x ++ Tree.visitsAfter F) y := by
  cases F with
  | callee | argument | left | right | memberTarget | elementTarget | index | newArgument
  | condition | whenTrue | whenFalse | parenthesized | operand | item =>
    simp only [Part.visits, Tree.fillFrame, Tree.Expr.visits]
    rw [afterVisits_expression f rfl]
    simp [Tree.visitsBefore, Tree.visitsAfter, Tree.Expr.visitsAll_append, Tree.Expr.visitsAll]
  | ifCondition | returned | thrown | evaluated | initial | whileCondition | forOfItems
  | forCondition | forStep | thenBranch | elseBranch | whileBody | forOfBody | forBody | braces =>
    simp only [Part.visits, Tree.fillFrame, Tree.Stmt.visits]
    rw [afterVisits_statement f rfl]
    simp [Tree.visitsBefore, Tree.visitsAfter, Tree.Stmt.visitsElse, Tree.Declarator.visits,
      Tree.optionalVisits, Tree.clauseVisits]
  | forOfInitial | forInitial =>
    simp only [Part.visits, Tree.fillFrame, Tree.Stmt.visits]
    rw [afterVisits_statement f rfl]
    simp [Tree.visitsBefore, Tree.visitsAfter, Tree.Declarator.visits,
      Tree.LoopInitializer.visits, Tree.optionalVisits]
    exact afterVisits_header f _ _ _ x _ _ _ y
  | entry | splice =>
    simp [Part.visits, Tree.fillFrame, Tree.visitsBefore, Tree.visitsAfter,
      Tree.Stmt.visitsAll_append, Tree.Stmt.visitsAll]

namespace Tree.Context

/-- What is lowered around the part that a context leaves open. -/
def image {k l : Part} : Context k l → Schema.Context k.hole l.hole
  | .hole => .hole
  | .inside outer inner => (frameImage outer).append (image inner)

def visitsBefore {k l : Part} : Context k l → List Visit
  | .hole => []
  | .inside outer inner => Tree.visitsBefore outer ++ visitsBefore inner

def visitsAfter {k l : Part} : Context k l → List Visit
  | .hole => []
  | .inside outer inner => visitsAfter inner ++ Tree.visitsAfter outer

/-- What a part is lowered to stands, inside what is around it, where the part stands. -/
theorem translation_fill {k l : Part} (C : Context k l) (x : k.Syntax) :
    l.translation (C.fill x) = C.image.fill (k.translation x) := by
  induction C with
  | hole => rfl
  | @inside i j outer inner ih =>
    calc j.translation (fillFrame outer (fill inner x))
      _ = (frameImage outer).fill (i.translation (fill inner x)) := translation_fillFrame outer _
      _ = (frameImage outer).fill ((image inner).fill (k.translation x)) := by rw [ih]
      _ = Schema.Context.fill ((frameImage outer).append (image inner)) (k.translation x) :=
        (Nested.fill_append ..).symm

end Tree.Context

open Tree.Context in
theorem afterVisits_fill {α : Type} (f : Tree.File) {k l : Part} (C : Tree.Context k l)
    (x : k.Syntax) (y : Lowering α) :
    afterVisits f (l.visits (C.fill x)) y
      = afterVisits f (C.visitsBefore ++ k.visits x ++ C.visitsAfter) y := by
  induction C generalizing y with
  | hole => simp [visitsBefore, visitsAfter, fill, Nested.fill]
  | @inside i j outer inner ih =>
    calc afterVisits f (j.visits (Tree.fillFrame outer (fill inner x))) y
      _ = afterVisits f (Tree.visitsBefore outer)
            (afterVisits f (i.visits (fill inner x))
              (afterVisits f (Tree.visitsAfter outer) y)) := by
        rw [afterVisits_fillFrame]
        simp
      _ = afterVisits f (Tree.visitsBefore outer)
            (afterVisits f (visitsBefore inner ++ k.visits x ++ visitsAfter inner)
              (afterVisits f (Tree.visitsAfter outer) y)) := by rw [ih]
      _ = _ := by simp [visitsBefore, visitsAfter]

/-- A part of a body with another one inside it is lowered to what the inner one is lowered to, in
what is around it, and reports what the inner one reports, between what is reported around it. -/
theorem lowerPart_fill_eq_ok_iff {f : Tree.File} {k l : Part} {C : Tree.Context k l} {x : k.Syntax}
    {a : l.hole.Content} {collected after : Diagnostics} :
    (lowerPart f.id l (C.fill x)).runFrom collected = (.ok a, after)
      ↔ (∀ v ∈ C.visitsBefore ++ k.visits x ++ C.visitsAfter, v.violation? f = none)
        ∧ a = C.image.fill (k.translation x)
        ∧ after = collected
            ++ (C.visitsBefore ++ k.visits x ++ C.visitsAfter).flatMap (Visit.reports f.id) := by
  rw [lowerPart_eq, afterVisits_fill, C.translation_fill, runFrom_afterVisits_eq_ok_iff]

/-- Where a part of a body is lowered, any other part of the same kind may stand instead. -/
theorem lowerPart_replace {f : Tree.File} {k l : Part} (C : Tree.Context k l) {x : k.Syntax}
    {a : l.hole.Content} {collected after : Diagnostics}
    (done : (lowerPart f.id l (C.fill x)).runFrom collected = (.ok a, after)) :
    ∃ (D : Schema.Context k.hole l.hole) (b : k.hole.Content) (before run later : Diagnostics),
      (lowerPart f.id k x).runFrom [] = (.ok b, run)
      ∧ a = D.fill b ∧ after = collected ++ (before ++ run ++ later)
      ∧ ∀ y b' run', (lowerPart f.id k y).runFrom [] = (.ok b', run') →
          (lowerPart f.id l (C.fill y)).runFrom collected
            = (.ok (D.fill b'), collected ++ (before ++ run' ++ later)) := by
  obtain ⟨goesOn, rfl, rfl⟩ := lowerPart_fill_eq_ok_iff.mp done
  simp only [List.forall_mem_append] at goesOn
  obtain ⟨⟨goesOnBefore, goesOnWithin⟩, goesOnAfter⟩ := goesOn
  refine ⟨C.image, k.translation x, C.visitsBefore.flatMap (Visit.reports f.id),
    (k.visits x).flatMap (Visit.reports f.id), C.visitsAfter.flatMap (Visit.reports f.id),
    lowerPart_eq_ok_iff.mpr ⟨goesOnWithin, rfl, rfl⟩, rfl, by simp, ?_⟩
  intro y b' run' other
  obtain ⟨goesOnOther, rfl, rfl⟩ := lowerPart_eq_ok_iff.mp other
  have goesOn : ∀ v ∈ C.visitsBefore ++ k.visits y ++ C.visitsAfter, v.violation? f = none := by
    simp only [List.forall_mem_append]
    exact ⟨⟨goesOnBefore, goesOnOther⟩, goesOnAfter⟩
  exact lowerPart_fill_eq_ok_iff.mpr ⟨goesOn, rfl, by simp⟩

/-- In statements that are lowered, every expression that is visited stands in a context, where any
expression that is lowered on its own may stand instead, and so does every entry of a statement
list, where any statements may stand instead. Then only the slot of the expression or the statements
of the entry change, and only what is reported while they are lowered. -/
theorem lowerStatements_local {f : Tree.File} {ss : List Tree.Stmt} {block : Schema.Block}
    {collected after : Diagnostics}
    (done : (lowerStatements f.id ss).runFrom collected = (.ok block, after)) :
    (∀ e, .expression e ∈ Tree.Stmt.visitsAll ss
        ↔ ∃ C : Tree.Context .expression .entries, C.fill e = ss)
    ∧ (∀ (C : Tree.Context .expression .entries) (e : Tree.Expr), C.fill e = ss →
      ∃ (D : Schema.Context .slot .block) (slot : Option Schema.Expression)
        (before run later : Diagnostics),
        (lowerExpression f.id e).runFrom [] = (.ok slot, run)
        ∧ block = D.fill slot ∧ after = collected ++ (before ++ run ++ later)
        ∧ ∀ x slot' run', (lowerExpression f.id x).runFrom [] = (.ok slot', run') →
            (lowerStatements f.id (C.fill x)).runFrom collected
              = (.ok (D.fill slot'), collected ++ (before ++ run' ++ later))
            ∧ (slot' = none ↔ x.isSupported = false))
    ∧ (∀ s, .statement .entry s ∈ Tree.Stmt.visitsAll ss
        ↔ ∃ C : Tree.Context .entries .entries, C.fill [s] = ss)
    ∧ ∀ (C : Tree.Context .entries .entries) (s : Tree.Stmt), C.fill [s] = ss →
      ∃ (D : Schema.Context .block .block) (part : Schema.Block) (before run later : Diagnostics),
        (lowerStatements f.id [s]).runFrom [] = (.ok part, run)
        ∧ block = D.fill part ∧ after = collected ++ (before ++ run ++ later)
        ∧ ∀ ts part' run', (lowerStatements f.id ts).runFrom [] = (.ok part', run') →
            (lowerStatements f.id (C.fill ts)).runFrom collected
              = (.ok (D.fill part'), collected ++ (before ++ run' ++ later)) := by
  refine ⟨fun e => Tree.mem_visitsAll_iff (.expression e) ss, ?_,
    fun s => Tree.mem_visitsAll_iff (.entry s) ss, ?_⟩
  · rintro C e rfl
    obtain ⟨D, slot, before, run, later, own, eq, reported, replaced⟩ := lowerPart_replace C done
    refine ⟨D, slot, before, run, later, own, eq, reported, fun x slot' run' other => ?_⟩
    obtain ⟨-, rfl, -⟩ := lowerExpression_eq_ok_iff.mp other
    exact ⟨replaced x _ run' other, Tree.translation_eq_none_iff⟩
  · rintro C s rfl
    exact lowerPart_replace C done

/-- The body `while (a) { {} f(b$, ?); } return;` with the last argument of the call left open. -/
def loopCall : Tree.Context .expression .entries :=
  .inside (.splice [] [.return ⟨26, 33⟩ none]) <|
  .inside .entry <|
  .inside (.whileBody .entry ⟨0, 25⟩ (.identifier ⟨7, 8⟩ "a")) <|
  .inside (.braces ⟨10, 25⟩) <|
  .inside (.splice [.block ⟨12, 14⟩ []] []) <|
  .inside .entry <|
  .inside (.evaluated .entry ⟨15, 24⟩) <|
  .inside (.argument ⟨15, 23⟩ (.identifier ⟨15, 16⟩ "f") [.identifier ⟨17, 19⟩ "b$"] []) .hole

/-- A regular expression in the place of the argument leaves its slot empty and reports between
what is reported around it, and a name fills the slot and reports nothing. -/
theorem lowerStatements_local_loopCall :
    ∃ (block : Schema.Block) (D : Schema.Context .slot .block) (before run later : Diagnostics),
      (lowerStatements 0 (loopCall.fill (.bare ⟨21, 22⟩ .regexLiteral))).runFrom []
        = (.ok block, before ++ run ++ later)
      ∧ block = D.fill none ∧ run.length = 1 ∧ (before ++ later).length = 2
      ∧ (lowerStatements 0 (loopCall.fill (.identifier ⟨21, 22⟩ "C"))).runFrom []
        = (.ok (D.fill (some (.identifier "c"))), before ++ later) := by
  obtain ⟨-, replaced, -⟩ := @lowerStatements_local ⟨0, "a.ts", "", []⟩
    (loopCall.fill (.bare ⟨21, 22⟩ .regexLiteral)) _ [] _ rfl
  obtain ⟨D, slot, before, run, later, own, eq, reported, replace⟩ := replaced loopCall _ rfl
  obtain ⟨other, -⟩ := replace (.identifier ⟨21, 22⟩ "C") (some (.identifier "c")) [] rfl
  obtain ⟨rfl, single⟩ : slot = none ∧ run.length = 1 := by
    cases own
    exact ⟨rfl, rfl⟩
  have others : ((lowerStatements 0 (loopCall.fill (.identifier ⟨21, 22⟩ "C"))).runFrom
      []).2.length = 2 := rfl
  rw [other] at others
  exact ⟨_, D, before, run, later, congrArg (Except.ok _, ·) reported, eq, single,
    by simpa using others, by simpa using other⟩

end NeutralSchema
