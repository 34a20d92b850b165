import NeutralSchema.Proofs.Lowering.Context
import NeutralSchema.Proofs.Lowering.Visits

/-!
# Occurrences

Lowering visits an expression, or an entry of a statement list, exactly when it stands in a context.
Main statement: `Tree.mem_visitsAll_iff`.
-/
namespace NeutralSchema

def Part.visits : ∀ k : Part, k.Syntax → List Visit
  | .expression, e => e.visits
  | .statement position, s => s.visits position
  | .entries, ss => Tree.Stmt.visitsAll ss

/-- The visit of an expression, or of an entry of a statement list, itself. -/
inductive Part.Seen : ∀ k : Part, k.Syntax → Visit → Prop
  | expression (e : Tree.Expr) : Seen .expression e (.expression e)
  | entry (s : Tree.Stmt) : Seen .entries [s] (.statement .entry s)

theorem Part.Seen.mem_visits {k : Part} {x : k.Syntax} {v : Visit} (seen : k.Seen x v) :
    v ∈ k.visits x := by
  cases seen with
  | expression e =>
    rw [Part.visits, Tree.Expr.visits.eq_def]
    exact List.mem_cons_self
  | entry s =>
    rw [Part.visits, Tree.Stmt.visitsAll, Tree.Stmt.visits.eq_def]
    exact List.mem_cons_self

namespace Tree

theorem Expr.visitsAll_append (es es' : List Expr) :
    Expr.visitsAll (es ++ es') = Expr.visitsAll es ++ Expr.visitsAll es' := by
  induction es with
  | nil => rfl
  | cons e es ih => simp [Expr.visitsAll, ih]

theorem Stmt.visitsAll_append (ss ss' : List Stmt) :
    Stmt.visitsAll (ss ++ ss') = Stmt.visitsAll ss ++ Stmt.visitsAll ss' := by
  induction ss with
  | nil => rfl
  | cons s ss ih => simp [Stmt.visitsAll, ih]

theorem visits_subset_fillFrame {k l : Part} (F : Frame k l) (x : k.Syntax) :
    k.visits x ⊆ l.visits (fillFrame F x) := by
  intro v mem
  cases F <;>
    simp_all [Part.visits, fillFrame, Expr.visits, Expr.visitsAll_append, Expr.visitsAll,
      Stmt.visits, Stmt.visitsAll_append, Stmt.visitsAll, Stmt.visitsElse, Declarator.visits,
      LoopInitializer.visits, optionalVisits]

theorem visits_subset_fill {k l : Part} (C : Context k l) (x : k.Syntax) :
    k.visits x ⊆ l.visits (C.fill x) := by
  induction C with
  | hole => exact List.Subset.refl _
  | inside outer inner ih => exact List.Subset.trans ih (visits_subset_fillFrame outer _)

/-- What stands in a context also stands in it inside another frame. -/
theorem exists_inside {k l m : Part} {x : k.Syntax} {y : l.Syntax} (F : Frame l m)
    (occurs : ∃ C : Context k l, C.fill x = y) : ∃ C : Context k m, C.fill x = fillFrame F y := by
  obtain ⟨C, rfl⟩ := occurs
  exact ⟨.inside F C, rfl⟩

section

variable {k : Part} {x : k.Syntax} {v : Visit}

theorem not_mem_typeVisits (seen : k.Seen x v) {promoted : Bool} {owner : Owner} {span : Span}
    {type : Option ResolvedType} : v ∉ typeVisits promoted owner span type := by
  cases seen <;> simp [typeVisits]

mutual

theorem Expr.exists_context (seen : k.Seen x v) : ∀ {y : Expr}, v ∈ y.visits →
    ∃ C : Context k .expression, C.fill x = y := by
  intro y mem
  by_cases own : v = .expression y
  · subst own
    cases seen
    exact ⟨.hole, rfl⟩
  match y with
  | .call s callee arguments =>
    simp only [Expr.visits, List.mem_cons, own, false_or, List.mem_append] at mem
    obtain mem | mem := mem
    · exact exists_inside (.callee s arguments) (Expr.exists_context seen mem)
    · obtain ⟨before, y, after, rfl, occurs⟩ := Expr.exists_context_all seen mem
      exact exists_inside (.argument s callee before after) occurs
  | .binary s left operator right =>
    simp only [Expr.visits, List.mem_cons, own, false_or, List.mem_append] at mem
    obtain mem | mem := mem
    · exact exists_inside (.left s operator right) (Expr.exists_context seen mem)
    · exact exists_inside (.right s left operator) (Expr.exists_context seen mem)
  | .member s target name =>
    simp only [Expr.visits, List.mem_cons, own, false_or, List.mem_append] at mem
    obtain mem | rfl | mem := mem
    · exact exists_inside (.memberTarget s name) (Expr.exists_context seen mem)
    · nomatch seen
    · nomatch mem
  | .element s target index =>
    simp only [Expr.visits, List.mem_cons, own, false_or, List.mem_append] at mem
    obtain mem | mem := mem
    · exact exists_inside (.elementTarget s index) (Expr.exists_context seen mem)
    · exact exists_inside (.index s target) (Expr.exists_context seen mem)
  | .new s type arguments =>
    simp only [Expr.visits, List.mem_cons, own, false_or, List.mem_append] at mem
    obtain mem | mem := mem
    · exact absurd mem (not_mem_typeVisits seen)
    · obtain ⟨before, y, after, rfl, occurs⟩ := Expr.exists_context_all seen mem
      exact exists_inside (.newArgument s type before after) occurs
  | .conditional s condition whenTrue whenFalse =>
    simp only [Expr.visits, List.mem_cons, own, false_or, List.mem_append] at mem
    obtain mem | mem | mem := mem
    · exact exists_inside (.condition s whenTrue whenFalse) (Expr.exists_context seen mem)
    · exact exists_inside (.whenTrue s condition whenFalse) (Expr.exists_context seen mem)
    · exact exists_inside (.whenFalse s condition whenTrue) (Expr.exists_context seen mem)
  | .parenthesized s inner =>
    simp only [Expr.visits, List.mem_cons, own, false_or] at mem
    exact exists_inside (.parenthesized s) (Expr.exists_context seen mem)
  | .unary s side operator operand =>
    simp only [Expr.visits, List.mem_cons, own, false_or] at mem
    exact exists_inside (.operand s side operator) (Expr.exists_context seen mem)
  | .array s elements =>
    simp only [Expr.visits, List.mem_cons, own, false_or] at mem
    obtain ⟨before, y, after, rfl, occurs⟩ := Expr.exists_context_all seen mem
    exact exists_inside (.item s before after) occurs
  | .identifier s name =>
    simp only [Expr.visits, List.mem_cons, own, false_or] at mem
    obtain rfl | mem := mem
    · nomatch seen
    · nomatch mem
  | .literal .. | .self .. | .wrapped .. | .bare .. | .other .. =>
    simp only [Expr.visits, List.mem_singleton] at mem
    exact absurd mem own

theorem Expr.exists_context_all (seen : k.Seen x v) : ∀ {ys : List Expr}, v ∈ Expr.visitsAll ys →
    ∃ before y after, ys = before ++ y :: after ∧ ∃ C : Context k .expression, C.fill x = y
  | y :: ys, mem => by
    simp only [Expr.visitsAll, List.mem_append] at mem
    obtain mem | mem := mem
    · exact ⟨[], y, ys, rfl, Expr.exists_context seen mem⟩
    · obtain ⟨before, z, after, rfl, occurs⟩ := Expr.exists_context_all seen mem
      exact ⟨y :: before, z, after, rfl, occurs⟩

end

theorem exists_some_of_mem_optionalVisits {e : Option Expr} (mem : v ∈ optionalVisits e) :
    ∃ y, e = some y ∧ v ∈ y.visits := by
  cases e with
  | none => nomatch mem
  | some y => exact ⟨y, rfl, mem⟩

theorem Declarator.exists_initializer (seen : k.Seen x v) {d : Declarator} (mem : v ∈ d.visits) :
    ∃ y, d = ⟨d.name, d.type, some y, d.span⟩ ∧ v ∈ y.visits := by
  simp only [Declarator.visits, List.mem_cons] at mem
  obtain rfl | mem := mem
  · nomatch seen
  · obtain ⟨y, initial, mem⟩ := exists_some_of_mem_optionalVisits mem
    exact ⟨y, by rw [← initial], mem⟩

theorem Declarator.exists_of_mem_flatMap (seen : k.Seen x v) {ds : List Declarator}
    (mem : v ∈ ds.flatMap Declarator.visits) :
    ∃ before name type y own after,
      ds = before ++ ⟨name, type, some y, own⟩ :: after ∧ v ∈ y.visits := by
  obtain ⟨d, among, own⟩ := List.mem_flatMap.mp mem
  obtain ⟨before, after, rfl⟩ := List.append_of_mem among
  obtain ⟨y, eq, found⟩ := Declarator.exists_initializer seen own
  exact ⟨before, d.name, d.type, y, d.span, after, by rw [← eq], found⟩

/-- In the first clause of a loop header only the initializer of its first declarator stands in a
context. -/
theorem LoopInitializer.exists_initializer (seen : k.Seen x v) {span : Span}
    {clause : LoopInitializer} (mem : v ∈ clause.visits span) :
    ∃ name type y own ds,
      clause = .declarators (⟨name, type, some y, own⟩ :: ds) ∧ v ∈ y.visits := by
  rw [LoopInitializer.visits.eq_def, List.mem_cons] at mem
  obtain rfl | mem := mem
  · nomatch seen
  split at mem
  next d ds =>
    obtain ⟨y, eq, mem⟩ := Declarator.exists_initializer seen mem
    exact ⟨d.name, d.type, y, d.span, ds, by rw [← eq], mem⟩
  next own name =>
    obtain rfl := List.mem_singleton.mp mem
    nomatch seen
  next => nomatch mem

mutual

theorem Stmt.exists_context (seen : k.Seen x v) {position : Position} : ∀ {y : Stmt},
    v ∈ y.visits position → v ≠ .statement position y →
    ∃ C : Context k (.statement position), C.fill x = y := by
  intro y mem other
  match y with
  | .if span condition thenBranch elseBranch =>
    simp only [Stmt.visits, List.mem_cons, other, false_or, List.mem_append] at mem
    obtain mem | mem | mem := mem
    · exact exists_inside (.ifCondition position span thenBranch elseBranch)
        (Expr.exists_context seen mem)
    · exact exists_inside (.thenBranch position span condition elseBranch)
        (Stmt.exists_context_body seen mem)
    · obtain ⟨y, rfl, occurs⟩ := Stmt.exists_context_else seen mem
      exact exists_inside (.elseBranch position span condition thenBranch) occurs
  | .return span value =>
    simp only [Stmt.visits, List.mem_cons, other, false_or] at mem
    obtain ⟨y, rfl, mem⟩ := exists_some_of_mem_optionalVisits mem
    exact exists_inside (.returned position span) (Expr.exists_context seen mem)
  | .throw span value =>
    simp only [Stmt.visits, List.mem_cons, other, false_or] at mem
    exact exists_inside (.thrown position span) (Expr.exists_context seen mem)
  | .expression span value =>
    simp only [Stmt.visits, List.mem_cons, other, false_or] at mem
    exact exists_inside (.evaluated position span) (Expr.exists_context seen mem)
  | .variable span declarators =>
    simp only [Stmt.visits, List.mem_cons, other, false_or] at mem
    obtain ⟨before, name, type, y, own, after, rfl, found⟩ :=
      Declarator.exists_of_mem_flatMap seen mem
    exact exists_inside (.initial position span before name type own after)
      (Expr.exists_context seen found)
  | .while span condition body =>
    simp only [Stmt.visits, List.mem_cons, other, false_or, List.mem_append] at mem
    obtain mem | mem := mem
    · exact exists_inside (.whileCondition position span body) (Expr.exists_context seen mem)
    · exact exists_inside (.whileBody position span condition) (Stmt.exists_context_body seen mem)
  | .forOf span initializer items body =>
    simp only [Stmt.visits, List.mem_cons, other, false_or, List.mem_append] at mem
    obtain mem | mem | mem := mem
    · obtain ⟨name, type, y, own, others, rfl, found⟩ :=
        LoopInitializer.exists_initializer seen mem
      exact exists_inside (.forOfInitial position span name type own others items body)
        (Expr.exists_context seen found)
    · exact exists_inside (.forOfItems position span initializer body)
        (Expr.exists_context seen mem)
    · exact exists_inside (.forOfBody position span initializer items)
        (Stmt.exists_context_body seen mem)
  | .for span initializer condition step body =>
    simp only [Stmt.visits, List.mem_cons, other, false_or, List.mem_append] at mem
    obtain mem | mem | mem | mem := mem
    · cases initializer with
      | none => nomatch mem
      | some clause =>
        obtain ⟨name, type, y, own, others, rfl, found⟩ :=
          LoopInitializer.exists_initializer seen mem
        exact exists_inside (.forInitial position span name type own others condition step body)
          (Expr.exists_context seen found)
    · obtain ⟨y, rfl, mem⟩ := exists_some_of_mem_optionalVisits mem
      exact exists_inside (.forCondition position span initializer step body)
        (Expr.exists_context seen mem)
    · obtain ⟨y, rfl, mem⟩ := exists_some_of_mem_optionalVisits mem
      exact exists_inside (.forStep position span initializer condition body)
        (Expr.exists_context seen mem)
    · exact exists_inside (.forBody position span initializer condition step)
        (Stmt.exists_context_body seen mem)
  | .block span statements =>
    cases position with
    | entry =>
      simp only [Stmt.visits, List.mem_singleton] at mem
      exact absurd mem other
    | body =>
      simp only [Stmt.visits, List.mem_cons, other, false_or] at mem
      exact exists_inside (.braces span) (Stmt.exists_context_all seen mem)
  | .bare .. | .other .. =>
    simp only [Stmt.visits, List.mem_singleton] at mem
    exact absurd mem other

theorem Stmt.exists_context_body (seen : k.Seen x v) {y : Stmt} (mem : v ∈ y.visits .body) :
    ∃ C : Context k (.statement .body), C.fill x = y :=
  Stmt.exists_context seen mem (by cases seen <;> nofun)

theorem Stmt.exists_context_else (seen : k.Seen x v) : ∀ {y : Option Stmt},
    v ∈ Stmt.visitsElse y → ∃ z, y = some z ∧ ∃ C : Context k (.statement .body), C.fill x = z
  | some z, mem => ⟨z, rfl, Stmt.exists_context_body seen mem⟩

theorem Stmt.exists_context_all (seen : k.Seen x v) : ∀ {ys : List Stmt},
    v ∈ Stmt.visitsAll ys → ∃ C : Context k .entries, C.fill x = ys
  | y :: ys, mem => by
    simp only [Stmt.visitsAll, List.mem_append] at mem
    by_cases own : v = .statement .entry y
    · subst own
      cases seen
      exact ⟨.inside (.splice [] ys) .hole, rfl⟩
    obtain mem | mem := mem
    · exact exists_inside (.splice [] ys) (exists_inside .entry (Stmt.exists_context seen mem own))
    · have occurs := exists_inside (.splice [y] []) (Stmt.exists_context_all seen mem)
      simpa [fillFrame] using occurs

end

end

/-- An expression, or an entry of a statement list, is visited exactly when it stands in a
context. -/
theorem mem_visitsAll_iff {k : Part} {x : k.Syntax} {v : Visit} (seen : k.Seen x v)
    (ss : List Stmt) : v ∈ Stmt.visitsAll ss ↔ ∃ C : Context k .entries, C.fill x = ss := by
  refine ⟨Stmt.exists_context_all seen, ?_⟩
  rintro ⟨C, rfl⟩
  exact visits_subset_fill C x seen.mem_visits

end Tree
end NeutralSchema
