import Mathlib.Data.List.TakeWhile
import NeutralSchema.Proofs.Lowering.Visits

/-!
# Visits as steps of lowering

Each visit reports what is wrong with its place, or violates what lowering relies on and stops it.
Main definitions: `Visit.reports`, `Visit.violation?` and `afterVisits`.
-/
namespace NeutralSchema

/-- Whether a schema expresses an expression. Its operands do not matter. -/
def Tree.Expr.isSupported : Tree.Expr → Bool
  | .wrapped .. | .bare .. | .other .. => false
  | _ => true

/-- Whether a schema expresses a statement where it stands. -/
def Tree.Stmt.isSupported (position : Position) : Tree.Stmt → Bool
  | .block .. => position = .body
  | .bare .. | .other .. => false
  | _ => true

/-- The report of a loop initializer that is neither a single declarator nor a bare identifier. The
loop is at `span`. -/
def loopInitializerReports (file : FileId) (span : Span) : Tree.LoopInitializer → Diagnostics
  | .declarators [] =>
    [⟨.unsupportedLoopInitializer, "Loop initializer declares no variable", some ⟨file, span⟩⟩]
  | .declarators [_] => []
  | .declarators (d :: ds) =>
    [⟨.unsupportedLoopInitializer,
      "Loop initializer declares " ++ toString (ds.length + 1) ++ " variables; only `"
        ++ d.name.text ++ "` is kept", some ⟨file, span⟩⟩]
  | .expression (.identifier _ _) => []
  | .expression e =>
    [⟨.unsupportedLoopInitializer,
      "Unsupported loop initializer: " ++ e.description ++ " expression", some ⟨file, e.span⟩⟩]

namespace Visit

/-- What a visit reports. -/
def reports (file : FileId) : Visit → Diagnostics
  | .name _ text span => Name.invalidCharacters text (some ⟨file, span⟩)
  | .expression e =>
    if e.isSupported then []
    else [⟨.unexpectedExpression, "Unexpected expression kind: " ++ e.description,
      some ⟨file, e.span⟩⟩]
  | .statement position s =>
    if s.isSupported position then []
    else [⟨.unexpectedStatement, "Unexpected statement kind: " ++ s.description,
      some ⟨file, s.span⟩⟩]
  | .loopInitializer span clause => loopInitializerReports file span clause
  | .laterConstructor className span =>
    [⟨.multipleConstructors,
      "Multiple constructors in class `" ++ className ++ "`; only the first is kept",
      some ⟨file, span⟩⟩]
  | .type .. | .body .. | .initializer .. => []

/-- The error with which a visit stops the lowering of a file. -/
def violation? (f : Tree.File) : Visit → Option LoweringError
  | .type owner span none => some (.missingType owner (f.fileSpan span))
  | .body owner span none => some (.missingBody owner (f.fileSpan span))
  | .initializer span =>
    match f.textAt? span with
    | some _ => none
    | none => some (.spanOutOfBounds f.path (f.fileSpan span) (Text.byteLength f.text.toList))
  | _ => none

/-- A visit as a step of lowering. -/
def perform (f : Tree.File) (v : Visit) : Lowering Unit :=
  match v.violation? f with
  | some e => throw e
  | none => modify (· ++ v.reports f.id)

end Visit

/-- What is lowered after some visits. -/
def afterVisits {α : Type} (f : Tree.File) (vs : List Visit) (x : Lowering α) : Lowering α := do
  vs.forM (Visit.perform f)
  x

section

variable {α β : Type} {f : Tree.File}

@[simp] theorem afterVisits_nil (x : Lowering α) : afterVisits f [] x = x := by
  simp [afterVisits]

theorem afterVisits_cons (v : Visit) (vs : List Visit) (x : Lowering α) :
    afterVisits f (v :: vs) x = (do v.perform f; afterVisits f vs x) := by
  simp [afterVisits]

@[simp] theorem afterVisits_afterVisits (vs ws : List Visit) (x : Lowering α) :
    afterVisits f vs (afterVisits f ws x) = afterVisits f (vs ++ ws) x := by
  simp [afterVisits]

@[simp] theorem afterVisits_bind (vs : List Visit) (x : Lowering α) (g : α → Lowering β) :
    afterVisits f vs x >>= g = afterVisits f vs (x >>= g) := by
  simp [afterVisits]

@[simp] theorem map_afterVisits (vs : List Visit) (x : Lowering α) (g : α → β) :
    g <$> afterVisits f vs x = afterVisits f vs (g <$> x) := by
  simp [afterVisits]

/-- A visit that neither stops lowering nor reports makes no difference. -/
theorem afterVisits_cons_silent {v : Visit} (goesOn : v.violation? f = none)
    (silent : v.reports f.id = []) (vs : List Visit) (x : Lowering α) :
    afterVisits f (v :: vs) x = afterVisits f vs x := by
  have idle : v.perform f = pure () := by
    simp only [Visit.perform, goesOn, silent, List.append_nil]
    rfl
  rw [afterVisits_cons, idle, pure_bind]

/-- A visit that goes on with one report. -/
theorem afterVisits_cons_report {v : Visit} {d : Diagnostic} (goesOn : v.violation? f = none)
    (reported : v.reports f.id = [d]) (vs : List Visit) (x : Lowering α) :
    afterVisits f (v :: vs) x = (do report d; afterVisits f vs x) := by
  rw [afterVisits_cons, Visit.perform, goesOn, reported]
  rfl

/-- A visit that stops lowering leaves nothing of what comes after it. -/
theorem afterVisits_cons_stop {v : Visit} {e : LoweringError} (stops : v.violation? f = some e)
    (vs : List Visit) (x : Lowering α) : afterVisits f (v :: vs) x = throw e := by
  rw [afterVisits_cons, Visit.perform, stops]
  rfl

end

/-- What visits report up to the first one that stops lowering. -/
def reportsUntilStop (f : Tree.File) (vs : List Visit) : Diagnostics :=
  (vs.takeWhile fun v => (v.violation? f).isNone).flatMap (Visit.reports f.id)

section

variable {f : Tree.File} {v : Visit} {vs : List Visit}

theorem reportsUntilStop_cons_stop {e : LoweringError} (stops : v.violation? f = some e) :
    reportsUntilStop f (v :: vs) = [] := by
  simp [reportsUntilStop, stops]

theorem reportsUntilStop_cons (goesOn : v.violation? f = none) :
    reportsUntilStop f (v :: vs) = v.reports f.id ++ reportsUntilStop f vs := by
  simp [reportsUntilStop, goesOn]

/-- Without a stop every visit reports. -/
theorem reportsUntilStop_eq_flatMap (goesOn : ∀ v ∈ vs, v.violation? f = none) :
    reportsUntilStop f vs = vs.flatMap (Visit.reports f.id) := by
  have all : vs.takeWhile (fun v => (v.violation? f).isNone) = vs :=
    List.takeWhile_eq_self_iff.mpr fun v mem => by simp [goesOn v mem]
  rw [reportsUntilStop, all]

theorem reportsUntilStop_append (goesOn : ∀ v ∈ vs, v.violation? f = none) (ws : List Visit) :
    reportsUntilStop f (vs ++ ws)
      = vs.flatMap (Visit.reports f.id) ++ reportsUntilStop f ws := by
  have all : ∀ v ∈ vs, (v.violation? f).isNone := fun v mem => by simp [goesOn v mem]
  rw [reportsUntilStop, List.takeWhile_append_of_pos all, List.flatMap_append]
  rfl

/-- What comes after a stop does not report. -/
theorem reportsUntilStop_append_stop (stops : ¬∀ v ∈ vs, v.violation? f = none)
    (ws : List Visit) : reportsUntilStop f (vs ++ ws) = reportsUntilStop f vs := by
  induction vs with
  | nil => exact absurd (List.forall_mem_nil _) stops
  | cons v vs ih =>
    rw [List.cons_append]
    cases first : v.violation? f with
    | some e => rw [reportsUntilStop_cons_stop first, reportsUntilStop_cons_stop first]
    | none =>
      have later : ¬∀ v ∈ vs, v.violation? f = none := fun goesOn =>
        stops (List.forall_mem_cons.mpr ⟨first, goesOn⟩)
      rw [reportsUntilStop_cons first, reportsUntilStop_cons first, ih later]

end

/-- The first violation decides the outcome; without one there is a result. -/
theorem runFrom_afterVisits {α : Type} (f : Tree.File) (vs : List Visit) (a : α)
    (collected : Diagnostics) :
    (afterVisits f vs (pure a)).runFrom collected
      = (match vs.findSome? (Visit.violation? f) with
          | some e => .error e
          | none => .ok a,
        collected ++ reportsUntilStop f vs) := by
  induction vs generalizing collected with
  | nil => simp [reportsUntilStop, Lowering.runFrom]
  | cons v vs ih =>
    cases stops : v.violation? f with
    | some e =>
      have stopped : (throw e : Lowering α).runFrom collected = (.error e, collected) := rfl
      rw [afterVisits_cons_stop stops, stopped, reportsUntilStop_cons_stop stops]
      simp [stops]
    | none =>
      have step : (afterVisits f (v :: vs) (pure a)).runFrom collected
          = (afterVisits f vs (pure a)).runFrom (collected ++ v.reports f.id) := by
        rw [afterVisits_cons, Visit.perform, stops]
        rfl
      rw [step, ih, reportsUntilStop_cons stops]
      simp [stops]

/-- There is a result exactly when no visit stops lowering, and then each of them has reported. -/
theorem runFrom_afterVisits_eq_ok_iff {α : Type} {f : Tree.File} {vs : List Visit} {a b : α}
    {collected after : Diagnostics} :
    (afterVisits f vs (pure a)).runFrom collected = (.ok b, after)
      ↔ (∀ v ∈ vs, v.violation? f = none) ∧ b = a
        ∧ after = collected ++ vs.flatMap (Visit.reports f.id) := by
  rw [runFrom_afterVisits]
  cases first : vs.findSome? (Visit.violation? f) with
  | some e =>
    have stops : ¬∀ v ∈ vs, v.violation? f = none := by
      rw [← List.findSome?_eq_none_iff, first]
      exact Option.some_ne_none e
    simp [stops]
  | none =>
    have goesOn : ∀ v ∈ vs, v.violation? f = none := List.findSome?_eq_none_iff.mp first
    simp only [reportsUntilStop_eq_flatMap goesOn, Prod.mk.injEq, Except.ok.injEq,
      eq_comm (a := a), eq_comm (b := after)]
    exact (and_iff_right goesOn).symm

end NeutralSchema
