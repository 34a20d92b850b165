import NeutralSchema.Proofs.Lowering.Separation

/-!
# Calls that share a collector

Whatever was collected before, a part of a tree is lowered to the same and reports the same, also if
it stops at an error. So calls that share a collector do not see each other. Main statement:
`calls_append`.
-/
namespace NeutralSchema

/-- Whether a way of lowering gives the same, and appends the same diagnostics, whatever was
collected before. -/
def Lowering.Appends {α : Type} (x : Lowering α) : Prop :=
  ∀ collected, x.runFrom collected = ((x.runFrom []).1, collected ++ (x.runFrom []).2)

/-- What comes down to visits and a result appends what the visits report until one stops it. -/
theorem Lowering.appends_of_visits {α : Type} {x : Lowering α} {f : Tree.File} {vs : List Visit}
    {a : α} (same : x = afterVisits f vs (pure a)) : x.Appends := by
  intro collected
  rw [same, runFrom_afterVisits, runFrom_afterVisits, List.nil_append]

/-- What of a file may be lowered by itself. A type and the clause of a loop header come with the
span of the declaration or loop that they belong to. -/
inductive Entry where
  | type (span : Span) (t : Tree.ResolvedType)
  | declaredType (owner : Owner) (span : Span) (t : Option Tree.ResolvedType)
  | expression (e : Option Tree.Expr)
  | statement (s : Tree.Stmt)
  | body (s : Tree.Stmt)
  | statements (ss : List Tree.Stmt)
  | loopInitializer (span : Span) (clause : Tree.LoopInitializer)
  /-- The whole file. -/
  | file

namespace Entry

abbrev Result : Entry → Type
  | .type .. | .declaredType .. => Schema.DataType
  | .expression _ => Option Schema.Expression
  | .statement _ => List Schema.Statement
  | .body _ | .statements _ => Schema.Block
  | .loopInitializer .. => Option Schema.Variable
  | .file => Schema.File

def lower (f : Tree.File) : (e : Entry) → Lowering e.Result
  | .type span t => lowerType (f.fileSpan span) t
  | .declaredType owner span t => lowerDeclaredType owner (f.fileSpan span) t
  | .expression e => lowerOptional f.id e
  | .statement s => lowerStatement f.id s
  | .body s => lowerBody f.id s
  | .statements ss => lowerStatements f.id ss
  | .loopInitializer span clause => lowerLoopInitializer f.id span clause
  | .file => lowerFile f

open Lowering in
theorem appends_lower (f : Tree.File) (e : Entry) : (e.lower f).Appends := by
  cases e with
  | type span t => exact appends_of_visits (lowerType_eq f false span t)
  | declaredType owner span t =>
    exact appends_of_visits (lowerDeclaredType_eq f false owner span t)
  | expression e => exact appends_of_visits (lowerOptional_eq f e)
  | statement s => exact appends_of_visits (lowerStatementAt_eq f .entry s)
  | body s => exact appends_of_visits (lowerStatementAt_eq f .body s)
  | statements ss => exact appends_of_visits (lowerStatements_eq f ss)
  | loopInitializer span clause => exact appends_of_visits (lowerLoopInitializer_eq f span clause)
  | file => exact appends_of_visits (lowerFile_eq f)

end Entry

/-- A file and what of it is lowered. -/
structure Call where
  file : Tree.File
  entry : Entry

namespace Call

/-- The outcome of a call, and all diagnostics after it, when some were already collected. -/
def run (c : Call) (collected : Diagnostics) : Except LoweringError c.entry.Result × Diagnostics :=
  (c.entry.lower c.file).runFrom collected

/-- The outcome of a call by itself. -/
def outcome (c : Call) : Except LoweringError c.entry.Result := (c.run []).1

/-- What a call by itself reports. -/
def reports (c : Call) : Diagnostics := (c.run []).2

theorem run_eq (c : Call) (collected : Diagnostics) :
    c.run collected = (c.outcome, collected ++ c.reports) :=
  c.entry.appends_lower c.file collected

end Call

/-- The outcomes of calls that are made one after the other, and all diagnostics after them. An
error ends its own call only. -/
def runCalls (collected : Diagnostics) :
    List Call → List ((c : Call) × Except LoweringError c.entry.Result) × Diagnostics
  | [] => ([], collected)
  | c :: cs =>
    let (outcomes, last) := runCalls (c.run collected).2 cs
    (⟨c, (c.run collected).1⟩ :: outcomes, last)

/-- A call that is made when diagnostics were already collected has the outcome that it has by
itself, a result or an error, and appends what it reports by itself. So does each of several calls
that are made one after the other. -/
theorem calls_append :
    (∀ (c : Call) (collected : Diagnostics), c.run collected = (c.outcome, collected ++ c.reports))
      ∧ ∀ (cs : List Call) (collected : Diagnostics),
        runCalls collected cs
          = (cs.map fun c => ⟨c, c.outcome⟩, collected ++ cs.flatMap Call.reports) := by
  refine ⟨Call.run_eq, fun cs => ?_⟩
  induction cs with
  | nil => simp [runCalls]
  | cons c cs ih =>
    intro collected
    rw [runCalls, ih, c.run_eq]
    simp

/-- What a call reports before it stops at an error stays, and the next call appends to it. -/
example :
    let f : Tree.File := ⟨0, "a.ts", "", []⟩
    let stopped : Tree.Expr := .call .zero (.identifier .zero "f$") [.new .zero none []]
    let unexpected : Tree.Expr := .bare ⟨5, 9⟩ .arrowFunction
    (runCalls [] [⟨f, .expression (some stopped)⟩, ⟨f, .expression (some unexpected)⟩]).2.map
        (fun d => (d.kind, d.source))
      = [(.invalidName, some ⟨0, .zero⟩), (.unexpectedExpression, some ⟨0, ⟨5, 9⟩⟩)] := rfl

end NeutralSchema
