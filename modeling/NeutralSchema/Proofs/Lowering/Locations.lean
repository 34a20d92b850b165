import NeutralSchema.Proofs.Lowering.Essence
import NeutralSchema.Proofs.Lowering.Relocation
import NeutralSchema.Proofs.Lowering.Writes

/-!
# Locations and content

Where things stand in a file is shown by reports and errors, and decides nothing else. The one
exception are the initializers of instance properties, whose spans select source text; and there is
nothing else that the source text is for. Main statement: `lowerFile_unlocated`.
-/
namespace NeutralSchema

/-- What a diagnostic says, wherever it belongs. -/
def Diagnostic.content (d : Diagnostic) : DiagnosticKind × String := (d.kind, d.message)

/-- The same diagnostic in another file. -/
def Diagnostic.inFile (id : FileId) (d : Diagnostic) : Diagnostic :=
  { d with source := d.source.map fun s => ⟨id, s.span⟩ }

namespace LoweringError

/-- What an error says, wherever it is found: a span beyond the text belongs to it, and other spans,
the file and its path do not. -/
def content : LoweringError → LoweringError
  | missingType owner _ => missingType owner ⟨0, .zero⟩
  | missingBody owner _ => missingBody owner ⟨0, .zero⟩
  | spanOutOfBounds _ source length => spanOutOfBounds "" ⟨0, source.span⟩ length

/-- The same error in another file. -/
def inFile (id : FileId) : LoweringError → LoweringError
  | missingType owner source => missingType owner ⟨id, source.span⟩
  | missingBody owner source => missingBody owner ⟨id, source.span⟩
  | spanOutOfBounds path source length => spanOutOfBounds path ⟨id, source.span⟩ length

end LoweringError

/-- The span of the initializer, if the member is an instance property that has one. -/
def Tree.ClassMember.initializerSpan? (m : ClassMember) : Option Span :=
  m.instanceProperty?.bind fun p => p.initializer.map Expr.span

/-- The spans of the initializers of instance properties. -/
def Tree.File.initializerSpans (f : File) : List Span :=
  f.classes.flatMap fun c => c.members.filterMap ClassMember.initializerSpan?

section

variable {f g : Tree.File} {change : Visit → Visit} {α : Type}
  {seen seen' : Diagnostic → α} {cause cause' : LoweringError → LoweringError}

/-- If the visits of two files correspond, each reporting and stopping alike from some point of
view, then the files are lowered alike from that point of view. -/
theorem lowerFile_of_visits_eq_map (translation : g.translation = f.translation)
    (visits : g.visits = f.visits.map change)
    (stops : ∀ v, ((change v).violation? g).map cause' = (v.violation? f).map cause)
    (reports : ∀ v, ((change v).reports g.id).map seen' = (v.reports f.id).map seen)
    (collected : Diagnostics) :
    ((lowerFile g).runFrom collected).1.mapError cause'
        = ((lowerFile f).runFrom collected).1.mapError cause
      ∧ ∃ ds es, ((lowerFile f).runFrom collected).2 = collected ++ ds
        ∧ ((lowerFile g).runFrom collected).2 = collected ++ es
        ∧ es.map seen' = ds.map seen := by
  have goesOn (v : Visit) : ((change v).violation? g).isNone = (v.violation? f).isNone := by
    have same := congrArg Option.isNone (stops v)
    simpa only [Option.isNone_map] using same
  have first : (g.visits.findSome? (Visit.violation? g)).map cause'
      = (f.visits.findSome? (Visit.violation? f)).map cause := by
    simp only [visits, List.findSome?_map, List.map_findSome?, Function.comp_def, stops]
  have reported : (reportsUntilStop g g.visits).map seen'
      = (reportsUntilStop f f.visits).map seen := by
    simp only [reportsUntilStop, visits, List.takeWhile_map, List.flatMap_map, List.map_flatMap,
      Function.comp_def, goesOn, reports]
  rw [lowerFile_eq, lowerFile_eq, runFrom_afterVisits, runFrom_afterVisits, translation]
  refine ⟨?_, _, _, rfl, rfl, reported⟩
  generalize f.visits.findSome? (Visit.violation? f) = stop at first ⊢
  generalize g.visits.findSome? (Visit.violation? g) = stop' at first ⊢
  cases stop <;> cases stop' <;> simp_all [Except.mapError]

end

section

variable (f : Tree.File) (place : Span → Span) (id : FileId) (path : String)

theorem content_invalidCharacters (name : String) (source : Option FileSpan) :
    (Name.invalidCharacters name source).map Diagnostic.content
      = (Name.invalidCharacters name none).map Diagnostic.content := by
  simp [Name.invalidCharacters, Name.invalidCharacter, Diagnostic.content, Function.comp_def]

theorem content_reports_relocate (file : FileId) (v : Visit) :
    ((v.relocate place).reports id).map Diagnostic.content
      = (v.reports file).map Diagnostic.content := by
  cases v with
  | name promoted text span =>
    simp only [Visit.relocate, Visit.reports]
    rw [content_invalidCharacters, content_invalidCharacters _ (some ⟨file, span⟩)]
  | expression e =>
    have supported : (e.relocate place).isSupported = e.isSupported := by cases e <;> rfl
    cases known : e.isSupported <;>
      simp [Visit.relocate, Visit.reports, supported, known, Diagnostic.content]
  | statement position s =>
    have supported : (s.relocate place).isSupported position = s.isSupported position := by
      cases s <;> rfl
    cases known : s.isSupported position <;>
      simp [Visit.relocate, Visit.reports, supported, known, Diagnostic.content]
  | loopInitializer span clause =>
    cases clause with
    | declarators ds =>
      rcases ds with _ | ⟨d, _ | ⟨e, ds⟩⟩
      · rfl
      · rfl
      · simp [Visit.relocate, Visit.reports, loopInitializerReports, Tree.LoopInitializer.relocate,
          Tree.Declarator.relocate, Tree.Ident.relocate, Diagnostic.content]
    | expression e =>
      cases e with
      | wrapped own form inner => cases form <;> rfl
      | _ => rfl
  | type | body | initializer | laterConstructor => rfl

theorem content_violation?_relocate (v : Visit) :
    ((v.relocate place).violation? (f.relocate place id path)).map LoweringError.content
      = (v.violation? f).map LoweringError.content := by
  cases v with
  | type owner span declared => cases declared <;> rfl
  | body owner span block => cases block <;> rfl
  | initializer span =>
    have text : (f.relocate place id path).textAt? span = f.textAt? span := rfl
    simp only [Visit.relocate, Visit.violation?, text]
    cases f.textAt? span <;> rfl
  | name | expression | statement | loopInitializer | laterConstructor => rfl

/-- A relocated file is lowered to the same content. -/
theorem lowerFile_relocate (collected : Diagnostics) :
    ((lowerFile (f.relocate place id path)).runFrom collected).1.mapError LoweringError.content
        = ((lowerFile f).runFrom collected).1.mapError LoweringError.content
      ∧ ((lowerFile (f.relocate place id path)).runFrom collected).2.map Diagnostic.content
        = ((lowerFile f).runFrom collected).2.map Diagnostic.content := by
  obtain ⟨outcome, ds, es, first, second, same⟩ :=
    lowerFile_of_visits_eq_map (Tree.File.translation_relocate place id path f)
      (Tree.File.visits_relocate place id path f)
      (content_violation?_relocate f place id path)
      (content_reports_relocate place id f.id) collected
  refine ⟨outcome, ?_⟩
  rw [first, second, List.map_append, List.map_append, same]

end

section

variable (f : Tree.File) (id : FileId)

theorem reports_inFile (file : FileId) (v : Visit) :
    v.reports id = (v.reports file).map (Diagnostic.inFile id) := by
  cases v with
  | name promoted text span =>
    simp [Visit.reports, Name.invalidCharacters, Name.invalidCharacter, Diagnostic.inFile,
      Function.comp_def]
  | expression e =>
    cases known : e.isSupported <;> simp [Visit.reports, known, Diagnostic.inFile]
  | statement position s =>
    cases known : s.isSupported position <;> simp [Visit.reports, known, Diagnostic.inFile]
  | loopInitializer span clause =>
    cases clause with
    | declarators ds => rcases ds with _ | ⟨d, _ | ⟨e, ds⟩⟩ <;> rfl
    | expression e => cases e <;> rfl
  | type | body | initializer | laterConstructor => rfl

theorem violation?_inFile (v : Visit) :
    v.violation? { f with id } = (v.violation? f).map (LoweringError.inFile id) := by
  cases v with
  | type owner span declared => cases declared <;> rfl
  | body owner span block => cases block <;> rfl
  | initializer span =>
    have text : Tree.File.textAt? { f with id } span = f.textAt? span := rfl
    simp only [Visit.violation?, text]
    cases f.textAt? span <;> rfl
  | name | expression | statement | loopInitializer | laterConstructor => rfl

/-- Under another id a file is lowered alike, and what is reported shows that id. -/
theorem lowerFile_inFile (collected : Diagnostics) :
    ((lowerFile { f with id }).runFrom collected).1
        = ((lowerFile f).runFrom collected).1.mapError (LoweringError.inFile id)
      ∧ ∃ ds, ((lowerFile f).runFrom collected).2 = collected ++ ds
        ∧ ((lowerFile { f with id }).runFrom collected).2
          = collected ++ ds.map (Diagnostic.inFile id) := by
  have visits : Tree.File.visits { f with id } = f.visits.map fun v => v := (List.map_id' _).symm
  have stops (v : Visit) : (v.violation? { f with id }).map (fun e => e)
      = (v.violation? f).map (LoweringError.inFile id) := by
    rw [Option.map_id', violation?_inFile]
  have reports (v : Visit) : (v.reports id).map (fun d => d)
      = (v.reports f.id).map (Diagnostic.inFile id) := by
    rw [List.map_id']
    exact reports_inFile id f.id v
  obtain ⟨outcome, ds, es, first, second, same⟩ :=
    lowerFile_of_visits_eq_map (f := f) (g := { f with id }) rfl visits stops reports collected
  rw [List.map_id'] at same
  refine ⟨?_, ds, first, by rw [second, same]⟩
  rw [← outcome]
  cases ((lowerFile { f with id }).runFrom collected).1 <;> rfl

end

theorem runFrom_bind {α β : Type} (x : Lowering α) (next : α → Lowering β)
    (collected : Diagnostics) :
    (x >>= next).runFrom collected
      = match x.runFrom collected with
        | (.ok a, after) => (next a).runFrom after
        | (.error e, after) => (.error e, after) := by
  simp only [Lowering.runFrom, EStateM.run, bind, EStateM.bind]
  cases x collected <;> rfl

/-- Two ways of lowering are alike but for the length of the text if they end alike, unless both
stop at the same span beyond their texts. -/
def AlikeButForLength {α : Type} (f : Tree.File) (text : String) (x y : Lowering α) : Prop :=
  ∀ collected, y.runFrom collected = x.runFrom collected
    ∨ ∃ span after,
      x.runFrom collected = (.error (.spanOutOfBounds f.path (f.fileSpan span)
        (Text.byteLength f.text.toList)), after)
      ∧ y.runFrom collected = (.error (.spanOutOfBounds f.path (f.fileSpan span)
        (Text.byteLength text.toList)), after)

namespace AlikeButForLength

variable {α β : Type} {f : Tree.File} {text : String}

theorem refl (x : Lowering α) : AlikeButForLength f text x x := fun _ => .inl rfl

theorem bind {x y : Lowering α} {next next' : α → Lowering β}
    (first : AlikeButForLength f text x y)
    (rest : ∀ a, AlikeButForLength f text (next a) (next' a)) :
    AlikeButForLength f text (x >>= next) (y >>= next') := by
  intro collected
  rw [runFrom_bind, runFrom_bind]
  rcases first collected with same | ⟨span, after, stop, stop'⟩
  · rw [same]
    match x.runFrom collected with
    | (.ok a, after) => exact rest a after
    | (.error e, after) => exact .inl rfl
  · rw [stop, stop']
    exact .inr ⟨span, after, rfl, rfl⟩

variable (f text)

theorem lowerDefault {initializer : Option Tree.Expr}
    (same : ∀ e, initializer = some e →
      Tree.File.textAt? { f with text } e.span = f.textAt? e.span) :
    AlikeButForLength f text (lowerDefault f initializer)
      (lowerDefault { f with text } initializer) := by
  cases initializer with
  | none => exact refl _
  | some e =>
    refine bind (fun collected => ?_) fun _ => refl _
    cases covered : f.textAt? e.span with
    | some part =>
      left
      rw [sourceText, sourceText, same e rfl, covered]
    | none =>
      right
      rw [sourceText, sourceText, same e rfl, covered]
      exact ⟨e.span, collected, rfl, rfl⟩

/-- Only the initializer of an instance property is looked up in the text. -/
theorem lowerMember (declared className : String) (c : Schema.Class) {m : Tree.ClassMember}
    (same : ∀ span, m.initializerSpan? = some span →
      Tree.File.textAt? { f with text } span = f.textAt? span) :
    AlikeButForLength f text (lowerMember f declared className c m)
      (lowerMember { f with text } declared className c m) := by
  cases m with
  | property p =>
    rw [NeutralSchema.lowerMember, NeutralSchema.lowerMember]
    cases static : p.modifiers.isStatic with
    | true => exact refl _
    | false =>
      have selected : ∀ e, p.initializer = some e →
          Tree.File.textAt? { f with text } e.span = f.textAt? e.span := by
        intro e given
        apply same
        simp [Tree.ClassMember.initializerSpan?, Tree.ClassMember.instanceProperty?, static, given]
      refine bind ?_ fun _ => refl _
      refine bind (refl _) fun _ => bind (refl _) fun _ => ?_
      exact bind (lowerDefault f text selected) fun _ => refl _
  | method | constructor | other => exact refl _

theorem lowerMembers (declared className : String) (c : Schema.Class)
    {ms : List Tree.ClassMember}
    (same : ∀ m ∈ ms, ∀ span, m.initializerSpan? = some span →
      Tree.File.textAt? { f with text } span = f.textAt? span) :
    AlikeButForLength f text (lowerMembers f declared className c ms)
      (lowerMembers { f with text } declared className c ms) := by
  induction ms generalizing c with
  | nil => exact refl _
  | cons m ms ih =>
    obtain ⟨first, rest⟩ := List.forall_mem_cons.mp same
    exact bind (lowerMember f text declared className c first) fun c => ih c rest

theorem lowerItems (s : Schema.File) {is : List Tree.Item}
    (same : ∀ span ∈ (is.filterMap Tree.Item.class?).flatMap fun c =>
        c.members.filterMap Tree.ClassMember.initializerSpan?,
      Tree.File.textAt? { f with text } span = f.textAt? span) :
    AlikeButForLength f text (lowerItems f s is) (lowerItems { f with text } s is) := by
  induction is generalizing s with
  | nil => exact refl _
  | cons i is ih =>
    cases i with
    | classDecl c =>
      have members : ∀ m ∈ c.members, ∀ span, m.initializerSpan? = some span →
          Tree.File.textAt? { f with text } span = f.textAt? span := by
        intro m mem span given
        apply same
        simp only [List.filterMap_cons, Tree.Item.class?, List.flatMap_cons, List.mem_append]
        exact .inl (List.mem_filterMap.mpr ⟨m, mem, given⟩)
      refine bind ?_ fun s => ih s fun span mem => same span ?_
      · refine bind ?_ fun _ => refl _
        exact bind (refl _) fun name => bind (lowerMembers f text _ name _ members) fun _ => refl _
      · simp only [List.filterMap_cons, Tree.Item.class?, List.flatMap_cons, List.mem_append]
        exact .inr mem
    | enumDecl e => exact bind (refl _) fun s => ih s same
    | other => exact bind (refl _) fun s => ih s same

end AlikeButForLength

/-- Two files that are equal but for their ids, their paths and any spans other than those of the
initializers of instance properties have the same schema, or the same error as far as it does not
say where, and so are their diagnostics. If only the ids differ, then so do the sources of errors
and diagnostics. If only the texts differ, but not under the initializers of instance properties,
then so does the length of the text in the error of a span beyond it. -/
theorem lowerFile_unlocated (f : Tree.File) (collected : Diagnostics) :
    (∀ g : Tree.File, g.unlocated = f.unlocated →
        ((lowerFile g).runFrom collected).1.mapError LoweringError.content
            = ((lowerFile f).runFrom collected).1.mapError LoweringError.content
          ∧ ((lowerFile g).runFrom collected).2.map Diagnostic.content
            = ((lowerFile f).runFrom collected).2.map Diagnostic.content)
      ∧ (∀ id : FileId,
        ((lowerFile { f with id }).runFrom collected).1
            = ((lowerFile f).runFrom collected).1.mapError (LoweringError.inFile id)
          ∧ ∃ ds, ((lowerFile f).runFrom collected).2 = collected ++ ds
            ∧ ((lowerFile { f with id }).runFrom collected).2
              = collected ++ ds.map (Diagnostic.inFile id))
      ∧ ∀ text : String,
        (∀ span ∈ f.initializerSpans,
          Tree.File.textAt? { f with text } span = f.textAt? span) →
        AlikeButForLength f text (lowerFile f) (lowerFile { f with text }) := by
  refine ⟨fun g same => ?_, fun id => lowerFile_inFile f id collected, fun text selected => ?_⟩
  · -- Both files are lowered like the one without locations.
    have first := lowerFile_relocate f (fun _ => .zero) 0 "" collected
    have second := lowerFile_relocate g (fun _ => .zero) 0 "" collected
    rw [Tree.File.unlocated, Tree.File.unlocated] at same
    rw [same] at second
    exact ⟨second.1.symm.trans first.1, second.2.symm.trans first.2⟩
  · exact AlikeButForLength.lowerItems f text .empty selected

/-- The same declarations elsewhere, in another file. -/
def moved : Tree.File := sparse.relocate (fun s => ⟨s.start + 7, s.stop + 9⟩) 3 "b.ts"

theorem lowerFile_unlocated_moved :
    moved.unlocated = sparse.unlocated
      ∧ ((lowerFile moved).runFrom []).2 ≠ ((lowerFile sparse).runFrom []).2
      ∧ ((lowerFile moved).runFrom []).2.map Diagnostic.content
        = ((lowerFile sparse).runFrom []).2.map Diagnostic.content
      ∧ sparse.initializerSpans = [⟨0, 1⟩]
      ∧ AlikeButForLength sparse "7 + 1" (lowerFile sparse)
        (lowerFile { sparse with text := "7 + 1" }) := by
  obtain ⟨elsewhere, -, reworded⟩ := lowerFile_unlocated sparse []
  refine ⟨rfl, by decide, (elsewhere moved rfl).2, rfl, reworded "7 + 1" ?_⟩
  intro span mem
  obtain rfl := List.mem_singleton.mp (show span ∈ [(⟨0, 1⟩ : Span)] from mem)
  decide

end NeutralSchema
