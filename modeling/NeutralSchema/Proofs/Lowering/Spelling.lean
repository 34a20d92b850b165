import Mathlib.Data.List.Forall2
import NeutralSchema.Proofs.Lowering.Edit
import NeutralSchema.Proofs.Lowering.Name
import NeutralSchema.Proofs.Lowering.Violations

/-!
# Respelled trees

The spelling of a name matters only up to normalization. A tree in which all names are normalized,
but for those of types that are told by their name, has the same schema or the same error, and the
diagnostics of the tree less those about names that are spelled differently. Main statement:
`lowerFile_respelled`.
-/
namespace NeutralSchema

namespace Tree

/-- The names that stand for a type of their own, `Array` aside. -/
def primitiveNames : List String := ["number", "string", "boolean", "void"]

/-- Whether a type is told by this name, or would be by the normalized one. -/
def isReserved (name : String) : Bool :=
  name = "Array" || name ∈ primitiveNames || Name.normalize name ∈ primitiveNames

/-- The normalized name of a type, unless it is reserved. -/
def respelledType (name : String) : String :=
  if isReserved name then name else Name.normalize name

def TypeName.respelled : TypeName → TypeName
  | .intrinsic name => .intrinsic (respelledType name)
  | .symbol name => .symbol (respelledType name)

mutual

def ResolvedType.respelled : ResolvedType → ResolvedType
  | .mk name arguments => .mk name.respelled (ResolvedType.respelledAll arguments)

def ResolvedType.respelledAll : List ResolvedType → List ResolvedType
  | [] => []
  | t :: ts => t.respelled :: ResolvedType.respelledAll ts

end

/-- Normalizes all names but the reserved ones of types. -/
def Edit.respelling : Edit where
  name := Name.normalize
  type := ResolvedType.respelled
  fills := false
  keeps _ := true

/-- A file with its names normalized. -/
def File.respelled (f : File) : File := f.edit .respelling

theorem canonicalName_respelled (name : TypeName) :
    (ResolvedType.mk name.respelled []).canonicalName
      = respelledType (ResolvedType.mk name []).canonicalName := by
  cases name <;> rfl

theorem respelledType_primitive {name : String} (primitive : name ∈ primitiveNames) :
    respelledType name = name :=
  if_pos (by simp [isReserved, primitive])

/-- The name of a class does not become one of the others. -/
theorem respelledType_class {name : String} (array : name ≠ "Array")
    (primitive : name ∉ primitiveNames) :
    respelledType name ≠ "Array" ∧ respelledType name ∉ primitiveNames := by
  unfold respelledType
  split
  · exact ⟨array, primitive⟩
  · next reserved =>
    refine ⟨fun same => ?_, fun mem => reserved (by simp [isReserved, mem])⟩
    have normal := Name.isNormalized_normalize name
    rw [same] at normal
    exact absurd normal (by decide)

theorem normalize_respelledType (name : String) :
    Name.normalize (respelledType name) = Name.normalize name := by
  unfold respelledType
  split
  · rfl
  · exact Name.normalize_normalize name

/-- A type that is neither primitive nor an array is a class. -/
theorem class_of_canonicalName {name : TypeName} (arguments : List ResolvedType)
    (array : (ResolvedType.mk name []).canonicalName ≠ "Array")
    (primitive : (ResolvedType.mk name []).canonicalName ∉ primitiveNames) :
    (ResolvedType.mk name arguments).classNames
        = (ResolvedType.mk name []).canonicalName :: ResolvedType.classNamesAll arguments
      ∧ (ResolvedType.mk name arguments).translation
        = .named (Name.normalize (ResolvedType.mk name []).canonicalName)
          (ResolvedType.translationAll arguments) := by
  simp only [primitiveNames, List.mem_cons, List.not_mem_nil, or_false, not_or] at primitive
  constructor
  · unfold ResolvedType.classNames
    split <;> simp_all
  · unfold ResolvedType.translation
    split <;> simp_all

mutual

theorem ResolvedType.respelled_spec : ∀ t : ResolvedType,
    t.respelled.classNames = t.classNames.map respelledType
      ∧ t.respelled.translation = t.translation
  | .mk name arguments => by
    obtain ⟨names, translations⟩ := respelledAll_spec arguments
    have canonical := canonicalName_respelled name
    by_cases primitive : (ResolvedType.mk name []).canonicalName ∈ primitiveNames
    · rw [respelledType_primitive primitive] at canonical
      simp only [primitiveNames, List.mem_cons, List.not_mem_nil, or_false] at primitive
      rcases primitive with h | h | h | h <;>
        simp [ResolvedType.respelled, ResolvedType.classNames, ResolvedType.translation,
          canonical, h]
    · by_cases array : (ResolvedType.mk name []).canonicalName = "Array"
      · have kept : respelledType "Array" = "Array" := if_pos rfl
        rw [array, kept] at canonical
        simp [ResolvedType.respelled, ResolvedType.classNames, ResolvedType.translation,
          canonical, array, names, translations]
      · obtain ⟨classNames, translation⟩ := class_of_canonicalName arguments array primitive
        obtain ⟨array', primitive'⟩ := respelledType_class array primitive
        rw [← canonical] at array' primitive'
        obtain ⟨classNames', translation'⟩ :=
          class_of_canonicalName (ResolvedType.respelledAll arguments) array' primitive'
        rw [ResolvedType.respelled, classNames', translation', classNames, translation, canonical,
          names, translations, normalize_respelledType]
        exact ⟨rfl, rfl⟩

theorem ResolvedType.respelledAll_spec : ∀ ts : List ResolvedType,
    ResolvedType.classNamesAll (ResolvedType.respelledAll ts)
        = (ResolvedType.classNamesAll ts).map respelledType
      ∧ ResolvedType.translationAll (ResolvedType.respelledAll ts)
        = ResolvedType.translationAll ts
  | [] => ⟨rfl, rfl⟩
  | t :: ts => by
    have first := respelled_spec t
    have rest := respelledAll_spec ts
    simp [ResolvedType.respelledAll, ResolvedType.classNamesAll, ResolvedType.translationAll,
      first, rest]

end

theorem respelling_invisible (f : File) : Edit.respelling.Invisible f where
  name := Name.normalize_normalize
  type t := t.respelled_spec.2
  initializer removed := absurd removed (by simp [Edit.respelling])

end Tree

/-- Whether two visits are of the same place in a tree and in the respelled tree. A name is there
normalized, or it is reserved and stays. -/
inductive SamePlace : Visit → Visit → Prop
  | name (promoted : Bool) (text : String) (span : Span) :
    SamePlace (.name promoted text span) (.name promoted (Name.normalize text) span)
  | reservedName (promoted : Bool) {text : String} (span : Span) (reserved : Tree.isReserved text) :
    SamePlace (.name promoted text span) (.name promoted text span)
  | type (owner : Owner) (span : Span) (type : Option Tree.ResolvedType) :
    SamePlace (.type owner span type) (.type owner span (Tree.Edit.respelling.declared type))
  | body (owner : Owner) (span : Span) (body : Option Tree.Block) :
    SamePlace (.body owner span body) (.body owner span (Tree.Edit.respelling.body body))
  | initializer (span : Span) : SamePlace (.initializer span) (.initializer span)
  | expression (e : Tree.Expr) : SamePlace (.expression e) (.expression (e.edit .respelling))
  | statement (position : Position) (s : Tree.Stmt) :
    SamePlace (.statement position s) (.statement position (s.edit .respelling))
  | loopInitializer (span : Span) (initializer : Tree.LoopInitializer) :
    SamePlace (.loopInitializer span initializer)
      (.loopInitializer span (initializer.edit .respelling))
  | laterConstructor (className : String) (span : Span) :
    SamePlace (.laterConstructor className span)
      (.laterConstructor (Name.normalize className) span)

theorem samePlace_typeVisits (promoted : Bool) (owner : Owner) (span : Span)
    (type : Option Tree.ResolvedType) :
    (Tree.typeVisits promoted owner span type).Forall₂ SamePlace
      (Tree.typeVisits promoted owner span (Tree.Edit.respelling.declared type)) := by
  refine .cons (.type owner span type) ?_
  cases type with
  | none => exact .nil
  | some t =>
    have names : (Tree.Edit.respelling.type t).classNames = t.classNames.map Tree.respelledType :=
      t.respelled_spec.1
    simp only [Tree.Edit.declared, Option.map_some, Option.getD_some, names, List.map_map]
    induction t.classNames with
    | nil => exact .nil
    | cons name rest ih =>
      refine .cons ?_ ih
      by_cases reserved : Tree.isReserved name
      · have kept : Tree.respelledType name = name := if_pos reserved
        rw [Function.comp, kept]
        exact .reservedName promoted span reserved
      · have normal : Tree.respelledType name = Name.normalize name := if_neg reserved
        rw [Function.comp, normal]
        exact .name promoted name span

/-- The places of a file and of the respelled file are the same. -/
theorem samePlace_visits (f : Tree.File) : f.visits.Forall₂ SamePlace f.respelled.visits := by
  have single {v w : Visit} (same : SamePlace v w) : [v].Forall₂ SamePlace [w] := .cons same .nil
  have places : Tree.Edit.respelling.Relates (List.Forall₂ SamePlace) := {
    nil := .nil
    append := fun first rest => List.rel_append first rest
    name := fun promoted text span => single (.name promoted text span)
    type := samePlace_typeVisits
    body := fun owner span body => single (.body owner span body)
    initializer := fun _ => single (.initializer _)
    removedInitializer := fun removed => absurd removed (by simp [Tree.Edit.respelling])
    expression := fun e => single (.expression e)
    statement := fun position s => single (.statement position s)
    loopInitializer := fun span initializer => single (.loopInitializer span initializer)
    laterConstructor := fun className span => single (.laterConstructor className span) }
  exact Tree.File.visits_edit places Name.normalize_normalize f

/-- Whether the name at a place is spelled differently in the two trees. -/
def isRespelled : Visit × Visit → Bool
  | (.name _ text _, .name _ other _) => text != other
  | _ => false

/-- The places before the first one that stops lowering. -/
def placesUntilStop (f : Tree.File) (places : List (Visit × Visit)) : List (Visit × Visit) :=
  places.takeWhile fun p => (p.1.violation? f).isNone

/-- What lowering comes upon in a file, with what there is at the same place of the respelled
file. -/
def Tree.File.places (f : File) : List (Visit × Visit) :=
  placesUntilStop f (f.visits.zip f.respelled.visits)

/-- What is reported at places of a file. -/
def reportsAt (f : Tree.File) (places : List (Visit × Visit)) : Diagnostics :=
  places.flatMap fun p => p.1.reports f.id

/-- Whether two diagnostics are the same, except that the second one may quote the normalized name
where a loop initializer or a class is named. -/
structure Requoted (d e : Diagnostic) : Prop where
  kind : e.kind = d.kind
  source : e.source = d.source
  message : e.message = d.message
    ∨ (d.kind = .unsupportedLoopInitializer ∨ d.kind = .multipleConstructors)
      ∧ ∃ before name after, d.message = before ++ "`" ++ name ++ "`" ++ after
        ∧ e.message = before ++ "`" ++ Name.normalize name ++ "`" ++ after

theorem requoted_same (ds : Diagnostics) : ds.Forall₂ Requoted ds :=
  List.forall₂_same.mpr fun _ _ => ⟨rfl, rfl, .inl rfl⟩

theorem requoted_loopInitializer (file : FileId) (span : Span)
    (initializer : Tree.LoopInitializer) :
    ((Visit.loopInitializer span initializer).reports file).Forall₂ Requoted
      ((Visit.loopInitializer span (initializer.edit .respelling)).reports file) := by
  match initializer with
  | .declarators [] => exact requoted_same _
  | .declarators [_] => exact .nil
  | .declarators (d :: e :: ds) =>
    refine .cons ⟨rfl, rfl, .inr ⟨.inl rfl, ?_⟩⟩ .nil
    refine ⟨"Loop initializer declares " ++ toString (ds.length + 2) ++ " variables; only ",
      d.name.text, " is kept", ?_, ?_⟩
    · simp [String.append_assoc]
    · simp [String.append_assoc, Tree.Declarator.edit, Tree.Edit.ident, Tree.Edit.respelling]
  | .expression e =>
    rw [Tree.reports_loopExpression_edit]
    exact requoted_same _

theorem requoted_laterConstructor (file : FileId) (className : String) (span : Span) :
    ((Visit.laterConstructor className span).reports file).Forall₂ Requoted
      ((Visit.laterConstructor (Name.normalize className) span).reports file) := by
  refine .cons ⟨rfl, rfl, .inr ⟨.inr rfl, ?_⟩⟩ .nil
  refine ⟨"Multiple constructors in class ", className, "; only the first is kept", ?_, ?_⟩
  · simp [String.append_assoc]
  · simp [String.append_assoc]

namespace SamePlace

variable {v w : Visit}

theorem violation? (f : Tree.File) (same : SamePlace v w) : w.violation? f = v.violation? f := by
  cases same with
  | type owner span type => cases type <;> rfl
  | body owner span body => cases body <;> rfl
  | _ => rfl

/-- A name that was replaced is silent now. -/
theorem reports_eq_nil (file : FileId) (same : SamePlace v w) (respelled : isRespelled (v, w)) :
    w.reports file = [] := by
  cases same with
  | name promoted text span =>
    have normal := Name.isNormalized_normalize text
    exact Name.invalidCharacters_eq_nil_iff.mpr (Name.all_isAllowed_of_isNormalized normal)
  | reservedName promoted span reserved => simp [isRespelled] at respelled
  | _ => exact absurd respelled Bool.false_ne_true

/-- Everything else is reported as before. -/
theorem requoted (file : FileId) (same : SamePlace v w) (kept : isRespelled (v, w) = false) :
    (v.reports file).Forall₂ Requoted (w.reports file) := by
  cases same with
  | name promoted text span =>
    have silent : text = Name.normalize text := by simpa [isRespelled] using kept
    rw [← silent]
    exact requoted_same _
  | reservedName | initializer => exact requoted_same _
  | type owner span type => cases type <;> exact .nil
  | body owner span body => cases body <;> exact .nil
  | expression e =>
    rw [Tree.reports_expression_edit]
    exact requoted_same _
  | statement position s =>
    rw [Tree.reports_statement_edit]
    exact requoted_same _
  | loopInitializer span initializer => exact requoted_loopInitializer file span initializer
  | laterConstructor className span => exact requoted_laterConstructor file className span

end SamePlace

section

variable {f : Tree.File} {v w : Visit} {vs ws : List Visit}

theorem placesUntilStop_cons_stop {e : LoweringError} (stops : v.violation? f = some e) :
    placesUntilStop f ((v :: vs).zip (w :: ws)) = [] := by
  simp [placesUntilStop, stops]

theorem placesUntilStop_cons (goesOn : v.violation? f = none) :
    placesUntilStop f ((v :: vs).zip (w :: ws)) = (v, w) :: placesUntilStop f (vs.zip ws) := by
  simp [placesUntilStop, goesOn]

theorem findSome?_violation (same : vs.Forall₂ SamePlace ws) :
    ws.findSome? (Visit.violation? f) = vs.findSome? (Visit.violation? f) := by
  induction same with
  | nil => rfl
  | cons first rest ih => rw [List.findSome?_cons, List.findSome?_cons, first.violation?, ih]

theorem reportsUntilStop_eq_reportsAt (same : vs.Forall₂ SamePlace ws) :
    reportsUntilStop f vs = reportsAt f (placesUntilStop f (vs.zip ws)) := by
  induction same with
  | nil => rfl
  | @cons v w vs ws first rest ih =>
    cases stops : v.violation? f with
    | some e =>
      rw [reportsUntilStop_cons_stop stops, placesUntilStop_cons_stop stops]
      rfl
    | none =>
      rw [reportsUntilStop_cons stops, placesUntilStop_cons stops, ih]
      rfl

/-- The reports of the second tree are those of the first one, less what is reported about names
that are spelled differently. -/
theorem requoted_reportsUntilStop (same : vs.Forall₂ SamePlace ws) :
    (reportsAt f ((placesUntilStop f (vs.zip ws)).filter (!isRespelled ·))).Forall₂ Requoted
      (reportsUntilStop f ws) := by
  induction same with
  | nil => exact .nil
  | @cons v w vs ws first rest ih =>
    cases stops : v.violation? f with
    | some e =>
      rw [placesUntilStop_cons_stop stops,
        reportsUntilStop_cons_stop ((first.violation? f).trans stops)]
      exact .nil
    | none =>
      rw [placesUntilStop_cons stops, reportsUntilStop_cons ((first.violation? f).trans stops)]
      cases respelled : isRespelled (v, w) with
      | true =>
        rw [first.reports_eq_nil f.id respelled, List.filter_cons_of_neg (by simp [respelled])]
        exact ih
      | false =>
        rw [List.filter_cons_of_pos (by simp [respelled])]
        exact List.rel_append (first.requoted f.id respelled) ih

end

/-- A file and the respelled file have the same schema or the same error. The diagnostics are those
of the file in their order, less what is reported about the characters of names that are spelled
differently, up to the names that are quoted elsewhere. -/
theorem lowerFile_respelled (f : Tree.File) (collected : Diagnostics) :
    ((lowerFile f.respelled).runFrom collected).1 = ((lowerFile f).runFrom collected).1
      ∧ f.visits.Forall₂ SamePlace f.respelled.visits
      ∧ ((lowerFile f).runFrom collected).2 = collected ++ reportsAt f f.places
      ∧ ∃ reported, ((lowerFile f.respelled).runFrom collected).2 = collected ++ reported
        ∧ (reportsAt f (f.places.filter (!isRespelled ·))).Forall₂ Requoted reported := by
  have same := samePlace_visits f
  have translation : f.respelled.translation = f.translation :=
    Tree.File.translation_edit (Tree.respelling_invisible f)
  have stop : f.respelled.visits.findSome? (Visit.violation? f.respelled)
      = f.visits.findSome? (Visit.violation? f) := by
    have outside : Visit.violation? f.respelled = Visit.violation? f :=
      funext (Tree.violation?_edit _ f)
    rw [outside, findSome?_violation same]
  refine ⟨?_, same, ?_, reportsUntilStop f f.respelled.visits, ?_, requoted_reportsUntilStop same⟩
  · rw [lowerFile_outcome, lowerFile_outcome, stop, translation]
  · rw [lowerFile_eq, runFrom_afterVisits, reportsUntilStop_eq_reportsAt same]
    rfl
  · rw [lowerFile_eq, runFrom_afterVisits, Tree.File.respelled, Tree.reportsUntilStop_edit]

end NeutralSchema
