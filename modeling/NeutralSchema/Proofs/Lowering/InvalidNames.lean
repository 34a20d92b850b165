import NeutralSchema.Proofs.Lowering.Violations

/-!
# Reports of invalid names

The characters that names may not have are reported at every visit of a name. A parameter that also
declares a field is visited twice, so what is wrong with it is reported twice. Main statement:
`invalidNames_reported`.
-/
namespace NeutralSchema

/-- A name where lowering uses it, unless a parameter is visited for the field that it declares. -/
def Visit.occurrence? : Visit → Option Tree.Ident
  | .name false text span => some ⟨text, span⟩
  | _ => none

/-- A name of a parameter, or in its type, that is visited for the field that it declares. -/
def Visit.promotion? : Visit → Option Tree.Ident
  | .name true text span => some ⟨text, span⟩
  | _ => none

/-- The names that lowering uses, each as often as it stands in the tree. -/
def Tree.File.nameOccurrences (f : File) : List Ident := f.visits.filterMap Visit.occurrence?

/-- The names of the parameters that declare fields and the class names of their types. They are
among the occurrences as well. -/
def Tree.File.promotedNames (f : File) : List Ident := f.visits.filterMap Visit.promotion?

/-- One report for each character that one of the names may not have. -/
def invalidNameReports (file : FileId) (names : List Tree.Ident) : Diagnostics :=
  names.flatMap fun n => Name.invalidCharacters n.text (some ⟨file, n.span⟩)

@[simp] theorem invalidNameReports_append (file : FileId) (ns ms : List Tree.Ident) :
    invalidNameReports file (ns ++ ms)
      = invalidNameReports file ns ++ invalidNameReports file ms := by
  simp [invalidNameReports]

/-- The diagnostics about names. -/
def nameReports (ds : Diagnostics) : Diagnostics := ds.filter (·.kind = .invalidName)

@[simp] theorem nameReports_append (ds es : Diagnostics) :
    nameReports (ds ++ es) = nameReports ds ++ nameReports es := by
  simp [nameReports]

theorem nameReports_invalidCharacters (name : String) (source : Option FileSpan) :
    nameReports (Name.invalidCharacters name source) = Name.invalidCharacters name source := by
  rw [nameReports, List.filter_eq_self]
  intro d mem
  obtain ⟨c, -, rfl⟩ := List.mem_map.mp mem
  simp [Name.invalidCharacter]

theorem nameReports_loopInitializerReports (file : FileId) (span : Span)
    (clause : Tree.LoopInitializer) :
    nameReports (loopInitializerReports file span clause) = [] := by
  match clause with
  | .declarators [] | .declarators [_] | .declarators (_ :: _ :: _) => rfl
  | .expression e => cases e <;> rfl

/-- A visit reports what is wrong with the name that it is a visit of. -/
theorem nameReports_reports (file : FileId) (v : Visit) :
    nameReports (v.reports file)
      = invalidNameReports file (v.occurrence?.toList ++ v.promotion?.toList) := by
  cases v with
  | name promoted text span =>
    rw [Visit.reports, nameReports_invalidCharacters]
    cases promoted <;> simp [Visit.occurrence?, Visit.promotion?, invalidNameReports]
  | loopInitializer span clause => exact nameReports_loopInitializerReports file span clause
  | expression e =>
    cases supported : e.isSupported <;>
      simp [Visit.reports, Visit.occurrence?, Visit.promotion?, invalidNameReports, nameReports,
        supported]
  | statement position s =>
    cases supported : s.isSupported position <;>
      simp [Visit.reports, Visit.occurrence?, Visit.promotion?, invalidNameReports, nameReports,
        supported]
  | type | body | initializer | laterConstructor => rfl

/-- Up to their order, visits report each occurrence once, and each promoted name once more. -/
theorem nameReports_flatMap_reports (file : FileId) (vs : List Visit) :
    (nameReports (vs.flatMap (Visit.reports file))).Perm
      (invalidNameReports file (vs.filterMap Visit.occurrence?)
        ++ invalidNameReports file (vs.filterMap Visit.promotion?)) := by
  induction vs with
  | nil => exact List.Perm.refl _
  | cons v vs ih =>
    have head (name? : Visit → Option Tree.Ident) : (v :: vs).filterMap name?
        = (name? v).toList ++ vs.filterMap name? := by
      cases found : name? v <;> simp [found]
    rw [List.flatMap_cons, nameReports_append, nameReports_reports, head, head]
    simp only [invalidNameReports_append, List.append_assoc]
    apply List.Perm.append_left
    exact (ih.append_left _).trans (List.perm_append_comm_assoc _ _ _)

theorem invalidNameReports_eq_nil_iff (file : FileId) {names : List Tree.Ident} :
    invalidNameReports file names = []
      ↔ ∀ n ∈ names, ∀ c ∈ n.text.toList, Name.isAllowed c := by
  simp [invalidNameReports, Name.invalidCharacters]

/-- Up to their order, the reports about names are one for each character that an occurrence may not
have, and one more for each that a promoted name may not have. So there is exactly one for each
character of an occurrence if and only if all characters of promoted names are allowed. -/
theorem invalidNames_reported {f : Tree.File} {s : Schema.File} {collected after : Diagnostics}
    (done : (lowerFile f).runFrom collected = (.ok s, after)) :
    ∃ reported, after = collected ++ reported
      ∧ (nameReports reported).Perm
        (invalidNameReports f.id f.nameOccurrences ++ invalidNameReports f.id f.promotedNames)
      ∧ ((nameReports reported).Perm (invalidNameReports f.id f.nameOccurrences)
        ↔ ∀ n ∈ f.promotedNames, ∀ c ∈ n.text.toList, Name.isAllowed c) := by
  obtain ⟨-, -, all⟩ := lowerFile_eq_ok_iff.mp done
  have twice := nameReports_flatMap_reports f.id f.visits
  refine ⟨_, all, twice, ?_⟩
  rw [← invalidNameReports_eq_nil_iff f.id]
  constructor
  · intro once
    have same := (twice.symm.trans once).length_eq
    rw [List.length_append] at same
    exact List.eq_nil_of_length_eq_zero (Nat.add_eq_left.mp same)
  · intro silent
    rw [Tree.File.promotedNames] at silent
    rw [silent, List.append_nil] at twice
    exact twice

/-- A class whose constructor declares a private field by a parameter with a dollar sign. -/
def dollarField : Tree.File :=
  ⟨0, "a.ts", "", [.classDecl ⟨⟨"A", ⟨6, 7⟩⟩,
    [.constructor ⟨[⟨⟨"a$", ⟨30, 32⟩⟩, some (.intrinsic "number"), ⟨some .inside, false, false⟩,
      ⟨22, 40⟩⟩], some [], ⟨10, 44⟩⟩], ⟨0, 46⟩⟩]⟩

theorem lowerFile_dollarField :
    (lowerFile dollarField).runFrom []
      = (.ok dollarField.translation, dollarField.visits.flatMap (Visit.reports 0)) :=
  lowerFile_eq_ok_iff.mpr ⟨by decide, rfl, rfl⟩

theorem invalidNames_reported_dollarField :
    ∃ after reported, (lowerFile dollarField).runFrom [] = (.ok dollarField.translation, after)
      ∧ after = [] ++ reported ∧ (nameReports reported).length = 2 := by
  obtain ⟨reported, all, twice, -⟩ := invalidNames_reported lowerFile_dollarField
  exact ⟨_, reported, lowerFile_dollarField, all, twice.length_eq⟩

/-- The dollar sign stands in one name, and is reported twice. -/
theorem dollarField_reported_twice :
    ∃ s after, (lowerFile dollarField).runFrom [] = (.ok s, after)
      ∧ (invalidNameReports 0 dollarField.nameOccurrences).length = 1
      ∧ ¬(nameReports after).Perm (invalidNameReports 0 dollarField.nameOccurrences) := by
  have once : (invalidNameReports 0 dollarField.nameOccurrences).length = 1 := by decide
  have twice : (nameReports (dollarField.visits.flatMap (Visit.reports 0))).length = 2 := by decide
  refine ⟨_, _, lowerFile_dollarField, once, ?_⟩
  intro same
  have lengths := same.length_eq
  omega

end NeutralSchema
