import NeutralSchema.Proofs.Lowering.Violations
import NeutralSchema.Proofs.OrderedMap

/-!
# The maps of a schema as writes

Declarations of one normalized name write to the same key. The writes of a tree are read off its
declarations in order, and the maps that they leave are said without inserting anything: each key
stands where it was written first and holds what was written last. Main statement:
`lowerFile_assembles`.
-/
namespace NeutralSchema

namespace Tree

def Item.enum? : Item → Option Enum
  | .enumDecl e => some e
  | _ => none

def Item.class? : Item → Option Class
  | .classDecl c => some c
  | _ => none

def File.enums (f : File) : List Enum := f.items.filterMap Item.enum?

def File.classes (f : File) : List Class := f.items.filterMap Item.class?

def ClassMember.instanceProperty? : ClassMember → Option Property
  | .property p => if p.modifiers.isStatic then none else some p
  | _ => none

def ClassMember.instanceMethod? : ClassMember → Option Method
  | .method m => if m.modifiers.isStatic then none else some m
  | _ => none

def ClassMember.constructor? : ClassMember → Option Constructor
  | .constructor k => some k
  | _ => none

def Class.firstConstructor? (c : Class) : Option Constructor :=
  c.members.findSome? ClassMember.constructor?

/-- Whether a parameter carries a modifier: a visibility, or that it is only read. -/
def Parameter.IsModified (p : Parameter) : Prop :=
  p.modifiers.visibility ≠ none ∨ p.modifiers.isReadonly = true

instance (p : Parameter) : Decidable p.IsModified :=
  inferInstanceAs (Decidable (_ ∨ _))

theorem Parameter.isPromoted_iff (p : Parameter) : p.isPromoted ↔ p.IsModified := by
  simp [isPromoted, IsModified, Option.isSome_iff_ne_none]

theorem filter_isModified (ps : List Parameter) :
    ps.filter (·.IsModified) = ps.filter Parameter.isPromoted :=
  List.filter_congr fun p _ => by simp [← p.isPromoted_iff]

/-- The fields that members write, in order, after the first constructor or not. -/
def fieldWrites (f : File) (hasConstructor : Bool) :
    List ClassMember → List (String × Schema.Field)
  | [] => []
  | .property p :: ms =>
    if p.modifiers.isStatic then fieldWrites f hasConstructor ms
    else (Name.normalize p.name.text, p.translation f) :: fieldWrites f hasConstructor ms
  | .constructor k :: ms =>
    (if hasConstructor then []
      else (k.parameters.filter (·.IsModified)).map fun p =>
        (Name.normalize p.name.text, p.fieldTranslation)) ++ fieldWrites f true ms
  | .method _ :: ms | .other _ _ :: ms => fieldWrites f hasConstructor ms

/-- The methods that members write, in order. -/
def methodWrites (ms : List ClassMember) : List (String × Schema.Method) :=
  (ms.filterMap ClassMember.instanceMethod?).map fun m => (Name.normalize m.name.text, m.translation)

/-- The schema class that the writes of a class leave. -/
def Class.assembled (f : File) (c : Class) : Schema.Class where
  fields := .lastWrites (fieldWrites f false c.members)
  methods := .lastWrites (methodWrites c.members)
  constructor := c.firstConstructor?.map Constructor.translation

/-- The schema that the declarations of a file leave. -/
def File.assembled (f : File) : Schema.File where
  enums := .lastWrites (f.enums.map fun e => (Name.normalize e.name.text, e.translation))
  classes := .lastWrites (f.classes.map fun c => (Name.normalize c.name.text, c.assembled f))

section

variable {α : Type}

/-- One write to a map. -/
def write (m : OrderedMap α) (w : String × α) : OrderedMap α := m.insert w.1 w.2

theorem methodWrites_cons (m : ClassMember) (ms : List ClassMember) :
    methodWrites (m :: ms)
      = (m.instanceMethod?.map fun m => (Name.normalize m.name.text, m.translation)).toList
        ++ methodWrites ms := by
  cases written : m.instanceMethod? <;> simp [methodWrites, written]

/-- Members, one after the other, write fields and methods and give the first constructor. -/
theorem foldl_memberTranslation (f : File) (c : Schema.Class) (ms : List ClassMember) :
    ms.foldl (memberTranslation f) c
      = ⟨(fieldWrites f c.constructor.isSome ms).foldl write c.fields,
        (methodWrites ms).foldl write c.methods,
        c.constructor.or ((ms.findSome? ClassMember.constructor?).map Constructor.translation)⟩ := by
  induction ms generalizing c with
  | nil => simp [fieldWrites, methodWrites]
  | cons m ms ih =>
    rw [List.foldl_cons, ih, methodWrites_cons, List.findSome?_cons]
    cases m with
    | property p =>
      cases static : p.modifiers.isStatic <;>
        simp [memberTranslation, static, fieldWrites, write, ClassMember.instanceMethod?,
          ClassMember.constructor?]
    | method m =>
      cases static : m.modifiers.isStatic <;>
        simp [memberTranslation, static, fieldWrites, write, ClassMember.instanceMethod?,
          ClassMember.constructor?]
    | constructor k =>
      cases first : c.constructor with
      | some _ => simp [memberTranslation, first, fieldWrites, ClassMember.instanceMethod?]
      | none =>
        simp [memberTranslation, first, fieldWrites, write, promotedTranslation,
          filter_isModified, ClassMember.instanceMethod?, ClassMember.constructor?,
          List.foldl_map]
    | other construct span =>
      simp [memberTranslation, fieldWrites, ClassMember.instanceMethod?, ClassMember.constructor?]

theorem foldl_write (writes : List (String × α)) :
    writes.foldl write ∅ = OrderedMap.lastWrites writes := OrderedMap.ofList_eq_lastWrites writes

theorem Class.translation_eq_assembled (f : File) (c : Class) :
    c.translation f = c.assembled f := by
  rw [Class.translation, foldl_memberTranslation]
  simp [Class.assembled, Schema.Class.empty, foldl_write, Class.firstConstructor?]

theorem File.translation_eq_assembled (f : File) : f.translation = f.assembled := by
  have items (s : Schema.File) (is : List Item) :
      is.foldl (itemTranslation f) s
        = ⟨((is.filterMap Item.enum?).map fun e =>
              (Name.normalize e.name.text, e.translation)).foldl write s.enums,
            ((is.filterMap Item.class?).map fun c =>
              (Name.normalize c.name.text, c.assembled f)).foldl write s.classes⟩ := by
    induction is generalizing s with
    | nil => rfl
    | cons i is ih =>
      rw [List.foldl_cons, ih, List.filterMap_cons, List.filterMap_cons]
      cases i <;>
        simp [itemTranslation, Item.enum?, Item.class?, write, Class.translation_eq_assembled]
  rw [File.translation, items]
  simp [File.assembled, Schema.File.empty, foldl_write, File.enums, File.classes]

end
end Tree

/-- Whether lowering gives a result, whatever was collected before. -/
def Lowering.Gives {α : Type} (x : Lowering α) (a : α) : Prop :=
  ∀ collected, ∃ after, x.runFrom collected = (.ok a, after)

theorem gives_afterVisits {α : Type} {f : Tree.File} {vs : List Visit} (a : α)
    (goesOn : ∀ v ∈ vs, v.violation? f = none) : (afterVisits f vs (pure a)).Gives a :=
  fun _ => ⟨_, runFrom_afterVisits_eq_ok_iff.mpr ⟨goesOn, rfl, rfl⟩⟩

namespace Tree

/-- What a class and its instance members lower to, each for itself. -/
structure Class.Lowered (f : File) (c : Class) : Prop where
  whole : (lowerClass f c).Gives (Name.normalize c.name.text, c.assembled f)
  properties : ∀ p ∈ c.members.filterMap ClassMember.instanceProperty?,
    (lowerProperty f (Name.normalize c.name.text) p).Gives
      (Name.normalize p.name.text, p.translation f)
  methods : ∀ m ∈ c.members.filterMap ClassMember.instanceMethod?,
    (lowerMethod f.id (Name.normalize c.name.text) m).Gives
      (Name.normalize m.name.text, m.translation)
  constructor : ∀ k ∈ c.firstConstructor?,
    (lowerConstructor f.id (Name.normalize c.name.text) k).Gives k.translation

section

variable {declared className : String} {ms : List ClassMember}

theorem memberVisits_subset {m : ClassMember} (plain : m.constructor? = none) (mem : m ∈ ms)
    (hasConstructor hadConstructor : Bool) :
    memberVisits declared className hasConstructor [m]
      ⊆ memberVisits declared className hadConstructor ms := by
  induction ms generalizing hadConstructor with
  | nil => exact absurd mem List.not_mem_nil
  | cons n ms ih =>
    rcases List.mem_cons.mp mem with rfl | later
    · cases m with
      | property | method | other => simp [memberVisits]
      | constructor k => exact absurd plain (Option.some_ne_none k)
    · cases n with
      | property | method | constructor =>
        exact List.Subset.trans (ih later _) (List.subset_append_right _ _)
      | other => exact ih later _

theorem Property.visits_subset {p : Property}
    (mem : p ∈ ms.filterMap ClassMember.instanceProperty?) (hadConstructor : Bool) :
    p.visits className ⊆ memberVisits declared className hadConstructor ms := by
  obtain ⟨m, member, found⟩ := List.mem_filterMap.mp mem
  cases m with
  | property q =>
    cases static : q.modifiers.isStatic with
    | true => simp [ClassMember.instanceProperty?, static] at found
    | false =>
      obtain rfl : q = p := by simpa [ClassMember.instanceProperty?, static] using found
      have inside : memberVisits declared className false [.property q]
          ⊆ memberVisits declared className hadConstructor ms :=
        memberVisits_subset rfl member false hadConstructor
      simpa [memberVisits, static] using inside
  | method | constructor | other => simp [ClassMember.instanceProperty?] at found

theorem Method.visits_subset {m : Method} (mem : m ∈ ms.filterMap ClassMember.instanceMethod?)
    (hadConstructor : Bool) :
    m.visits className ⊆ memberVisits declared className hadConstructor ms := by
  obtain ⟨n, member, found⟩ := List.mem_filterMap.mp mem
  cases n with
  | method n =>
    cases static : n.modifiers.isStatic with
    | true => simp [ClassMember.instanceMethod?, static] at found
    | false =>
      obtain rfl : n = m := by simpa [ClassMember.instanceMethod?, static] using found
      have inside : memberVisits declared className false [.method n]
          ⊆ memberVisits declared className hadConstructor ms :=
        memberVisits_subset rfl member false hadConstructor
      simpa [memberVisits, static] using inside
  | property | constructor | other => simp [ClassMember.instanceMethod?] at found

theorem Constructor.visits_subset {k : Constructor}
    (first : ms.findSome? ClassMember.constructor? = some k) :
    k.visits className ⊆ memberVisits declared className false ms := by
  induction ms with
  | nil => simp at first
  | cons m ms ih =>
    rw [List.findSome?_cons] at first
    cases m with
    | constructor l =>
      obtain rfl : l = k := Option.some.inj first
      exact List.subset_append_left _ _
    | property | method => exact List.Subset.trans (ih first) (List.subset_append_right _ _)
    | other => exact ih first

end

theorem Class.visits_subset {f : File} {c : Class} (mem : c ∈ f.classes) : c.visits ⊆ f.visits := by
  obtain ⟨i, item, found⟩ := List.mem_filterMap.mp mem
  cases i with
  | classDecl decl =>
    cases found
    exact fun v visited => List.mem_flatMap.mpr ⟨_, item, visited⟩
  | enumDecl | other => simp [Item.class?] at found

theorem Enum.visits_subset {f : File} {e : Enum} (mem : e ∈ f.enums) : e.visits ⊆ f.visits := by
  obtain ⟨i, item, found⟩ := List.mem_filterMap.mp mem
  cases i with
  | enumDecl decl =>
    cases found
    exact fun v visited => List.mem_flatMap.mpr ⟨_, item, visited⟩
  | classDecl | other => simp [Item.enum?] at found

theorem Class.lowered {f : File} {c : Class} (goesOn : ∀ v ∈ c.visits, v.violation? f = none) :
    c.Lowered f where
  whole := by
    rw [lowerClass_eq, Class.translation_eq_assembled]
    exact gives_afterVisits _ goesOn
  properties p mem := by
    rw [lowerProperty_eq]
    apply gives_afterVisits
    intro v visited
    exact goesOn v (List.mem_cons_of_mem _ (Property.visits_subset mem false visited))
  methods m mem := by
    rw [lowerMethod_eq]
    apply gives_afterVisits
    intro v visited
    exact goesOn v (List.mem_cons_of_mem _ (Method.visits_subset mem false visited))
  constructor k first := by
    rw [lowerConstructor_eq]
    apply gives_afterVisits
    intro v visited
    have inside : v ∈ memberVisits c.name.text (Name.normalize c.name.text) false c.members :=
      Constructor.visits_subset first (List.mem_append_right _ visited)
    exact goesOn v (List.mem_cons_of_mem _ inside)

end Tree

/-- A file that is lowered has the schema that its declarations assemble: the enums, classes, fields
and methods of one name stand where the name was declared first and are what was declared last, and
the constructor is the first one. All of these are lowered, each for itself, to what stands
there. -/
theorem lowerFile_assembles {f : Tree.File} {s : Schema.File} {collected after : Diagnostics}
    (done : (lowerFile f).runFrom collected = (.ok s, after)) :
    s = f.assembled
      ∧ (∀ e ∈ f.enums, (lowerEnum f.id e).Gives (Name.normalize e.name.text, e.translation))
      ∧ ∀ c ∈ f.classes, c.Lowered f := by
  obtain ⟨goesOn, rfl, -⟩ := lowerFile_eq_ok_iff.mp done
  refine ⟨f.translation_eq_assembled, ?_, ?_⟩
  · intro e mem
    rw [lowerEnum_eq]
    apply gives_afterVisits
    intro v visited
    exact goesOn v (Tree.Enum.visits_subset mem visited)
  · intro c mem
    apply Tree.Class.lowered
    intro v visited
    exact goesOn v (Tree.Class.visits_subset mem visited)

/-- An enum that is declared twice, and a field that is declared as a property and then, in other
letters, by a parameter of the constructor. Its other parameter declares none. -/
def sharedNames : Tree.File :=
  ⟨0, "a.ts", "7", [.enumDecl ⟨⟨"E", ⟨0, 0⟩⟩, [], ⟨0, 0⟩⟩, .enumDecl ⟨⟨"f", ⟨0, 0⟩⟩, [], ⟨0, 0⟩⟩,
    .enumDecl ⟨⟨"e", ⟨0, 0⟩⟩, [⟨⟨"Last", ⟨0, 0⟩⟩, none⟩], ⟨0, 0⟩⟩,
    .classDecl ⟨⟨"A", ⟨0, 0⟩⟩,
      [.property ⟨⟨"x", ⟨0, 0⟩⟩, some (.intrinsic "number"), .none,
          some (.literal ⟨0, 1⟩ (.numeric "7")), ⟨0, 0⟩⟩,
        .property ⟨⟨"y", ⟨0, 0⟩⟩, some (.intrinsic "number"), ⟨some .subclasses, false, false⟩,
          none, ⟨0, 0⟩⟩,
        .constructor ⟨[⟨⟨"X", ⟨0, 0⟩⟩, some (.intrinsic "string"), ⟨none, false, true⟩, ⟨0, 0⟩⟩,
            ⟨⟨"z", ⟨0, 0⟩⟩, some (.intrinsic "string"), .none, ⟨0, 0⟩⟩],
          some [], ⟨0, 0⟩⟩], ⟨0, 0⟩⟩]⟩

theorem lowerFile_assembles_sharedNames :
    ∃ s after, (lowerFile sharedNames).runFrom [] = (.ok s, after) ∧ s = sharedNames.assembled
      ∧ s.enums.toList = [("e", ⟨["last"]⟩), ("f", ⟨[]⟩)]
      ∧ s.classes.toList.map (fun c => c.2.fields.toList)
        = [[("x", ⟨.string, .inside, none⟩), ("y", ⟨.int32, .subclasses, none⟩)]] := by
  have done : (lowerFile sharedNames).runFrom []
      = (.ok sharedNames.translation, [] ++ sharedNames.visits.flatMap (Visit.reports 0)) :=
    lowerFile_eq_ok_iff.mpr ⟨by decide, rfl, rfl⟩
  obtain ⟨same, -, -⟩ := lowerFile_assembles done
  refine ⟨_, _, done, same, ?_, ?_⟩
  · rfl
  · rfl

end NeutralSchema
