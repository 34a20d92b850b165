import Mathlib.Data.List.Forall2
import NeutralSchema.Proofs.Lowering.Writes

/-!
# Interleaved declarations

Enums and classes go to different maps of a schema, and so do fields and methods to different maps
of a class. So it does not matter how declarations of different maps are interleaved, as long as
those of one map keep their order. Main statement: `lowerFile_rearranged`.
-/
namespace NeutralSchema

/-- Whether a list is reordered while the elements of each track keep their order. Elements without
a track may stand anywhere. -/
structure Reordered {α κ : Type} [DecidableEq κ] (track : α → Option κ) (as bs : List α) :
    Prop where
  perm : as.Perm bs
  order : ∀ k, as.filter (track · = some k) = bs.filter (track · = some k)

/-- What is picked from one track stays in order. -/
theorem Reordered.filterMap_eq {α β κ : Type} [DecidableEq κ] {track : α → Option κ}
    {as bs : List α} (reordered : Reordered track as bs) {k : κ} {pick : α → Option β}
    (onTrack : ∀ a, track a ≠ some k → pick a = none) : as.filterMap pick = bs.filterMap pick := by
  have picked : (fun a => if track a = some k then pick a else none) = pick := by
    funext a
    split
    · rfl
    · next off => exact (onTrack a off).symm
  have same := congrArg (List.filterMap pick) (reordered.order k)
  simpa only [List.filterMap_filter, decide_eq_true_eq, picked] using same

namespace Tree

/-- What is written to the same part of a class, where only its own order matters. -/
inductive MemberTrack where
  | state
  | method
  deriving DecidableEq

/-- Constructors declare fields, so they are on one track with the instance properties. -/
def ClassMember.track : ClassMember → Option MemberTrack
  | .property p => if p.modifiers.isStatic then none else some .state
  | .constructor _ => some .state
  | .method m => if m.modifiers.isStatic then none else some .method
  | .other _ _ => none

inductive ItemTrack where
  | enums
  | classes
  deriving DecidableEq

def Item.track : Item → Option ItemTrack
  | .enumDecl _ => some .enums
  | .classDecl _ => some .classes
  | .other _ _ => none

/-- Whether the members of a class are reordered, or nothing is. -/
inductive Item.Rearranged : Item → Item → Prop
  | classDecl (c : Class) {ms : List ClassMember}
    (members : Reordered ClassMember.track c.members ms) :
    Item.Rearranged (.classDecl c) (.classDecl { c with members := ms })
  | same (i : Item) : Item.Rearranged i i

/-- Whether the declarations of a file are reordered, and those inside its classes. -/
inductive File.Rearranged : File → File → Prop
  | mk (f : File) {is js : List Item} (order : Reordered Item.track f.items is)
    (inside : is.Forall₂ Item.Rearranged js) : File.Rearranged f { f with items := js }

end Tree

/-- What belongs to a declaration: its own part, then the part of each of its members. -/
structure Grouped (α : Type) where
  own : List α
  members : List (Tree.ClassMember × List α)

namespace Grouped

variable {α β : Type} {a b : Grouped α}

def all (a : Grouped α) : List α := a.own ++ a.members.flatMap Prod.snd

def flatMap (a : Grouped α) (g : α → List β) : Grouped β :=
  ⟨a.own.flatMap g, a.members.map fun m => (m.1, m.2.flatMap g)⟩

/-- Whether the members are reordered, each with its part as it is. -/
structure Rearranged (a b : Grouped α) : Prop where
  own : b.own = a.own
  members : a.members.Perm b.members

theorem all_flatMap (a : Grouped α) (g : α → List β) : (a.flatMap g).all = a.all.flatMap g := by
  simp [all, flatMap, List.flatMap_map, List.flatMap_assoc]

theorem Rearranged.all_perm (rearranged : a.Rearranged b) : a.all.Perm b.all := by
  rw [all, all, rearranged.own]
  exact (rearranged.members.flatMap_right _).append_left _

theorem Rearranged.flatMap (rearranged : a.Rearranged b) (g : α → List β) :
    (a.flatMap g).Rearranged (b.flatMap g) :=
  ⟨congrArg (·.flatMap g) rearranged.own, rearranged.members.map _⟩

end Grouped

namespace Tree

/-- The visits of the members of a class, each for itself. -/
def memberGroups (declared className : String) (hasConstructor : Bool) :
    List ClassMember → List (ClassMember × List Visit)
  | [] => []
  | m :: ms =>
    (m, memberVisits declared className hasConstructor [m])
      :: memberGroups declared className (hasConstructor || m.constructor?.isSome) ms

/-- The visits of a declaration, by its members. -/
def Item.group : Item → Grouped Visit
  | .enumDecl e => ⟨e.visits, []⟩
  | .classDecl c =>
    ⟨[.name false c.name.text c.name.span],
      memberGroups c.name.text (Name.normalize c.name.text) false c.members⟩
  | .other _ _ => ⟨[], []⟩

/-- What is reported about each declaration of a file, by its members. -/
def File.reportGroups (f : File) : List (Grouped Diagnostic) :=
  f.items.map fun i => i.group.flatMap (Visit.reports f.id)

section

variable {declared className : String}

theorem flatMap_memberGroups (hasConstructor : Bool) (ms : List ClassMember) :
    (memberGroups declared className hasConstructor ms).flatMap Prod.snd
      = memberVisits declared className hasConstructor ms := by
  induction ms generalizing hasConstructor with
  | nil => rfl
  | cons m ms ih =>
    rw [memberGroups, List.flatMap_cons, ih]
    cases m <;> simp [memberVisits, ClassMember.constructor?]

theorem constructor?_off_track {m : ClassMember} (off : m.track ≠ some .state) :
    m.constructor? = none := by
  cases m with
  | constructor k => exact absurd rfl off
  | property | method | other => rfl

/-- Only constructors are visited differently after the first constructor. -/
theorem memberVisits_off_track {m : ClassMember} (off : m.track ≠ some .state)
    (hasConstructor : Bool) :
    memberVisits declared className hasConstructor [m]
      = memberVisits declared className false [m] := by
  cases m with
  | constructor k => exact absurd rfl off
  | property | method | other => rfl

/-- Members that are neither instance properties nor constructors may be taken out. -/
theorem memberGroups_perm (hasConstructor : Bool) (ms : List ClassMember) :
    (memberGroups declared className hasConstructor ms).Perm
      (memberGroups declared className hasConstructor (ms.filter (·.track = some .state))
        ++ (ms.filter (¬ ·.track = some .state)).map fun m =>
          (m, memberVisits declared className false [m])) := by
  induction ms generalizing hasConstructor with
  | nil => exact .refl _
  | cons m ms ih =>
    by_cases on : m.track = some .state
    · rw [List.filter_cons_of_pos (by simpa using on), List.filter_cons_of_neg (by simpa using on)]
      exact (ih _).cons _
    · rw [List.filter_cons_of_neg (by simpa using on), List.filter_cons_of_pos (by simpa using on),
        memberGroups, memberVisits_off_track on, constructor?_off_track on, Option.isSome_none,
        Bool.or_false, List.map_cons]
      exact ((ih _).cons _).trans List.perm_middle.symm

theorem memberGroups_reordered {ms ns : List ClassMember}
    (reordered : Reordered ClassMember.track ms ns) (hasConstructor : Bool) :
    (memberGroups declared className hasConstructor ms).Perm
      (memberGroups declared className hasConstructor ns) := by
  have others : (ms.filter (¬ ·.track = some .state)).Perm (ns.filter (¬ ·.track = some .state)) :=
    reordered.perm.filter _
  refine (memberGroups_perm hasConstructor ms).trans ?_
  rw [reordered.order .state]
  exact ((others.map _).append_left _).trans (memberGroups_perm hasConstructor ns).symm

end

theorem fieldWrites_off_track (f : File) {m : ClassMember} (off : m.track ≠ some .state)
    (hasConstructor : Bool) (ms : List ClassMember) :
    fieldWrites f hasConstructor (m :: ms) = fieldWrites f hasConstructor ms := by
  cases m with
  | property p =>
    cases static : p.modifiers.isStatic with
    | true => simp [fieldWrites, static]
    | false => simp [ClassMember.track, static] at off
  | constructor k => exact absurd rfl off
  | method | other => rfl

theorem fieldWrites_filter (f : File) (hasConstructor : Bool) (ms : List ClassMember) :
    fieldWrites f hasConstructor (ms.filter (·.track = some .state))
      = fieldWrites f hasConstructor ms := by
  induction ms generalizing hasConstructor with
  | nil => rfl
  | cons m ms ih =>
    by_cases on : m.track = some .state
    · rw [List.filter_cons_of_pos (by simpa using on)]
      cases m <;> simp only [fieldWrites, ih]
    · rw [List.filter_cons_of_neg (by simpa using on), ih, fieldWrites_off_track f on]

theorem Class.assembled_reordered (f : File) (c : Class) {ms : List ClassMember}
    (reordered : Reordered ClassMember.track c.members ms) :
    Class.assembled f { c with members := ms } = c.assembled f := by
  have fields : fieldWrites f false ms = fieldWrites f false c.members := by
    rw [← fieldWrites_filter f false ms, ← reordered.order .state, fieldWrites_filter]
  have methods : methodWrites ms = methodWrites c.members := by
    rw [methodWrites, methodWrites, reordered.filterMap_eq (k := .method)]
    intro m off
    cases m with
    | method m => cases static : m.modifiers.isStatic <;>
        simp_all [ClassMember.track, ClassMember.instanceMethod?]
    | property | constructor | other => rfl
  have constructors : ms.findSome? ClassMember.constructor?
      = c.members.findSome? ClassMember.constructor? := by
    rw [← List.head?_filterMap, ← List.head?_filterMap, reordered.filterMap_eq (k := .state)]
    intro m off
    exact constructor?_off_track off
  simp only [Class.assembled, Class.firstConstructor?, fields, methods, constructors]

theorem Item.all_group (i : Item) : i.group.all = i.visits := by
  cases i with
  | classDecl c => simp [Item.group, Grouped.all, Item.visits, Class.visits, flatMap_memberGroups]
  | enumDecl | other => simp [Item.group, Grouped.all, Item.visits]

theorem Item.Rearranged.group {i j : Item} (rearranged : i.Rearranged j) :
    i.group.Rearranged j.group := by
  cases rearranged with
  | classDecl c members => exact ⟨rfl, memberGroups_reordered members false⟩
  | same => exact ⟨rfl, .refl _⟩

theorem Item.Rearranged.enum?_eq {i j : Item} (rearranged : i.Rearranged j) :
    j.enum? = i.enum? := by
  cases rearranged <;> rfl

/-- The key of a class in a schema, and what is written to it. -/
def Item.classWrite? (f : File) (i : Item) : Option (String × Schema.Class) :=
  i.class?.map fun c => (Name.normalize c.name.text, c.assembled f)

theorem Item.Rearranged.classWrite?_eq {i j : Item} (rearranged : i.Rearranged j) (f : File) :
    j.classWrite? f = i.classWrite? f := by
  cases rearranged with
  | classDecl c members =>
    simp only [Item.classWrite?, Item.class?, Option.map_some,
      Class.assembled_reordered f c members]
  | same => rfl

theorem fieldWrites_withItems (f : File) (is : List Item) (hasConstructor : Bool)
    (ms : List ClassMember) :
    fieldWrites { f with items := is } hasConstructor ms = fieldWrites f hasConstructor ms := by
  induction ms generalizing hasConstructor with
  | nil => rfl
  | cons m ms ih =>
    cases m <;> simp only [fieldWrites, ih]
    rfl

theorem filterMap_congr_forall₂ {α β : Type} {R : α → α → Prop} {pick : α → Option β}
    (alike : ∀ a b, R a b → pick b = pick a) {as bs : List α} (related : as.Forall₂ R bs) :
    bs.filterMap pick = as.filterMap pick := by
  induction related with
  | nil => rfl
  | cons first rest ih => rw [List.filterMap_cons, List.filterMap_cons, alike _ _ first, ih]

namespace File.Rearranged

variable {f g : File}

theorem translation_eq (rearranged : f.Rearranged g) : g.translation = f.translation := by
  obtain @⟨is, js, order, inside⟩ := rearranged
  have enums : js.filterMap Item.enum? = f.items.filterMap Item.enum? := by
    rw [filterMap_congr_forall₂ (fun _ _ same => same.enum?_eq) inside,
      order.filterMap_eq (k := .enums)]
    intro i off
    cases i with
    | enumDecl e => exact absurd rfl off
    | classDecl | other => rfl
  have classes : js.filterMap (Item.classWrite? f) = f.items.filterMap (Item.classWrite? f) := by
    rw [filterMap_congr_forall₂ (fun _ _ same => same.classWrite?_eq f) inside,
      order.filterMap_eq (k := .classes)]
    intro i off
    cases i with
    | classDecl c => exact absurd rfl off
    | enumDecl | other => rfl
  have written (own : File) (is : List Item) :
      ((is.filterMap Item.class?).map fun c => (Name.normalize c.name.text, c.assembled own))
        = is.filterMap (Item.classWrite? own) := by
    rw [List.map_filterMap]
    rfl
  have own : Item.classWrite? { f with items := js } = Item.classWrite? f := by
    funext i
    simp only [Item.classWrite?, Class.assembled, fieldWrites_withItems]
  rw [translation_eq_assembled, translation_eq_assembled, assembled, assembled, File.enums,
    File.enums, File.classes, File.classes, written, written, own, enums, classes]

/-- The groups of the declarations are reordered, and inside them those of the members. -/
theorem groups {α : Type} (rearranged : f.Rearranged g) (part : Visit → List α) :
    ∃ gs, (f.items.map fun i => i.group.flatMap part).Perm gs
      ∧ gs.Forall₂ Grouped.Rearranged (g.items.map fun i => i.group.flatMap part) := by
  obtain ⟨order, inside⟩ := rearranged
  refine ⟨_, order.perm.map _, ?_⟩
  rw [List.forall₂_map_left_iff, List.forall₂_map_right_iff]
  exact inside.imp fun _ _ related => related.group.flatMap part

end File.Rearranged

theorem all_perm_of_groups {α : Type} {as gs bs : List (Grouped α)} (order : as.Perm gs)
    (inside : gs.Forall₂ Grouped.Rearranged bs) :
    (as.flatMap Grouped.all).Perm (bs.flatMap Grouped.all) := by
  have each : (gs.flatMap Grouped.all).Perm (bs.flatMap Grouped.all) := by
    induction inside generalizing as with
    | nil => exact .refl _
    | cons first rest ih => exact first.all_perm.append (ih (.refl _))
  exact (order.flatMap_right _).trans each

theorem flatMap_visits (f : File) {α : Type} (part : Visit → List α) :
    (f.items.map fun i => i.group.flatMap part).flatMap Grouped.all
      = f.visits.flatMap part := by
  simp only [List.flatMap_map, Grouped.all_flatMap, Item.all_group, File.visits,
    List.flatMap_assoc]

theorem violation?_withItems (f : File) (is : List Item) (v : Visit) :
    v.violation? { f with items := is } = v.violation? f := by
  cases v <;> rfl

theorem File.Rearranged.goesOn_iff {f g : File} (rearranged : f.Rearranged g) :
    (∀ v ∈ g.visits, v.violation? g = none) ↔ ∀ v ∈ f.visits, v.violation? f = none := by
  obtain ⟨groups, order, inside⟩ := rearranged.groups fun v => [v]
  have visits := all_perm_of_groups order inside
  simp only [flatMap_visits, List.flatMap_singleton'] at visits
  obtain ⟨-, -⟩ := rearranged
  simp only [violation?_withItems, visits.mem_iff]

/-- What is reported about a rearranged file. -/
theorem File.Rearranged.reportGroups {f g : File} (rearranged : f.Rearranged g) :
    ∃ groups, f.reportGroups.Perm groups ∧ groups.Forall₂ Grouped.Rearranged g.reportGroups := by
  have id : g.id = f.id := by
    cases rearranged
    rfl
  rw [File.reportGroups, File.reportGroups, id]
  exact rearranged.groups (Visit.reports f.id)

end Tree

theorem lowerFile_succeeds_iff (f : Tree.File) (collected : Diagnostics) :
    (∃ s, ((lowerFile f).runFrom collected).1 = .ok s)
      ↔ ∀ v ∈ f.visits, v.violation? f = none := by
  rw [lowerFile_outcome]
  cases first : f.visits.findSome? (Visit.violation? f) with
  | none => simpa using List.findSome?_eq_none_iff.mp first
  | some e =>
    rw [← List.findSome?_eq_none_iff, first]
    simp

/-- A rearranged file is lowered exactly when the file itself is, and then to the same schema. The
reports are reordered: those of a declaration stay together, with those of a class itself first, and
those of a member stay together and in order. -/
theorem lowerFile_rearranged {f g : Tree.File} (rearranged : f.Rearranged g)
    (collected : Diagnostics) :
    ((∃ s, ((lowerFile g).runFrom collected).1 = .ok s)
        ↔ ∃ s, ((lowerFile f).runFrom collected).1 = .ok s)
      ∧ ∀ s after, (lowerFile f).runFrom collected = (.ok s, after) →
        ∃ after', (lowerFile g).runFrom collected = (.ok s, after')
          ∧ after = collected ++ f.reportGroups.flatMap Grouped.all
          ∧ after' = collected ++ g.reportGroups.flatMap Grouped.all
          ∧ (∃ groups, f.reportGroups.Perm groups
            ∧ groups.Forall₂ Grouped.Rearranged g.reportGroups)
          ∧ after.Perm after' := by
  refine ⟨?_, fun s after done => ?_⟩
  · rw [lowerFile_succeeds_iff, lowerFile_succeeds_iff, rearranged.goesOn_iff]
  · obtain ⟨goesOn, rfl, rfl⟩ := lowerFile_eq_ok_iff.mp done
    obtain ⟨groups, order, inside⟩ := rearranged.reportGroups
    have reports := Tree.all_perm_of_groups order inside
    have done' : (lowerFile g).runFrom collected
        = (.ok f.translation, collected ++ g.visits.flatMap (Visit.reports g.id)) :=
      lowerFile_eq_ok_iff.mpr
        ⟨rearranged.goesOn_iff.mpr goesOn, rearranged.translation_eq.symm, rfl⟩
    refine ⟨_, done', ?_, ?_, ⟨groups, order, inside⟩, ?_⟩
    · rw [Tree.File.reportGroups, Tree.flatMap_visits]
    · rw [Tree.File.reportGroups, Tree.flatMap_visits]
    · rw [Tree.File.reportGroups, Tree.File.reportGroups, Tree.flatMap_visits,
        Tree.flatMap_visits] at reports
      exact reports.append_left collected

/-- A method with a name that is reported. -/
def crowdedMethod : Tree.ClassMember :=
  .method ⟨⟨"x$", ⟨1, 3⟩⟩, [], some (.intrinsic "void"), .none, some [], ⟨1, 3⟩⟩

/-- A field with the name of the method, between two constructors. -/
def crowdedState : List Tree.ClassMember :=
  [.constructor ⟨[], some [.bare ⟨4, 5⟩ .switch], ⟨4, 6⟩⟩, .other "get_accessor" ⟨6, 7⟩,
    .property ⟨⟨"x%", ⟨8, 10⟩⟩, some (.intrinsic "number"), .none, none, ⟨8, 10⟩⟩,
    .constructor ⟨[], none, ⟨11, 12⟩⟩]

def crowdedEnum : Tree.Item := .enumDecl ⟨⟨"A!", ⟨0, 1⟩⟩, [], ⟨0, 1⟩⟩

def crowdedClass (members : List Tree.ClassMember) : Tree.Item :=
  .classDecl ⟨⟨"A", ⟨0, 1⟩⟩, members, ⟨0, 12⟩⟩

def crowdedFile (items : List Tree.Item) : Tree.File := ⟨0, "a.ts", "", items⟩

/-- The enum comes behind the class, and the method behind the constructors and the field. -/
theorem rearranged_crowded :
    (crowdedFile [crowdedEnum, crowdedClass (crowdedMethod :: crowdedState)]).Rearranged
      (crowdedFile [crowdedClass (crowdedState ++ [crowdedMethod]), crowdedEnum]) := by
  have items : Reordered Tree.Item.track
      [crowdedEnum, crowdedClass (crowdedMethod :: crowdedState)]
      [crowdedClass (crowdedMethod :: crowdedState), crowdedEnum] :=
    ⟨.swap _ _ _, fun k => by cases k <;> rfl⟩
  have members : Reordered Tree.ClassMember.track (crowdedMethod :: crowdedState)
      (crowdedState ++ [crowdedMethod]) :=
    ⟨(List.perm_append_singleton _ _).symm, fun k => by cases k <;> rfl⟩
  exact .mk _ items (.cons (.classDecl _ members) (.cons (.same _) .nil))

theorem lowerFile_rearranged_crowded :
    ∃ s after after',
      (lowerFile (crowdedFile
          [crowdedEnum, crowdedClass (crowdedMethod :: crowdedState)])).runFrom [] = (.ok s, after)
      ∧ (lowerFile (crowdedFile
          [crowdedClass (crowdedState ++ [crowdedMethod]), crowdedEnum])).runFrom []
        = (.ok s, after')
      ∧ after.map Diagnostic.kind
        = [.invalidName, .invalidName, .unexpectedStatement, .invalidName, .multipleConstructors]
      ∧ after'.map Diagnostic.kind
        = [.unexpectedStatement, .invalidName, .multipleConstructors, .invalidName, .invalidName]
      ∧ after.Perm after' := by
  obtain ⟨-, moved⟩ := lowerFile_rearranged rearranged_crowded []
  obtain ⟨after', done', -, reports', -, order⟩ := moved _ _ (lowerFile_eq_ok_iff.mpr
    ⟨by decide, rfl, rfl⟩)
  exact ⟨_, _, after', lowerFile_eq_ok_iff.mpr ⟨by decide, rfl, rfl⟩, done', by decide,
    by rw [reports']; decide, order⟩

end NeutralSchema
