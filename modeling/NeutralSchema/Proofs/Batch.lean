import Mathlib.Logic.Equiv.Fin.Basic
import Mathlib.Logic.Relation
import NeutralSchema.Batch
import NeutralSchema.Proofs.Lowering.Locations
import NeutralSchema.Proofs.Lowering.Rendering

/-!
# Files that are lowered together

However the work on several files is spread out in time, each outcome is that of its own file under
the id of its position, and the id is all that the position decides. Main statement:
`lowerPaths_independent`.
-/
namespace NeutralSchema

/-- The same failure in another file. A file that is not loaded has no id yet. -/
def Failure.inFile (id : FileId) : Failure → Failure
  | .load e => .load e
  | .lowering e => .lowering (e.inFile id)

def Lowered.inFile (id : FileId) (l : Lowered) : Lowered :=
  ⟨l.schema, l.diagnostics.map (Diagnostic.inFile id)⟩

/-- The outcome of the same path at another position. -/
def Outcome.inFile (id : FileId) (o : Outcome) : Outcome :=
  ⟨o.path, (o.result.map (Lowered.inFile id)).mapError (Failure.inFile id)⟩

theorem lowerTree_inFile (tree : Tree.File) (id : FileId) :
    lowerTree { tree with id }
      = ((lowerTree tree).map (Lowered.inFile id)).mapError (LoweringError.inFile id) := by
  obtain ⟨outcome, ds, first, second⟩ := lowerFile_inFile tree id []
  rw [lowerTree, lowerTree]
  rcases run : (lowerFile tree).runFrom [] with ⟨result, reported⟩
  rcases run' : (lowerFile { tree with id }).runFrom [] with ⟨result', reported'⟩
  simp only [run, run', List.nil_append] at outcome first second
  subst outcome first second
  cases result <;> rfl

theorem loadAndLower_inFile [Json.Locating] (fs : FileSystem) (id other : FileId) (path : String) :
    loadAndLower fs id path
      = ((loadAndLower fs other path).map (Lowered.inFile id)).mapError (Failure.inFile id) := by
  rw [loadAndLower, loadAndLower]
  cases loadTree fs path with
  | error e => rfl
  | ok tree =>
    have again := lowerTree_inFile { tree with id := other } id
    simp only [again]
    cases lowerTree { tree with id := other } <;> rfl

theorem outcomeAt_inFile [Json.Locating] (fs : FileSystem) (i j : Nat) (path : String) :
    outcomeAt fs i path = (outcomeAt fs j path).inFile (.ofNat i) := by
  rw [outcomeAt, outcomeAt, Outcome.inFile, loadAndLower_inFile fs (.ofNat i) (.ofNat j)]

/-- Of a file system, lowering a path sees only what is read at the path. -/
theorem outcomeAt_congr [Json.Locating] {fs other : FileSystem} {path : String}
    (same : other.read path = fs.read path) (i : Nat) :
    outcomeAt other i path = outcomeAt fs i path := by
  simp only [outcomeAt, loadAndLower, loadTree, same]

/-- Whether a schedule works on each of so many files once: in parallel if that is asked for and
there are several, and otherwise in order. -/
def Schedule.Serves (parallel : Bool) (files : Nat) : Schedule → Prop
  | .inOrder => ¬(parallel ∧ files > 1)
  | .parallel order => (parallel ∧ files > 1) ∧ order.Perm (List.range files)

instance (parallel : Bool) (files : Nat) : DecidablePred (Schedule.Serves parallel files)
  | .inOrder => inferInstanceAs (Decidable (¬(parallel ∧ files > 1)))
  | .parallel order =>
    inferInstanceAs (Decidable ((parallel ∧ files > 1) ∧ order.Perm (List.range files)))

theorem Schedule.serves_of (parallel : Bool) (files : Nat) :
    (Schedule.of parallel files).Serves parallel files := by
  by_cases several : parallel ∧ files > 1
  · have both : (parallel && decide (files > 1)) = true := by simpa using several
    rw [Schedule.of, if_pos both]
    exact ⟨several, .refl _⟩
  · have neither : ¬(parallel && decide (files > 1)) = true := by simpa using several
    rw [Schedule.of, if_neg neither]
    exact several

section

variable [Json.Locating] (fs : FileSystem) (paths : List String)

/-- Placing outcomes in any order leaves at each position the outcome of its path, once it was
worked on. -/
theorem getElem?_placeOutcomes {i : Nat} {path : String} (known : paths[i]? = some path)
    (places : List (Option Outcome)) (sized : places.length = paths.length) (order : List Nat) :
    (placeOutcomes fs paths places order)[i]?
      = if i ∈ order then some (some (outcomeAt fs i path)) else places[i]? := by
  induction order generalizing places with
  | nil => rfl
  | cons j order ih =>
    rw [placeOutcomes]
    cases here : paths[j]? with
    | none =>
      have other : i ≠ j := by
        rintro rfl
        rw [known] at here
        cases here
      simp only [ih places sized, List.mem_cons, other, false_or]
    | some own =>
      simp only [ih _ ((List.length_set ..).trans sized), List.mem_cons, List.getElem?_set]
      by_cases same : j = i
      · subst same
        obtain rfl := Option.some.inj (here.symm.trans known)
        have inside : j < places.length := by
          rw [sized]
          exact (List.getElem?_eq_some_iff.mp known).1
        simp [inside]
      · simp [same, Ne.symm same]

theorem length_placeOutcomes (places : List (Option Outcome)) (order : List Nat) :
    (placeOutcomes fs paths places order).length = places.length := by
  induction order generalizing places with
  | nil => rfl
  | cons j order ih =>
    rw [placeOutcomes]
    split
    · rw [ih, List.length_set]
    · exact ih places

/-- Whatever the schedule, there is one outcome for each path, in the order of the paths. -/
theorem lowerPaths_eq_mapIdx {parallel : Bool} {schedule : Schedule}
    (serves : schedule.Serves parallel paths.length) :
    lowerPaths fs schedule paths = paths.mapIdx (outcomeAt fs) := by
  cases schedule with
  | inOrder => rfl
  | parallel order =>
    have placed : placeOutcomes fs paths (List.replicate paths.length none) order
        = (paths.mapIdx (outcomeAt fs)).map some := by
      apply List.ext_getElem?
      intro i
      cases known : paths[i]? with
      | none =>
        have beyond : paths.length ≤ i := List.getElem?_eq_none_iff.mp known
        rw [List.getElem?_eq_none, List.getElem?_eq_none]
        · simpa using beyond
        · simpa [length_placeOutcomes] using beyond
      | some path =>
        have worked : i ∈ order := by
          rw [serves.2.mem_iff, List.mem_range]
          exact (List.getElem?_eq_some_iff.mp known).1
        rw [getElem?_placeOutcomes fs paths known _ List.length_replicate, if_pos worked]
        simp [known]
    rw [lowerPaths, placed, List.filterMap_map]
    exact List.filterMap_some

theorem getElem?_lowerPaths {parallel : Bool} {schedule : Schedule}
    (serves : schedule.Serves parallel paths.length) (i : Nat) :
    (lowerPaths fs schedule paths)[i]? = paths[i]?.map (outcomeAt fs i) := by
  rw [lowerPaths_eq_mapIdx fs paths serves, List.getElem?_mapIdx]

/-- How far the work on a file has come. -/
inductive Task where
  | waiting
  | loaded (tree : Except LoadError Tree.File)
  | done (outcome : Outcome)

/-- What becomes of a path after its tree was loaded or not. -/
def lowerLoaded (id : FileId) : Except LoadError Tree.File → Except Failure Lowered
  | .error e => .error (.load e)
  | .ok tree => (lowerTree { tree with id }).mapError .lowering

/-- One step of some worker: it loads the tree at a path that nobody has taken up, or lowers a tree
that was loaded. Other files may be worked on in between. -/
inductive WorkStep : List Task → List Task → Prop
  | load {tasks : List Task} {i : Nat} {path : String} (known : paths[i]? = some path)
    (waiting : tasks[i]? = some .waiting) :
    WorkStep tasks (tasks.set i (.loaded (loadTree fs path)))
  | lower {tasks : List Task} {i : Nat} {path : String} {tree : Except LoadError Tree.File}
    (known : paths[i]? = some path) (loaded : tasks[i]? = some (.loaded tree)) :
    WorkStep tasks (tasks.set i (.done ⟨path, lowerLoaded (.ofNat i) tree⟩))

/-- Whether a task has come to what it should, so far. -/
def Task.Sound (i : Nat) (path : String) : Task → Prop
  | .waiting => True
  | .loaded tree => tree = loadTree fs path
  | .done outcome => outcome = outcomeAt fs i path

/-- Whether there is a sound task for each path. -/
def SoundTasks (tasks : List Task) : Prop :=
  tasks.length = paths.length
    ∧ ∀ i path (task : Task), paths[i]? = some path → tasks[i]? = some task →
      task.Sound fs i path

/-- The steps that are still to be taken for a task. -/
def Task.stepsLeft : Task → Nat
  | .waiting => 2
  | .loaded _ => 1
  | .done _ => 0

/-- The steps that are still to be taken for all tasks. -/
def stepsLeft : List Task → Nat
  | [] => 0
  | task :: tasks => task.stepsLeft + stepsLeft tasks

variable {fs paths}

theorem SoundTasks.set {tasks : List Task} (sound : SoundTasks fs paths tasks) {i : Nat}
    {path : String} {task : Task} (known : paths[i]? = some path) (own : task.Sound fs i path) :
    SoundTasks fs paths (tasks.set i task) := by
  refine ⟨(List.length_set ..).trans sound.1, fun j other found there present => ?_⟩
  by_cases same : i = j
  · subst same
    obtain rfl := Option.some.inj (known.symm.trans there)
    have inside : i < tasks.length := by
      rw [sound.1]
      exact (List.getElem?_eq_some_iff.mp known).1
    rw [List.getElem?_set_self inside] at present
    obtain rfl := Option.some.inj present
    exact own
  · rw [List.getElem?_set_ne same] at present
    exact sound.2 j other found there present

/-- A step keeps all tasks sound. -/
theorem WorkStep.sound {tasks tasks' : List Task} (step : WorkStep fs paths tasks tasks')
    (sound : SoundTasks fs paths tasks) : SoundTasks fs paths tasks' := by
  cases step with
  | load known waiting => exact sound.set known rfl
  | lower known loaded =>
    have tree := sound.2 _ _ _ known loaded
    apply sound.set known
    rw [Task.Sound] at tree
    subst tree
    rfl

theorem soundTasks_of_run {tasks : List Task}
    (run : Relation.ReflTransGen (WorkStep fs paths) (List.replicate paths.length .waiting) tasks) :
    SoundTasks fs paths tasks := by
  induction run with
  | refl =>
    refine ⟨List.length_replicate, fun i path task _ present => ?_⟩
    obtain rfl := (List.mem_replicate.mp (List.mem_of_getElem? present)).2
    trivial
  | tail _ step ih => exact step.sound ih

omit [Json.Locating] in
theorem stepsLeft_set_lt {tasks : List Task} {i : Nat} {old new : Task}
    (present : tasks[i]? = some old) (fewer : new.stepsLeft < old.stepsLeft) :
    stepsLeft (tasks.set i new) < stepsLeft tasks := by
  induction tasks generalizing i with
  | nil => cases present
  | cons task tasks ih =>
    cases i with
    | zero =>
      obtain rfl := Option.some.inj present
      exact Nat.add_lt_add_right fewer _
    | succ i => exact Nat.add_lt_add_left (ih present) _

/-- The workers come to an end. -/
theorem WorkStep.wellFounded :
    WellFounded fun after before : List Task => WorkStep fs paths before after := by
  refine Subrelation.wf ?_ (measure stepsLeft).wf
  intro after before step
  cases step with
  | load _ waiting => exact stepsLeft_set_lt waiting Nat.one_lt_two
  | lower _ loaded => exact stepsLeft_set_lt loaded Nat.one_pos

/-- When no worker can take a step, every path has its outcome. -/
theorem SoundTasks.eq_of_stuck {tasks : List Task} (sound : SoundTasks fs paths tasks)
    (stuck : ∀ tasks', ¬WorkStep fs paths tasks tasks') :
    tasks = (paths.mapIdx (outcomeAt fs)).map .done := by
  apply List.ext_getElem?
  intro i
  rw [List.getElem?_map, List.getElem?_mapIdx]
  cases known : paths[i]? with
  | none =>
    rw [List.getElem?_eq_none_iff] at known
    exact List.getElem?_eq_none (sound.1.trans_le known)
  | some path =>
    have inside : i < tasks.length := by
      rw [sound.1]
      exact (List.getElem?_eq_some_iff.mp known).1
    have present := List.getElem?_eq_getElem inside
    have own := sound.2 i path _ known present
    generalize tasks[i] = task at present own
    cases task with
    | waiting => exact absurd (.load known present) (stuck _)
    | loaded tree => exact absurd (.lower known present) (stuck _)
    | done outcome => rw [present, own]; rfl

end

/-- Files that are lowered together, by any schedule that serves them, have one outcome for each
path in the order of the paths: what becomes of that file alone under the id of its position. The
steps of the workers come to an end, and to these outcomes, however they are taken. So an outcome
depends only on the position and on what is read at the path, and in a list with the same paths in
another order it shows its new position as a file id and is otherwise the same. -/
theorem lowerPaths_independent [Json.Locating] (fs : FileSystem) (paths : List String)
    (few : paths.length ≤ UInt32.size) {parallel : Bool} {schedule : Schedule}
    (serves : schedule.Serves parallel paths.length) :
    (lowerPaths fs schedule paths).length = paths.length
      ∧ (∀ i path, paths[i]? = some path → ∃ id : FileId, id.toNat = i
        ∧ (lowerPaths fs schedule paths)[i]? = some ⟨path, loadAndLower fs id path⟩)
      ∧ (WellFounded fun after before : List Task => WorkStep fs paths before after)
      ∧ (∀ tasks, Relation.ReflTransGen (WorkStep fs paths)
          (List.replicate paths.length .waiting) tasks →
        (∀ next, ¬WorkStep fs paths tasks next) →
        tasks = (lowerPaths fs schedule paths).map .done)
      ∧ (∀ (fs' : FileSystem) (paths' : List String) (parallel' : Bool) (schedule' : Schedule),
        schedule'.Serves parallel' paths'.length → ∀ (i : Nat) (path : String),
        paths[i]? = some path → paths'[i]? = some path → fs'.read path = fs.read path →
        (lowerPaths fs' schedule' paths')[i]? = (lowerPaths fs schedule paths)[i]?)
      ∧ ∀ (σ : Equiv.Perm (Fin paths.length)) (parallel' : Bool) (schedule' : Schedule),
        schedule'.Serves parallel' paths.length → ∀ i : Fin paths.length,
        (lowerPaths fs schedule' (List.ofFn fun j => paths[σ j]))[i.val]?
          = (lowerPaths fs schedule paths)[(σ i).val]?.map (Outcome.inFile (.ofNat i)) := by
  have placed := lowerPaths_eq_mapIdx fs paths serves
  refine ⟨by rw [placed, List.length_mapIdx], ?positions, WorkStep.wellFounded, ?workers, ?others,
    ?permuted⟩
  case positions =>
    intro i path known
    have small : i < UInt32.size := (List.getElem?_eq_some_iff.mp known).1.trans_le few
    refine ⟨.ofNat i, UInt32.toNat_ofNat_of_lt' small, ?_⟩
    rw [getElem?_lowerPaths fs paths serves, known]
    rfl
  case workers =>
    intro tasks run stuck
    rw [placed]
    exact (soundTasks_of_run run).eq_of_stuck stuck
  case others =>
    intro fs' paths' parallel' schedule' serves' i path known known' same
    rw [getElem?_lowerPaths fs paths serves, getElem?_lowerPaths fs' paths' serves', known, known']
    exact congrArg some (outcomeAt_congr same i)
  case permuted =>
    intro σ parallel' schedule' serves' i
    have sized : (List.ofFn fun j => paths[σ j]).length = paths.length := List.length_ofFn
    rw [← sized] at serves'
    rw [getElem?_lowerPaths fs paths serves, getElem?_lowerPaths fs _ serves']
    have moved : (List.ofFn fun j => paths[σ j])[i.val]? = paths[(σ i).val]? := by
      simp
    rw [moved, Option.map_map]
    cases paths[(σ i).val]? with
    | none => rfl
    | some path => exact congrArg some (outcomeAt_inFile fs i (σ i) path)

/-- A single file with an empty statement, which is reported. -/
def noisyFiles : FileSystem := singleFile (Json.compact (methodDocument (loopsDocument 0)))

theorem loadAndLower_noisyFiles :
    loadAndLower noisyFiles 0 "a" = .ok ⟨(methodTree (loops 0)).translation,
      (methodTree (loops 0)).visits.flatMap (Visit.reports 0)⟩ := by
  have loaded : loadTree noisyFiles "a" = .ok (methodTree (loops 0)) :=
    loadTree_singleFile (v := methodDocument (loopsDocument 0)) (by decide) rfl rfl
  have done : lowerTree { methodTree (loops 0) with id := 0 } = .ok ⟨_, _⟩ :=
    lowerTree_eq_ok (f := methodTree (loops 0)) (by decide)
  simp only [loadAndLower, loaded, done]
  rfl

/-- The same file twice, with a path between that leads nowhere, worked on from the last. -/
theorem lowerPaths_independent_repeated :
    ∃ lowered, lowered.diagnostics ≠ []
      ∧ (lowerPaths noisyFiles (.parallel [2, 0, 1]) ["a", "", "a"])[0]?
        = some ⟨"a", .ok lowered⟩
      ∧ (lowerPaths noisyFiles (.parallel [2, 0, 1]) ["a", "", "a"])[1]?
        = some ⟨"", .error (.load (.unreadable "" .notFound))⟩
      ∧ (lowerPaths noisyFiles (.parallel [2, 0, 1]) ["a", "", "a"])[2]?
        = some (Outcome.inFile 2 ⟨"a", .ok lowered⟩) := by
  have serves : (Schedule.parallel [2, 0, 1]).Serves true 3 := by decide
  obtain ⟨-, positions, -, -, -, permuted⟩ :=
    lowerPaths_independent noisyFiles ["a", "", "a"] (by decide) serves
  obtain ⟨id, zero, first⟩ := positions 0 "a" rfl
  obtain ⟨id', one, second⟩ := positions 1 "" rfl
  obtain rfl : id = 0 := UInt32.toNat_inj.mp zero
  rw [loadAndLower_noisyFiles] at first
  have listed : (List.ofFn fun j : Fin ["a", "", "a"].length =>
      ["a", "", "a"][Equiv.swap 0 2 j]) = ["a", "", "a"] := rfl
  have third := permuted (Equiv.swap 0 2) true _ serves 2
  rw [listed] at third
  exact ⟨_, by decide, first, second, third.trans (congrArg _ first)⟩

end NeutralSchema
