import NeutralSchema.FileSystem
import NeutralSchema.Json.Text
import NeutralSchema.Lowering.File
import NeutralSchema.Tree.Decode

/-!
# Lowering the files of a file system

Files are loaded and lowered independently of each other: a failure in one does not touch the
others, and outcomes come in the order of the paths.
-/
namespace NeutralSchema

inductive LoadError where
  | unreadable (path : String) (cause : FileError)
  | undecodable (path : String) (cause : Json.LocatedError)
  deriving DecidableEq, Repr

namespace LoadError

def message : LoadError → String
  | .unreadable path _ => "Failed to read " ++ path
  | .undecodable path _ => "Failed to parse syntax tree " ++ path

def cause : LoadError → String
  | .unreadable _ e => e.message
  | .undecodable _ e => e.message

end LoadError

inductive Failure where
  | load (error : LoadError)
  | lowering (error : LoweringError)
  deriving DecidableEq, Repr

def Failure.text : Failure → String
  | .load e => e.message ++ ": " ++ e.cause
  | .lowering e => e.message

structure Lowered where
  schema : Schema.File
  diagnostics : Diagnostics

structure Outcome where
  path : String
  result : Except Failure Lowered

def Outcome.diagnostics (o : Outcome) : Diagnostics :=
  match o.result with
  | .ok lowered => lowered.diagnostics
  | .error _ => []

def Outcome.isFailure (o : Outcome) : Bool := !o.result.isOk

variable [Json.Locating]

/-- The tree at a path. A tree that does not name its own path is given this one. -/
def loadTree (fs : FileSystem) (path : String) : Except LoadError Tree.File :=
  match fs.read path with
  | .error e => .error (.unreadable path e)
  | .ok text =>
    match Json.decodeText Tree.File.decode text with
    | .error e => .error (.undecodable path (Json.locate text e))
    | .ok tree => .ok (if tree.path.isEmpty then { tree with path } else tree)

/-- The schema of a tree. What was reported before an error is dropped. -/
def lowerTree (tree : Tree.File) : Except LoweringError Lowered :=
  match (lowerFile tree).runFrom [] with
  | (.ok schema, diagnostics) => .ok ⟨schema, diagnostics⟩
  | (.error e, _) => .error e

def loadAndLower (fs : FileSystem) (id : FileId) (path : String) : Except Failure Lowered :=
  match loadTree fs path with
  | .error e => .error (.load e)
  | .ok tree => (lowerTree { tree with id }).mapError .lowering

def outcomeAt (fs : FileSystem) (position : Nat) (path : String) : Outcome :=
  ⟨path, loadAndLower fs (.ofNat position) path⟩

/-- How the files of a list are worked on. In parallel they are done in some order of their
positions. -/
inductive Schedule where
  | inOrder
  | parallel (order : List Nat)
  deriving DecidableEq, Repr

/-- Puts each outcome in its own place when it is done. -/
def placeOutcomes (fs : FileSystem) (paths : List String) (places : List (Option Outcome)) :
    List Nat → List (Option Outcome)
  | [] => places
  | i :: order =>
    match paths[i]? with
    | some path => placeOutcomes fs paths (places.set i (some (outcomeAt fs i path))) order
    | none => placeOutcomes fs paths places order

/-- Loads and lowers files. The id of a file is its position. -/
def lowerPaths (fs : FileSystem) (schedule : Schedule) (paths : List String) : List Outcome :=
  match schedule with
  | .inOrder => paths.mapIdx (outcomeAt fs)
  | .parallel order =>
    (placeOutcomes fs paths (List.replicate paths.length none) order).filterMap id

def Schedule.of (parallel : Bool) (files : Nat) : Schedule :=
  if parallel && files > 1 then .parallel (List.range files) else .inOrder

end NeutralSchema
