import NeutralSchema.Toml.Basic

/-!
# Defining tables

A document defines tables by headers and by keys with dots. A table may be given entries in one
place only: once a header or a pair of braces defined it, it is closed to all others.
-/
namespace NeutralSchema.Toml

inductive Origin where
  /-- By a header of its own, or in braces. -/
  | defined
  /-- By the header of a table below it. -/
  | implied
  /-- By a key with dots. -/
  | dotted
  deriving DecidableEq, Repr

inductive Node where
  | value (value : Value)
  | table (origin : Origin) (entries : List (String × Node))
  | tables (last : List (String × Node)) (earlier : List (List (String × Node)))

abbrev Entries := List (String × Node)

def alter (key : String) (change : Option Node → Option Node) : Entries → Option Entries
  | [] => (change none).map fun node => [(key, node)]
  | (k, node) :: entries =>
    if k = key then (change (some node)).map fun node => (k, node) :: entries
    else (alter key change entries).map ((k, node) :: ·)

/-- Changes the table that a path leads to. New tables get the origin `fresh`. A path of a key with
dots enters no table that is defined; the path of a header enters all. -/
def within (fresh : Origin) (change : Origin → Entries → Option Entries) :
    List String → Origin → Entries → Option Entries
  | [], origin, entries => change origin entries
  | key :: path, _, entries =>
    alter key (fun
      | none => (within fresh change path fresh []).map (.table fresh)
      | some (.value _) => none
      | some (.table origin inner) =>
        if fresh = .dotted ∧ origin = .defined then none
        else (within fresh change path origin inner).map (.table origin)
      | some (.tables last earlier) =>
        (within fresh change path .defined last).map fun last => .tables last earlier) entries

/-- Adds an entry under a key with dots before it. The last table on the way has to be made by such
keys alone. -/
def assign (path : List String) (key : String) (v : Value) (origin : Origin) (entries : Entries) :
    Option Entries :=
  within .dotted (fun origin inner =>
    if decide (origin = .dotted) = path.isEmpty then none
    else alter key (fun
      | none => some (.value v)
      | some _ => none) inner) path origin entries

def openTable (path : List String) (key : String) (entries : Entries) : Option Entries :=
  within .implied (fun _ inner => alter key (fun
    | none => some (.table .defined [])
    | some (.table .implied known) => some (.table .defined known)
    | some _ => none) inner) path .defined entries

def appendTable (path : List String) (key : String) (entries : Entries) : Option Entries :=
  within .implied (fun _ inner => alter key (fun
    | none => some (.tables [] [])
    | some (.tables last earlier) => some (.tables [] (last :: earlier))
    | some _ => none) inner) path .defined entries

mutual

def Node.toValue : Node → Value
  | .value v => v
  | .table _ entries => .table (toEntries entries)
  | .tables last earlier => .array (toTables earlier [.table (toEntries last)])

def toEntries : List (String × Node) → List (String × Value)
  | [] => []
  | (key, node) :: entries => (key, node.toValue) :: toEntries entries

def toTables : List (List (String × Node)) → List Value → List Value
  | [], later => later
  | entries :: earlier, later => toTables earlier (.table (toEntries entries) :: later)

end

inductive Statement where
  | assignment (path : List String) (key : String) (value : Value)
  | header (path : List String) (key : String)
  | listHeader (path : List String) (key : String)

def define (current : List String) (entries : Entries) : List Statement → Option Entries
  | [] => some entries
  | .assignment path key v :: rest => do
    let entries ← within .implied (assign path key v) current .defined entries
    define current entries rest
  | .header path key :: rest => do define (path ++ [key]) (← openTable path key entries) rest
  | .listHeader path key :: rest => do define (path ++ [key]) (← appendTable path key entries) rest

def inlineTable (assignments : List (List String × String × Value)) : Option Value :=
  (assignments.foldlM (fun entries a => assign a.1 a.2.1 a.2.2 .defined entries) []).map
    fun entries => .table (toEntries entries)

end NeutralSchema.Toml
