import NeutralSchema.FileSystem
import NeutralSchema.OutputFormat
import NeutralSchema.Toml.Reader

/-!
# Settings

A configuration file has up to three sections. What it does not set keeps its default, and what it
sets must be known. Main definition: `Settings.load`.
-/
namespace NeutralSchema

structure Settings where
  format : OutputFormat
  parallel : Bool
  denyWarnings : Bool
  serviceUrl : String
  /-- How many milliseconds the service may take. -/
  timeout : UInt64
  deriving DecidableEq, Repr

namespace Settings

open Toml (Value)

def default : Settings := ⟨.compact, true, false, "http://127.0.0.1:8001", 10000⟩

instance : Inhabited Settings := ⟨default⟩

/-- The entries of a section whose keys must be among the known ones. A section may also list its
values in the order of the keys. -/
def sectionEntries (known : List String) : Value → Option (List (String × Value))
  | .table entries => if entries.all fun e => known.contains e.1 then some entries else none
  | .array values => some (known.zip values)
  | _ => none

/-- Sets something to the value of a key, where the key is given. -/
def set {α : Type} (entries : List (String × Value)) (key : String) (read : Value → Option α)
    (change : Settings → α → Settings) (s : Settings) : Option Settings :=
  match entries.lookup key with
  | none => some s
  | some v => (read v).map (change s)

def readString : Value → Option String
  | .string text => some text
  | _ => none

def readBoolean : Value → Option Bool
  | .boolean b => some b
  | _ => none

def readMilliseconds : Value → Option UInt64
  | .integer n => if 0 ≤ n then some (UInt64.ofNat n.toNat) else none
  | _ => none

/-- A format by its name, which may also be the only key of a table, for an empty table. -/
def readFormat : Value → Option OutputFormat
  | .string name | .table [(name, .table [])] => (OutputFormat.ofName name).toOption
  | _ => none

def readSection (known : List String)
    (change : List (String × Value) → Settings → Option Settings) (v : Value) (s : Settings) :
    Option Settings := do change (← sectionEntries known v) s

def readOutput : Value → Settings → Option Settings :=
  readSection ["format"] fun entries =>
    set entries "format" readFormat fun s format => { s with format }

def readLower : Value → Settings → Option Settings :=
  readSection ["parallel", "deny_warnings"] fun entries s => do
    let s ← set entries "parallel" readBoolean (fun s parallel => { s with parallel }) s
    set entries "deny_warnings" readBoolean (fun s denyWarnings => { s with denyWarnings }) s

def readRunner : Value → Settings → Option Settings :=
  readSection ["url", "timeout_ms"] fun entries s => do
    let s ← set entries "url" readString (fun s serviceUrl => { s with serviceUrl }) s
    set entries "timeout_ms" readMilliseconds (fun s timeout => { s with timeout }) s

def readEntry (s : Settings) : String × Value → Option Settings
  | ("output", v) => readOutput v s
  | ("lower", v) => readLower v s
  | ("runner", v) => readRunner v s
  | _ => none

def read (text : String) : Option Settings := do (← Toml.read text).foldlM readEntry default

inductive Error where
  | unreadable (path : String) (cause : FileError)
  | unparsable (path : String)
  deriving DecidableEq, Repr

namespace Error

def message : Error → String
  | unreadable path _ => "Failed to read config file: " ++ path
  | unparsable path => "Failed to parse config file: " ++ path

def cause : Error → String
  | unreadable _ e => e.message
  | unparsable _ => "TOML parse error"

end Error

def loadFile (fs : FileSystem) (path : String) : Except Error Settings :=
  match fs.read path with
  | .error e => .error (.unreadable path e)
  | .ok text =>
    match read text with
    | some s => .ok s
    | none => .error (.unparsable path)

def fileName : String := "schemalift.toml"

def pathIn (directory : String) : String :=
  if directory.isEmpty || directory.endsWith "/" then directory ++ fileName
  else directory ++ "/" ++ fileName

/-- The settings in a named file, or else in the configuration file of a directory, if it has
one. -/
def load (fs : FileSystem) (named : Option String) (directory : String) :
    Except Error Settings :=
  match named with
  | some path => loadFile fs path
  | none =>
    let path := pathIn directory
    if fs.isFile path then loadFile fs path else .ok default

end Settings
end NeutralSchema
