import NeutralSchema.FileSystem
import NeutralSchema.Service.Exchange

/-!
# What a command does

A command reads the files it is given and then finishes, or it does one thing more whose success
decides how it finishes: it writes a file, or posts a request to the service.
-/
namespace NeutralSchema.Command

structure Result where
  output : String
  errors : String
  exit : Nat
  deriving DecidableEq, Repr

namespace Result

def of (succeeded : Bool) (output errors : String) : Result :=
  ⟨output, errors, if succeeded then 0 else 1⟩

/-- The result of a command that is given up after it printed some errors. -/
def givenUp (errors message : String) (cause : Option String) : Result :=
  let because := match cause with
    | some cause => "\n\nCaused by:\n    " ++ cause
    | none => ""
  ⟨"", errors ++ "Error: " ++ message ++ because ++ "\n", 1⟩

end Result

structure Posted where
  endpoint : Service.Url
  body : String
  deriving DecidableEq, Repr

inductive Action where
  | finish (result : Result)
  | write (path text : String) (next : Except FileError Unit → Result)
  | post (posted : Posted) (timeout : UInt64) (next : Option Service.Reply → Result)

/-- A service as those who post to it know it. -/
abbrev ServiceReplies := Posted → Option Service.Reply

structure Execution where
  result : Result
  fileSystem : FileSystem
  posted : Option Posted

def Action.perform (fs : FileSystem) (service : ServiceReplies) : Action → Execution
  | .finish result => ⟨result, fs, none⟩
  | .write path text next =>
    match fs.write path text with
    | .ok written => ⟨next (.ok ()), written, none⟩
    | .error e => ⟨next (.error e), fs, none⟩
  | .post posted _ next => ⟨next (service posted), fs, some posted⟩

end NeutralSchema.Command
