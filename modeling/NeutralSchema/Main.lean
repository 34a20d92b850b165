import NeutralSchema.Command.Program
import NeutralSchema.Service.Wire
import Std.Async.DNS
import Std.Async.TCP
import Std.Async.Timer

/-!
# The executable

Reads the files that the command line names, lets the program decide what to do, and does it.
-/
namespace NeutralSchema.Main

open Command
open Std.Async (Async)

/-- The refusal that an error of the system stands for. -/
def fileError : IO.Error → FileError
  | .noFileOrDirectory .. => .notFound
  | .inappropriateType .. => .notDirectory
  | .permissionDenied .. => .other "Permission denied (os error 13)"
  | e => .other (toString e)

def entryAt (path : String) : IO (Option FileEntry) := do
  try
    if ← (← IO.FS.realPath path).isDir then return some .directory
    return some (.file (← IO.FS.readBinFile path))
  catch e =>
    match fileError e with
    | .notFound => return none
    | refusal => return some (.unreadable refusal)

/-- Adds what is at a path, and at the paths above it. -/
def load (fs : FileSystem) (path : String) : IO FileSystem := do
  let steps := path.splitOn "/"
  let above := (List.range steps.length).map fun n => String.intercalate "/" (steps.take n)
  (above.filter (!·.isEmpty) ++ [path]).foldlM (fun fs path => do
    match fs.locate path, ← entryAt path with
    | .ok place, some entry => return fs.put place entry
    | _, _ => return fs) fs

def addresses (endpoint : Service.Url) : Async (List Std.Net.SocketAddress) := do
  let number := UInt16.ofNat endpoint.socketNumber
  let host := (endpoint.host.dropWhile (· = '[')).dropEndWhile (· = ']') |>.toString
  let found ← Std.Async.DNS.getAddrInfo host ""
  return found.toList.map fun
    | .v4 address => .v4 ⟨address, number⟩
    | .v6 address => .v6 ⟨address, number⟩

partial def receiveAll (socket : Std.Async.TCP.Socket.Client) (received : ByteArray) :
    Async ByteArray := do
  match ← socket.recv? 65536 with
  | some bytes => receiveAll socket (received ++ bytes)
  | none => return received

def converse (posted : Posted) : Async (Option Service.Reply) := do
  if posted.endpoint.scheme != .http then return none
  match ← addresses posted.endpoint with
  | [] => return none
  | address :: _ =>
    let socket ← Std.Async.TCP.Socket.Client.mk
    socket.connect address
    socket.send (Service.requestBytes posted.endpoint posted.body)
    return Service.readReply (← receiveAll socket ByteArray.empty)

def withTimeout {α : Type} (timeout : UInt64) (x : Async (Option α)) : Async (Option α) :=
  Async.race x (do
    Std.Async.sleep (.ofNat timeout.toNat)
    return none)

def post (posted : Posted) (timeout : UInt64) : IO (Option Service.Reply) := do
  try (withTimeout timeout (converse posted)).block
  catch _ => return none

def perform : Action → IO Result
  | .finish result => return result
  | .write path text next => do
    try
      IO.FS.writeFile path text
      return next (.ok ())
    catch e => return next (.error (fileError e))
  | .post posted timeout next => return next (← post posted timeout)

def run (arguments : List String) : IO UInt32 := do
  let directory := (← IO.currentDir).toString
  let workingDirectory := (directory.splitOn "/").filter (!·.isEmpty)
  let fs ← (filesRead directory arguments).foldlM load ⟨workingDirectory, []⟩
  let result ← perform (action fs directory arguments)
  IO.print result.output
  IO.eprint result.errors
  return UInt32.ofNat result.exit

end NeutralSchema.Main

def main (arguments : List String) : IO UInt32 := NeutralSchema.Main.run arguments
