/-!
# File systems

Files and directories under absolute paths, with a working directory for relative ones. A path is
followed step by step, as the system does it, so that a step back out of a missing directory fails.
-/
namespace NeutralSchema

inductive FileError where
  | notFound
  | notDirectory
  | isDirectory
  | nameTooLong
  | nulByte
  | invalidUtf8
  | other (message : String)
  deriving DecidableEq, Repr

def FileError.message : FileError → String
  | .notFound => "No such file or directory (os error 2)"
  | .notDirectory => "Not a directory (os error 20)"
  | .isDirectory => "Is a directory (os error 21)"
  | .nameTooLong => "File name too long (os error 36)"
  | .nulByte => "file name contained an unexpected NUL byte"
  | .invalidUtf8 => "stream did not contain valid UTF-8"
  | .other message => message

inductive FileEntry where
  | file (content : ByteArray)
  | directory
  | unreadable (error : FileError)

/-- A path without `.` and `..`, by its components from the root. -/
abbrev Location := List String

structure FileSystem where
  workingDirectory : Location
  entries : List (Location × FileEntry)

namespace FileSystem

/-- What is at a location. The directories above an entry, and the working directory, exist. -/
def entryAt? (fs : FileSystem) (place : Location) : Option FileEntry :=
  match fs.entries.lookup place with
  | some entry => some entry
  | none =>
    if place.isPrefixOf fs.workingDirectory || fs.entries.any fun e => place.isPrefixOf e.1 then
      some .directory
    else none

/-- Follows the components of a path. Every one but the last has to lead to a directory. -/
def follow (fs : FileSystem) (place : Location) : List String → Except FileError Location
  | [] => .ok place
  | step :: rest =>
    if step = "" ∨ step = "." then follow fs place rest
    else if step = ".." then follow fs place.dropLast rest
    else if step.utf8ByteSize > 255 then .error .nameTooLong
    else
      let next := place ++ [step]
      if rest.isEmpty then .ok next
      else
        match fs.entryAt? next with
        | some .directory => follow fs next rest
        | some _ => .error .notDirectory
        | none => .error .notFound

def locate (fs : FileSystem) (path : String) : Except FileError Location :=
  if path.toList.contains '\x00' then .error .nulByte
  else if path.isEmpty then .error .notFound
  else if path.utf8ByteSize ≥ 4096 then .error .nameTooLong
  else fs.follow (if path.startsWith "/" then [] else fs.workingDirectory) (path.splitOn "/")

def readBytes (fs : FileSystem) (path : String) : Except FileError ByteArray := do
  match fs.entryAt? (← fs.locate path) with
  | some (.file content) => return content
  | some .directory => throw .isDirectory
  | some (.unreadable e) => throw e
  | none => throw .notFound

def read (fs : FileSystem) (path : String) : Except FileError String := do
  match String.fromUTF8? (← fs.readBytes path) with
  | some text => return text
  | none => throw .invalidUtf8

def isFile (fs : FileSystem) (path : String) : Bool :=
  match fs.locate path with
  | .ok place =>
    match fs.entryAt? place with
    | some (.file _) | some (.unreadable _) => true
    | _ => false
  | .error _ => false

def put (fs : FileSystem) (place : Location) (entry : FileEntry) : FileSystem :=
  { fs with entries := (place, entry) :: fs.entries.filter (·.1 != place) }

/-- Writes a text to a file, which is created if its directory exists. -/
def write (fs : FileSystem) (path text : String) : Except FileError FileSystem := do
  let place ← fs.locate path
  match fs.entryAt? place with
  | some .directory => throw .isDirectory
  | some (.unreadable e) => throw e
  | some (.file _) => return fs.put place (.file text.toUTF8)
  | none =>
    match fs.entryAt? place.dropLast with
    | some .directory => return fs.put place (.file text.toUTF8)
    | some _ => throw .notDirectory
    | none => throw .notFound

end FileSystem
end NeutralSchema
