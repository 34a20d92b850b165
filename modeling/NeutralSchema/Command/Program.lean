import NeutralSchema.Command.Arguments
import NeutralSchema.Command.Check
import NeutralSchema.Command.Exec
import NeutralSchema.Command.Lower
import NeutralSchema.Settings

/-!
# The program

Arguments win over the settings of the configuration file. Main definition: `run`, what the program
does when it is called in the working directory of a file system.
-/
namespace NeutralSchema.Command

def programVersion : String := "0.1.0"

def stopResult : Stop → Result
  | .help scope => ⟨scope.helpText, "", 0⟩
  | .version => ⟨Scope.programName ++ " " ++ programVersion ++ "\n", "", 0⟩
  | .nothing => ⟨"", Scope.program.helpText, 2⟩
  | .misuse scope e => ⟨"", e.report scope, 2⟩

def chosenFormat (settings : Settings) : Option String → Except String OutputFormat
  | none => .ok settings.format
  | some name => OutputFormat.ofName name

variable [Json.Locating]

def Request.action (fs : FileSystem) (settings : Settings) : Request → Action
  | .lower paths format output denyWarnings =>
    match chosenFormat settings format with
    | .error message => .finish (.givenUp "" message none)
    | .ok format =>
      Command.lower fs
        ⟨format, output, denyWarnings || settings.denyWarnings, settings.parallel⟩ paths
  | .check paths format =>
    match ReportFormat.ofName format with
    | .error message => .finish (.givenUp "" message none)
    | .ok format => .finish (Command.check fs format settings.parallel paths)
  | .exec code standardLibrary className methodName url =>
    Command.exec fs ⟨code, standardLibrary, className, methodName,
      url.getD settings.serviceUrl, settings.timeout⟩

/-- What an invocation does. The settings are loaded before anything else. -/
def Invocation.action (fs : FileSystem) (directory : String) (i : Invocation) : Action :=
  match Settings.load fs i.config directory with
  | .error e => .finish (.givenUp "" e.message (some e.cause))
  | .ok settings => i.request.action fs settings

/-- The files that are read when the program is called with arguments in a directory. -/
def filesRead (directory : String) (arguments : List String) : List String :=
  match Invocation.read arguments with
  | .error _ => []
  | .ok i => i.config.getD (Settings.pathIn directory) :: i.request.files

def action (fs : FileSystem) (directory : String) (arguments : List String) : Action :=
  match Invocation.read arguments with
  | .error stop => .finish (stopResult stop)
  | .ok invocation => invocation.action fs directory

def run (fs : FileSystem) (service : ServiceReplies) (arguments : List String) : Execution :=
  (action fs ("/" ++ String.intercalate "/" fs.workingDirectory) arguments).perform fs service

end NeutralSchema.Command
