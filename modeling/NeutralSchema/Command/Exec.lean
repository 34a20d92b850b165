import NeutralSchema.Batch
import NeutralSchema.Command.Action
import NeutralSchema.Command.Report

/-!
# Running a class on the test-execution service

`exec` sends files as they are to the service and prints what the method printed.
-/
namespace NeutralSchema.Command

structure ExecOptions where
  code : String
  standardLibrary : Option String
  className : String
  methodName : Option String
  serviceUrl : String
  /-- How many milliseconds the service may take. -/
  timeout : UInt64
  deriving DecidableEq, Repr

def readSource (fs : FileSystem) (path : String) : Except LoadError String :=
  (fs.read path).mapError (.unreadable path)

/-- The text of the standard library, which is empty if no file is named. -/
def readLibrary (fs : FileSystem) : Option String → Except LoadError String
  | none => .ok ""
  | some path => readSource fs path

def buildRequest (fs : FileSystem) (code : String) (standardLibrary : Option String)
    (className : String) (methodName : Option String) : Except LoadError Service.Request := do
  let code ← readSource fs code
  let standardLibrary ← readLibrary fs standardLibrary
  return .of code standardLibrary className methodName

def exchangeCause : Service.ServiceError → Option String
  | .transport endpoint => some ("error sending request for url (" ++ endpoint.text ++ ")")
  | .undecodable _ e => some e.message
  | .unsuccessful _ _ | .hostRejected _ => none

def outcomeResult (errors : String) : Service.Outcome → Result
  | .passed output elapsed =>
    .of true output (errors ++ line ("Passed in " ++ toString elapsed.toNat ++ " ms"))
  | .failed exception => .of false "" (errors ++ line ("Failed:\n" ++ exception))

variable [Json.Locating]

def replyResult (errors : String) (endpoint : Service.Url) (reply : Option Service.Reply) :
    Result :=
  match Service.conclude endpoint reply with
  | .ok response => outcomeResult errors response.outcome
  | .error e => .givenUp errors e.message (exchangeCause e)

def runningReport (request : Service.Request) (endpoint : Service.Url) : String :=
  line ("Running " ++ request.className ++ "." ++ request.methodName ++ " via " ++ endpoint.text)

/-- Posts a request to the service, for a way to write domains. -/
def execUnder (naming : Service.Host.Naming) (fs : FileSystem) (options : ExecOptions) : Action :=
  match buildRequest fs options.code options.standardLibrary options.className
    options.methodName with
  | .error e => .finish (.givenUp "" e.message (some e.cause))
  | .ok request =>
    match Service.endpointUnder naming options.serviceUrl with
    | .error e => .finish (.givenUp "" (e.message options.serviceUrl) none)
    | .ok endpoint =>
      .post ⟨endpoint, request.body⟩ options.timeout
        (replyResult (runningReport request endpoint) endpoint)

def exec : FileSystem → ExecOptions → Action := execUnder .plain

end NeutralSchema.Command
