import NeutralSchema.Service.Url

/-!
# Where the service listens

The endpoint lies directly below the URL that a service is configured with: none of its path is
lost, and its query and fragment do not count.
-/
namespace NeutralSchema.Service

inductive ServiceUrlError where
  | unreadable (error : UrlError)
  | unsupported (scheme : String)
  deriving DecidableEq, Repr

def ServiceUrlError.reason : ServiceUrlError → String
  | .unreadable e => e.message
  | .unsupported scheme => "unsupported scheme `" ++ scheme ++ "`"

def ServiceUrlError.message (text : String) (e : ServiceUrlError) : String :=
  "invalid service URL `" ++ text ++ "`: " ++ e.reason

def endpointName : String := "compile"

/-- The URL with a slash at the end of its path. -/
def Url.closed (u : Url) : Url :=
  if u.path.toList.getLast? = some '/' then u else u.setPath (u.path ++ "/")

def Url.endpoint (u : Url) : Url := u.closed.join endpointName

/-- The endpoint of the service at the URL that a text denotes, for a way to write domains. -/
def endpointUnder (naming : Host.Naming) (text : String) : Except ServiceUrlError Url :=
  match Address.read naming text with
  | .error e => .error (.unreadable e)
  | .ok (.foreign scheme) => .error (.unsupported scheme)
  | .ok (.web u) => .ok u.endpoint

def endpoint : String → Except ServiceUrlError Url := endpointUnder .plain

end NeutralSchema.Service
