import NeutralSchema.Service.Endpoint
import NeutralSchema.Service.Message
import NeutralSchema.Text.Mark

/-!
# Exchanges with the test-execution service

One request is posted to the endpoint, and one reply comes back or none. Main definition:
`interpret`, which sorts every reply into exactly one case.
-/
namespace NeutralSchema.Service

structure Reply where
  status : Nat
  body : String
  deriving DecidableEq, Repr

/-- Whether replies with a status carry no body, whatever is sent. -/
def isBodiless (status : Nat) : Bool := status = 204 || status = 304

def Reply.received (r : Reply) : Reply :=
  if isBodiless r.status then { r with body := "" }
  else { r with body := String.ofList (Text.withoutMark r.body.toList) }

inductive ServiceError where
  | transport (endpoint : Url)
  | unsuccessful (status : Nat) (body : String)
  /-- The service does not take requests that name its host so. -/
  | hostRejected (body : String)
  | undecodable (body : String) (cause : Json.LocatedError)
  deriving DecidableEq, Repr

def ServiceError.message : ServiceError → String
  | .transport endpoint => "request to " ++ endpoint.text ++ " failed"
  | .unsuccessful status body => "service returned HTTP " ++ toString status ++ ": " ++ body
  | .hostRejected body => "service rejected the request host: " ++ body
  | .undecodable body _ => "undecodable service response: " ++ body

/-- How the service starts a body that rejects the host. It has a status of success. -/
def rejection : String := "Host not allowed"

def isSuccess (status : Nat) : Bool := 200 ≤ status && status < 300

variable [Json.Locating]

def interpret (status : Nat) (body : String) : Except ServiceError Response :=
  if !isSuccess status then .error (.unsuccessful status body)
  else if rejection.toList.isPrefixOf body.toList then .error (.hostRejected body)
  else
    match Response.read body with
    | .ok response => .ok response
    | .error e => .error (.undecodable body (Json.locate body e))

def conclude (endpoint : Url) : Option Reply → Except ServiceError Response
  | none => .error (.transport endpoint)
  | some reply => interpret reply.received.status reply.received.body

def requestLine (endpoint : Url) : String := "POST " ++ endpoint.path ++ " HTTP/1.1"

end NeutralSchema.Service
