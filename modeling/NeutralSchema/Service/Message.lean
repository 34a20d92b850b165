import NeutralSchema.Json.Decode
import NeutralSchema.Json.Text
import NeutralSchema.Json.Printer

/-!
# Messages of the test-execution service

The service compiles a class together with a standard library, runs one static method of it, and
answers with what the method printed or with what went wrong.
-/
namespace NeutralSchema.Service

open Json

structure Request where
  code : String
  standardLibrary : String
  className : String
  methodName : String
  deriving DecidableEq, Repr

def defaultMethod : String := "main"

/-- A request for a class, with the default method if none is named. -/
def Request.of (code standardLibrary className : String) (method : Option String) : Request :=
  ⟨code, standardLibrary, className, method.getD defaultMethod⟩

def Request.encode (r : Request) : Json :=
  .object [("code", .string r.code), ("stdlibCode", .string r.standardLibrary),
    ("className", .string r.className), ("methodName", .string r.methodName)]

def Request.decode (access : Access) : Nat → Json → Decoded Request :=
  decodeRecord access "struct RunRequest"
    [field "code", field "stdlibCode", field "className", field "methodName"] fun _ fields => do
      let code ← fields.required "code" decodeString
      let standardLibrary ← fields.required "stdlibCode" decodeString
      let className ← fields.required "className" decodeString
      let methodName ← fields.required "methodName" decodeString
      return ⟨code, standardLibrary, className, methodName⟩

def Request.body (r : Request) : String := r.encode.compact

structure Response where
  elapsed : UInt64
  /-- What the compiler said, or the trace of an exception. -/
  exception : Option String
  result : Option String
  deriving DecidableEq, Repr

def textEntry (key : String) : Option String → Fields
  | some text => [(key, .string text)]
  | none => []

def Response.encode (r : Response) : Json :=
  .object (("elapsedMs", natural r.elapsed.toNat) ::
    (textEntry "exceptionText" r.exception ++ textEntry "result" r.result))

def Response.decode (access : Access) : Nat → Json → Decoded Response :=
  decodeRecord access "struct RunResponse"
    [omittable "elapsedMs", omittable "exceptionText", omittable "result"] fun _ fields => do
      let elapsed ← fields.withDefault "elapsedMs" 0 decodeWord64
      let exception ← fields.optional "exceptionText" decodeString
      let result ← fields.optional "result" decodeString
      return ⟨elapsed, exception, result⟩

def Response.read : String → Decoded Response := decodeText Response.decode

inductive Outcome where
  | passed (output : String) (elapsed : UInt64)
  | failed (exception : String)
  deriving DecidableEq, Repr

/-- An exception wins over a result; an answer with neither is a run that printed nothing. -/
def Response.outcome (r : Response) : Outcome :=
  match r.exception with
  | some exception => .failed exception
  | none => .passed (r.result.getD "") r.elapsed

end NeutralSchema.Service
