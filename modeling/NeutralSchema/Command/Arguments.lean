import NeutralSchema.Command.Usage

/-!
# Reading the command line

Arguments are read from left to right. An option waits for its value, and what is wrong with an
option shows when the next one begins or the line ends. Main definition: `Invocation.read`.
-/
namespace NeutralSchema.Command

/-- Why a command line does not run a command. -/
inductive Stop where
  | help (scope : Scope)
  | version
  | nothing
  | misuse (scope : Scope) (error : UsageError)
  deriving DecidableEq, Repr

/-- The values of each argument that is given, in order. -/
abbrev Given := List (String × List String)

structure Progress where
  given : Given
  pending : Option (Argument × List String)
  /-- Whether the pending argument must have the next value. -/
  isWaiting : Bool
  isEscaped : Bool
  deriving DecidableEq, Repr

namespace Progress

def start : Progress := ⟨[], none, false, false⟩

/-- Adds an argument with its values. Only an argument that stands alone may be given again. -/
def add (p : Progress) (a : Argument) (values : List String) : Except UsageError Progress :=
  if a.form ≠ .switch ∧ values.isEmpty then .error (.missingValue a)
  else if a.form ≠ .positional ∧ p.given.any (·.1 == a.name) then .error (.repeated a)
  else if a.isPath ∧ values.any String.isEmpty then .error (.missingValue a)
  else .ok { p with given := p.given ++ [(a.name, values)] }

def settle (p : Progress) : Except UsageError Progress :=
  match p.pending with
  | none => .ok p
  | some (a, values) => { p with pending := none, isWaiting := false }.add a values

def extend (p : Progress) (value : String) : Progress :=
  { p with
    pending := p.pending.map fun q => (q.1, q.2 ++ [value])
    isWaiting := false }

def addAlone (p : Progress) (a : Argument) (value : String) : Except UsageError Progress :=
  match p.pending with
  | some (b, _) =>
    if b = a then .ok (p.extend value)
    else do return { (← p.settle) with pending := some (a, [value]) }
  | none => .ok { p with pending := some (a, [value]) }

end Progress

namespace Scope

def misuse {α : Type} (s : Scope) (x : Except UsageError α) : Except Stop α :=
  x.mapError (.misuse s)

def readSwitch (s : Scope) (p : Progress) (a : Argument) : Except Stop Progress := do
  let p ← s.misuse p.settle
  if a = .help then throw (.help s)
  if a = .version then throw .version
  s.misuse (p.add a [])

/-- Reads an option with the value attached to it, or has it wait for one. -/
def readOption (s : Scope) (p : Progress) (a : Argument) (attached : Option String) :
    Except Stop Progress := do
  let p ← s.misuse p.settle
  match attached with
  | some value => s.misuse (p.add a [value])
  | none => return { p with pending := some (a, []), isWaiting := true }

def splitAttached (cs : List Char) : String × Option String :=
  match cs.span (· != '=') with
  | (name, _ :: value) => (String.ofList name, some (String.ofList value))
  | (name, []) => (String.ofList name, none)

def readNamed (s : Scope) (p : Progress) (cs : List Char) : Except Stop Progress :=
  let (name, attached) := splitAttached cs
  match s.named? name with
  | none => s.misuse (.error (.unknownArgument ("--" ++ name)))
  | some a =>
    match a.form, attached with
    | .switch, some value => s.misuse (.error (.surplusValue value a))
    | .switch, none => s.readSwitch p a
    | _, _ => s.readOption p a attached

def attachedToLetter : List Char → Option String
  | [] => none
  | '=' :: value => some (String.ofList value)
  | value => some (String.ofList value)

def readLetters (s : Scope) (p : Progress) : List Char → Except Stop Progress
  | [] => .ok p
  | letter :: rest =>
    match s.lettered? letter with
    | none => s.misuse (.error (.unknownArgument ("-" ++ letter.toString)))
    | some a =>
      if a.form = .switch then do s.readLetters (← s.readSwitch p a) rest
      else s.readOption p a (attachedToLetter rest)

def readAlone (s : Scope) (p : Progress) (value : String) : Except Stop Progress :=
  match s.positional? with
  | some a => s.misuse (p.addAlone a value)
  | none =>
    let isMisplaced := s.commands.isEmpty || (p.isEscaped && s.commands.any (·.1 == value))
    s.misuse (.error (if isMisplaced then .unknownArgument value else .unknownCommand value))

def readArgument (s : Scope) (p : Progress) (argument : String) : Except Stop Progress :=
  if p.isEscaped then s.readAlone p argument
  else
    match argument.toList with
    | '-' :: '-' :: [] => .ok { p with isEscaped := true }
    | '-' :: '-' :: name => s.readNamed p name
    | '-' :: letter :: letters => s.readLetters p (letter :: letters)
    | _ => if p.isWaiting then .ok (p.extend argument) else s.readAlone p argument

def isCommand (s : Scope) (p : Progress) (argument : String) : Bool :=
  !p.isWaiting && !p.isEscaped && s.commands.any (·.1 == argument)

/-- Reads arguments up to the name of a command: that name, and what follows it. -/
def readArguments (s : Scope) (p : Progress) :
    List String → Except Stop (Progress × Option (String × List String))
  | [] => .ok (p, none)
  | argument :: rest =>
    if s.isCommand p argument then .ok (p, some (argument, rest))
    else do s.readArguments (← s.readArgument p argument) rest

def requireAll (s : Scope) (given : Given) : Except UsageError Unit :=
  match s.arguments.filter fun a => a.isRequired && !given.any (·.1 == a.name) with
  | [] => .ok ()
  | missing => .error (.missingArguments missing)

def readAll (s : Scope) (arguments : List String) : Except Stop Given := do
  let (p, _) ← s.readArguments .start arguments
  let p ← s.misuse p.settle
  s.misuse (s.requireAll p.given)
  return p.given

end Scope

inductive Request where
  | lower (paths : List String) (format output : Option String) (denyWarnings : Bool)
  | check (paths : List String) (format : String)
  | exec (code : String) (standardLibrary : Option String) (className : String)
      (methodName url : Option String)
  deriving DecidableEq, Repr

def Request.files : Request → List String
  | .lower paths _ _ _ | .check paths _ => paths
  | .exec code standardLibrary _ _ _ => code :: standardLibrary.toList

structure Invocation where
  config : Option String
  verbose : Bool
  request : Request
  deriving DecidableEq, Repr

namespace Given

def all (given : Given) (name : String) : List String :=
  (given.filter (·.1 == name)).flatMap (·.2)

def value? (given : Given) (name : String) : Option String := (given.all name).head?

def has (given : Given) (name : String) : Bool := given.any (·.1 == name)

end Given

namespace Request

def of (command : Scope) (given : Given) : Request :=
  if command = .lower then
    .lower (given.all "PATHS") (given.value? "format") (given.value? "output")
      (given.has "deny-warnings")
  else if command = .check then
    .check (given.all "PATHS") ((given.value? "format").getD "text")
  else
    .exec ((given.value? "code").getD "") (given.value? "stdlib")
      ((given.value? "class").getD "") (given.value? "method") (given.value? "url")

end Request

namespace Invocation

/-- The command that help is asked for by naming it. -/
def helpTopic (scope : Scope) : List String → Stop
  | [] => .help scope
  | name :: rest =>
    match if scope.commands.isEmpty then none else Scope.command? name with
    | some command => helpTopic command rest
    | none =>
      if name = "help" ∧ rest.isEmpty ∧ !scope.commands.isEmpty then .help scope
      else .misuse scope (.unknownCommand name)

def readCommand (before : Progress) (command : Scope) (arguments : List String) :
    Except Stop Invocation := do
  let given ← command.readAll arguments
  let outer := (← Scope.program.misuse before.settle).given
  return ⟨(given.value? "config").or (outer.value? "config"),
    given.has "verbose" || outer.has "verbose", .of command given⟩

def read (arguments : List String) : Except Stop Invocation := do
  match ← Scope.program.readArguments .start arguments with
  | (p, none) =>
    let p ← Scope.program.misuse p.settle
    if p.given.isEmpty then throw .nothing
    throw (.misuse .program .missingCommand)
  | (p, some (name, rest)) =>
    match Scope.command? name with
    | some command => readCommand p command rest
    | none => throw (helpTopic .program rest)

end Invocation
end NeutralSchema.Command
