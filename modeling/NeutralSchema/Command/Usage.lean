/-!
# The command line

The arguments that the program and each of its commands declare, and how they are explained.
-/
namespace NeutralSchema.Command

inductive ArgumentForm where
  | switch
  /-- By its name and a value, which messages call by a placeholder. -/
  | valued (placeholder : String)
  | positional
  deriving DecidableEq, Repr

structure Argument where
  name : String
  letter : Option Char
  form : ArgumentForm
  /-- Whether its values are paths, which are never empty. -/
  isPath : Bool
  isRequired : Bool
  about : String
  deriving DecidableEq, Repr

def Argument.text (a : Argument) : String :=
  match a.form with
  | .switch => "--" ++ a.name
  | .valued placeholder => "--" ++ a.name ++ " <" ++ placeholder ++ ">"
  | .positional => "<" ++ a.name ++ ">..."

def option (name placeholder about : String) : Argument :=
  ⟨name, none, .valued placeholder, false, false, about⟩

def pathOption (name placeholder about : String) : Argument :=
  ⟨name, none, .valued placeholder, true, false, about⟩

def switch (name : String) (letter : Option Char) (about : String) : Argument :=
  ⟨name, letter, .switch, false, false, about⟩

namespace Argument

def config : Argument :=
  pathOption "config" "CONFIG" "Configuration file (defaults to ./schemalift.toml when present)"

def verbose : Argument := switch "verbose" (some 'v') "Log at debug level"

def help : Argument := switch "help" (some 'h') "Print help"

def version : Argument := switch "version" (some 'V') "Print version"

def paths : Argument := ⟨"PATHS", none, .positional, true, true, "JSON syntax tree files"⟩

end Argument

/-- The program or one of its commands. -/
structure Scope where
  name : String
  about : String
  arguments : List Argument
  commands : List (String × String)
  deriving DecidableEq, Repr

namespace Scope

def lower : Scope where
  name := "lower"
  about := "Lower syntax trees and write their schemas"
  arguments := [.paths, option "format" "FORMAT" "Output format (json or pretty)",
    { pathOption "output" "OUTPUT" "Write to a file instead of stdout" with letter := some 'o' },
    switch "deny-warnings" none "Fail when any diagnostic is reported",
    .config, .verbose, .help]
  commands := []

def check : Scope where
  name := "check"
  about := "Report diagnostics without writing schemas"
  arguments := [.paths, option "format" "FORMAT" "Report format (text or json)",
    .config, .verbose, .help]
  commands := []

def exec : Scope where
  name := "exec"
  about := "Compile and run a class on the test-execution service"
  arguments := [
    { pathOption "code" "CODE" "Source of the class under test" with isRequired := true },
    pathOption "stdlib" "STDLIB" "Standard library source",
    { option "class" "CLASS_NAME" "Class to load" with isRequired := true },
    option "method" "METHOD_NAME" "Static method to invoke (defaults to main)",
    option "url" "URL" "Service base URL", .config, .verbose, .help]
  commands := []

def programName : String := "schemalift"

def program : Scope where
  name := programName
  about := "Lower resolved syntax trees to language-neutral schemas"
  arguments := [.config, .verbose, .help, .version]
  commands := [lower, check, exec].map (fun s => (s.name, s.about)) ++
    [("help", "Print this message or the help of the given subcommand(s)")]

def command? (name : String) : Option Scope := [lower, check, exec].find? (·.name == name)

/-- The argument that stands alone. -/
def positional? (s : Scope) : Option Argument := s.arguments.find? (·.form = .positional)

def named? (s : Scope) (name : String) : Option Argument :=
  s.arguments.find? fun a => a.form != .positional && a.name == name

def lettered? (s : Scope) (letter : Char) : Option Argument :=
  s.arguments.find? (·.letter == some letter)

def usage (s : Scope) : String :=
  let start := if s.name = programName then programName else programName ++ " " ++ s.name
  let required := s.arguments.filter (·.isRequired)
  "Usage: " ++ start ++ " [OPTIONS]" ++ String.join (required.map (" " ++ ·.text))
    ++ (if s.commands.isEmpty then "" else " <COMMAND>")

def label (a : Argument) : String :=
  match a.form, a.letter with
  | .positional, _ => a.text
  | _, some letter => "-" ++ letter.toString ++ ", " ++ a.text
  | _, none => "    " ++ a.text

/-- Explanations in two columns under a title, if there are any. -/
def explanations (title : String) (rows : List (String × String)) : String :=
  let width := (rows.map (·.1.length)).foldl max 0
  if rows.isEmpty then ""
  else "\n" ++ title ++ ":\n" ++ String.join (rows.map fun r =>
    "  " ++ r.1 ++ String.ofList (List.replicate (width - r.1.length + 2) ' ') ++ r.2 ++ "\n")

def helpText (s : Scope) : String :=
  let row (a : Argument) : String × String := (label a, a.about)
  s.about ++ "\n\n" ++ s.usage ++ "\n" ++ explanations "Commands" s.commands
    ++ explanations "Arguments" ((s.arguments.filter (·.form = .positional)).map row)
    ++ explanations "Options" ((s.arguments.filter (·.form != .positional)).map row)

end Scope

inductive UsageError where
  | unknownArgument (text : String)
  | unknownCommand (name : String)
  | missingValue (argument : Argument)
  | repeated (argument : Argument)
  | surplusValue (value : String) (argument : Argument)
  | missingArguments (arguments : List Argument)
  | missingCommand
  deriving DecidableEq, Repr

def UsageError.message : UsageError → String
  | .unknownArgument text => "unexpected argument '" ++ text ++ "' found"
  | .unknownCommand name => "unrecognized subcommand '" ++ name ++ "'"
  | .missingValue a => "a value is required for '" ++ a.text ++ "' but none was supplied"
  | .repeated a => "the argument '" ++ a.text ++ "' cannot be used multiple times"
  | .surplusValue value a =>
    "unexpected value '" ++ value ++ "' for '" ++ a.text ++ "' found; no more were expected"
  | .missingArguments arguments =>
    "the following required arguments were not provided:"
      ++ String.join (arguments.map ("\n  " ++ ·.text))
  | .missingCommand =>
    "'" ++ Scope.programName ++ "' requires a subcommand but one was not provided"

def UsageError.report (s : Scope) (e : UsageError) : String :=
  "error: " ++ e.message ++ "\n\n" ++ s.usage ++ "\n\nFor more information, try '--help'.\n"

end NeutralSchema.Command
