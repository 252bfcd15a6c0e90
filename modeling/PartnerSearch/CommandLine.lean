import PartnerSearch.Search.Compilation
import PartnerSearch.Configuration
import PartnerSearch.DatabaseUrl
import PartnerSearch.Directory.Schema
import PartnerSearch.Json.Writer
import PartnerSearch.Search.Parameter
import PartnerSearch.Sql.Fragment

set_option autoImplicit false

/-! The commands: explaining a search, and serving the directory. -/

namespace PartnerSearch.CommandLine

open Text (quoted)

inductive Command where
  | serve
  | explain (search : String)
  deriving DecidableEq, Repr

/-- A word that is taken for an option; a lone hyphen is not. -/
def isOption (word : String) : Bool :=
  match word.toList with
  | '-' :: _ :: _ => true
  | _ => false

/-- The words that are not options; after a double hyphen all are taken as they stand. -/
def operands? : List String → Option (List String)
  | [] => some []
  | word :: rest =>
    if word = "--" then some rest
    else if isOption word then none
    else (operands? rest).map (word :: ·)

/-- A command with exactly the words it needs. -/
def Command.ofWords? : List String → Option Command
  | "serve" :: rest => if operands? rest = some [] then some .serve else none
  | "explain" :: rest =>
    match operands? rest with
    | some [search] => some (.explain search)
    | _ => none
  | _ => none

/-- Why a command fails. -/
inductive Failure where
  | registry (error : SearchError)
  | search (error : SearchError)
  | configuration (fault : ConfigurationFault)
  | databaseUrl (url : String)
  deriving DecidableEq, Repr

namespace Failure

/-- Only a search can be the fault of the input. -/
def kind : Failure → String
  | .search _ => "InvalidInput"
  | _ => "Other"

def message : Failure → String
  | .registry error => "Search registry validation failed: " ++ error.message
  | .search error => error.message
  | .configuration fault => "Invalid configuration: " ++ fault.message
  | .databaseUrl url => "Database initialization failed: Invalid database URL: " ++ url

def report (failure : Failure) : String :=
  "Error: Custom \x7b kind: " ++ failure.kind ++ ", error: " ++ quoted failure.message ++ " \x7d\n"

end Failure

/-- The registry of the directory, once it is known to be complete. -/
def checkedRegistry : Except Failure Registry := do
  (Directory.registry.validate Directory.schema Directory.root).mapError .registry
  return Directory.registry

def bindJson : Value → Json
  | .text value => .string value
  | .integer value => .number (.integer value.toInt)
  | .real value => .number (.real value)
  | .boolean value => .bool value

/-- The condition of a search parameter and its operands. -/
def explain (parameter : String) : Except Failure String := do
  let registry ← checkedRegistry
  let search ← (Search.ofParameter parameter).mapError fun fault =>
    .search (.malformedPayload fault)
  let predicate ← (search.compile registry Directory.schema Directory.root).mapError .search
  let fragment := predicate.fragment
  return "WHERE " ++ fragment.sql ++ "\n" ++
    "binds: " ++ (Json.array (fragment.binds.map bindJson)).render ++ "\n"

/-- The settings to serve with. -/
def settings (environment : Environment) : Except Failure Configuration := do
  let configuration ← (Configuration.ofEnvironment environment).mapError .configuration
  let _ ← checkedRegistry
  if DatabaseUrl.isValid configuration.databaseUrl then return configuration
  else .error (.databaseUrl configuration.databaseUrl)

/-- What a command leaves: an exit code and its texts. -/
structure Outcome where
  exitCode : UInt8
  output : String
  report : String
  deriving DecidableEq, Repr

def Outcome.ofResult : Except Failure String → Outcome
  | .ok output => ⟨0, output, ""⟩
  | .error failure => ⟨1, "", failure.report⟩

/-- What is said when serving begins. -/
def startLine (configuration : Configuration) : String :=
  "Starting Partner API server on " ++ configuration.bindAddress ++ " (" ++
    configuration.environment ++ ")\n"

def Command.run (environment : Environment) : Command → Outcome
  | .explain search => .ofResult (CommandLine.explain search)
  | .serve => .ofResult ((settings environment).map startLine)

/-- Runs the words of a command line; nothing comes of words that are no command. -/
def run? (environment : Environment) (words : List String) : Option Outcome :=
  (Command.ofWords? words).map (Command.run environment)

/-- The exit code of words that are no command. -/
def usageExitCode : UInt8 := 2

end PartnerSearch.CommandLine
