import EndpointTrace.CommandLine.Arguments
import EndpointTrace.Source.FilePath

/-!
# The command line

What the command line asks for.  The options before the name of the command hold for
all commands, and the others belong to their command.
-/

namespace EndpointTrace

inductive Command where
  /-- Write settings into a directory, or into the working directory. -/
  | create (directory : Option FilePath) (overwrite : Bool)
  | list (source : Option FilePath) (json : Bool)
  | draw (request : List String) (source : Option FilePath)
  deriving DecidableEq, Repr

structure CommandLine where
  settingsFile : Option FilePath
  verbose : Bool
  command : Command
  deriving DecidableEq, Repr

namespace CommandLine

/-!
## Rules
-/

def helpRule : OptionRule := ⟨.help, some 'h', "help"⟩

def sourceRule : OptionRule := ⟨.source, some 's', "source"⟩

def commandNames : List String := ["init", "endpoints", "diagram", "help"]

def generalRules : ArgumentRules where
  options :=
    [⟨.settingsFile, some 'c', "config"⟩, ⟨.verbose, some 'v', "verbose"⟩, helpRule,
      ⟨.version, some 'V', "version"⟩]
  words := none
  commands := commandNames

def createRules : ArgumentRules where
  options := [⟨.directory, some 'p', "path"⟩, ⟨.overwrite, none, "force"⟩, helpRule]
  words := none
  commands := []

def listRules : ArgumentRules where
  options := [sourceRule, ⟨.json, none, "json"⟩, helpRule]
  words := none
  commands := []

def drawRules : ArgumentRules where
  options := [sourceRule, helpRule]
  words := some .request
  commands := []

/-!
## Parsing
-/

def pathOf (reading : ArgumentReading) (key : ArgumentKey) : Option FilePath :=
  (reading.valuesOf key).head?.map FilePath.mk

def readAll (rules : ArgumentRules) (arguments : List String) :
    Except UsageError ArgumentReading := do
  (← rules.read .empty arguments).1.settle

def parseCreate (arguments : List String) : Except UsageError Command := do
  let reading ← readAll createRules arguments
  pure (.create (pathOf reading .directory) (reading.has .overwrite))

def parseList (arguments : List String) : Except UsageError Command := do
  let reading ← readAll listRules arguments
  pure (.list (pathOf reading .source) (reading.has .json))

def parseDraw (arguments : List String) : Except UsageError Command := do
  let reading ← readAll drawRules arguments
  if reading.has .request then
    pure (.draw (reading.valuesOf .request) (pathOf reading .source))
  else
    .error .missingArgument

def parseHelp : List String → UsageError
  | [] => .helpWanted
  | [name] => if commandNames.contains name then .helpWanted else .unknownCommand
  | _ => .unknownCommand

def parseCommand (name : String) (arguments : List String) : Except UsageError Command :=
  match name with
  | "init" => parseCreate arguments
  | "endpoints" => parseList arguments
  | "diagram" => parseDraw arguments
  | "help" => .error (parseHelp arguments)
  | _ => .error .unknownCommand

/-- A mistake in the command is reported before one in the last general option. -/
def parse (arguments : List String) : Except UsageError CommandLine := do
  let (reading, command) ← generalRules.read .empty arguments
  match command with
  | some (name, arguments) =>
      let command ← parseCommand name arguments
      let reading ← reading.settle
      pure ⟨pathOf reading .settingsFile, reading.has .verbose, command⟩
  | none =>
      let reading ← reading.settle
      .error (if reading.settled.isEmpty then .nothingAsked else .missingCommand)

end CommandLine

end EndpointTrace
