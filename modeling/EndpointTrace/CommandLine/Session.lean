import EndpointTrace.CommandLine.Basic
import EndpointTrace.Files.SettingsFile
import EndpointTrace.Route.Endpoint
import EndpointTrace.Trace

/-!
# Sessions

What a command line comes to on a disk: whether it succeeds, what is printed and logged,
and the disk as it is afterwards.  The settings are read first, whatever the command.
-/

namespace EndpointTrace

structure Session where
  outcome : Except Failure Unit
  output : String
  log : List String
  disk : Disk

structure Surroundings where
  environmentKey : Option String
  send : ChatService → List Message → Call ReplyStream

namespace Surroundings

def isolated : Surroundings where
  environmentKey := none
  send := fun service _ =>
    .immediate (.error (.collaborator "ask"
      ("request to " ++ service.endpoint ++ " failed: there is no network")))

end Surroundings

namespace Session

def printed (disk : Disk) (output : String) : Session :=
  ⟨.ok (), output, [], disk⟩

def refused (disk : Disk) (failure : Failure) : Session :=
  ⟨.error failure, "", [], disk⟩

/-!
## Commands
-/

def settingsFor (disk : Disk) (directory : FilePath) : Settings :=
  match disk.nameAt? directory with
  | some name =>
      { Settings.defaults with project := { Settings.defaults.project with name := name } }
  | none => .defaults

/-- Settings are written over others only on demand. -/
def create (disk : Disk) (directory : Option FilePath) (overwrite : Bool) : Session :=
  let directory := directory.getD disk.homePath
  let target := directory.join Settings.fileName
  if disk.existsAt target && !overwrite then
    refused disk (.settingsExist target.text)
  else
    match disk.makeDirectories directory with
    | .error problem => refused disk (.directory problem)
    | .ok made =>
        match made.saveSettings (settingsFor made directory) target with
        | .error failure => refused disk failure
        | .ok saved => printed saved ("Created " ++ target.text ++ "\n")

def list (disk : Disk) (tracer : Tracer) (codebase : Codebase) (json : Bool) : Session :=
  let (endpoints, _) := codebase.endpoints tracer.options tracer.guard .start
  printed disk (if json then Endpoint.jsonList endpoints else Endpoint.table endpoints)

/-- What is meant to be read goes to the output, and the rest into the log. -/
def printedNotice : Notice → String
  | .progress _ => ""
  | .markdown text => text ++ "\n"

def loggedNotice? : Notice → Option String
  | .progress text => some text
  | .markdown _ => none

def draw (disk : Disk) (tracer : Tracer) (codebase : Codebase) (request : String) :
    Session :=
  let trace := Trace.run tracer codebase request .start
  let notices := trace.transcript.notices
  let told := String.join (notices.map printedNotice)
  let log := notices.filterMap loggedNotice?
  match trace.ending.diagram with
  | .ok (some diagram) => ⟨.ok (), told ++ diagram ++ "\n", log, disk⟩
  | .ok none => ⟨.ok (), told, log, disk⟩
  | .error failure => ⟨.error failure, told, log, disk⟩

def onCodebase (disk : Disk) (settings : Settings) (source : Option FilePath)
    (command : Codebase → Session) : Session :=
  match disk.codebase settings source with
  | .ok codebase => command codebase
  | .error failure => refused disk failure

def perform (disk : Disk) (surroundings : Surroundings) (settings : Settings) :
    Command → Session
  | .create directory overwrite => create disk directory overwrite
  | .list source json =>
      onCodebase disk settings source fun codebase =>
        list disk (.ofSettings settings surroundings.environmentKey surroundings.send)
          codebase json
  | .draw request source =>
      onCodebase disk settings source fun codebase =>
        draw disk (.ofSettings settings surroundings.environmentKey surroundings.send)
          codebase (" ".intercalate request)

def run (disk : Disk) (surroundings : Surroundings) (line : CommandLine) : Session :=
  match disk.settings line.settingsFile with
  | .error failure => refused disk failure
  | .ok settings => perform disk surroundings settings line.command

end Session

end EndpointTrace
