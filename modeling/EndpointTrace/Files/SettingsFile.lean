import EndpointTrace.Files.SourceReader
import EndpointTrace.Settings.Stored
import EndpointTrace.Text.Utf8

/-!
# Settings on disk

Settings are in a file of the working directory, or nowhere, and then the defaults
hold.  They also say where the source files are.
-/

namespace EndpointTrace

namespace Settings

def fileName : FilePath := ⟨"Routetrace.toml"⟩

def fileNames : List FilePath :=
  [fileName, ⟨"routetrace.toml"⟩, ⟨".routetrace.toml"⟩]

def sourceRoot (settings : Settings) (named : Option FilePath) : FilePath :=
  named.getD settings.project.sourceDirectory

end Settings

namespace Disk

def loadSettings (disk : Disk) (path : FilePath) : Except Failure Settings :=
  match disk.bytesAt path with
  | .error problem => .error (.file problem)
  | .ok bytes =>
      match Text.Utf8.decode? bytes with
      | some text => Settings.parse text
      | none => .error (.file .invalidUtf8)

/-- The path of the settings file, if there is one: where it has been said to be, or
under one of the usual names. -/
def settingsFile? (disk : Disk) : Option FilePath → Option FilePath
  | some path => if disk.existsAt path then some path else none
  | none => Settings.fileNames.find? disk.existsAt

def settings (disk : Disk) (path : Option FilePath) : Except Failure Settings :=
  match disk.settingsFile? path with
  | some path => disk.loadSettings path
  | none => .ok .defaults

def saveSettings (disk : Disk) (settings : Settings) (path : FilePath) :
    Except Failure Disk :=
  (disk.write path (Text.Utf8.encode settings.render.toList)).mapError Failure.file

def codebase (disk : Disk) (settings : Settings) (source : Option FilePath) :
    Except Failure Codebase :=
  let root := settings.sourceRoot source
  if disk.isDirectoryAt root then
    .ok ((SourceReader.new root settings.discovery.maxFileSize).codebase disk
      settings.project.includeGlob)
  else
    .error (.missingSource root.text)

end Disk

end EndpointTrace
