import EndpointTrace.CommandLine.Session

/-!
# The program

The real disk is looked at only where the command needs it, the session is run on what
has been seen, and the files that it changed are written back.
-/

namespace EndpointTrace
namespace Program

def located (path : String) := do
  let here ← IO.currentDir
  return here / path

def wayTo (path : FilePath) : List FilePath :=
  let pieces := Disk.pieces path
  (List.range pieces.length).map fun n => ⟨"/".intercalate (pieces.take (n + 1))⟩

def unlessRefused (disk : Disk) (changed : Except FileProblem Disk) : Disk :=
  match changed with
  | .ok changed => changed
  | .error _ => disk

/-- The disk with what is really at a path.  What a directory holds stays unknown. -/
def reveal (disk : Disk) (path : FilePath) : IO Disk := do
  let place ← located path.text
  if path.isEmpty || !(← place.pathExists) then
    return disk
  else if ← place.isDir then
    return unlessRefused disk (disk.makeDirectories path)
  else
    let bytes ← IO.FS.readBinFile place
    return unlessRefused disk (disk.mount path (.file bytes.toList))

def revealAll (disk : Disk) (paths : List FilePath) : IO Disk :=
  paths.foldlM reveal disk

def ruleFiles : List String := [".ignore", ".gitignore", "exclude"]

/-- All that is really below a path that ends in a slash if links are to be followed
there.  Of the files only those with rules are read. -/
partial def survey (path : String) : IO (Option DiskNode) := do
  let place ← located path
  match (← place.symlinkMetadata).type with
  | .dir =>
      let entries ← (← place.readDir).toList.filterMapM fun entry => do
        return (← survey entry.path.toString).map fun node => (entry.fileName, node)
      return some (.directory entries)
  | .file =>
      if ruleFiles.any fun name => path.endsWith ("/" ++ name) then
        return some (.file (← IO.FS.readBinFile place).toList)
      else
        return some (.file [])
  | _ => return none

/-- The disk with the source files that settings select, and with the rules of the
directories around them. -/
def revealSources (disk : Disk) (settings : Settings) (root : FilePath) : IO Disk := do
  let rulePaths := [".ignore", ".gitignore", ".git", ".git/info/exclude"]
  let around := (wayTo (disk.homePath.join root)).flatMap fun directory =>
    directory :: rulePaths.map fun name => directory.join ⟨name⟩
  let disk ← revealAll disk around
  if !(← (← located root.text).isDir) then
    return disk
  match ← survey (root.text ++ "/") with
  | none => return disk
  | some node =>
      let disk := unlessRefused disk (disk.mount root node)
      match disk.list root settings.project.includeGlob with
      | .ok files => revealAll disk files
      | .error _ => return disk

def revealFor (line : CommandLine) : IO Disk := do
  let home := (Disk.pieces ⟨(← IO.currentDir).toString⟩).filter (!Disk.isIdle ·)
  let unknown : Disk := ⟨home, []⟩
  let settingsFiles := line.settingsFile.elim Settings.fileNames fun path => [path]
  let disk ← revealAll (unlessRefused unknown (unknown.makeDirectories unknown.homePath))
    (settingsFiles.flatMap wayTo)
  match line.command with
  | .create directory _ =>
      revealAll disk (wayTo ((directory.getD disk.homePath).join Settings.fileName))
  | .list source _ | .draw _ source =>
      match disk.settings line.settingsFile with
      | .ok settings => revealSources disk settings (settings.sourceRoot source)
      | .error _ => return disk

def writeBack (before after : Disk) : IO Unit := do
  for (names, bytes) in Disk.changesSince before after do
    let parent ← located ("/" ++ "/".intercalate names.dropLast)
    IO.FS.createDirAll parent
    IO.FS.writeBinFile (parent / names.getLastD "") ⟨bytes.toArray⟩

def usage : String :=
  "Usage: routetrace [-c FILE] [-v] init [-p DIRECTORY] [--force]\n"
    ++ "       routetrace [-c FILE] [-v] endpoints [-s DIRECTORY] [--json]\n"
    ++ "       routetrace [-c FILE] [-v] diagram REQUEST... [-s DIRECTORY]\n"

def version : String := "routetrace 0.1.0\n"

def explain (problem : UsageError) : IO UInt32 := do
  match problem with
  | .helpWanted =>
      IO.print usage
      return 0
  | .versionWanted =>
      IO.print version
      return 0
  | _ =>
      IO.eprint usage
      return 2

def perform (line : CommandLine) : IO UInt32 := do
  let disk ← revealFor line
  let surroundings :=
    { Surroundings.isolated with environmentKey := ← IO.getEnv Failure.apiKeyVariable }
  let session := Session.run disk surroundings line
  session.log.forM IO.eprintln
  IO.print session.output
  writeBack disk session.disk
  match session.outcome with
  | .ok () => return 0
  | .error failure =>
      IO.eprintln ("Error: " ++ failure.message)
      return 1

end Program
end EndpointTrace

def main (arguments : List String) : IO UInt32 :=
  match EndpointTrace.CommandLine.parse arguments with
  | .ok line => EndpointTrace.Program.perform line
  | .error problem => EndpointTrace.Program.explain problem
