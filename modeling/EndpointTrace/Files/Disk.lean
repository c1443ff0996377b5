import EndpointTrace.Failure
import EndpointTrace.Source.FilePath

/-!
# Files on disk

What a disk holds: files with their bytes, and directories.  Paths are followed piece
by piece, from the root or from the working directory.
-/

namespace EndpointTrace

inductive DiskNode where
  | file (bytes : List UInt8)
  | directory (entries : List (String × DiskNode))
  deriving Repr, Inhabited

structure Disk where
  /-- The names that lead from the root to the working directory. -/
  home : List String
  entries : List (String × DiskNode)

namespace DiskNode

def isDirectory : DiskNode → Bool
  | directory _ => true
  | file _ => false

def at? : List String → DiskNode → Option DiskNode
  | [], node => some node
  | name :: names, directory entries => entries.lookup name >>= at? names
  | _ :: _, file _ => none

end DiskNode

namespace Disk

def root (disk : Disk) : DiskNode :=
  .directory disk.entries

def homePath (disk : Disk) : FilePath :=
  ⟨"/" ++ "/".intercalate disk.home⟩

/-!
## Following paths
-/

def pieces (path : FilePath) : List String :=
  (path.text.toList.splitOn '/').map String.ofList

def isIdle (piece : String) : Bool :=
  piece = "" || piece = "."

def origin (disk : Disk) (path : FilePath) : List String :=
  if path.isAbsolute then [] else disk.home

/-- The names and the node that pieces lead to, from the node with the names so far.
Above the root is the root. -/
def follow (disk : Disk) (names : List String) (node : DiskNode) :
    List String → Except FileProblem (List String × DiskNode)
  | [] => .ok (names, node)
  | piece :: rest =>
      match node with
      | .file _ => .error .notADirectory
      | .directory entries =>
          if isIdle piece then
            disk.follow names node rest
          else if piece = ".." then
            match disk.root.at? names.dropLast with
            | some parent => disk.follow names.dropLast parent rest
            | none => .error .notFound
          else
            match entries.lookup piece with
            | some child => disk.follow (names ++ [piece]) child rest
            | none => .error .notFound

def followFrom (disk : Disk) (path : FilePath) (pieces : List String) :
    Except FileProblem (List String × DiskNode) :=
  match disk.root.at? (disk.origin path) with
  | some node => disk.follow (disk.origin path) node pieces
  | none => .error .notFound

def resolve (disk : Disk) (path : FilePath) :
    Except FileProblem (List String × DiskNode) :=
  if path.isEmpty then .error .notFound
  else disk.followFrom path (pieces path)

def lookup (disk : Disk) (path : FilePath) : Except FileProblem DiskNode :=
  (disk.resolve path).map Prod.snd

def existsAt (disk : Disk) (path : FilePath) : Bool :=
  match disk.lookup path with
  | .ok _ => true
  | .error _ => false

def isDirectoryAt (disk : Disk) (path : FilePath) : Bool :=
  match disk.lookup path with
  | .ok node => node.isDirectory
  | .error _ => false

def bytesAt (disk : Disk) (path : FilePath) : Except FileProblem (List UInt8) :=
  match disk.lookup path with
  | .ok (.file bytes) => .ok bytes
  | .ok (.directory _) => .error .isADirectory
  | .error problem => .error problem

/-- The name of what a path leads to, by its place and not by the path. -/
def nameAt? (disk : Disk) (path : FilePath) : Option String :=
  match disk.resolve path with
  | .ok (names, _) => names.getLast?
  | .error _ => none

/-!
## Changing the disk
-/

def setEntry (name : String) (node : Option DiskNode) (entries : List (String × DiskNode)) :
    List (String × DiskNode) :=
  match node with
  | none => entries.filter (·.1 ≠ name)
  | some node =>
      if (entries.lookup name).isSome then
        entries.map fun entry => if entry.1 = name then (name, node) else entry
      else
        entries ++ [(name, node)]

def setAt (node : Option DiskNode) :
    List String → List (String × DiskNode) → List (String × DiskNode)
  | [], entries => entries
  | [name], entries => setEntry name node entries
  | name :: names, entries =>
      match entries.lookup name with
      | some (.directory inner) =>
          setEntry name (some (.directory (setAt node names inner))) entries
      | _ => entries

def set (disk : Disk) (names : List String) (node : Option DiskNode) : Disk :=
  { disk with entries := setAt node names disk.entries }

/-- The disk with a file at a path, whose directory must exist.  A path that ends like
that of a directory is no place for a file. -/
def write (disk : Disk) (path : FilePath) (bytes : List UInt8) : Except FileProblem Disk :=
  let pieces := pieces path
  let named := (pieces.reverse.dropWhile (· = "")).reverse
  match named.getLast?, disk.followFrom path named.dropLast with
  | none, _ => .error (if path.isEmpty then .notFound else .isADirectory)
  | some _, .error problem => .error problem
  | some _, .ok (_, .file _) => .error .notADirectory
  | some name, .ok (names, .directory entries) =>
      if isIdle name || name = ".." || named.length < pieces.length then
        .error .isADirectory
      else
        match entries.lookup name with
        | some (.directory _) => .error .isADirectory
        | _ => .ok (disk.set (names ++ [name]) (some (.file bytes)))

def remove (disk : Disk) (path : FilePath) : Disk :=
  match disk.resolve path with
  | .ok (names, _) => disk.set names none
  | .error _ => disk

/-- The disk with all directories on the way of pieces.  A directory that has just been
made cannot be named a second time by a `.` at the end. -/
def makeAll (disk : Disk) (names : List String) : List String → Except FileProblem Disk
  | [] => .ok disk
  | piece :: rest =>
      if isIdle piece then disk.makeAll names rest
      else if piece = ".." then disk.makeAll names.dropLast rest
      else
        match disk.root.at? (names ++ [piece]) with
        | some (.directory _) => disk.makeAll (names ++ [piece]) rest
        | some (.file _) =>
            .error (if rest.all (· = "") then .alreadyExists else .notADirectory)
        | none =>
            if rest.all isIdle && rest.contains "." then
              .error .notFound
            else
              (disk.set (names ++ [piece]) (some (.directory []))).makeAll
                (names ++ [piece]) rest

def makeDirectories (disk : Disk) (path : FilePath) : Except FileProblem Disk :=
  disk.makeAll (disk.origin path) (pieces path)

def mount (disk : Disk) (path : FilePath) (node : DiskNode) : Except FileProblem Disk := do
  let disk ← if disk.existsAt path then pure disk else disk.makeDirectories path
  let (names, _) ← disk.resolve path
  pure (disk.set names (some node))

/-!
## Comparing disks
-/

mutual

def filesOf : DiskNode → List (List String × List UInt8)
  | .file bytes => [([], bytes)]
  | .directory entries => filesOfEntries entries

def filesOfEntries : List (String × DiskNode) → List (List String × List UInt8)
  | [] => []
  | (name, node) :: rest =>
      (filesOf node).map (fun file => (name :: file.1, file.2)) ++ filesOfEntries rest

end

def changesSince (before after : Disk) : List (List String × List UInt8) :=
  (filesOf after.root).filter fun file =>
    match before.root.at? file.1 with
    | some (.file bytes) => bytes != file.2
    | _ => true

end Disk

end EndpointTrace
