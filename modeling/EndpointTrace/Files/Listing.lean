import EndpointTrace.Files.Disk
import EndpointTrace.Files.Selection
import EndpointTrace.Text.Utf8

/-!
# Listing files

A listing goes through a directory and all below it.  A selection decides first.  Where it
says nothing, the ignore files of the directories on the way do: of these the innermost
one with an opinion, and those of the version control only inside a repository.  A
directory that is ignored is not entered.
-/

namespace EndpointTrace

structure DirectoryRules where
  ignore : List PatternRule
  versionIgnore : List PatternRule
  versionExclude : List PatternRule
  isRepository : Bool

namespace DirectoryRules

def lineFeed : UInt8 := 10

def linesOf (bytes : List UInt8) : List (List Char) :=
  ((bytes.splitOn lineFeed).map Text.Utf8.decode?).takeWhile Option.isSome
    |>.filterMap id

/-- The rules of a file; a malformed line is left out, and so is a byte order mark. -/
def rulesOf (bytes : List UInt8) : List PatternRule :=
  let lines :=
    match linesOf bytes with
    | [] => []
    | first :: rest => first.dropWhile (· = Char.ofNat 0xFEFF) :: rest
  lines.filterMap fun line => (PatternRule.ofLine? true line).join

def rulesAt (names : List String) (directory : DiskNode) : List PatternRule :=
  match directory.at? names with
  | some (.file bytes) => rulesOf bytes
  | _ => []

def ofDirectory (directory : DiskNode) : DirectoryRules where
  ignore := rulesAt [".ignore"] directory
  versionIgnore := rulesAt [".gitignore"] directory
  versionExclude := rulesAt [".git", "info", "exclude"] directory
  isRepository := (directory.at? [".git"]).isSome

end DirectoryRules

namespace Listing

/-- A place in a listing: the rules of the directories around it and the names that lead
to it from the outermost of them, both with the innermost first. -/
structure Place where
  rules : List DirectoryRules
  names : List String

namespace Place

def views (place : Place) : List (DirectoryRules × List String) :=
  place.rules.zipIdx.map fun (rules, index) =>
    (rules, (place.names.take (index + 1)).reverse)

def withinRepository :
    List (DirectoryRules × List String) → List (DirectoryRules × List String)
  | [] => []
  | view :: rest => if view.1.isRepository then [view] else view :: withinRepository rest

def opinion (kind : DirectoryRules → List PatternRule) (isDirectory : Bool)
    (views : List (DirectoryRules × List String)) : Option Verdict :=
  views.findSome? fun (rules, names) => Verdict.ofRules (kind rules) names isDirectory

def verdict (place : Place) (isDirectory : Bool) : Option Verdict :=
  let views := place.views
  let versioned := if views.any (·.1.isRepository) then withinRepository views else []
  opinion DirectoryRules.ignore isDirectory views
    <|> opinion DirectoryRules.versionIgnore isDirectory versioned
    <|> opinion DirectoryRules.versionExclude isDirectory versioned

end Place

/-- Whether a place is left out of a listing that started `depth` names above it. -/
def leavesOut (selection : Selection) (depth : Nat) (place : Place) (isDirectory : Bool) :
    Bool :=
  let verdict :=
    selection.verdict (place.names.take depth).reverse isDirectory
      <|> place.verdict isDirectory
  verdict = some .ignored

mutual

def filesAt (selection : Selection) (depth : Nat) (place : Place) :
    DiskNode → List (List String)
  | .file _ =>
      if leavesOut selection depth place false then []
      else [(place.names.take depth).reverse]
  | .directory entries =>
      if leavesOut selection depth place true then []
      else
        filesIn selection depth
          ⟨DirectoryRules.ofDirectory (.directory entries) :: place.rules, place.names⟩
          entries

def filesIn (selection : Selection) (depth : Nat) (place : Place) :
    List (String × DiskNode) → List (List String)
  | [] => []
  | (name, node) :: rest =>
      filesAt selection (depth + 1) ⟨place.rules, name :: place.names⟩ node
        ++ filesIn selection depth place rest

end

def rulesAlong (node : DiskNode) : List String → List DirectoryRules
  | [] => [DirectoryRules.ofDirectory node]
  | name :: names =>
      match node.at? [name] with
      | some child => rulesAlong child names ++ [DirectoryRules.ofDirectory node]
      | none => [DirectoryRules.ofDirectory node]

end Listing

namespace Disk

/-- The files below a directory that a glob selects, as paths that start like that of the
directory and in the order of paths.  A file in the place of the directory is listed. -/
def list (disk : Disk) (directory : FilePath) (glob : String) :
    Except Failure (List FilePath) :=
  match Selection.ofGlob? glob with
  | none => .error (.invalidGlob glob)
  | some selection =>
      match disk.resolve directory with
      | .error _ => .error (.unwalkableRoot directory.text)
      | .ok (_, .file _) => .ok [directory]
      | .ok (names, .directory entries) =>
          let place : Listing.Place := ⟨Listing.rulesAlong disk.root names, names.reverse⟩
          let found := Listing.filesIn selection 0 place entries
          .ok <| (found.map fun names => directory.join ⟨"/".intercalate names⟩).mergeSort
            fun a b => (a.order b).isLE

end Disk

end EndpointTrace
