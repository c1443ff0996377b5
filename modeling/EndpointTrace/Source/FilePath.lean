/-!
# File paths

A path keeps the text it was written with and is compared by its components.
Repeated and trailing separators do not count, and neither does a `.` except at
the very start of a relative path; `..` is a component like any other.
-/

namespace EndpointTrace

/-- One component; the order of kinds is the order in which paths sort. -/
inductive PathComponent where
  | root
  | current
  | parent
  | name (text : String)
  deriving DecidableEq, Hashable, Repr

namespace PathComponent

def sortKey : PathComponent → Nat × String
  | root => (0, "")
  | current => (1, "")
  | parent => (2, "")
  | name text => (3, text)

theorem sortKey_injective {a b : PathComponent} (same : a.sortKey = b.sortKey) : a = b := by
  cases a <;> cases b <;> simp_all [sortKey]

def order : PathComponent → PathComponent → Ordering :=
  fun a b => (compareLex (compareOn Prod.fst) (compareOn Prod.snd)) a.sortKey b.sortKey

def ofPiece : List Char → PathComponent
  | ['.', '.'] => parent
  | piece => name (String.ofList piece)

end PathComponent

structure FilePath where
  text : String
  deriving DecidableEq, Repr, Inhabited

namespace FilePath

private def pieces (cs : List Char) : List (List Char) :=
  (cs.splitOn '/').filter fun piece => !piece.isEmpty && piece != ['.']

def componentsOf (cs : List Char) : List PathComponent :=
  let named := (pieces cs).map PathComponent.ofPiece
  match cs with
  | '/' :: _ => .root :: named
  | ['.'] => .current :: named
  | '.' :: '/' :: _ => .current :: named
  | _ => named

def components (path : FilePath) : List PathComponent :=
  componentsOf path.text.toList

def same (a b : FilePath) : Bool :=
  a.components == b.components

theorem same_iff {a b : FilePath} : a.same b = true ↔ a.components = b.components := by
  simp [same]

/-- Order of the component lists; a shorter list that begins a longer one comes first. -/
def order (a b : FilePath) : Ordering :=
  List.compareLex PathComponent.order a.components b.components

def isEmpty (path : FilePath) : Bool :=
  path.text.isEmpty

def isAbsolute (path : FilePath) : Bool :=
  path.text.startsWith "/"

/-- A path relative to a directory; an absolute path stands for itself. -/
def join (directory path : FilePath) : FilePath :=
  if path.isAbsolute || directory.isEmpty then
    path
  else if directory.text.endsWith "/" then
    ⟨directory.text ++ path.text⟩
  else
    ⟨directory.text ++ "/" ++ path.text⟩

end FilePath

end EndpointTrace
