import EndpointTrace.CallGraph.Oracle
import EndpointTrace.Java.Callable
import EndpointTrace.Text.Casing
import Std.Data.HashMap

/-!
# Call indexes

An index of callables that is filled file by file.  An invocation resolves by name,
narrowed by its receiver: the own type of the caller, the declared type of a field, or
the type that the receiver names.  An invocation that resolves to nothing in the index
is dropped.
-/

namespace EndpointTrace

open Java (Callable FieldType Invocation Receiver)

structure CallIndex where
  callables : Array Callable
  byIdentity : Std.HashMap Identity.Key Nat
  byName : Std.HashMap String (Array Nat)
  fieldTypes : Std.HashMap (String × String) String

namespace CallIndex

def empty : CallIndex := ⟨.empty, .emptyWithCapacity, .emptyWithCapacity, .emptyWithCapacity⟩

def size (index : CallIndex) : Nat :=
  index.callables.size

def push (index : CallIndex) (callable : Callable) : CallIndex :=
  { index with
    callables := index.callables.push callable
    byIdentity := index.byIdentity.insert callable.identity.key index.size
    byName := index.byName.alter callable.identity.name fun known =>
      some ((known.getD .empty).push index.size) }

def declareField (index : CallIndex) (field : FieldType) : CallIndex :=
  { index with
    fieldTypes := index.fieldTypes.insert (field.owner, field.field) field.declared }

def addTree (index : CallIndex) (file : FilePath) (tree : List Java.Node) : CallIndex :=
  let filled := (Java.callablesIn file tree).foldl push index
  (Java.fieldTypesIn tree).foldl declareField filled

def absorb (index other : CallIndex) : CallIndex :=
  let filled := other.callables.foldl push index
  { filled with fieldTypes := filled.fieldTypes.insertMany other.fieldTypes }

def named (index : CallIndex) (name : String) : List Callable :=
  ((index.byName[name]?).getD .empty).toList.filterMap (index.callables[·]?)

/-!
## Resolution
-/

/-- A type a call may land in; a declared field type also admits a type that is named
after it. -/
structure Expectation where
  type : String
  declared : Bool
  deriving DecidableEq, Repr

namespace Expectation

def admits (expected : Expectation) (callable : Callable) : Bool :=
  callable.identity.context == expected.type

def admitsDerived (expected : Expectation) (callable : Callable) : Bool :=
  expected.declared
    && expected.type.toList.isPrefixOf callable.identity.context.toList

/-- The first candidate in the type itself, else the first in a type named after it. -/
def choose? (expected : Expectation) (candidates : List Callable) : Option Callable :=
  (candidates.find? expected.admits).or (candidates.find? expected.admitsDerived)

end Expectation

/-- The type that a receiver names if it is not a field: itself, or its capital form. -/
def typeNamed (receiver : String) : String :=
  if receiver.toList.head?.any fun c => 'A' ≤ c && c ≤ 'Z' then receiver
  else String.ofList (Text.capitalize receiver.toList)

def expectations (index : CallIndex) (owner : String) : Receiver → List Expectation
  | .implicit | .this => [⟨owner, false⟩]
  | .named name =>
      let declared := index.fieldTypes[(owner, name)]?
      (declared.map (⟨·, true⟩)).toList ++ [⟨typeNamed name, false⟩]
  | .unnamed => []

/-- The callable an invocation lands in.  A call without receiver to the only callable
of its name lands there, wherever it is declared. -/
def resolve? (index : CallIndex) (owner : String) (invocation : Invocation) :
    Option Callable :=
  let candidates := index.named invocation.name
  let expected := (index.expectations owner invocation.receiver).findSome? fun expected =>
    expected.choose? candidates
  match expected, invocation.receiver, candidates with
  | some callable, _, _ => some callable
  | none, .implicit, [callable] => some callable
  | none, _, _ => none

def addSite (calls : List OutgoingCall) (callee : Identity) (site : Range) :
    List OutgoingCall :=
  match calls with
  | [] => [⟨callee, [site]⟩]
  | call :: rest =>
      if call.callee.same callee then ⟨call.callee, call.sites ++ [site]⟩ :: rest
      else call :: addSite rest callee site

/-!
## Questions
-/

/-- The callable at a position: one whose name is there, else the innermost one around
it. -/
def at? (index : CallIndex) (file : FilePath) (position : Position) : Option Callable :=
  let inFile := index.callables.toList.filter fun callable =>
    callable.identity.location.file.same file
  let around := inFile.filter fun callable => callable.fullRange.contains position
  (inFile.find? fun callable => callable.selectionRange.contains position).or
    (around.find? fun callable =>
      around.all fun other => callable.fullRange.lineSpan ≤ other.fullRange.lineSpan)

/-- The calls in the body of a callable, grouped by callee in the order of first call. -/
def callsOf (index : CallIndex) (caller : Callable) : List OutgoingCall :=
  caller.invocations.foldl
    (fun calls invocation =>
      match index.resolve? caller.identity.context invocation with
      | some callee => addSite calls callee.identity invocation.range
      | none => calls)
    []

def prepare (index : CallIndex) (file : FilePath) (position : Position) : List Identity :=
  ((index.at? file position).map Callable.identity).toList

def outgoing (index : CallIndex) (identity : Identity) :
    Except Failure (List OutgoingCall) :=
  match (index.byIdentity[identity.key]?).bind (index.callables[·]?) with
  | some caller => .ok (index.callsOf caller)
  | none =>
      .error (.collaborator "outgoing_calls"
        ("unknown callable " ++ identity.name ++ " at " ++ identity.location.toText))

def oracle (index : CallIndex) : Oracle Unit :=
  .fixed (fun file position => .immediate (.ok (index.prepare file position)))
    fun identity => .immediate (index.outgoing identity)

end CallIndex

end EndpointTrace
