import EndpointTrace.CallGraph.Oracle
import EndpointTrace.Java.Tree
import EndpointTrace.Text.Character
import EndpointTrace.Text.Matches

/-!
# Callables of a syntax tree

Every method and constructor of a type, with the invocations in its body, and the
declared types of the fields beside it.
-/

namespace EndpointTrace
namespace Java

/-- How an invocation names the object it is made on. -/
inductive Receiver where
  | implicit
  | this
  | named (name : String)
  | unnamed
  deriving DecidableEq, Repr

namespace Receiver

def isNameChar (c : Char) : Bool :=
  Text.isAlphanumeric c || c == '_' || c == '$'

/-- The receiver that an object stands for: the own object, a name that may be that of
a field or a type, or some other expression. -/
def ofObject (object : List Char) : Receiver :=
  let object := Text.trim object
  let name := Text.trim ((Text.after? "this.".toList object).getD object)
  if name = "this".toList ∨ name = "super".toList then .this
  else if !name.isEmpty && name.all isNameChar then .named (String.ofList name)
  else .unnamed

def ofObject? : Option String → Receiver
  | none => .implicit
  | some object => ofObject object.toList

end Receiver

structure Invocation where
  name : String
  receiver : Receiver
  range : Range
  deriving Repr

structure Callable where
  identity : Identity
  fullRange : Range
  selectionRange : Range
  invocations : List Invocation
  deriving Repr, Inhabited

structure FieldType where
  owner : String
  field : String
  declared : String
  deriving DecidableEq, Repr

/-- The simple name of a declared type: generic arguments, array brackets and
qualifiers taken off. -/
def baseTypeName (declared : List Char) : List Char :=
  let plain := Text.trim (declared.takeWhile (· != '<'))
  let element := withoutBrackets plain.reverse
  (element.takeWhile (· != '.')).reverse
where
  withoutBrackets : List Char → List Char
    | ']' :: '[' :: rest => withoutBrackets rest
    | cs => cs

mutual

/-- The invocations of a node, an outer one before those in its object and arguments. -/
def invocationsOf : Node → List Invocation
  | .typeDecl _ _ _ body => invocationsIn body
  | .callable _ _ _ body => invocationsIn body
  | .field _ _ _ values => invocationsIn values
  | .enumMembers members => invocationsIn members
  | .invocation range object name children =>
      ⟨name, .ofObject? object, range⟩ :: invocationsIn children
  | .other children => invocationsIn children

def invocationsIn : List Node → List Invocation
  | [] => []
  | node :: rest => invocationsOf node ++ invocationsIn rest

end

def callableOf (file : FilePath) (owner : String) (range : Range) (name : Name)
    (body : List Node) : Callable where
  identity := ⟨name.text, owner, ⟨file, name.range.start⟩⟩
  fullRange := range
  selectionRange := name.range
  invocations := invocationsIn body

mutual

def callablesOf (file : FilePath) : Node → List Callable
  | .typeDecl _ _ name body =>
      match name with
      | none => []
      | some name => memberCallablesIn file name.text body
  | .callable _ _ _ body => callablesIn file body
  | .field _ _ _ values => callablesIn file values
  | .enumMembers members => callablesIn file members
  | .invocation _ _ _ children => callablesIn file children
  | .other children => callablesIn file children

def callablesIn (file : FilePath) : List Node → List Callable
  | [] => []
  | node :: rest => callablesOf file node ++ callablesIn file rest

def memberCallablesOf (file : FilePath) (owner : String) : Node → List Callable
  | .typeDecl _ _ name body =>
      match name with
      | none => []
      | some name => memberCallablesIn file name.text body
  | .callable _ range name body =>
      match name with
      | none => []
      | some name => [callableOf file owner range name body]
  | .field .. => []
  | .enumMembers members => memberCallablesIn file owner members
  | .invocation .. => []
  | .other _ => []

def memberCallablesIn (file : FilePath) (owner : String) : List Node → List Callable
  | [] => []
  | node :: rest => memberCallablesOf file owner node ++ memberCallablesIn file owner rest

end

mutual

def fieldTypesOf : Node → List FieldType
  | .typeDecl _ _ name body =>
      match name with
      | none => []
      | some name => memberFieldTypesIn name.text body
  | .callable _ _ _ body => fieldTypesIn body
  | .field _ _ _ values => fieldTypesIn values
  | .enumMembers members => fieldTypesIn members
  | .invocation _ _ _ children => fieldTypesIn children
  | .other children => fieldTypesIn children

def fieldTypesIn : List Node → List FieldType
  | [] => []
  | node :: rest => fieldTypesOf node ++ fieldTypesIn rest

def memberFieldTypesOf (owner : String) : Node → List FieldType
  | .typeDecl _ _ name body =>
      match name with
      | none => []
      | some name => memberFieldTypesIn name.text body
  | .callable .. => []
  | .field _ typeText names _ =>
      names.map fun name =>
        ⟨owner, name.text, String.ofList (baseTypeName typeText.toList)⟩
  | .enumMembers members => memberFieldTypesIn owner members
  | .invocation .. => []
  | .other _ => []

def memberFieldTypesIn (owner : String) : List Node → List FieldType
  | [] => []
  | node :: rest => memberFieldTypesOf owner node ++ memberFieldTypesIn owner rest

end

end Java
end EndpointTrace
