import EndpointTrace.Source.Symbol

/-!
# Syntax trees

What a Java source declares and what it invokes.  A tree keeps type declarations,
callables, fields and method invocations; every other construct is kept only for
what is nested in it.
-/

namespace EndpointTrace
namespace Java

structure Name where
  text : String
  range : Range
  deriving Repr, Inhabited

inductive TypeKind where
  | classType
  | interfaceType
  | enumType
  | recordType
  deriving DecidableEq, Repr

namespace TypeKind

def symbolKind : TypeKind → SymbolKind
  | classType => .classType
  | interfaceType => .interfaceType
  | enumType => .enumType
  | recordType => .recordType

end TypeKind

inductive CallableKind where
  | method
  | constructor
  deriving DecidableEq, Repr

namespace CallableKind

def symbolKind : CallableKind → SymbolKind
  | method => .method
  | constructor => .constructor

end CallableKind

/-- A node of the tree, with the nodes inside it in source order.

A declaration whose name is missing from the source has none here either, and one without
a body has an empty one.  An invocation has the text of the object it is made on, if there
is one.  The members of an enum type that follow its constants form a node of their own. -/
inductive Node where
  | typeDecl (kind : TypeKind) (range : Range) (name : Option Name) (body : List Node)
  | callable (kind : CallableKind) (range : Range) (name : Option Name) (body : List Node)
  | field (range : Range) (typeText : String) (names : List Name) (values : List Node)
  | enumMembers (members : List Node)
  | invocation (range : Range) (object : Option String) (name : String)
      (children : List Node)
  | other (children : List Node)
  deriving Repr

end Java
end EndpointTrace
