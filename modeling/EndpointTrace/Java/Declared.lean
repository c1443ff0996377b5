import EndpointTrace.Java.Tree

/-!
# Declared symbols of a syntax tree

Types are found at the top and inside anything that is not itself a type; what is
inside a type is found as its member.  Members are callables, fields (named after
their first declared name) and nested types; the members of an enum type behind its
constants are members of the type.  A declaration without a name gives no symbol, and
neither does what is inside it.
-/

namespace EndpointTrace
namespace Java

mutual

def typesOf : Node → List Symbol
  | .typeDecl kind range name body =>
      match name with
      | none => []
      | some name => [⟨name.text, kind.symbolKind, range, name.range, membersIn body⟩]
  | .callable _ _ _ body => typesIn body
  | .field _ _ _ values => typesIn values
  | .enumMembers members => typesIn members
  | .invocation _ _ _ children => typesIn children
  | .other children => typesIn children

def typesIn : List Node → List Symbol
  | [] => []
  | node :: rest => typesOf node ++ typesIn rest

def membersOf : Node → List Symbol
  | .typeDecl kind range name body =>
      match name with
      | none => []
      | some name => [⟨name.text, kind.symbolKind, range, name.range, membersIn body⟩]
  | .callable kind range name _ =>
      match name with
      | none => []
      | some name => [⟨name.text, kind.symbolKind, range, name.range, []⟩]
  | .field range _ names _ =>
      match names with
      | [] => []
      | name :: _ => [⟨name.text, .field, range, name.range, []⟩]
  | .enumMembers members => membersIn members
  | .invocation .. => []
  | .other _ => []

def membersIn : List Node → List Symbol
  | [] => []
  | node :: rest => membersOf node ++ membersIn rest

end

def symbols (tree : List Node) : List Symbol :=
  typesIn tree

end Java
end EndpointTrace
