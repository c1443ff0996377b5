import EndpointTrace.Java.Callable
import Mathlib.Data.List.Basic

/-!
# Bodies of callables

The nodes of a tree in pre-order are each node before those inside it.  What is indexed for
a source is declared by nodes of its tree, and the invocations of a callable are those among
the nodes of its body, in pre-order.
-/

namespace EndpointTrace
namespace Java

mutual

def Node.preorder : Node → List Node
  | .typeDecl kind range name body => .typeDecl kind range name body :: preorderIn body
  | .callable kind range name body => .callable kind range name body :: preorderIn body
  | .field range typeText names values => .field range typeText names values :: preorderIn values
  | .enumMembers members => .enumMembers members :: preorderIn members
  | .invocation range object name children =>
      .invocation range object name children :: preorderIn children
  | .other children => .other children :: preorderIn children

def preorderIn : List Node → List Node
  | [] => []
  | node :: rest => node.preorder ++ preorderIn rest

end

def Node.invocation? : Node → Option Invocation
  | .invocation range object name _ => some ⟨name, .ofObject? object, range⟩
  | _ => none

mutual

theorem invocationsOf_eq : (node : Node) →
    invocationsOf node = node.preorder.filterMap Node.invocation?
  | .typeDecl _ _ _ body => invocationsIn_eq body
  | .callable _ _ _ body => invocationsIn_eq body
  | .field _ _ _ values => invocationsIn_eq values
  | .enumMembers members => invocationsIn_eq members
  | .invocation _ _ _ children => by
      rw [invocationsOf, Node.preorder, List.filterMap_cons, Node.invocation?,
        invocationsIn_eq children]
  | .other children => invocationsIn_eq children

theorem invocationsIn_eq : (nodes : List Node) →
    invocationsIn nodes = (preorderIn nodes).filterMap Node.invocation?
  | [] => rfl
  | node :: rest => by
      rw [invocationsIn, preorderIn, List.filterMap_append, invocationsOf_eq node,
        invocationsIn_eq rest]

end

/-- One of the nodes declares the callable in a file, with the nodes of its body. -/
def Declares (file : FilePath) (nodes : List Node) (callable : Callable) (body : List Node) :
    Prop :=
  ∃ kind range name owner, .callable kind range (some name) body ∈ nodes ∧
    callable = callableOf file owner range name body

theorem exists_body_mono {file : FilePath} {nodes more : List Node} {callable : Callable}
    (hdeclared : ∃ body, Declares file nodes callable body) (hsubset : nodes ⊆ more) :
    ∃ body, Declares file more callable body := by
  rcases hdeclared with ⟨body, kind, range, name, owner, hmem, hcallable⟩
  exact ⟨body, kind, range, name, owner, hsubset hmem, hcallable⟩

section

variable (file : FilePath)

mutual

theorem exists_body_of {callable : Callable} : (node : Node) →
    callable ∈ callablesOf file node → ∃ body, Declares file node.preorder callable body
  | .typeDecl _ _ none _, hmem => by cases hmem
  | .typeDecl _ _ (some name) body, hmem =>
      exists_body_mono (exists_member_in name.text body hmem) (List.subset_cons_self _ _)
  | .callable _ _ _ body, hmem =>
      exists_body_mono (exists_body_in body hmem) (List.subset_cons_self _ _)
  | .field _ _ _ values, hmem =>
      exists_body_mono (exists_body_in values hmem) (List.subset_cons_self _ _)
  | .enumMembers members, hmem =>
      exists_body_mono (exists_body_in members hmem) (List.subset_cons_self _ _)
  | .invocation _ _ _ children, hmem =>
      exists_body_mono (exists_body_in children hmem) (List.subset_cons_self _ _)
  | .other children, hmem =>
      exists_body_mono (exists_body_in children hmem) (List.subset_cons_self _ _)

theorem exists_body_in {callable : Callable} : (nodes : List Node) →
    callable ∈ callablesIn file nodes → ∃ body, Declares file (preorderIn nodes) callable body
  | [], hmem => by cases hmem
  | node :: rest, hmem => by
      rcases List.mem_append.mp hmem with hfirst | hlater
      · exact exists_body_mono (exists_body_of node hfirst) (List.subset_append_left _ _)
      · exact exists_body_mono (exists_body_in rest hlater) (List.subset_append_right _ _)

theorem exists_member_of (owner : String) {callable : Callable} : (node : Node) →
    callable ∈ memberCallablesOf file owner node →
      ∃ body, Declares file node.preorder callable body
  | .typeDecl _ _ none _, hmem => by cases hmem
  | .typeDecl _ _ (some name) body, hmem =>
      exists_body_mono (exists_member_in name.text body hmem) (List.subset_cons_self _ _)
  | .callable _ _ none _, hmem => by cases hmem
  | .callable kind range (some name) body, hmem =>
      ⟨body, kind, range, name, owner, List.mem_cons_self, List.mem_singleton.mp hmem⟩
  | .field .., hmem => by cases hmem
  | .enumMembers members, hmem =>
      exists_body_mono (exists_member_in owner members hmem) (List.subset_cons_self _ _)
  | .invocation .., hmem => by cases hmem
  | .other _, hmem => by cases hmem

theorem exists_member_in (owner : String) {callable : Callable} : (nodes : List Node) →
    callable ∈ memberCallablesIn file owner nodes →
      ∃ body, Declares file (preorderIn nodes) callable body
  | [], hmem => by cases hmem
  | node :: rest, hmem => by
      rcases List.mem_append.mp hmem with hfirst | hlater
      · exact exists_body_mono (exists_member_of owner node hfirst) (List.subset_append_left _ _)
      · exact exists_body_mono (exists_member_in owner rest hlater) (List.subset_append_right _ _)

end

end

end Java
end EndpointTrace
