import EndpointTrace.CallGraph.Tree
import EndpointTrace.Diagram.Participant
import EndpointTrace.Route.Endpoint

/-!
# Sequence diagrams

The diagram of a call tree: its participants in the order in which they appear, one
message for every call in depth-first order, and, for an endpoint, the request that
starts it all and the response that ends it.
-/

namespace EndpointTrace
namespace Diagram

structure Request where
  method : Method
  path : String
  handler : String
  deriving DecidableEq, Repr

namespace Request

def ofEndpoint (endpoint : Endpoint) : Request :=
  ⟨endpoint.method, endpoint.path, endpoint.handler⟩

end Request

structure Message where
  source : String
  target : String
  label : String
  deriving DecidableEq, Repr

def participantOf (tree : CallTree) (id : Nat) : String :=
  ((tree.node? id).map fun node => participant node.identity).getD ""

def messageTo? (tree : CallTree) (id : Nat) : Option Message := do
  let node ← tree.node? id
  let parent ← node.parent
  pure ⟨participantOf tree parent, participant node.identity, label node.identity.name⟩

/-- Messages to the pending nodes and to all below them, the next one first; the children
of a node are pending before the others. -/
def messagesTo (tree : CallTree) (pending : List Nat) : List Message :=
  match pending with
  | [] => []
  | id :: rest =>
      (messageTo? tree id).toList
        ++ messagesTo tree ((tree.children id).filter (id < ·) ++ rest)
termination_by ((pending.flatMap tree.preorder).length, pending.length)
decreasing_by
  simp only [List.flatMap_cons, List.flatMap_append, List.length_append, List.length_cons,
    tree.preorder_eq id]
  by_cases hinside : id < tree.size
  · apply Prod.Lex.left
    rw [if_pos hinside, List.length_cons]
    omega
  · have hchildren : tree.children id = [] := by
      rw [CallTree.children, CallTree.node?, Array.getElem?_eq_none (Nat.not_lt.mp hinside)]
      rfl
    simp only [if_neg hinside, hchildren, List.filter_nil, List.flatMap_nil, List.length_nil,
      Nat.zero_add]
    exact Prod.Lex.right _ (Nat.lt_succ_self _)

/-- One message for every node but the root, depth first. -/
def messages (tree : CallTree) : List Message :=
  messagesTo tree [0]

def participants (tree : CallTree) (request : Option Request) : List String :=
  let named := participantOf tree 0 ::
    (messages tree).flatMap fun message => [message.source, message.target]
  (if request.isSome then String.ofList client :: named else named).eraseDups

def indent (line : String) : String :=
  "    " ++ line

def arrow (source target label : String) : String :=
  indent (source ++ "->>" ++ target ++ ": " ++ label)

def openingLines (root : String) : Option Request → List String
  | none => []
  | some request =>
      [arrow (String.ofList client) root (request.method.name ++ " " ++ label request.path),
        indent ("Note over " ++ root ++ ": " ++ label request.handler ++ "()")]

/-- The last line: the response to a request, or a word in place of missing calls. -/
def closingLines (root : String) (calls : List Message) : Option Request → List String
  | some _ => [indent (root ++ "-->>" ++ String.ofList client ++ ": response")]
  | none => if calls.isEmpty then [arrow root root "No outgoing calls found"] else []

def lines (tree : CallTree) (request : Option Request) : List String :=
  let root := participantOf tree 0
  let calls := messages tree
  "sequenceDiagram" ::
    (participants tree request).map (fun id => indent ("participant " ++ id))
    ++ openingLines root request
    ++ calls.map (fun call => arrow call.source call.target call.label)
    ++ closingLines root calls request

def render (tree : CallTree) (request : Option Request) : String :=
  "\n".intercalate (lines tree request)

end Diagram
end EndpointTrace
