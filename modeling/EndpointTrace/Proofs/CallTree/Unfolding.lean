import EndpointTrace.Proofs.CallTree.Budget

/-!
# Unfolding a call graph

The call tree of a callable can be written down without an arena and without a list of
pending nodes, by recursion on the depth that is left.  This module has that definition,
the nodes of an unfolding in the order in which they are met, and what it means that an
arena shows an unfolding.
-/

namespace EndpointTrace

structure Unfolding where
  identity : Identity
  depth : Nat
  sites : List Range
  stopped : Option StopReason
  children : List Unfolding

namespace Unfolding

/-- The end of a way on which an identity is met again. -/
def ofCycle (depth : Nat) (call : OutgoingCall) : Unfolding :=
  ⟨call.callee, depth, call.sites, some .cycle, []⟩

/-- What is called by a call, and by what is called there, and so on down to a depth.  The
identities above are those of the ancestors. -/
def ofCall (answers : Identity → Except Failure (List OutgoingCall)) (maxDepth : Nat)
    (above : List Identity) (depth : Nat) (call : OutgoingCall) : Unfolding :=
  if maxDepth ≤ depth then
    ⟨call.callee, depth, call.sites, some .depthLimit, []⟩
  else
    match answers call.callee with
    | .error _ => ⟨call.callee, depth, call.sites, some .oracleFailure, []⟩
    | .ok calls =>
        ⟨call.callee, depth, call.sites, none, calls.map fun next =>
          if (call.callee :: above).any next.callee.same then
            ofCycle (depth + 1) next
          else
            ofCall answers maxDepth (call.callee :: above) (depth + 1) next⟩
termination_by maxDepth - depth

def ofRoot (answers : Identity → Except Failure (List OutgoingCall)) (maxDepth : Nat)
    (root : Identity) : Unfolding :=
  ofCall answers maxDepth [] 0 ⟨root, []⟩

mutual

def preorder : Unfolding → List Unfolding
  | ⟨identity, depth, sites, stopped, children⟩ =>
      ⟨identity, depth, sites, stopped, children⟩ :: preorders children

def preorders : List Unfolding → List Unfolding
  | [] => []
  | first :: rest => first.preorder ++ preorders rest

end

def size (unfolding : Unfolding) : Nat :=
  unfolding.preorder.length

/-- The oracle is asked about a node unless it is a cycle or at the last depth. -/
def isAsked (unfolding : Unfolding) : Bool :=
  unfolding.stopped != some .cycle && unfolding.stopped != some .depthLimit

def asked (unfolding : Unfolding) : List Identity :=
  (unfolding.preorder.filter isAsked).map identity

def descendants (unfolding : Unfolding) : List Unfolding :=
  preorders unfolding.children

/-!
## The order of nodes
-/

theorem preorders_eq_flatMap (unfoldings : List Unfolding) :
    preorders unfoldings = unfoldings.flatMap preorder := by
  induction unfoldings with
  | nil =>
      rfl
  | cons first rest ih =>
      rw [preorders, ih, List.flatMap_cons]

theorem preorder_eq (unfolding : Unfolding) :
    unfolding.preorder = unfolding :: unfolding.descendants := by
  cases unfolding
  rfl

theorem size_eq (unfolding : Unfolding) :
    unfolding.size = unfolding.descendants.length + 1 := by
  rw [size, preorder_eq, List.length_cons]

theorem descendants_eq (unfolding : Unfolding) :
    unfolding.descendants = unfolding.children.flatMap preorder :=
  preorders_eq_flatMap unfolding.children

theorem asked_eq (unfolding : Unfolding) :
    unfolding.asked = (if unfolding.isAsked then [unfolding.identity] else []) ++
      unfolding.children.flatMap asked := by
  rw [asked, preorder_eq, List.filter_cons, descendants_eq, List.filter_flatMap]
  split
  · rw [List.map_cons, List.map_flatMap]
    rfl
  · rw [List.map_flatMap]
    rfl

/-!
## Callees

A callee that ends a cycle counts as a node, but nothing is asked about it and nothing
is below it.
-/

section

variable {repeated : OutgoingCall → Bool} {plan : OutgoingCall → Unfolding} {depth : Nat}

theorem length_preorder_callees (calls : List OutgoingCall) :
    ((calls.map fun call =>
        if repeated call then ofCycle depth call else plan call).flatMap preorder).length
      = calls.length +
        ((calls.filter fun call => !repeated call).flatMap fun call =>
          (plan call).descendants).length := by
  induction calls with
  | nil =>
      rfl
  | cons call rest ih =>
      rw [List.map_cons, List.flatMap_cons, List.length_append, ih, List.length_cons,
        List.filter_cons]
      by_cases hrepeated : repeated call = true
      · have hleaf : (ofCycle depth call).preorder.length = 1 := rfl
        simp only [hrepeated, if_true, hleaf, Bool.not_true, Bool.false_eq_true, if_false]
        omega
      · simp only [hrepeated, Bool.false_eq_true, if_false, Bool.not_false, if_true,
          List.flatMap_cons, List.length_append, preorder_eq, List.length_cons]
        omega

theorem flatMap_asked_callees (calls : List OutgoingCall) :
    (calls.map fun call =>
        if repeated call then ofCycle depth call else plan call).flatMap asked
      = (calls.filter fun call => !repeated call).flatMap fun call => (plan call).asked := by
  induction calls with
  | nil =>
      rfl
  | cons call rest ih =>
      simp only [List.map_cons, List.flatMap_cons, ih, List.filter_cons]
      by_cases hrepeated : repeated call = true
      · have hleaf : (ofCycle depth call).asked = [] := rfl
        simp [hrepeated, hleaf]
      · simp [hrepeated]

end

/-!
## The three kinds of nodes
-/

section

variable {answers : Identity → Except Failure (List OutgoingCall)} {maxDepth depth : Nat}
  {above : List Identity} {call : OutgoingCall}

theorem ofCall_deep (hdeep : maxDepth ≤ depth) :
    ofCall answers maxDepth above depth call =
      ⟨call.callee, depth, call.sites, some .depthLimit, []⟩ := by
  rw [ofCall, if_pos hdeep]

theorem ofCall_failed (hshallow : depth < maxDepth) {failure : Failure}
    (hanswer : answers call.callee = .error failure) :
    ofCall answers maxDepth above depth call =
      ⟨call.callee, depth, call.sites, some .oracleFailure, []⟩ := by
  rw [ofCall, if_neg (Nat.not_le.mpr hshallow), hanswer]

theorem ofCall_answered (hshallow : depth < maxDepth) {calls : List OutgoingCall}
    (hanswer : answers call.callee = .ok calls) :
    ofCall answers maxDepth above depth call =
      ⟨call.callee, depth, call.sites, none, calls.map fun next =>
        if (call.callee :: above).any next.callee.same then
          ofCycle (depth + 1) next
        else
          ofCall answers maxDepth (call.callee :: above) (depth + 1) next⟩ := by
  rw [ofCall, if_neg (Nat.not_le.mpr hshallow), hanswer]

end

end Unfolding

/-!
## What an arena shows
-/

namespace CallTree

mutual

/-- The node with this number and all below it are the unfolding. -/
def Shows (tree : CallTree) (id : Nat) : Unfolding → Prop
  | ⟨identity, depth, sites, stopped, children⟩ =>
      ∃ node, tree.node? id = some node ∧ node.identity = identity ∧ node.depth = depth ∧
        node.sites = sites ∧ node.stopped = stopped ∧ tree.ShowsAll node.children children

def ShowsAll (tree : CallTree) : List Nat → List Unfolding → Prop
  | [], [] => True
  | id :: ids, first :: rest => tree.Shows id first ∧ tree.ShowsAll ids rest
  | [], _ :: _ => False
  | _ :: _, [] => False

end

theorem shows_leaf {tree : CallTree} {id : Nat} {node : CallNode}
    (hnode : tree.node? id = some node) (hleaf : node.children = []) :
    tree.Shows id ⟨node.identity, node.depth, node.sites, node.stopped, []⟩ := by
  refine ⟨node, hnode, rfl, rfl, rfl, rfl, ?_⟩
  rw [hleaf]
  trivial

theorem showsAll_map {tree : CallTree} {plan : OutgoingCall → Unfolding} {ids : List Nat}
    {calls : List OutgoingCall}
    (hcallees : (ids.map fun id => (tree.node? id).map CallNode.call) = calls.map some)
    (hshows : ∀ id ∈ ids, ∀ node, tree.node? id = some node →
      tree.Shows id (plan node.call)) : tree.ShowsAll ids (calls.map plan) := by
  induction calls generalizing ids with
  | nil =>
      rw [List.map_nil, List.map_eq_nil_iff] at hcallees
      rw [hcallees]
      trivial
  | cons call rest ih =>
      cases ids with
      | nil =>
          cases hcallees
      | cons id ids =>
          simp only [List.map_cons, List.cons.injEq] at hcallees
          rcases Option.map_eq_some_iff.mp hcallees.1 with ⟨node, hnode, hcall⟩
          constructor
          · rw [← hcall]
            exact hshows id List.mem_cons_self node hnode
          · exact ih hcallees.2
              (fun other hother => hshows other (List.mem_cons_of_mem id hother))

end CallTree

end EndpointTrace
