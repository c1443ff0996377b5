import EndpointTrace.CallGraph.Oracle

/-!
# Call trees

A call tree is kept as a list of nodes that know their parent and their children by
number.  Node 0 is the root, and a node has a larger number than its parent.
-/

namespace EndpointTrace

/-- Why a node was not expanded, or not fully. -/
inductive StopReason where
  | cycle
  | depthLimit
  | nodeLimit
  | cancelled
  | oracleFailure
  deriving DecidableEq, Repr

structure CallNode where
  identity : Identity
  depth : Nat
  parent : Option Nat
  children : List Nat
  sites : List Range
  stopped : Option StopReason
  deriving Repr, Inhabited

structure CallTree where
  nodes : Array CallNode
  deriving Repr

namespace CallTree

def size (tree : CallTree) : Nat :=
  tree.nodes.size

def node? (tree : CallTree) (id : Nat) : Option CallNode :=
  tree.nodes[id]?

def depth (tree : CallTree) (id : Nat) : Nat :=
  ((tree.node? id).map CallNode.depth).getD 0

def children (tree : CallTree) (id : Nat) : List Nat :=
  ((tree.node? id).map CallNode.children).getD []

def ofRoot (identity : Identity) : CallTree :=
  ⟨.singleton ⟨identity, 0, none, [], [], none⟩⟩

def addChild (tree : CallTree) (parent : Nat) (call : OutgoingCall) : CallTree :=
  let linked := tree.nodes.modify parent fun node =>
    { node with children := node.children ++ [tree.size] }
  ⟨linked.push ⟨call.callee, tree.depth parent + 1, some parent, [], call.sites, none⟩⟩

def stop (tree : CallTree) (reason : StopReason) (id : Nat) : CallTree :=
  ⟨tree.nodes.modify id fun node => { node with stopped := some reason }⟩

def stopAll (tree : CallTree) (reason : StopReason) (ids : List Nat) : CallTree :=
  ids.foldl (fun tree id => tree.stop reason id) tree

/-- A tree is complete unless a cancellation or the node budget cut it short. -/
def isComplete (tree : CallTree) : Bool :=
  tree.nodes.all fun node =>
    node.stopped != some .cancelled && node.stopped != some .nodeLimit

def lineage (tree : CallTree) (id : Nat) : List Identity :=
  match tree.node? id with
  | none => []
  | some node =>
      node.identity ::
        match node.parent with
        | none => []
        | some parent => if parent < id then tree.lineage parent else []
termination_by id

def onPath (tree : CallTree) (id : Nat) (identity : Identity) : Bool :=
  (tree.lineage id).any identity.same

def preorder (tree : CallTree) (id : Nat) : List Nat :=
  if _inside : id < tree.size then
    id :: ((tree.children id).filter (id < ·)).attach.flatMap fun child =>
      tree.preorder child.1
  else
    []
termination_by tree.size - id
decreasing_by
  have below := (List.mem_filter.mp child.2).2
  simp only [decide_eq_true_eq] at below
  omega

theorem preorder_eq (tree : CallTree) (id : Nat) :
    tree.preorder id =
      if id < tree.size then
        id :: ((tree.children id).filter (id < ·)).flatMap tree.preorder
      else
        [] := by
  rw [preorder]
  split
  · simp only [List.flatMap_subtype, List.unattach_attach]
  · rfl

/-!
## Sizes
-/

@[simp] theorem size_ofRoot (identity : Identity) : (ofRoot identity).size = 1 := rfl

@[simp] theorem size_addChild (tree : CallTree) (parent : Nat) (call : OutgoingCall) :
    (tree.addChild parent call).size = tree.size + 1 := by
  simp [addChild, size]

@[simp] theorem size_stop (tree : CallTree) (reason : StopReason) (id : Nat) :
    (tree.stop reason id).size = tree.size := by
  simp [stop, size]

@[simp] theorem size_stopAll (tree : CallTree) (reason : StopReason) (ids : List Nat) :
    (tree.stopAll reason ids).size = tree.size := by
  unfold stopAll
  induction ids generalizing tree with
  | nil =>
      rfl
  | cons id rest ih =>
      simp only [List.foldl_cons]
      rw [ih, size_stop]

end CallTree

end EndpointTrace
