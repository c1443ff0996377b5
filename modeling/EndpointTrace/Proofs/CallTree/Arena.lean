import EndpointTrace.CallGraph.Builder

/-!
# The arena of a call tree

Identity, depth, parent and call sites of a node are fixed when the node is added;
afterwards only its children and its mark can change.  The fixed part of all nodes, in
the order in which they were added, is the list of origins of a tree.  A tree grows
into another one when its origins begin the origins of the other.

Everything that is read off the way from a node to the root depends on origins alone,
so it stays the same while a tree grows.
-/

namespace EndpointTrace

/-- What is fixed about a node when it is added to a tree. -/
structure NodeOrigin where
  identity : Identity
  depth : Nat
  parent : Option Nat
  sites : List Range

namespace CallNode

def origin (node : CallNode) : NodeOrigin :=
  ⟨node.identity, node.depth, node.parent, node.sites⟩

def call (node : CallNode) : OutgoingCall :=
  ⟨node.identity, node.sites⟩

theorem call_eq_of_origin_eq {a b : CallNode} (horigin : a.origin = b.origin) :
    a.call = b.call := by
  simp only [origin, NodeOrigin.mk.injEq] at horigin
  rcases horigin with ⟨hidentity, _, _, hsites⟩
  rw [call, call, hidentity, hsites]

end CallNode

namespace CallTree

def origins (tree : CallTree) : List NodeOrigin :=
  tree.nodes.toList.map CallNode.origin

/-- Nodes have only been added, and none was moved. -/
def GrowsTo (tree larger : CallTree) : Prop :=
  tree.origins <+: larger.origins

/-!
## Looking up nodes
-/

theorem lt_size_of_node? {tree : CallTree} {id : Nat} {node : CallNode}
    (hnode : tree.node? id = some node) : id < tree.size := by
  rcases Array.getElem?_eq_some_iff.mp hnode with ⟨hid, _⟩
  exact hid

theorem node?_of_size_le {tree : CallTree} {id : Nat} (hid : tree.size ≤ id) :
    tree.node? id = none :=
  Array.getElem?_eq_none hid

theorem exists_node?_of_lt {tree : CallTree} {id : Nat} (hid : id < tree.size) :
    ∃ node, tree.node? id = some node := by
  have hbound : id < tree.nodes.size := hid
  exact ⟨tree.nodes[id], Array.getElem?_eq_getElem hbound⟩

theorem depth_of_node? {tree : CallTree} {id : Nat} {node : CallNode}
    (hnode : tree.node? id = some node) : tree.depth id = node.depth := by
  simp [depth, hnode]

@[simp] theorem length_origins (tree : CallTree) : tree.origins.length = tree.size := by
  simp [origins, size]

theorem getElem?_origins (tree : CallTree) (id : Nat) :
    tree.origins[id]? = (tree.node? id).map CallNode.origin := by
  simp [origins, node?]

theorem node?_ofRoot {root : Identity} {id : Nat} {node : CallNode}
    (hnode : (ofRoot root).node? id = some node) :
    id = 0 ∧ node = ⟨root, 0, none, [], [], none⟩ := by
  have hid : id = 0 := by
    have hlt := lt_size_of_node? hnode
    rw [size_ofRoot] at hlt
    omega
  rw [hid] at hnode
  exact ⟨hid, (Option.some.inj hnode).symm⟩

/-!
## Marks

Marking a node changes neither its origin nor its children.
-/

theorem node?_stop (tree : CallTree) (reason : StopReason) (id other : Nat) :
    (tree.stop reason id).node? other =
      if id = other then
        (tree.node? other).map fun node => { node with stopped := some reason }
      else
        tree.node? other := by
  simp only [stop, node?, Array.getElem?_modify]

theorem node?_stop_cases {tree : CallTree} {reason : StopReason} {id other : Nat}
    {node : CallNode} (hnode : (tree.stop reason id).node? other = some node) :
    node.stopped = some reason ∨ tree.node? other = some node := by
  rw [node?_stop] at hnode
  split at hnode
  · rcases Option.map_eq_some_iff.mp hnode with ⟨before, _, rfl⟩
    exact Or.inl rfl
  · exact Or.inr hnode

@[simp] theorem origins_stop (tree : CallTree) (reason : StopReason) (id : Nat) :
    (tree.stop reason id).origins = tree.origins := by
  apply List.ext_getElem?
  intro other
  rw [getElem?_origins, getElem?_origins, node?_stop]
  split
  · rw [Option.map_map]
    rfl
  · rfl

theorem node?_stopAll (tree : CallTree) (reason : StopReason) (ids : List Nat)
    (other : Nat) :
    (tree.stopAll reason ids).node? other =
      if other ∈ ids then
        (tree.node? other).map fun node => { node with stopped := some reason }
      else
        tree.node? other := by
  induction ids generalizing tree with
  | nil =>
      simp [stopAll]
  | cons id rest ih =>
      show ((tree.stop reason id).stopAll reason rest).node? other = _
      rw [ih, node?_stop]
      by_cases hid : id = other
      · simp [hid, Function.comp_def]
      · simp [hid, Ne.symm hid]

@[simp] theorem origins_stopAll (tree : CallTree) (reason : StopReason) (ids : List Nat) :
    (tree.stopAll reason ids).origins = tree.origins := by
  induction ids generalizing tree with
  | nil =>
      rfl
  | cons id rest ih =>
      show ((tree.stop reason id).stopAll reason rest).origins = _
      rw [ih, origins_stop]

/-!
## Growth
-/

namespace GrowsTo

theorem refl (tree : CallTree) : tree.GrowsTo tree :=
  List.prefix_refl _

theorem of_origins_eq {tree larger : CallTree} (horigins : tree.origins = larger.origins) :
    tree.GrowsTo larger :=
  ⟨[], by rw [List.append_nil, horigins]⟩

theorem trans {a b c : CallTree} (hab : a.GrowsTo b) (hbc : b.GrowsTo c) :
    a.GrowsTo c :=
  List.IsPrefix.trans hab hbc

theorem size_le {tree larger : CallTree} (hgrows : tree.GrowsTo larger) :
    tree.size ≤ larger.size := by
  rw [← length_origins, ← length_origins]
  exact List.IsPrefix.length_le hgrows

theorem node? {tree larger : CallTree} (hgrows : tree.GrowsTo larger) {id : Nat}
    {node : CallNode} (hnode : tree.node? id = some node) :
    ∃ later, larger.node? id = some later ∧ later.origin = node.origin := by
  rcases hgrows with ⟨added, hadded⟩
  have horigin : larger.origins[id]? = some node.origin := by
    have hid : id < tree.origins.length := by
      rw [length_origins]
      exact lt_size_of_node? hnode
    rw [← hadded, List.getElem?_append_left hid, getElem?_origins, hnode]
    rfl
  rw [getElem?_origins] at horigin
  exact Option.map_eq_some_iff.mp horigin

theorem of_node? {tree larger : CallTree}
    (hkept : ∀ id node, tree.node? id = some node →
      ∃ later, larger.node? id = some later ∧ later.origin = node.origin) :
    tree.GrowsTo larger := by
  rw [GrowsTo, List.prefix_iff_getElem?]
  intro id hid
  rw [length_origins] at hid
  rcases exists_node?_of_lt hid with ⟨node, hnode⟩
  rcases hkept id node hnode with ⟨later, hlater, horigin⟩
  rw [← List.getElem?_eq_getElem, getElem?_origins, getElem?_origins, hnode, hlater]
  simp [horigin]

theorem depth {tree larger : CallTree} (hgrows : tree.GrowsTo larger) {id : Nat}
    (hid : id < tree.size) : larger.depth id = tree.depth id := by
  rcases exists_node?_of_lt hid with ⟨node, hnode⟩
  rcases hgrows.node? hnode with ⟨later, hlater, horigin⟩
  rw [depth_of_node? hlater, depth_of_node? hnode]
  exact congrArg NodeOrigin.depth horigin

end GrowsTo

theorem growsTo_stop (tree : CallTree) (reason : StopReason) (id : Nat) :
    tree.GrowsTo (tree.stop reason id) :=
  GrowsTo.of_origins_eq (origins_stop tree reason id).symm

theorem growsTo_stopAll (tree : CallTree) (reason : StopReason) (ids : List Nat) :
    tree.GrowsTo (tree.stopAll reason ids) :=
  GrowsTo.of_origins_eq (origins_stopAll tree reason ids).symm

/-!
## The way to the root
-/

theorem lineage_root {tree : CallTree} {id : Nat} {node : CallNode}
    (hnode : tree.node? id = some node) (hparent : node.parent = none) :
    tree.lineage id = [node.identity] := by
  rw [lineage, hnode]
  simp [hparent]

theorem lineage_child {tree : CallTree} {id parent : Nat} {node : CallNode}
    (hnode : tree.node? id = some node) (hparent : node.parent = some parent)
    (hlt : parent < id) :
    tree.lineage id = node.identity :: tree.lineage parent := by
  rw [lineage, hnode]
  simp [hparent, hlt]

theorem GrowsTo.lineage {tree larger : CallTree} (hgrows : tree.GrowsTo larger) {id : Nat}
    (hid : id < tree.size) : larger.lineage id = tree.lineage id := by
  induction id using Nat.strongRecOn with
  | ind id ih =>
      rcases exists_node?_of_lt hid with ⟨node, hnode⟩
      rcases hgrows.node? hnode with ⟨later, hlater, horigin⟩
      have hidentity : later.identity = node.identity :=
        congrArg NodeOrigin.identity horigin
      have hparent : later.parent = node.parent := congrArg NodeOrigin.parent horigin
      rw [CallTree.lineage, CallTree.lineage, hlater, hnode]
      simp only [hidentity, hparent]
      cases node.parent with
      | none =>
          rfl
      | some parent =>
          by_cases hlt : parent < id
          · simp only [hlt, if_true]
            rw [ih parent hlt (Nat.lt_trans hlt hid)]
          · simp only [hlt, if_false]

theorem GrowsTo.onPath {tree larger : CallTree} (hgrows : tree.GrowsTo larger) {id : Nat}
    (hid : id < tree.size) (identity : Identity) :
    larger.onPath id identity = tree.onPath id identity := by
  rw [CallTree.onPath, CallTree.onPath, hgrows.lineage hid]

end CallTree

end EndpointTrace
