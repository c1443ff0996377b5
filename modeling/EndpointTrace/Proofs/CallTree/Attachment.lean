import EndpointTrace.Proofs.CallTree.Arena

/-!
# Attaching callees

The callees of a node are added one at a time, and the way to the root is looked at
again for each of them.  This module replaces the loop by its result: the nodes that
are added, what becomes of the node they are added to, and which of them are to be
expanded.
-/

namespace EndpointTrace

namespace CallTree

/-- The node that a callee becomes: a cycle if its identity is on the way already. -/
def newcomer (tree : CallTree) (id : Nat) (call : OutgoingCall) : CallNode :=
  ⟨call.callee, tree.depth id + 1, some id, [], call.sites,
    if tree.onPath id call.callee then some .cycle else none⟩

def admitted (tree : CallTree) (budget : Nat) (calls : List OutgoingCall) :
    List OutgoingCall :=
  calls.take (budget - tree.size)

/-- What becomes of the node whose callees are added: it has `count` more children, and
a mark if some callee found no room. -/
def extended (tree : CallTree) (count : Nat) (cut : Bool) (node : CallNode) : CallNode :=
  { node with
    children := node.children ++ List.range' tree.size count
    stopped := if cut then some .nodeLimit else node.stopped }

def addCallee (tree : CallTree) (id : Nat) (call : OutgoingCall) : CallTree :=
  if tree.onPath id call.callee then
    (tree.addChild id call).stop .cycle tree.size
  else
    tree.addChild id call

/-!
## One callee
-/

@[simp] theorem size_addCallee (tree : CallTree) (id : Nat) (call : OutgoingCall) :
    (tree.addCallee id call).size = tree.size + 1 := by
  unfold addCallee
  split
  · rw [size_stop, size_addChild]
  · rw [size_addChild]

theorem node?_addChild (tree : CallTree) (id : Nat) (call : OutgoingCall) (other : Nat) :
    (tree.addChild id call).node? other =
      if other = tree.size then
        some { tree.newcomer id call with stopped := none }
      else if other = id then
        (tree.node? id).map (tree.extended 1 false)
      else
        tree.node? other := by
  simp only [addChild, node?, Array.getElem?_push, Array.size_modify, Array.getElem?_modify]
  by_cases hlast : other = tree.nodes.size
  · simp only [hlast, size, if_true]
    rfl
  · rw [if_neg hlast, size, if_neg hlast]
    by_cases hsame : other = id
    · simp only [hsame, if_true]
      rfl
    · rw [if_neg hsame, if_neg (Ne.symm hsame)]

theorem node?_addCallee (tree : CallTree) (id : Nat) (call : OutgoingCall) (other : Nat) :
    (tree.addCallee id call).node? other =
      if other = tree.size then
        some (tree.newcomer id call)
      else if other = id then
        (tree.node? id).map (tree.extended 1 false)
      else
        tree.node? other := by
  unfold addCallee
  by_cases hpath : tree.onPath id call.callee = true
  · rw [if_pos hpath, node?_stop, node?_addChild]
    by_cases hlast : other = tree.size
    · simp [hlast, newcomer, hpath]
    · simp [hlast, Ne.symm hlast]
  · rw [if_neg hpath, node?_addChild]
    simp [newcomer, hpath]

theorem growsTo_addCallee (tree : CallTree) (id : Nat) (call : OutgoingCall) :
    tree.GrowsTo (tree.addCallee id call) := by
  apply GrowsTo.of_node?
  intro other node hnode
  have hne : other ≠ tree.size := Nat.ne_of_lt (lt_size_of_node? hnode)
  rw [node?_addCallee, if_neg hne]
  by_cases hsame : other = id
  · rw [if_pos hsame, ← hsame, hnode]
    exact ⟨_, rfl, rfl⟩
  · rw [if_neg hsame]
    exact ⟨node, hnode, rfl⟩

theorem newcomer_addCallee (tree : CallTree) {id : Nat} (hid : id < tree.size)
    (call : OutgoingCall) :
    (tree.addCallee id call).newcomer id = tree.newcomer id := by
  have hgrows := growsTo_addCallee tree id call
  funext next
  rw [newcomer, newcomer, hgrows.depth hid, hgrows.onPath hid]

theorem extended_extended (tree larger : CallTree) (hsize : larger.size = tree.size + 1)
    (count : Nat) (cut : Bool) (node : CallNode) :
    larger.extended count cut (tree.extended 1 false node)
      = tree.extended (count + 1) cut node := by
  simp [extended, hsize, List.range'_succ]

theorem extended_zero (tree : CallTree) (cut : Bool) :
    tree.extended 0 cut = fun node =>
      { node with stopped := if cut then some .nodeLimit else node.stopped } := by
  funext node
  simp [extended]

/-!
## The loop over the callees
-/

theorem attach_of_full {budget : Nat} {tree : CallTree} (hfull : budget ≤ tree.size)
    (id : Nat) (call : OutgoingCall) (rest : List OutgoingCall) :
    attach budget tree id (call :: rest) = (tree.stop .nodeLimit id, []) := by
  rw [attach, if_pos hfull]

theorem attach_of_room {budget : Nat} {tree : CallTree} (hroom : tree.size < budget)
    (id : Nat) (call : OutgoingCall) (rest : List OutgoingCall) :
    attach budget tree id (call :: rest) =
      ((attach budget (tree.addCallee id call) id rest).1,
        if tree.onPath id call.callee then
          (attach budget (tree.addCallee id call) id rest).2
        else
          tree.size :: (attach budget (tree.addCallee id call) id rest).2) := by
  rw [attach, if_neg (Nat.not_le.mpr hroom), addCallee]
  by_cases hpath : tree.onPath id call.callee = true
  · simp [hpath]
  · simp [hpath]

theorem admitted_of_full {budget : Nat} {tree : CallTree} (hfull : budget ≤ tree.size)
    (calls : List OutgoingCall) : tree.admitted budget calls = [] := by
  rw [admitted, Nat.sub_eq_zero_of_le hfull, List.take_zero]

theorem admitted_of_room {budget : Nat} {tree larger : CallTree}
    (hroom : tree.size < budget) (hsize : larger.size = tree.size + 1)
    (call : OutgoingCall) (rest : List OutgoingCall) :
    tree.admitted budget (call :: rest) = call :: larger.admitted budget rest := by
  have hsplit : budget - tree.size = (budget - larger.size) + 1 := by
    omega
  rw [admitted, admitted, hsplit, List.take_succ_cons]

theorem node?_attach (budget : Nat) (tree : CallTree) {id : Nat} (hid : id < tree.size)
    (calls : List OutgoingCall) (other : Nat) :
    (attach budget tree id calls).1.node? other =
      if other = id then
        (tree.node? id).map (tree.extended (tree.admitted budget calls).length
          (decide (budget - tree.size < calls.length)))
      else if other < tree.size then
        tree.node? other
      else
        (tree.admitted budget calls)[other - tree.size]?.map (tree.newcomer id) := by
  induction calls generalizing tree with
  | nil =>
      show tree.node? other = _
      simp only [admitted, List.take_nil, List.length_nil, Nat.not_lt_zero, decide_false,
        List.getElem?_nil, Option.map_none]
      by_cases hsame : other = id
      · rw [if_pos hsame, hsame, extended_zero]
        simp
      · rw [if_neg hsame]
        by_cases hlt : other < tree.size
        · rw [if_pos hlt]
        · rw [if_neg hlt]
          exact node?_of_size_le (Nat.not_lt.mp hlt)
  | cons call rest ih =>
      rcases Nat.lt_or_ge tree.size budget with hroom | hfull
      · have hsize := size_addCallee tree id call
        have hcut : budget - (tree.size + 1) < rest.length
            ↔ budget - tree.size < rest.length + 1 := by
          omega
        rw [attach_of_room hroom]
        simp only
        rw [ih (tree.addCallee id call) (by omega), node?_addCallee, node?_addCallee,
          newcomer_addCallee tree hid, admitted_of_room hroom hsize, hsize,
          if_neg (Nat.ne_of_lt hid)]
        by_cases hsame : other = id
        · rw [if_pos hsame, if_pos hsame, if_pos rfl, Option.map_map, List.length_cons,
            List.length_cons]
          simp only [hcut, Function.comp_def, extended_extended tree _ hsize]
        · rw [if_neg hsame, if_neg hsame, if_neg hsame]
          by_cases hlast : other = tree.size
          · simp [hlast]
          · rw [if_neg hlast]
            by_cases hlt : other < tree.size
            · rw [if_pos hlt, if_pos (by omega)]
            · have hsplit : other - tree.size = (other - (tree.size + 1)) + 1 := by
                omega
              rw [if_neg hlt, if_neg (by omega), hsplit, List.getElem?_cons_succ]
      · have hcut : budget - tree.size < rest.length + 1 := by
          omega
        rw [attach_of_full hfull, admitted_of_full hfull, node?_stop]
        simp only [List.length_nil, List.length_cons, hcut, decide_true, List.getElem?_nil,
          Option.map_none]
        by_cases hsame : id = other
        · rw [if_pos hsame, if_pos hsame.symm, hsame, extended_zero]
          simp
        · rw [if_neg hsame, if_neg (Ne.symm hsame)]
          by_cases hlt : other < tree.size
          · rw [if_pos hlt]
          · rw [if_neg hlt]
            exact node?_of_size_le (Nat.not_lt.mp hlt)

/-- The three kinds of nodes there are afterwards. -/
theorem node?_attach_cases {budget : Nat} {tree : CallTree} {id : Nat}
    (hid : id < tree.size) {calls : List OutgoingCall} {other : Nat} {node : CallNode}
    (hnode : (attach budget tree id calls).1.node? other = some node) :
    (other = id ∧ ∃ before, tree.node? id = some before ∧
      node = tree.extended (tree.admitted budget calls).length
        (decide (budget - tree.size < calls.length)) before) ∨
    (other ≠ id ∧ tree.node? other = some node) ∨
    (tree.size ≤ other ∧ ∃ call, (tree.admitted budget calls)[other - tree.size]? = some call ∧
      node = tree.newcomer id call) := by
  rw [node?_attach budget tree hid] at hnode
  by_cases hsame : other = id
  · rw [if_pos hsame] at hnode
    rcases Option.map_eq_some_iff.mp hnode with ⟨before, hbefore, heq⟩
    exact Or.inl ⟨hsame, before, hbefore, heq.symm⟩
  · rw [if_neg hsame] at hnode
    by_cases hlt : other < tree.size
    · rw [if_pos hlt] at hnode
      exact Or.inr (Or.inl ⟨hsame, hnode⟩)
    · rw [if_neg hlt] at hnode
      rcases Option.map_eq_some_iff.mp hnode with ⟨call, hcall, heq⟩
      exact Or.inr (Or.inr ⟨Nat.not_lt.mp hlt, call, hcall, heq.symm⟩)

theorem stopped_attach_cases {budget : Nat} {tree : CallTree} {id : Nat}
    (hid : id < tree.size) {calls : List OutgoingCall} {other : Nat} {node : CallNode}
    (hnode : (attach budget tree id calls).1.node? other = some node) :
    node.stopped = none ∨ node.stopped = some .cycle ∨
    (node.stopped = some .nodeLimit ∧ budget - tree.size < calls.length) ∨
    ∃ before, tree.node? other = some before ∧ node.stopped = before.stopped := by
  rcases node?_attach_cases hid hnode with
    ⟨rfl, before, hbefore, rfl⟩ | ⟨_, hbefore⟩ | ⟨_, call, _, rfl⟩
  · by_cases hcut : budget - tree.size < calls.length
    · right; right; left
      exact ⟨by simp [extended, hcut], hcut⟩
    · right; right; right
      exact ⟨before, hbefore, by simp [extended, hcut]⟩
  · right; right; right
    exact ⟨node, hbefore, rfl⟩
  · by_cases hpath : tree.onPath id call.callee = true
    · right; left
      simp [newcomer, hpath]
    · left
      simp [newcomer, hpath]

theorem growsTo_attach (budget : Nat) (tree : CallTree) {id : Nat} (hid : id < tree.size)
    (calls : List OutgoingCall) : tree.GrowsTo (attach budget tree id calls).1 := by
  apply GrowsTo.of_node?
  intro other node hnode
  rw [node?_attach budget tree hid]
  by_cases hsame : other = id
  · rw [if_pos hsame, ← hsame, hnode]
    exact ⟨_, rfl, rfl⟩
  · rw [if_neg hsame, if_pos (lt_size_of_node? hnode)]
    exact ⟨node, hnode, rfl⟩

theorem origins_attach (budget : Nat) (tree : CallTree) {id : Nat} (hid : id < tree.size)
    (calls : List OutgoingCall) :
    (attach budget tree id calls).1.origins =
      tree.origins ++ (tree.admitted budget calls).map fun call =>
        (tree.newcomer id call).origin := by
  apply List.ext_getElem?
  intro other
  rw [getElem?_origins, node?_attach budget tree hid, List.getElem?_append, length_origins,
    getElem?_origins, List.getElem?_map]
  by_cases hsame : other = id
  · rw [if_pos hsame, hsame, if_pos hid, Option.map_map]
    rfl
  · rw [if_neg hsame]
    by_cases hlt : other < tree.size
    · rw [if_pos hlt, if_pos hlt]
    · rw [if_neg hlt, if_neg hlt, Option.map_map]
      rfl

theorem size_attach (budget : Nat) (tree : CallTree) {id : Nat} (hid : id < tree.size)
    (calls : List OutgoingCall) :
    (attach budget tree id calls).1.size
      = tree.size + (tree.admitted budget calls).length := by
  rw [← length_origins, origins_attach budget tree hid, List.length_append,
    List.length_map, length_origins]

/-!
## The nodes to be expanded
-/

theorem attach_pending (budget : Nat) (tree : CallTree) {id : Nat} (hid : id < tree.size)
    (calls : List OutgoingCall) :
    (attach budget tree id calls).2 =
      (((tree.admitted budget calls).zipIdx tree.size).filter fun entry =>
        !tree.onPath id entry.1.callee).map Prod.snd := by
  induction calls generalizing tree with
  | nil =>
      simp [attach, admitted]
  | cons call rest ih =>
      rcases Nat.lt_or_ge tree.size budget with hroom | hfull
      · have hsize := size_addCallee tree id call
        have hgrows := growsTo_addCallee tree id call
        rw [attach_of_room hroom, admitted_of_room hroom hsize]
        simp only [ih (tree.addCallee id call) (by omega), hsize, hgrows.onPath hid,
          List.zipIdx_cons, List.filter_cons]
        by_cases hpath : tree.onPath id call.callee = true
        · simp [hpath]
        · simp [hpath]
      · rw [attach_of_full hfull, admitted_of_full hfull]
        rfl

theorem nodup_attach_pending (budget : Nat) (tree : CallTree) {id : Nat}
    (hid : id < tree.size) (calls : List OutgoingCall) :
    (attach budget tree id calls).2.Nodup := by
  rw [attach_pending budget tree hid]
  have hall : ((tree.admitted budget calls).zipIdx tree.size).map Prod.snd
      = List.range' tree.size (tree.admitted budget calls).length :=
    List.zipIdx_map_snd _ _
  have hsublist := (List.filter_sublist
    (p := fun entry : OutgoingCall × Nat => !tree.onPath id entry.1.callee)
    (l := (tree.admitted budget calls).zipIdx tree.size)).map Prod.snd
  rw [hall] at hsublist
  exact hsublist.nodup List.nodup_range'

theorem mem_attach_pending {budget : Nat} {tree : CallTree} {id : Nat}
    (hid : id < tree.size) {calls : List OutgoingCall} {child : Nat} :
    child ∈ (attach budget tree id calls).2 ↔
      tree.size ≤ child ∧ ∃ call,
        (tree.admitted budget calls)[child - tree.size]? = some call ∧
          tree.onPath id call.callee = false := by
  rw [attach_pending budget tree hid, List.mem_map]
  constructor
  · rintro ⟨⟨call, position⟩, hmem, rfl⟩
    rw [List.mem_filter, List.mem_zipIdx_iff_le_and_getElem?_sub] at hmem
    exact ⟨hmem.1.1, call, hmem.1.2, by simpa using hmem.2⟩
  · rintro ⟨hle, call, hcall, hpath⟩
    refine ⟨(call, child), ?_, rfl⟩
    rw [List.mem_filter, List.mem_zipIdx_iff_le_and_getElem?_sub]
    exact ⟨⟨hle, hcall⟩, by simp [hpath]⟩

end CallTree

end EndpointTrace
