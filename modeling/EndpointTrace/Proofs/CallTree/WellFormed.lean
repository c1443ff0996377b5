import EndpointTrace.Proofs.CallTree.Rounds

/-!
# Well-formed call trees

Parents and children of an arena agree: every node but the first has a parent with a
smaller number, stands one level below it and is listed among its children, and a node
lists as children only nodes that name it as their parent.  A single root is well
formed, and rounds keep it so.

In a well-formed tree the way to the root that is walked for the cycle test visits
exactly the proper ancestors.
-/

namespace EndpointTrace

namespace CallNode

def unmarked (node : CallNode) : CallNode :=
  { node with stopped := none }

end CallNode

namespace CallTree

structure WellFormed (tree : CallTree) : Prop where
  root : ∃ node, tree.node? 0 = some node ∧ node.parent = none ∧ node.depth = 0
  below : ∀ {id : Nat} {node : CallNode}, tree.node? id = some node → id ≠ 0 →
    ∃ parent above, node.parent = some parent ∧ parent < id ∧
      tree.node? parent = some above ∧ node.depth = above.depth + 1 ∧ id ∈ above.children
  child : ∀ {id child : Nat} {node : CallNode}, tree.node? id = some node →
    child ∈ node.children →
      ∃ below, tree.node? child = some below ∧ below.parent = some id
  ordered : ∀ {id : Nat} {node : CallNode}, tree.node? id = some node →
    node.children.Pairwise (· < ·)

theorem wellFormed_ofRoot (root : Identity) : (ofRoot root).WellFormed where
  root := ⟨_, rfl, rfl, rfl⟩
  below := by
    intro id node hnode hid
    exact absurd (node?_ofRoot hnode).1 hid
  child := by
    intro id child node hnode hchild
    rw [(node?_ofRoot hnode).2] at hchild
    cases hchild
  ordered := by
    intro id node hnode
    rw [(node?_ofRoot hnode).2]
    exact List.Pairwise.nil

/-!
## Marks
-/

/-- Two trees that differ in their marks only. -/
def SameShape (tree other : CallTree) : Prop :=
  ∀ id, (other.node? id).map CallNode.unmarked = (tree.node? id).map CallNode.unmarked

theorem sameShape_stop (tree : CallTree) (reason : StopReason) (id : Nat) :
    tree.SameShape (tree.stop reason id) := by
  intro other
  rw [node?_stop]
  split
  · rw [Option.map_map]
    rfl
  · rfl

theorem sameShape_stopAll (tree : CallTree) (reason : StopReason) (ids : List Nat) :
    tree.SameShape (tree.stopAll reason ids) := by
  intro other
  rw [node?_stopAll]
  split
  · rw [Option.map_map]
    rfl
  · rfl

namespace SameShape

theorem symm {tree other : CallTree} (hshape : tree.SameShape other) :
    other.SameShape tree :=
  fun id => (hshape id).symm

theorem node? {tree other : CallTree} (hshape : tree.SameShape other) {id : Nat}
    {node : CallNode} (hnode : other.node? id = some node) :
    ∃ before, tree.node? id = some before ∧ before.origin = node.origin ∧
      before.children = node.children := by
  have hunmarked := hshape id
  rw [hnode] at hunmarked
  rcases Option.map_eq_some_iff.mp hunmarked.symm with ⟨before, hbefore, heq⟩
  have horigin : before.unmarked.origin = node.unmarked.origin := by
    rw [heq]
  have hchildren : before.unmarked.children = node.unmarked.children := by
    rw [heq]
  exact ⟨before, hbefore, horigin, hchildren⟩

theorem wellFormed {tree other : CallTree} (hshape : tree.SameShape other)
    (hformed : tree.WellFormed) : other.WellFormed where
  root := by
    rcases hformed.root with ⟨node, hnode, hparent, hdepth⟩
    rcases hshape.symm.node? hnode with ⟨later, hlater, horigin, _⟩
    refine ⟨later, hlater, ?_, ?_⟩
    · exact (congrArg NodeOrigin.parent horigin).trans hparent
    · exact (congrArg NodeOrigin.depth horigin).trans hdepth
  below := by
    intro id node hnode hid
    rcases hshape.node? hnode with ⟨before, hbefore, horigin, _⟩
    rcases hformed.below hbefore hid with
      ⟨parent, above, hparent, hlt, habove, hdepth, hmem⟩
    rcases hshape.symm.node? habove with ⟨later, hlater, hlaterOrigin, hlaterChildren⟩
    refine ⟨parent, later, ?_, hlt, hlater, ?_, ?_⟩
    · exact (congrArg NodeOrigin.parent horigin).symm.trans hparent
    · have hsame : later.depth = above.depth := congrArg NodeOrigin.depth hlaterOrigin
      rw [hsame, ← hdepth]
      exact (congrArg NodeOrigin.depth horigin).symm
    · rw [hlaterChildren]
      exact hmem
  child := by
    intro id child node hnode hchild
    rcases hshape.node? hnode with ⟨before, hbefore, _, hchildren⟩
    rw [← hchildren] at hchild
    rcases hformed.child hbefore hchild with ⟨below, hbelow, hparent⟩
    rcases hshape.symm.node? hbelow with ⟨later, hlater, horigin, _⟩
    exact ⟨later, hlater, (congrArg NodeOrigin.parent horigin).trans hparent⟩
  ordered := by
    intro id node hnode
    rcases hshape.node? hnode with ⟨before, hbefore, _, hchildren⟩
    rw [← hchildren]
    exact hformed.ordered hbefore

end SameShape

/-!
## New callees
-/

theorem node?_attach_of_node? {budget : Nat} {tree : CallTree} {id : Nat}
    (hid : id < tree.size) (calls : List OutgoingCall) {other : Nat} {node : CallNode}
    (hnode : tree.node? other = some node) :
    ∃ later, (attach budget tree id calls).1.node? other = some later ∧
      later.origin = node.origin ∧ node.children ⊆ later.children := by
  rw [node?_attach budget tree hid]
  by_cases hsame : other = id
  · rw [if_pos hsame, ← hsame, hnode]
    exact ⟨_, rfl, rfl, List.subset_append_left _ _⟩
  · rw [if_neg hsame, if_pos (lt_size_of_node? hnode)]
    exact ⟨node, hnode, rfl, fun _ hmem => hmem⟩

theorem WellFormed.child_lt_size {tree : CallTree} (hformed : tree.WellFormed)
    {id child : Nat} {node : CallNode} (hnode : tree.node? id = some node)
    (hchild : child ∈ node.children) : child < tree.size := by
  rcases hformed.child hnode hchild with ⟨below, hbelow, _⟩
  exact lt_size_of_node? hbelow

theorem WellFormed.below_attach {budget : Nat} {tree : CallTree} (hformed : tree.WellFormed)
    {id : Nat} (hid : id < tree.size) {calls : List OutgoingCall} {other : Nat}
    {node : CallNode} (hnode : (attach budget tree id calls).1.node? other = some node)
    (hother : other ≠ 0) :
    ∃ parent above, node.parent = some parent ∧ parent < other ∧
      (attach budget tree id calls).1.node? parent = some above ∧
      node.depth = above.depth + 1 ∧ other ∈ above.children := by
  -- a node that was there before still has its parent
  have hold : ∀ before, tree.node? other = some before → before.origin = node.origin →
      ∃ parent above, node.parent = some parent ∧ parent < other ∧
        (CallTree.attach budget tree id calls).1.node? parent = some above ∧
        node.depth = above.depth + 1 ∧ other ∈ above.children := by
    intro before hbefore horigin
    rcases hformed.below hbefore hother with
      ⟨parent, above, hparent, hlt, habove, hdepth, hmem⟩
    rcases node?_attach_of_node? hid calls habove with
      ⟨later, hlater, hlaterOrigin, hsubset⟩
    refine ⟨parent, later, ?_, hlt, hlater, ?_, hsubset hmem⟩
    · exact (congrArg NodeOrigin.parent horigin).symm.trans hparent
    · have hsame : later.depth = above.depth := congrArg NodeOrigin.depth hlaterOrigin
      rw [hsame, ← hdepth]
      exact (congrArg NodeOrigin.depth horigin).symm
  rcases node?_attach_cases hid hnode with
    ⟨heq, before, hbefore, rfl⟩ | ⟨_, hbefore⟩ | ⟨hle, call, hcall, rfl⟩
  · exact hold before (heq ▸ hbefore) rfl
  · exact hold node hbefore rfl
  · rcases exists_node?_of_lt hid with ⟨above, habove⟩
    have hcount := (List.getElem?_eq_some_iff.mp hcall).1
    refine ⟨id, tree.extended (tree.admitted budget calls).length
      (decide (budget - tree.size < calls.length)) above, rfl, by omega, ?_, ?_, ?_⟩
    · rw [node?_attach budget tree hid, if_pos rfl, habove]
      rfl
    · show tree.depth id + 1 = above.depth + 1
      rw [depth_of_node? habove]
    · apply List.mem_append_right
      rw [List.mem_range'_1]
      omega

theorem WellFormed.child_attach {budget : Nat} {tree : CallTree} (hformed : tree.WellFormed)
    {id : Nat} (hid : id < tree.size) {calls : List OutgoingCall} {other child : Nat}
    {node : CallNode} (hnode : (attach budget tree id calls).1.node? other = some node)
    (hchild : child ∈ node.children) :
    ∃ below, (attach budget tree id calls).1.node? child = some below ∧
      below.parent = some other := by
  have hold : ∀ below, tree.node? child = some below → below.parent = some other →
      ∃ later, (CallTree.attach budget tree id calls).1.node? child = some later ∧
        later.parent = some other := by
    intro below hbelow hparent
    rcases node?_attach_of_node? hid calls hbelow with ⟨later, hlater, horigin, _⟩
    exact ⟨later, hlater, (congrArg NodeOrigin.parent horigin).trans hparent⟩
  rcases node?_attach_cases hid hnode with
    ⟨heq, before, hbefore, rfl⟩ | ⟨_, hbefore⟩ | ⟨_, call, _, rfl⟩
  · rcases List.mem_append.mp hchild with hmem | hnew
    · rcases hformed.child hbefore hmem with ⟨below, hbelow, hparent⟩
      exact hold below hbelow (heq ▸ hparent)
    · rw [List.mem_range'_1] at hnew
      have hcount : child - tree.size < (tree.admitted budget calls).length := by
        omega
      refine ⟨tree.newcomer id (tree.admitted budget calls)[child - tree.size], ?_, ?_⟩
      · rw [node?_attach budget tree hid, if_neg (by omega), if_neg (by omega),
          List.getElem?_eq_getElem hcount]
        rfl
      · rw [heq]
        rfl
  · rcases hformed.child hbefore hchild with ⟨below, hbelow, hparent⟩
    exact hold below hbelow hparent
  · cases hchild

theorem WellFormed.attach {budget : Nat} {tree : CallTree} (hformed : tree.WellFormed)
    {id : Nat} (hid : id < tree.size) (calls : List OutgoingCall) :
    (attach budget tree id calls).1.WellFormed where
  root := by
    rcases hformed.root with ⟨node, hnode, hparent, hdepth⟩
    rcases node?_attach_of_node? hid calls hnode with ⟨later, hlater, horigin, _⟩
    refine ⟨later, hlater, ?_, ?_⟩
    · exact (congrArg NodeOrigin.parent horigin).trans hparent
    · exact (congrArg NodeOrigin.depth horigin).trans hdepth
  below := by
    intro other node hnode hother
    exact hformed.below_attach hid hnode hother
  child := by
    intro other child node hnode hchild
    exact hformed.child_attach hid hnode hchild
  ordered := by
    intro other node hnode
    rcases node?_attach_cases hid hnode with
      ⟨_, before, hbefore, rfl⟩ | ⟨_, hbefore⟩ | ⟨_, call, _, rfl⟩
    · apply List.pairwise_append.mpr
      refine ⟨hformed.ordered hbefore, List.pairwise_lt_range', ?_⟩
      intro child hmem new hnew
      have hlt := hformed.child_lt_size hbefore hmem
      rw [List.mem_range'_1] at hnew
      omega
    · exact hformed.ordered hbefore
    · exact List.Pairwise.nil

/-!
## Ancestors
-/

/-- A node that is met on the way from another one to the root. -/
inductive Ancestor (tree : CallTree) (above : Nat) : Nat → Prop where
  | parent {id : Nat} {node : CallNode} (hnode : tree.node? id = some node)
      (hparent : node.parent = some above) : Ancestor tree above id
  | further {id parent : Nat} {node : CallNode} (hnode : tree.node? id = some node)
      (hparent : node.parent = some parent) (habove : Ancestor tree above parent) :
      Ancestor tree above id

theorem WellFormed.parent_lt {tree : CallTree} (hformed : tree.WellFormed)
    {id parent : Nat} {node : CallNode} (hnode : tree.node? id = some node)
    (hparent : node.parent = some parent) :
    parent < id ∧ ∃ above, tree.node? parent = some above ∧
      node.depth = above.depth + 1 ∧ id ∈ above.children := by
  have hid : id ≠ 0 := by
    intro hzero
    rcases hformed.root with ⟨root, hroot, hnone, _⟩
    rw [hzero, hroot] at hnode
    rw [Option.some.inj hnode, hparent] at hnone
    cases hnone
  rcases hformed.below hnode hid with
    ⟨found, above, hfound, hlt, habove, hdepth, hmem⟩
  rw [hparent] at hfound
  cases hfound
  exact ⟨hlt, above, habove, hdepth, hmem⟩

theorem WellFormed.lineage_eq {tree : CallTree} (hformed : tree.WellFormed) {id : Nat}
    {node : CallNode} (hnode : tree.node? id = some node) :
    tree.lineage id = node.identity :: (tree.lineage id).tail := by
  cases hparent : node.parent with
  | none =>
      rw [lineage_root hnode hparent]
      rfl
  | some parent =>
      rw [lineage_child hnode hparent (hformed.parent_lt hnode hparent).1]
      rfl

theorem WellFormed.mem_tail_lineage {tree : CallTree} (hformed : tree.WellFormed)
    {id : Nat} {node : CallNode} (hnode : tree.node? id = some node)
    (identity : Identity) :
    identity ∈ (tree.lineage id).tail ↔
      ∃ above ancestor, tree.Ancestor above id ∧ tree.node? above = some ancestor ∧
        ancestor.identity = identity := by
  induction id using Nat.strongRecOn generalizing node with
  | ind id ih =>
      cases hparent : node.parent with
      | none =>
          rw [lineage_root hnode hparent]
          constructor
          · intro hmem
            cases hmem
          · rintro ⟨above, _, hancestor, _⟩
            have hother : ∃ parent, node.parent = some parent := by
              cases hancestor with
              | parent hfound hsome =>
                  rw [hnode] at hfound
                  exact ⟨_, Option.some.inj hfound ▸ hsome⟩
              | further hfound hsome _ =>
                  rw [hnode] at hfound
                  exact ⟨_, Option.some.inj hfound ▸ hsome⟩
            rcases hother with ⟨parent, hsome⟩
            rw [hparent] at hsome
            cases hsome
      | some parent =>
          rcases hformed.parent_lt hnode hparent with ⟨hlt, above, habove, _⟩
          rw [lineage_child hnode hparent hlt, List.tail_cons, hformed.lineage_eq habove,
            List.mem_cons, ih parent hlt habove]
          constructor
          · rintro (hself | ⟨found, ancestor, hancestor, hfound, heq⟩)
            · exact ⟨parent, above, Ancestor.parent hnode hparent, habove, hself.symm⟩
            · exact ⟨found, ancestor, Ancestor.further hnode hparent hancestor, hfound, heq⟩
          · rintro ⟨found, ancestor, hancestor, hfound, heq⟩
            cases hancestor with
            | parent hagain hsome =>
                rw [hnode] at hagain
                cases hagain
                rw [hparent] at hsome
                cases hsome
                rw [habove] at hfound
                cases hfound
                exact Or.inl heq.symm
            | further hagain hsome hfurther =>
                rw [hnode] at hagain
                cases hagain
                rw [hparent] at hsome
                cases hsome
                exact Or.inr ⟨found, ancestor, hfurther, hfound, heq⟩

theorem WellFormed.children_ne_nil {tree : CallTree} (hformed : tree.WellFormed)
    {above id : Nat} (hancestor : tree.Ancestor above id) {node : CallNode}
    (hnode : tree.node? above = some node) : node.children ≠ [] := by
  induction hancestor with
  | parent hfound hparent =>
      rcases (hformed.parent_lt hfound hparent).2 with ⟨found, habove, _, hmem⟩
      rw [hnode] at habove
      cases habove
      exact List.ne_nil_of_mem hmem
  | further _ _ _ ih =>
      exact ih

end CallTree

end EndpointTrace
