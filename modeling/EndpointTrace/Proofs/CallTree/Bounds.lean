import EndpointTrace.Proofs.CallTree.Soundness
import Mathlib

/-!
# Bounds of call trees

Whatever the oracle answers, what is built is a tree: its nodes are numbered from the root
down, every other node is listed by its parent and by no other node, and neither the depth
nor the number of nodes goes beyond the limits.  Nothing is asked twice about a node, so the
budget bounds the questions too, and it bounds the rounds, however deep the tree may grow
and however many fresh callees an oracle comes up with.
-/

namespace EndpointTrace

namespace CallTree

def listed (tree : CallTree) : List Nat :=
  tree.nodes.toList.flatMap CallNode.children

structure Bounded (limits : CallLimits) (tree : CallTree) : Prop where
  root : ∃ node, tree.node? 0 = some node ∧ node.depth = 0
  /-- The root is the only node without a parent. -/
  parentless : ∀ {id : Nat} {node : CallNode}, tree.node? id = some node →
    (node.parent = none ↔ id = 0)
  below : ∀ {id parent : Nat} {node : CallNode}, tree.node? id = some node →
    node.parent = some parent →
      parent < id ∧ ∃ above, tree.node? parent = some above ∧
        node.depth = above.depth + 1 ∧ id ∈ above.children
  /-- Every node but the root is listed once among the children of all nodes. -/
  once : tree.listed.Perm (List.range' 1 (tree.size - 1))
  ordered : ∀ {id : Nat} {node : CallNode}, tree.node? id = some node →
    node.children.Pairwise (· < ·)
  depth_le : ∀ {id : Nat} {node : CallNode}, tree.node? id = some node →
    node.depth ≤ limits.maxDepth
  size_le : tree.size ≤ limits.budget

/-- The questions were about nodes of the tree, each about another one. -/
structure AskedWithin (limits : CallLimits) (tree : CallTree) (inquiries : List Inquiry) :
    Prop where
  about : ∀ inquiry ∈ inquiries, ∃ node, tree.node? inquiry.node = some node ∧
    inquiry.identity = node.identity
  once : (inquiries.map Inquiry.node).Nodup
  length_le : inquiries.length ≤ limits.budget

/-!
## Children
-/

section

variable {tree : CallTree}

theorem mem_listed {child : Nat} :
    child ∈ tree.listed ↔ ∃ id node, tree.node? id = some node ∧ child ∈ node.children := by
  rw [listed, List.mem_flatMap]
  constructor
  · rintro ⟨node, hnode, hchild⟩
    rcases List.mem_iff_getElem?.mp hnode with ⟨id, hid⟩
    rw [Array.getElem?_toList] at hid
    exact ⟨id, node, hid, hchild⟩
  · rintro ⟨id, node, hnode, hchild⟩
    refine ⟨node, ?_, hchild⟩
    rw [Array.mem_toList_iff]
    exact Array.mem_of_getElem? hnode

variable (hformed : tree.WellFormed)

include hformed

theorem WellFormed.nodup_listed : tree.listed.Nodup := by
  apply List.nodup_flatMap.mpr
  constructor
  · intro node hnode
    rcases List.mem_iff_getElem?.mp hnode with ⟨id, hid⟩
    rw [Array.getElem?_toList] at hid
    exact (hformed.ordered hid).imp fun hlt => Nat.ne_of_lt hlt
  · apply List.pairwise_iff_getElem.mpr
    intro first second hfirst hsecond hlt child hone hother
    have hnode : ∀ {id : Nat} (hid : id < tree.nodes.toList.length),
        tree.node? id = some tree.nodes.toList[id] := by
      intro id hid
      rw [node?, ← Array.getElem?_toList]
      exact List.getElem?_eq_getElem hid
    rcases hformed.child (hnode hfirst) hone with ⟨below, hbelow, hparent⟩
    rcases hformed.child (hnode hsecond) hother with ⟨again, hagain, hback⟩
    rw [hbelow] at hagain
    cases hagain
    rw [hparent] at hback
    have hsame := Option.some.inj hback
    omega

theorem WellFormed.mem_listed_iff {child : Nat} :
    child ∈ tree.listed ↔ child ≠ 0 ∧ child < tree.size := by
  rw [mem_listed]
  constructor
  · rintro ⟨id, node, hnode, hchild⟩
    rcases hformed.child hnode hchild with ⟨below, hbelow, hparent⟩
    have hlt := (hformed.parent_lt hbelow hparent).1
    exact ⟨by omega, lt_size_of_node? hbelow⟩
  · rintro ⟨hchild, hlt⟩
    rcases exists_node?_of_lt hlt with ⟨node, hnode⟩
    rcases hformed.below hnode hchild with ⟨parent, above, _, _, habove, _, hmem⟩
    exact ⟨parent, above, habove, hmem⟩

theorem WellFormed.listed_perm : tree.listed.Perm (List.range' 1 (tree.size - 1)) := by
  apply (List.perm_ext_iff_of_nodup hformed.nodup_listed List.nodup_range').mpr
  intro child
  rw [hformed.mem_listed_iff, List.mem_range'_1]
  omega

end

end CallTree

namespace Expansion

variable {σ : Type} {limits : CallLimits} {guard : Guard} {oracle : Oracle σ}

theorem Shaped.bounded {state : Expansion σ} (hshaped : state.Shaped limits) :
    state.tree.Bounded limits where
  root := by
    rcases hshaped.formed.root with ⟨node, hnode, _, hdepth⟩
    exact ⟨node, hnode, hdepth⟩
  parentless := by
    intro id node hnode
    constructor
    · intro hnone
      by_contra hid
      rcases hshaped.formed.below hnode hid with ⟨parent, _, hparent, _⟩
      rw [hnone] at hparent
      cases hparent
    · rintro rfl
      rcases hshaped.formed.root with ⟨root, hroot, hnone, _⟩
      rw [hnode] at hroot
      rw [Option.some.inj hroot]
      exact hnone
  below := fun hnode hparent => hshaped.formed.parent_lt hnode hparent
  once := hshaped.formed.listed_perm
  ordered := hshaped.formed.ordered
  depth_le := hshaped.depth_le
  size_le := hshaped.size_le

/-!
## Questions
-/

theorem Sound.asked_once {state : Expansion σ} (hsound : state.Sound limits)
    (hdone : state.pending = []) {id : Nat} {node : CallNode}
    (hnode : state.tree.node? id = some node) :
    inquiriesAbout state.inquiries id = [] ∨
      ∃ inquiry, inquiriesAbout state.inquiries id = [inquiry] ∧
        inquiry.identity = node.identity := by
  have hsettled : state.tree.Settled limits state.inquiries id node := by
    apply hsound.settled hnode
    rw [hdone]
    exact List.not_mem_nil
  cases hsettled with
  | @answered inquiry _ _ hasked hidentity _ _ _ _ _ =>
      exact Or.inr ⟨inquiry, hasked, hidentity⟩
  | @unanswered inquiry _ hasked hidentity _ _ _ _ =>
      exact Or.inr ⟨inquiry, hasked, hidentity⟩
  | unasked hasked _ _ _ =>
      exact Or.inl hasked

theorem Sound.askedWithin {state : Expansion σ} (hsound : state.Sound limits)
    (hdone : state.pending = []) :
    state.tree.AskedWithin limits state.inquiries := by
  have habout : ∀ inquiry ∈ state.inquiries, ∃ node,
      state.tree.node? inquiry.node = some node ∧ inquiry.identity = node.identity := by
    intro inquiry hmem
    rcases CallTree.exists_node?_of_lt (hsound.shaped.asked hmem) with ⟨node, hnode⟩
    refine ⟨node, hnode, ?_⟩
    have hamong : inquiry ∈ inquiriesAbout state.inquiries inquiry.node := by
      simp [inquiriesAbout, hmem]
    rcases hsound.asked_once hdone hnode with hnone | ⟨only, honly, hidentity⟩
    · rw [hnone] at hamong
      cases hamong
    · rw [honly, List.mem_singleton] at hamong
      rw [hamong]
      exact hidentity
  have honce : (state.inquiries.map Inquiry.node).Nodup := by
    apply List.nodup_iff_count_le_one.mpr
    intro id
    have hcount : (state.inquiries.map Inquiry.node).count id =
        (inquiriesAbout state.inquiries id).length := by
      rw [List.count_eq_countP, List.countP_map, List.countP_eq_length_filter]
      rfl
    rw [hcount]
    by_cases hid : id < state.tree.size
    · rcases CallTree.exists_node?_of_lt hid with ⟨node, hnode⟩
      rcases hsound.asked_once hdone hnode with hnone | ⟨only, honly, _⟩
      · rw [hnone]
        exact Nat.zero_le 1
      · rw [honly]
        exact Nat.le_refl 1
    · rw [hsound.shaped.inquiriesAbout_of_size_le (Nat.le_of_not_lt hid)]
      exact Nat.zero_le 1
  refine ⟨habout, honce, ?_⟩
  have hwithin : state.inquiries.map Inquiry.node ⊆ List.range state.tree.size := by
    intro id hid
    rcases List.mem_map.mp hid with ⟨inquiry, hmem, rfl⟩
    exact List.mem_range.mpr (hsound.shaped.asked hmem)
  have hlength := (List.subperm_of_subset honce hwithin).length_le
  rw [List.length_map, List.length_range] at hlength
  exact Nat.le_trans hlength hsound.shaped.size_le

/-!
## Rounds
-/

/-- The loop ends after as many rounds as there is work left. -/
theorem exists_rounds (limits : CallLimits) (guard : Guard) (oracle : Oracle σ)
    (state : Expansion σ) :
    ∃ rounds ≤ state.remaining limits.budget,
      state.finish limits guard oracle = (round limits guard oracle)^[rounds] state := by
  induction state using finish.induct limits guard oracle with
  | case1 state hpending =>
      exact ⟨0, Nat.zero_le _, finish_of_done hpending⟩
  | case2 state hpending ih =>
      rcases ih with ⟨rounds, hrounds, hfinish⟩
      have hlt := remaining_round_lt limits guard oracle hpending
      refine ⟨rounds + 1, by omega, ?_⟩
      rw [← finish_round limits guard oracle hpending, hfinish, Function.iterate_succ_apply]

theorem remaining_ofRoot (limits : CallLimits) (root : Identity) (moment : Moment)
    (memory : σ) : (ofRoot root moment memory).remaining limits.budget = limits.budget := by
  have hroom : 1 ≤ limits.budget := Nat.le_max_right _ _
  have hone : (ofRoot root moment memory).pending.length = 1 := rfl
  have hsize : (ofRoot root moment memory).tree.size = 1 := rfl
  rw [remaining, hone, hsize]
  omega

end Expansion

/-!
## An endless program
-/

namespace Endless

def callable (line : Nat) : Identity :=
  ⟨"next", "Endless", ⟨⟨"Endless.java"⟩, ⟨line, 0⟩⟩⟩

def oracle : Oracle Nat where
  prepare _ _ line := (.immediate (.ok [callable line]), line + 1)
  outgoing _ line :=
    (.immediate (.ok [⟨callable line, []⟩, ⟨callable (line + 1), []⟩,
      ⟨callable (line + 2), []⟩]), line + 3)

end Endless

namespace CallTree

/-- Every tree that is built, or left when the run is cancelled between any two rounds, is a
tree within the limits, and so are the questions that were asked; the loop that builds it
ends after at most as many rounds as there is room for nodes. -/
theorem build_bounded {σ : Type} (limits : CallLimits) (guard : Guard) (oracle : Oracle σ)
    (location : Location) (state : σ) (moment : Moment) :
    (∀ tree, (build limits guard oracle location state moment).result = .ok (some tree) →
      tree.Bounded limits ∧
        tree.AskedWithin limits (build limits guard oracle location state moment).inquiries) ∧
    (∀ start, Resolves guard oracle location state moment start →
      (∀ final, Expansion.Run limits guard oracle start final →
        final.tree.Bounded limits ∧ final.tree.AskedWithin limits final.inquiries) ∧
      ∃ rounds ≤ limits.budget,
        ((Expansion.round limits guard oracle)^[rounds] start).pending = [] ∧
        (build limits guard oracle location state moment).result =
          .ok (some ((Expansion.round limits guard oracle)^[rounds] start).tree)) := by
  have hruns : ∀ start, Resolves guard oracle location state moment start →
      ∀ final, Expansion.Run limits guard oracle start final →
        final.tree.Bounded limits ∧ final.tree.AskedWithin limits final.inquiries := by
    intro start hstart final hrun
    have hsound : final.Sound limits := hrun.sound hstart.sound
    exact ⟨hsound.shaped.bounded, hsound.askedWithin hrun.pending⟩
  constructor
  · intro tree hbuilt
    rcases resolves_of_build hbuilt with ⟨start, hstart⟩
    rw [build_of_resolves hstart] at hbuilt ⊢
    cases hbuilt
    exact hruns start hstart _ (Expansion.run_finish limits guard oracle start)
  · intro start hstart
    refine ⟨hruns start hstart, ?_⟩
    rcases Expansion.exists_rounds limits guard oracle start with ⟨rounds, hrounds, hfinish⟩
    have hroom : start.remaining limits.budget = limits.budget := by
      rcases hstart with ⟨_, _, root, _, _, rfl⟩
      exact Expansion.remaining_ofRoot limits root _ _
    have hpending := (Expansion.run_finish limits guard oracle start).pending
    rw [hroom] at hrounds
    rw [hfinish] at hpending
    refine ⟨rounds, hrounds, hpending, ?_⟩
    rw [build_of_resolves hstart, hfinish]

theorem build_bounded_endless :
    ∃ tree start,
      (build ⟨1000000, 6⟩ ⟨1000, none⟩ Endless.oracle ⟨⟨"Endless.java"⟩, ⟨0, 0⟩⟩ 0
        .start).result = .ok (some tree) ∧
      tree.listed = [1, 2, 3, 4, 5] ∧ tree.Bounded ⟨1000000, 6⟩ ∧
      Resolves ⟨1000, none⟩ Endless.oracle ⟨⟨"Endless.java"⟩, ⟨0, 0⟩⟩ 0 .start start ∧
      ∃ rounds ≤ 6, ((Expansion.round ⟨1000000, 6⟩ ⟨1000, none⟩ Endless.oracle)^[rounds]
        start).pending = [] := by
  have hbounded := build_bounded ⟨1000000, 6⟩ ⟨1000, none⟩ Endless.oracle
    ⟨⟨"Endless.java"⟩, ⟨0, 0⟩⟩ 0 .start
  have hresolves : Resolves ⟨1000, none⟩ Endless.oracle ⟨⟨"Endless.java"⟩, ⟨0, 0⟩⟩ 0 .start
      (.ofRoot (Endless.callable 0) .start 1) :=
    ⟨by decide, rfl, Endless.callable 0, [], rfl, rfl⟩
  rcases (hbounded.2 _ hresolves).2 with ⟨rounds, hrounds, hpending, _⟩
  exact ⟨_, _, by cbv, by cbv, (hbounded.1 _ (by cbv)).1, hresolves, rounds, hrounds, hpending⟩

end CallTree

end EndpointTrace
