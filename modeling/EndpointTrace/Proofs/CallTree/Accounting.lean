import Mathlib
import EndpointTrace.Proofs.CallTree.Soundness

/-!
# Every node of a call tree is accounted for

In a tree whose making has ended, the marks of the nodes and the questions that were
asked on the way explain each other.  An unmarked node has exactly the callees that
were answered for it; a callee is left out only where the mark of its caller says that
the budget was spent; a node with any other mark is a leaf; and the mark of a cycle
stands exactly where an identity is met again on the way from the root.

The law speaks of every oracle, whatever it answers and however long it takes, and of
every run, cancelled at whatever point.
-/

namespace EndpointTrace

namespace CallTree

/-- One inquiry was made about a node, and this is how it was answered. -/
def AskedOnce (inquiries : List Inquiry) (id : Nat) (node : CallNode)
    (answer : Except Failure (List OutgoingCall)) : Prop :=
  ∃ inquiry, inquiriesAbout inquiries id = [inquiry] ∧
    inquiry.identity = node.identity ∧ inquiry.answer = answer

structure Accounted (limits : CallLimits) (tree : CallTree) (inquiries : List Inquiry) :
    Prop where
  /-- An unmarked node has the callees of its only answer as its children. -/
  expanded : ∀ {id : Nat} {node : CallNode}, tree.node? id = some node →
    node.stopped = none →
      ∃ calls, AskedOnce inquiries id node (.ok calls) ∧
        tree.callees node = calls.map some
  /-- A node cut short by the budget has a strict beginning of its answer, and the tree
  is as large as the budget allows. -/
  cut : ∀ {id : Nat} {node : CallNode}, tree.node? id = some node →
    node.stopped = some .nodeLimit →
      ∃ taken dropped, AskedOnce inquiries id node (.ok (taken ++ dropped)) ∧
        dropped ≠ [] ∧ tree.callees node = taken.map some ∧ tree.size = limits.budget
  leaf : ∀ {id : Nat} {node : CallNode}, tree.node? id = some node →
    node.stopped ∈ [some .cycle, some .depthLimit, some .cancelled, some .oracleFailure] →
      node.children = []
  cycle : ∀ {id : Nat} {node : CallNode}, tree.node? id = some node →
    (node.stopped = some .cycle ↔
      ∃ above ancestor, tree.Ancestor above id ∧ tree.node? above = some ancestor ∧
        node.identity.same ancestor.identity = true)
  /-- An identity is met again on one way down only at a leaf that ends it. -/
  distinct : ∀ {above id : Nat} {ancestor node : CallNode}, tree.Ancestor above id →
    tree.node? above = some ancestor → tree.node? id = some node →
    node.identity.same ancestor.identity = true →
      node.stopped = some .cycle ∧ ∀ below, ¬ tree.Ancestor id below
  depthLimit : ∀ {id : Nat} {node : CallNode}, tree.node? id = some node →
    node.stopped = some .depthLimit → node.depth = limits.maxDepth
  /-- No callee of an answer is left out without a mark on its caller. -/
  kept : ∀ {inquiry : Inquiry} {calls : List OutgoingCall}, inquiry ∈ inquiries →
    inquiry.answer = .ok calls →
      ∃ node, tree.node? inquiry.node = some node ∧
        (tree.callees node = calls.map some ∨ node.stopped = some .nodeLimit)

/-!
## From the marks
-/

theorem mark_ne_nodeLimit {failure : Failure} :
    (if failure.isCancelled then StopReason.cancelled else .oracleFailure) ≠ .nodeLimit := by
  split
  · exact StopReason.noConfusion
  · exact StopReason.noConfusion

section

variable {limits : CallLimits} {tree : CallTree} {inquiries : List Inquiry} {id : Nat}
  {node : CallNode}

theorem Settled.expanded (hsettled : tree.Settled limits inquiries id node)
    (hmark : node.stopped = none) :
    ∃ calls, AskedOnce inquiries id node (.ok calls) ∧
      tree.callees node = calls.map some := by
  cases hsettled with
  | @answered inquiry taken dropped hasked hidentity _ hanswer hcallees hstopped _ =>
      have hdropped : dropped = [] := by
        by_cases hempty : dropped = []
        · exact hempty
        · rw [if_neg hempty, hmark] at hstopped
          cases hstopped
      rw [hdropped, List.append_nil] at hanswer
      exact ⟨taken, ⟨inquiry, hasked, hidentity, hanswer⟩, hcallees⟩
  | unanswered _ _ _ _ hstopped _ =>
      rw [hmark] at hstopped
      cases hstopped
  | unasked _ hstopped _ _ =>
      rw [hmark] at hstopped
      cases hstopped

theorem Settled.cut (hsettled : tree.Settled limits inquiries id node)
    (hmark : node.stopped = some .nodeLimit) :
    ∃ taken dropped, AskedOnce inquiries id node (.ok (taken ++ dropped)) ∧
      dropped ≠ [] ∧ tree.callees node = taken.map some ∧ tree.size = limits.budget := by
  cases hsettled with
  | @answered inquiry taken dropped hasked hidentity _ hanswer hcallees hstopped hfull =>
      have hdropped : dropped ≠ [] := by
        intro hempty
        rw [if_pos hempty, hmark] at hstopped
        cases hstopped
      exact ⟨taken, dropped, ⟨inquiry, hasked, hidentity, hanswer⟩, hdropped, hcallees,
        hfull hdropped⟩
  | unanswered _ _ _ _ hstopped _ =>
      rw [hmark] at hstopped
      exact absurd (Option.some.inj hstopped).symm mark_ne_nodeLimit
  | unasked _ hstopped hreason _ =>
      rw [hmark] at hstopped
      cases hstopped
      rcases hreason with hcycle | hcancelled | ⟨hdeep, _⟩
      · cases hcycle
      · cases hcancelled
      · cases hdeep

theorem Settled.leaf (hsettled : tree.Settled limits inquiries id node)
    (hmark : node.stopped ≠ none) (hcut : node.stopped ≠ some .nodeLimit) :
    node.children = [] := by
  cases hsettled with
  | @answered _ _ dropped _ _ _ _ _ hstopped _ =>
      by_cases hempty : dropped = []
      · rw [if_pos hempty] at hstopped
        exact absurd hstopped hmark
      · rw [if_neg hempty] at hstopped
        exact absurd hstopped hcut
  | unanswered _ _ _ _ _ hleaf =>
      exact hleaf
  | unasked _ _ _ hleaf =>
      exact hleaf

theorem Settled.depth_eq (hsettled : tree.Settled limits inquiries id node)
    (hmark : node.stopped = some .depthLimit) : node.depth = limits.maxDepth := by
  cases hsettled with
  | @answered _ _ dropped _ _ _ _ _ hstopped _ =>
      rw [hmark] at hstopped
      split at hstopped
      · cases hstopped
      · cases hstopped
  | unanswered _ _ _ _ hstopped _ =>
      rw [hmark] at hstopped
      split at hstopped
      · cases hstopped
      · cases hstopped
  | unasked _ hstopped hreason _ =>
      rw [hmark] at hstopped
      cases hstopped
      rcases hreason with hcycle | hcancelled | ⟨_, hdepth⟩
      · cases hcycle
      · cases hcancelled
      · exact hdepth

theorem Settled.kept (hsettled : tree.Settled limits inquiries id node)
    {inquiry : Inquiry} (hmem : inquiry ∈ inquiriesAbout inquiries id)
    {calls : List OutgoingCall} (hanswer : inquiry.answer = .ok calls) :
    tree.callees node = calls.map some ∨ node.stopped = some .nodeLimit := by
  cases hsettled with
  | @answered _ taken dropped hasked _ _ hfound hcallees hstopped _ =>
      rw [hasked, List.mem_singleton] at hmem
      rw [hmem, hfound] at hanswer
      by_cases hempty : dropped = []
      · cases hanswer
        rw [hempty, List.append_nil]
        exact Or.inl hcallees
      · rw [if_neg hempty] at hstopped
        exact Or.inr hstopped
  | unanswered hasked _ _ hfound _ _ =>
      rw [hasked, List.mem_singleton] at hmem
      rw [hmem, hfound] at hanswer
      cases hanswer
  | unasked hasked _ _ _ =>
      rw [hasked] at hmem
      cases hmem

end

end CallTree

/-!
## A small program

Posting to a ledger looks something up, posts again and stores the result.  The laws of
this development are tried on its call trees.
-/

def CallTree.marks (tree : CallTree) : List (Option StopReason) :=
  tree.nodes.toList.map CallNode.stopped

namespace Ledger

def callable (name : String) : Identity :=
  ⟨name, "Ledger", ⟨⟨"Ledger.java"⟩, ⟨0, 0⟩⟩⟩

def call (name : String) : OutgoingCall :=
  ⟨callable name, []⟩

def place : Location :=
  ⟨⟨"Ledger.java"⟩, ⟨0, 0⟩⟩

/-- Looking something up takes too long for a guard that waits for a second. -/
def oracle : Oracle Unit :=
  .fixed (fun _ _ => .immediate (.ok [callable "post"]))
    fun identity =>
      match identity.name with
      | "post" => .immediate (.ok [call "lookup", call "post", call "store"])
      | "lookup" => ⟨[.wait 2000], .ok [call "cache"]⟩
      | "store" => ⟨[.wait 10], .ok [call "encode", call "write"]⟩
      | _ => .immediate (.ok [])

theorem eq_of_result {α : Type} {result : Except Failure (Option CallTree)}
    {tree : CallTree} (hresult : result = .ok (some tree)) {f : CallTree → α} {value : α}
    (hvalue : result.map (Option.map f) = .ok (some value)) : f tree = value := by
  rw [hresult] at hvalue
  injection hvalue with hvalue
  exact Option.some.inj hvalue

end Ledger

/-!
## The law
-/

namespace Expansion

variable {σ : Type} {limits : CallLimits} {guard : Guard} {oracle : Oracle σ}

theorem Shaped.cycle_iff {state : Expansion σ} (hshaped : state.Shaped limits) {id : Nat}
    {node : CallNode} (hnode : state.tree.node? id = some node) :
    node.stopped = some .cycle ↔
      ∃ above ancestor, state.tree.Ancestor above id ∧
        state.tree.node? above = some ancestor ∧
          node.identity.same ancestor.identity = true := by
  rw [hshaped.cycle hnode, CallTree.repeated, List.any_eq_true]
  constructor
  · rintro ⟨identity, hmem, hsame⟩
    rcases (hshaped.formed.mem_tail_lineage hnode identity).mp hmem with
      ⟨above, ancestor, habove, hfound, rfl⟩
    exact ⟨above, ancestor, habove, hfound, hsame⟩
  · rintro ⟨above, ancestor, habove, hfound, hsame⟩
    exact ⟨ancestor.identity, (hshaped.formed.mem_tail_lineage hnode _).mpr
      ⟨above, ancestor, habove, hfound, rfl⟩, hsame⟩

theorem Sound.accounted {state : Expansion σ} (hsound : state.Sound limits)
    (hdone : state.pending = []) : state.tree.Accounted limits state.inquiries := by
  have hsettled : ∀ {id node}, state.tree.node? id = some node →
      state.tree.Settled limits state.inquiries id node := by
    intro id node hnode
    apply hsound.settled hnode
    rw [hdone]
    exact List.not_mem_nil
  have hleaf : ∀ {id node}, state.tree.node? id = some node → node.stopped = some .cycle →
      node.children = [] := by
    intro id node hnode hmark
    apply (hsettled hnode).leaf
    · rw [hmark]
      exact Option.some_ne_none _
    · rw [hmark]
      simp
  constructor
  · intro id node hnode hmark
    exact (hsettled hnode).expanded hmark
  · intro id node hnode hmark
    exact (hsettled hnode).cut hmark
  · intro id node hnode hmark
    apply (hsettled hnode).leaf
    · intro hnone
      simp [hnone] at hmark
    · intro hcut
      simp [hcut] at hmark
  · intro id node hnode
    exact hsound.shaped.cycle_iff hnode
  · intro above id ancestor node habove hfound hnode hsame
    have hmark := (hsound.shaped.cycle_iff hnode).mpr
      ⟨above, ancestor, habove, hfound, hsame⟩
    refine ⟨hmark, ?_⟩
    intro below hbelow
    exact hsound.shaped.formed.children_ne_nil hbelow hnode (hleaf hnode hmark)
  · intro id node hnode hmark
    exact (hsettled hnode).depth_eq hmark
  · intro inquiry calls hmem hanswer
    rcases CallTree.exists_node?_of_lt (hsound.shaped.asked hmem) with ⟨node, hnode⟩
    have habout : inquiry ∈ inquiriesAbout state.inquiries inquiry.node := by
      simp [inquiriesAbout, hmem]
    exact ⟨node, hnode, (hsettled hnode).kept habout hanswer⟩

end Expansion

namespace CallTree

/-- Every tree that is built accounts for all its nodes, and so does every tree that is
left when the run is cancelled between any two rounds. -/
theorem build_accounted {σ : Type} (limits : CallLimits) (guard : Guard)
    (oracle : Oracle σ) (location : Location) (state : σ) (moment : Moment) :
    (∀ tree, (build limits guard oracle location state moment).result = .ok (some tree) →
      tree.Accounted limits (build limits guard oracle location state moment).inquiries) ∧
    (∀ start final, Resolves guard oracle location state moment start →
      Expansion.Run limits guard oracle start final →
        final.tree.Accounted limits final.inquiries) := by
  have hruns : ∀ start final, Resolves guard oracle location state moment start →
      Expansion.Run limits guard oracle start final →
        final.tree.Accounted limits final.inquiries := by
    intro start final hstart hrun
    exact (hrun.sound hstart.sound).accounted hrun.pending
  refine ⟨?_, hruns⟩
  intro tree hbuilt
  rcases resolves_of_build hbuilt with ⟨start, hstart⟩
  rw [build_of_resolves hstart] at hbuilt ⊢
  cases hbuilt
  exact hruns start _ hstart (Expansion.run_finish limits guard oracle start)

theorem build_accounted_ledger :
    ∃ tree,
      (build ⟨6, 4⟩ ⟨1000, none⟩ Ledger.oracle Ledger.place () .start).result
        = .ok (some tree) ∧
      tree.marks = [none, some .oracleFailure, some .cycle, some .nodeLimit] ∧
      tree.Accounted ⟨6, 4⟩
        (build ⟨6, 4⟩ ⟨1000, none⟩ Ledger.oracle Ledger.place () .start).inquiries ∧
      ∃ start final, Resolves ⟨1000, none⟩ Ledger.oracle Ledger.place () .start start ∧
        Expansion.Run ⟨6, 4⟩ ⟨1000, none⟩ Ledger.oracle start final ∧
          final.moment.cancelled = true ∧ final.tree.Accounted ⟨6, 4⟩ final.inquiries := by
  have haccounted := build_accounted ⟨6, 4⟩ ⟨1000, none⟩ Ledger.oracle Ledger.place () .start
  have hresolves : Resolves ⟨1000, none⟩ Ledger.oracle Ledger.place () .start
      (.ofRoot (Ledger.callable "post") .start ()) :=
    ⟨by decide, rfl, Ledger.callable "post", [], rfl, rfl⟩
  have hrun := Expansion.Run.cancelled (Expansion.run_finish ⟨6, 4⟩ ⟨1000, none⟩
    Ledger.oracle (Expansion.ofRoot (Ledger.callable "post") .start ()).cancel)
  exact ⟨_, by cbv, rfl, haccounted.1 _ (by cbv), _, _, hresolves, hrun, by cbv,
    haccounted.2 _ _ hresolves hrun⟩

end CallTree

end EndpointTrace
