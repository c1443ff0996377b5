import EndpointTrace.Proofs.CallTree.WellFormed

/-!
# Sound expansions

While a tree is made, every node is either pending or settled.  A pending node is
untouched: it has no children and no mark, and nothing was asked about it.  A settled
node agrees with what was asked about it: its children are the callees of the answer,
up to the point where the budget was spent, or its mark says why there is no answer.

Soundness holds for a single root and is kept by rounds and by cancellations from
outside, so it holds at the end of every run.
-/

namespace EndpointTrace

/-- What was asked about a node. -/
def inquiriesAbout (inquiries : List Inquiry) (id : Nat) : List Inquiry :=
  inquiries.filter fun inquiry => inquiry.node == id

namespace CallTree

def callees (tree : CallTree) (node : CallNode) : List (Option OutgoingCall) :=
  node.children.map fun child => (tree.node? child).map CallNode.call

def repeated (tree : CallTree) (id : Nat) (identity : Identity) : Bool :=
  (tree.lineage id).tail.any identity.same

/-- A node about which nothing has been done. -/
structure Untouched (tree : CallTree) (id : Nat) (node : CallNode) : Prop where
  node? : tree.node? id = some node
  children : node.children = []
  stopped : node.stopped = none

/-- How a node that has been dealt with agrees with what was asked about it. -/
inductive Settled (limits : CallLimits) (tree : CallTree) (inquiries : List Inquiry)
    (id : Nat) (node : CallNode) : Prop where
  /-- The children are the callees for which there was room. -/
  | answered {inquiry : Inquiry} {taken dropped : List OutgoingCall}
      (hasked : inquiriesAbout inquiries id = [inquiry])
      (hidentity : inquiry.identity = node.identity)
      (hshallow : node.depth < limits.maxDepth)
      (hanswer : inquiry.answer = .ok (taken ++ dropped))
      (hcallees : tree.callees node = taken.map some)
      (hmark : node.stopped = if dropped = [] then none else some .nodeLimit)
      (hfull : dropped ≠ [] → tree.size = limits.budget)
  | unanswered {inquiry : Inquiry} {failure : Failure}
      (hasked : inquiriesAbout inquiries id = [inquiry])
      (hidentity : inquiry.identity = node.identity)
      (hshallow : node.depth < limits.maxDepth)
      (hanswer : inquiry.answer = .error failure)
      (hmark : node.stopped
        = some (if failure.isCancelled then .cancelled else .oracleFailure))
      (hleaf : node.children = [])
  | unasked {reason : StopReason} (hasked : inquiriesAbout inquiries id = [])
      (hmark : node.stopped = some reason)
      (hreason : reason = .cycle ∨ reason = .cancelled ∨
        reason = .depthLimit ∧ node.depth = limits.maxDepth)
      (hleaf : node.children = [])

/-!
## Growth
-/

theorem GrowsTo.repeated {tree larger : CallTree} (hgrows : tree.GrowsTo larger) {id : Nat}
    (hid : id < tree.size) (identity : Identity) :
    larger.repeated id identity = tree.repeated id identity := by
  rw [CallTree.repeated, CallTree.repeated, hgrows.lineage hid]

theorem GrowsTo.callees {tree larger : CallTree} (hgrows : tree.GrowsTo larger)
    (hformed : tree.WellFormed) {id : Nat} {node : CallNode}
    (hnode : tree.node? id = some node) : larger.callees node = tree.callees node := by
  apply List.map_congr_left
  intro child hchild
  rcases hformed.child hnode hchild with ⟨below, hbelow, _⟩
  rcases hgrows.node? hbelow with ⟨later, hlater, horigin⟩
  rw [hlater, hbelow, Option.map_some, Option.map_some,
    CallNode.call_eq_of_origin_eq horigin]

/-- A settled node stays settled while the tree grows within its budget and other nodes
are asked about. -/
theorem Settled.mono {limits : CallLimits} {tree larger : CallTree}
    {before after : List Inquiry} {id : Nat} {node : CallNode}
    (hsettled : Settled limits tree before id node) (hgrows : tree.GrowsTo larger)
    (hroom : larger.size ≤ limits.budget) (hformed : tree.WellFormed)
    (hnode : tree.node? id = some node)
    (hsame : inquiriesAbout after id = inquiriesAbout before id) :
    Settled limits larger after id node := by
  cases hsettled with
  | answered hasked hidentity hshallow hanswer hcallees hmark hfull =>
      refine Settled.answered (hsame.trans hasked) hidentity hshallow hanswer
        ((hgrows.callees hformed hnode).trans hcallees) hmark ?_
      intro hdropped
      have hsize := hfull hdropped
      have hle := hgrows.size_le
      omega
  | unanswered hasked hidentity hshallow hanswer hmark hleaf =>
      exact Settled.unanswered (hsame.trans hasked) hidentity hshallow hanswer hmark hleaf
  | unasked hasked hmark hreason hleaf =>
      exact Settled.unasked (hsame.trans hasked) hmark hreason hleaf

end CallTree

namespace Expansion

variable {σ : Type} {limits : CallLimits} {guard : Guard} {oracle : Oracle σ}

/-!
## The invariant
-/

/-- What holds of the tree alone. -/
structure Shaped (limits : CallLimits) (state : Expansion σ) : Prop where
  formed : state.tree.WellFormed
  size_le : state.tree.size ≤ limits.budget
  depth_le : ∀ {id : Nat} {node : CallNode}, state.tree.node? id = some node →
    node.depth ≤ limits.maxDepth
  cycle : ∀ {id : Nat} {node : CallNode}, state.tree.node? id = some node →
    (node.stopped = some .cycle ↔ state.tree.repeated id node.identity = true)
  asked : ∀ {inquiry : Inquiry}, inquiry ∈ state.inquiries →
    inquiry.node < state.tree.size

structure Sound (limits : CallLimits) (state : Expansion σ) : Prop where
  shaped : state.Shaped limits
  nodup : state.pending.Nodup
  untouched : ∀ {id : Nat}, id ∈ state.pending → ∃ node, state.tree.Untouched id node
  unasked : ∀ {id : Nat}, id ∈ state.pending → inquiriesAbout state.inquiries id = []
  settled : ∀ {id : Nat} {node : CallNode}, state.tree.node? id = some node →
    id ∉ state.pending →
      state.tree.Settled limits state.inquiries id node

/-- Sound, but for what has been asked about the node that is next. -/
structure Poised (limits : CallLimits) (state : Expansion σ) (id : Nat) (rest : List Nat)
    (node : CallNode) : Prop where
  shaped : state.Shaped limits
  pending : state.pending = id :: rest
  nodup : (id :: rest).Nodup
  next : state.tree.Untouched id node
  untouched : ∀ {other : Nat}, other ∈ rest → ∃ node, state.tree.Untouched other node
  unasked : ∀ {other : Nat}, other ∈ rest → inquiriesAbout state.inquiries other = []
  settled : ∀ {other : Nat} {node : CallNode}, state.tree.node? other = some node →
    other ∉ state.pending →
      state.tree.Settled limits state.inquiries other node

theorem Shaped.inquiriesAbout_of_size_le {state : Expansion σ}
    (hshaped : state.Shaped limits) {id : Nat} (hid : state.tree.size ≤ id) :
    inquiriesAbout state.inquiries id = [] := by
  apply List.filter_eq_nil_iff.mpr
  intro inquiry hmem hnode
  have hlt := hshaped.asked hmem
  have hsame : inquiry.node = id := by
    simpa using hnode
  omega

theorem sound_ofRoot (limits : CallLimits) (root : Identity) (moment : Moment)
    (memory : σ) : (ofRoot root moment memory).Sound limits where
  shaped := {
    formed := CallTree.wellFormed_ofRoot root
    size_le := by
      show 1 ≤ max limits.maxNodes 1
      omega
    depth_le := by
      intro id node hnode
      rw [(CallTree.node?_ofRoot hnode).2]
      exact Nat.zero_le _
    cycle := by
      intro id node hnode
      have hid := (CallTree.node?_ofRoot hnode).1
      have hroot : (CallTree.ofRoot root).lineage id = [node.identity] := by
        apply CallTree.lineage_root hnode
        rw [(CallTree.node?_ofRoot hnode).2]
      rw [CallTree.repeated]
      simp [ofRoot, hroot, (CallTree.node?_ofRoot hnode).2]
    asked := by
      intro inquiry hmem
      cases hmem }
  nodup := by
    simp [ofRoot]
  untouched := by
    intro id hid
    rw [List.mem_singleton.mp hid]
    exact ⟨_, rfl, rfl, rfl⟩
  unasked := by
    intro id _
    rfl
  settled := by
    intro id node hnode hid
    exact absurd (List.mem_singleton.mpr (CallTree.node?_ofRoot hnode).1) hid

theorem Sound.poised {state : Expansion σ} (hsound : state.Sound limits) {id : Nat}
    {rest : List Nat} (hpending : state.pending = id :: rest) :
    ∃ node, state.Poised limits id rest node := by
  have hmem : ∀ {other}, other ∈ rest → other ∈ state.pending := by
    intro other hother
    rw [hpending]
    exact List.mem_cons_of_mem id hother
  have hid : id ∈ state.pending := by
    rw [hpending]
    exact List.mem_cons_self
  rcases hsound.untouched hid with ⟨node, hnode⟩
  exact ⟨node, hsound.shaped, hpending, hpending ▸ hsound.nodup, hnode,
    fun hother => hsound.untouched (hmem hother),
    fun hother => hsound.unasked (hmem hother), hsound.settled⟩

/-!
## Asking

The question is written down, and the node that is next becomes the only one with
something to its name that is not yet in the tree.
-/

theorem inquiriesAbout_ask (state : Expansion σ) (id : Nat) (identity : Identity)
    (other : Nat) :
    inquiriesAbout (state.ask guard oracle id identity).2.inquiries other =
      inquiriesAbout state.inquiries other ++
        if id = other then
          [⟨id, identity, state.moment, (state.ask guard oracle id identity).1⟩]
        else
          [] := by
  rw [inquiries_ask, inquiriesAbout, List.filter_append]
  by_cases hsame : id = other
  · simp [hsame, inquiriesAbout]
  · simp [hsame, inquiriesAbout]

theorem Poised.ask {state : Expansion σ} {id : Nat} {rest : List Nat} {node : CallNode}
    (hpoised : state.Poised limits id rest node) :
    (state.ask guard oracle id node.identity).2.Poised limits id rest node where
  shaped := {
    formed := hpoised.shaped.formed
    size_le := hpoised.shaped.size_le
    depth_le := hpoised.shaped.depth_le
    cycle := hpoised.shaped.cycle
    asked := by
      intro inquiry hmem
      rw [inquiries_ask, List.mem_append, List.mem_singleton] at hmem
      rcases hmem with hbefore | rfl
      · exact hpoised.shaped.asked hbefore
      · exact CallTree.lt_size_of_node? hpoised.next.node? }
  pending := hpoised.pending
  nodup := hpoised.nodup
  next := hpoised.next
  untouched := hpoised.untouched
  unasked := by
    intro other hother
    have hne : id ≠ other := by
      intro heq
      exact (List.nodup_cons.mp hpoised.nodup).1 (heq ▸ hother)
    rw [inquiriesAbout_ask, if_neg hne, List.append_nil]
    exact hpoised.unasked hother
  settled := by
    intro other found hfound hother
    have hne : id ≠ other := by
      intro heq
      rw [pending_ask, hpoised.pending, ← heq] at hother
      exact hother List.mem_cons_self
    apply (hpoised.settled hfound hother).mono (CallTree.GrowsTo.refl _)
      hpoised.shaped.size_le hpoised.shaped.formed hfound
    rw [inquiriesAbout_ask, if_neg hne, List.append_nil]

/-!
## Marking
-/

theorem Shaped.not_repeated {state : Expansion σ} (hshaped : state.Shaped limits)
    {id : Nat} {node : CallNode} (huntouched : state.tree.Untouched id node) :
    state.tree.repeated id node.identity = false := by
  have hcycle := hshaped.cycle huntouched.node?
  rw [huntouched.stopped] at hcycle
  simpa using hcycle

theorem Shaped.stopAll {state marked : Expansion σ} (hshaped : state.Shaped limits)
    {reason : StopReason} (hreason : reason ≠ .cycle) {ids : List Nat}
    (huntouched : ∀ id ∈ ids, ∃ node, state.tree.Untouched id node)
    (htree : marked.tree = state.tree.stopAll reason ids)
    (hinquiries : marked.inquiries = state.inquiries) : marked.Shaped limits := by
  have hgrows := CallTree.growsTo_stopAll state.tree reason ids
  have hback := CallTree.GrowsTo.of_origins_eq
    (CallTree.origins_stopAll state.tree reason ids)
  constructor
  · rw [htree]
    exact (CallTree.sameShape_stopAll _ _ _).wellFormed hshaped.formed
  · rw [htree, CallTree.size_stopAll]
    exact hshaped.size_le
  · intro id node hnode
    rw [htree] at hnode
    rcases hback.node? hnode with ⟨before, hbefore, horigin⟩
    have hdepth : before.depth = node.depth := congrArg NodeOrigin.depth horigin
    rw [← hdepth]
    exact hshaped.depth_le hbefore
  · intro id node hnode
    rw [htree] at hnode ⊢
    rcases hback.node? hnode with ⟨before, hbefore, horigin⟩
    have hidentity : before.identity = node.identity :=
      congrArg NodeOrigin.identity horigin
    rw [hgrows.repeated (CallTree.lt_size_of_node? hbefore), ← hidentity]
    rw [CallTree.node?_stopAll, hbefore] at hnode
    by_cases hmem : id ∈ ids
    · rw [if_pos hmem] at hnode
      rcases huntouched id hmem with ⟨fresh, hfresh⟩
      have heq : fresh = before := Option.some.inj (hfresh.node?.symm.trans hbefore)
      have hnot := hshaped.not_repeated hfresh
      rw [heq] at hnot
      rw [← Option.some.inj hnode, hnot]
      simp [hreason]
    · rw [if_neg hmem] at hnode
      rw [← Option.some.inj hnode]
      exact hshaped.cycle hbefore
  · intro inquiry hmem
    rw [hinquiries] at hmem
    rw [htree, CallTree.size_stopAll]
    exact hshaped.asked hmem

theorem Poised.untouched_of_mem {state : Expansion σ} {id : Nat} {rest : List Nat}
    {node : CallNode} (hpoised : state.Poised limits id rest node) {other : Nat}
    (hother : other ∈ id :: rest) : ∃ found, state.tree.Untouched other found := by
  rcases List.mem_cons.mp hother with rfl | hrest
  · exact ⟨node, hpoised.next⟩
  · exact hpoised.untouched hrest

/-- The node that is next is marked, with some or all of the nodes after it, and all
that are marked are settled by that. -/
theorem Poised.close {state : Expansion σ} {id : Nat} {rest : List Nat} {node : CallNode}
    (hpoised : state.Poised limits id rest node) (marked : Expansion σ)
    {reason : StopReason} (hreason : reason ≠ .cycle) (ids others : List Nat)
    (hsplit : id :: rest = ids ++ others) (hid : id ∈ ids)
    (hsettled : ∀ other ∈ ids, ∀ found, state.tree.Untouched other found →
      ∀ tree : CallTree, tree.Settled limits state.inquiries other
        { found with stopped := some reason })
    (htree : marked.tree = state.tree.stopAll reason ids)
    (hpending : marked.pending = others)
    (hinquiries : marked.inquiries = state.inquiries) : marked.Sound limits := by
  have hnodup := hpoised.nodup
  rw [hsplit, List.nodup_append] at hnodup
  have hnext : ∀ other ∈ ids ++ others, ∃ found, state.tree.Untouched other found := by
    intro other hother
    exact hpoised.untouched_of_mem (hsplit ▸ hother)
  have hkept : ∀ other, other ∉ ids → marked.tree.node? other = state.tree.node? other := by
    intro other hother
    rw [htree, CallTree.node?_stopAll, if_neg hother]
  have hlater : ∀ other ∈ others, other ∉ ids ∧ other ∈ rest := by
    intro other hother
    have hout : other ∉ ids := by
      intro hin
      exact hnodup.2.2 other hin other hother rfl
    have hmem : other ∈ id :: rest := by
      rw [hsplit]
      exact List.mem_append_right ids hother
    rcases List.mem_cons.mp hmem with rfl | hrest
    · exact absurd hid hout
    · exact ⟨hout, hrest⟩
  constructor
  · exact hpoised.shaped.stopAll hreason
      (fun other hother => hnext other (List.mem_append_left others hother)) htree hinquiries
  · rw [hpending]
    exact hnodup.2.1
  · intro other hother
    rw [hpending] at hother
    rcases hnext other (List.mem_append_right ids hother) with ⟨found, hfound⟩
    refine ⟨found, ?_, hfound.children, hfound.stopped⟩
    rw [hkept other (hlater other hother).1]
    exact hfound.node?
  · intro other hother
    rw [hpending] at hother
    rw [hinquiries]
    exact hpoised.unasked (hlater other hother).2
  · intro other found hfound hother
    rw [hinquiries]
    by_cases hmem : other ∈ ids
    · rcases hnext other (List.mem_append_left others hmem) with ⟨before, hbefore⟩
      rw [htree, CallTree.node?_stopAll, if_pos hmem, hbefore.node?] at hfound
      rw [← Option.some.inj hfound]
      exact hsettled other hmem before hbefore marked.tree
    · rw [hkept other hmem] at hfound
      have hout : other ∉ state.pending := by
        rw [hpoised.pending, hsplit, List.mem_append]
        rw [hpending] at hother
        rintro (hin | hin)
        · exact hmem hin
        · exact hother hin
      apply (hpoised.settled hfound hout).mono _ _ hpoised.shaped.formed hfound rfl
      · rw [htree]
        exact CallTree.growsTo_stopAll state.tree reason ids
      · rw [htree, CallTree.size_stopAll]
        exact hpoised.shaped.size_le

theorem Poised.abandon {state : Expansion σ} {id : Nat} {rest : List Nat}
    {node : CallNode} (hpoised : state.Poised limits id rest node)
    (hsettled : ∀ tree : CallTree, tree.Settled limits state.inquiries id
      { node with stopped := some .cancelled }) : state.abandon.Sound limits := by
  have hreason : StopReason.cancelled ≠ .cycle := StopReason.noConfusion
  apply hpoised.close state.abandon hreason (id :: rest) [] (List.append_nil _).symm
    List.mem_cons_self
  · intro other hother found hfound tree
    rcases List.mem_cons.mp hother with rfl | hrest
    · have heq : found = node := Option.some.inj (hfound.node?.symm.trans hpoised.next.node?)
      rw [heq]
      exact hsettled tree
    · exact CallTree.Settled.unasked (hpoised.unasked hrest) rfl (Or.inr (Or.inl rfl))
        hfound.children
  · rw [← hpoised.pending]
    rfl
  · rfl
  · rfl

theorem Poised.dismiss {state : Expansion σ} {id : Nat} {rest : List Nat}
    {node : CallNode} (hpoised : state.Poised limits id rest node) {reason : StopReason}
    (hreason : reason ≠ .cycle)
    (hsettled : ∀ tree : CallTree, tree.Settled limits state.inquiries id
      { node with stopped := some reason }) :
    (state.dismiss reason id rest).Sound limits := by
  apply hpoised.close (state.dismiss reason id rest) hreason [id] rest rfl
    List.mem_cons_self
  · intro other hother found hfound tree
    rw [List.mem_singleton] at hother
    rw [hother] at hfound ⊢
    have heq : found = node := Option.some.inj (hfound.node?.symm.trans hpoised.next.node?)
    rw [heq]
    exact hsettled tree
  · rfl
  · rfl
  · rfl

end Expansion

/-!
## Growing
-/

namespace CallTree

theorem length_admitted_le (tree : CallTree) (budget : Nat) (calls : List OutgoingCall) :
    (tree.admitted budget calls).length ≤ budget - tree.size :=
  List.length_take_le _ _

theorem node?_newcomer {budget : Nat} {tree : CallTree} {id : Nat} (hid : id < tree.size)
    (calls : List OutgoingCall) (position : Nat) :
    (attach budget tree id calls).1.node? (tree.size + position) =
      (tree.admitted budget calls)[position]?.map (tree.newcomer id) := by
  rw [node?_attach budget tree hid, if_neg (by omega), if_neg (by omega),
    Nat.add_sub_cancel_left]

theorem callees_extended {budget : Nat} {tree : CallTree} {id : Nat}
    (hid : id < tree.size) (calls : List OutgoingCall) (cut : Bool) {node : CallNode}
    (hleaf : node.children = []) :
    (attach budget tree id calls).1.callees
        (tree.extended (tree.admitted budget calls).length cut node)
      = (tree.admitted budget calls).map some := by
  rw [callees, extended, hleaf, List.nil_append]
  apply List.ext_getElem?
  intro position
  rw [List.getElem?_map, List.getElem?_map]
  by_cases hlt : position < (tree.admitted budget calls).length
  · rw [List.getElem?_range' hlt, List.getElem?_eq_getElem hlt]
    simp only [Option.map_some, Nat.one_mul, node?_newcomer hid,
      List.getElem?_eq_getElem hlt]
    rfl
  · rw [List.getElem?_eq_none (by simpa using hlt), List.getElem?_eq_none (by omega)]
    rfl

theorem repeated_newcomer {budget : Nat} {tree : CallTree} {id : Nat}
    (hid : id < tree.size) {calls : List OutgoingCall} {other : Nat} {call : OutgoingCall}
    (hother : tree.size ≤ other)
    (hnode : (attach budget tree id calls).1.node? other = some (tree.newcomer id call)) :
    (attach budget tree id calls).1.repeated other call.callee
      = tree.onPath id call.callee := by
  have hgrows := growsTo_attach budget tree hid calls
  rw [repeated, lineage_child hnode rfl (Nat.lt_of_lt_of_le hid hother), List.tail_cons,
    ← onPath, hgrows.onPath hid]

end CallTree

namespace Expansion

variable {σ : Type} {limits : CallLimits} {guard : Guard} {oracle : Oracle σ}

theorem Poised.shaped_grow {state : Expansion σ} {id : Nat} {rest : List Nat}
    {node : CallNode} (hpoised : state.Poised limits id rest node)
    (hshallow : node.depth < limits.maxDepth) (calls : List OutgoingCall) :
    (state.grow limits.budget id rest calls).Shaped limits := by
  have hid := CallTree.lt_size_of_node? hpoised.next.node?
  have hgrows := CallTree.growsTo_attach limits.budget state.tree hid calls
  have hshaped := hpoised.shaped
  constructor
  · exact hshaped.formed.attach hid calls
  · show (CallTree.attach _ _ _ _).1.size ≤ _
    have hcount := state.tree.length_admitted_le limits.budget calls
    have hsize := hshaped.size_le
    rw [CallTree.size_attach _ _ hid]
    omega
  · intro other found hfound
    rcases CallTree.node?_attach_cases hid hfound with
      ⟨_, before, hbefore, rfl⟩ | ⟨_, hbefore⟩ | ⟨_, call, _, rfl⟩
    · show before.depth ≤ limits.maxDepth
      exact hshaped.depth_le hbefore
    · exact hshaped.depth_le hbefore
    · show state.tree.depth id + 1 ≤ limits.maxDepth
      rw [CallTree.depth_of_node? hpoised.next.node?]
      exact hshallow
  · intro other found hfound
    show found.stopped = some .cycle ↔ (CallTree.attach _ _ _ _).1.repeated _ _ = true
    rcases CallTree.node?_attach_cases hid hfound with
      ⟨heq, before, hbefore, rfl⟩ | ⟨_, hbefore⟩ | ⟨hle, call, _, rfl⟩
    · have hsame : before = node :=
        Option.some.inj (hbefore.symm.trans hpoised.next.node?)
      have hfresh := hshaped.not_repeated hpoised.next
      rw [heq, hgrows.repeated hid, hsame]
      show (if _ then some StopReason.nodeLimit else node.stopped) = _ ↔
        state.tree.repeated id node.identity = true
      rw [hfresh, hpoised.next.stopped]
      split
      · simp
      · simp
    · rw [hgrows.repeated (CallTree.lt_size_of_node? hbefore)]
      exact hshaped.cycle hbefore
    · rw [show (state.tree.newcomer id call).identity = call.callee from rfl,
        CallTree.repeated_newcomer hid hle hfound]
      simp [CallTree.newcomer]
  · intro inquiry hmem
    exact Nat.lt_of_lt_of_le (hshaped.asked hmem) hgrows.size_le

theorem Poised.rest {state : Expansion σ} {id : Nat} {rest : List Nat} {node : CallNode}
    (hpoised : state.Poised limits id rest node) {other : Nat} (hother : other ∈ rest) :
    other ≠ id ∧ other < state.tree.size := by
  rcases hpoised.untouched hother with ⟨found, hfound⟩
  refine ⟨?_, CallTree.lt_size_of_node? hfound.node?⟩
  intro heq
  exact (List.nodup_cons.mp hpoised.nodup).1 (heq ▸ hother)

theorem Poised.untouched_grow {state : Expansion σ} {id : Nat} {rest : List Nat}
    {node : CallNode} (hpoised : state.Poised limits id rest node)
    (calls : List OutgoingCall) {other : Nat}
    (hother : other ∈ (state.grow limits.budget id rest calls).pending) :
    ∃ found, (state.grow limits.budget id rest calls).tree.Untouched other found := by
  have hid := CallTree.lt_size_of_node? hpoised.next.node?
  rcases List.mem_append.mp hother with hnew | hrest
  · rcases (CallTree.mem_attach_pending hid).mp hnew with ⟨hle, call, hcall, hpath⟩
    refine ⟨state.tree.newcomer id call, ?_, rfl, ?_⟩
    · show (CallTree.attach _ _ _ _).1.node? other = _
      rw [CallTree.node?_attach _ _ hid, if_neg (by omega), if_neg (by omega), hcall]
      rfl
    · simp [CallTree.newcomer, hpath]
  · rcases hpoised.untouched hrest with ⟨found, hfound⟩
    rcases hpoised.rest hrest with ⟨hne, hlt⟩
    refine ⟨found, ?_, hfound.children, hfound.stopped⟩
    rw [node?_grow_of_ne rest calls hid hne hlt]
    exact hfound.node?

theorem Poised.settled_next {state : Expansion σ} {id : Nat} {rest : List Nat}
    {node : CallNode} (hpoised : state.Poised limits id rest node)
    (hshallow : node.depth < limits.maxDepth) {inquiry : Inquiry}
    {calls : List OutgoingCall} (hasked : inquiriesAbout state.inquiries id = [inquiry])
    (hidentity : inquiry.identity = node.identity) (hanswer : inquiry.answer = .ok calls) :
    (state.grow limits.budget id rest calls).tree.Settled limits state.inquiries id
      (state.tree.extended (state.tree.admitted limits.budget calls).length
        (decide (limits.budget - state.tree.size < calls.length)) node) := by
  have hid := CallTree.lt_size_of_node? hpoised.next.node?
  have hsplit : inquiry.answer = .ok (state.tree.admitted limits.budget calls ++
      calls.drop (limits.budget - state.tree.size)) := by
    rw [CallTree.admitted, List.take_append_drop]
    exact hanswer
  refine CallTree.Settled.answered hasked hidentity hshallow hsplit
    (CallTree.callees_extended hid calls _ hpoised.next.children) ?_ ?_
  · rw [CallTree.extended, hpoised.next.stopped]
    by_cases hroom : calls.length ≤ limits.budget - state.tree.size
    · rw [if_pos (List.drop_eq_nil_iff.mpr hroom), decide_eq_false (Nat.not_lt.mpr hroom)]
      rfl
    · rw [if_neg (fun hempty => hroom (List.drop_eq_nil_iff.mp hempty)),
        decide_eq_true (Nat.lt_of_not_le hroom)]
      rfl
  · intro hdropped
    rw [ne_eq, List.drop_eq_nil_iff] at hdropped
    have hsize := hpoised.shaped.size_le
    show (CallTree.attach _ _ _ _).1.size = _
    rw [CallTree.size_attach _ _ hid, CallTree.admitted, List.length_take]
    omega

theorem Poised.settled_newcomer {state : Expansion σ} {id : Nat} {rest : List Nat}
    {node : CallNode} (hpoised : state.Poised limits id rest node)
    {calls : List OutgoingCall} {other : Nat} (hle : state.tree.size ≤ other)
    {call : OutgoingCall}
    (hcall : (state.tree.admitted limits.budget calls)[other - state.tree.size]? = some call)
    (hother : other ∉ (state.tree.attach limits.budget id calls).2) (tree : CallTree) :
    tree.Settled limits state.inquiries other (state.tree.newcomer id call) := by
  have hid := CallTree.lt_size_of_node? hpoised.next.node?
  have hpath : state.tree.onPath id call.callee = true := by
    rw [← Bool.not_eq_false]
    intro hfree
    exact hother ((CallTree.mem_attach_pending hid).mpr ⟨hle, call, hcall, hfree⟩)
  have hmark : (state.tree.newcomer id call).stopped = some .cycle := by
    rw [CallTree.newcomer, hpath]
    rfl
  exact CallTree.Settled.unasked (hpoised.shaped.inquiriesAbout_of_size_le hle) hmark
    (Or.inl rfl) rfl

theorem Poised.grow {state : Expansion σ} {id : Nat} {rest : List Nat} {node : CallNode}
    (hpoised : state.Poised limits id rest node) (hshallow : node.depth < limits.maxDepth)
    {inquiry : Inquiry} {calls : List OutgoingCall}
    (hasked : inquiriesAbout state.inquiries id = [inquiry])
    (hidentity : inquiry.identity = node.identity) (hanswer : inquiry.answer = .ok calls) :
    (state.grow limits.budget id rest calls).Sound limits := by
  have hid := CallTree.lt_size_of_node? hpoised.next.node?
  have hgrows := CallTree.growsTo_attach limits.budget state.tree hid calls
  have hshaped := hpoised.shaped_grow hshallow calls
  constructor
  · exact hshaped
  · show ((CallTree.attach _ _ _ _).2 ++ rest).Nodup
    rw [List.nodup_append]
    refine ⟨CallTree.nodup_attach_pending _ _ hid _,
      (List.nodup_cons.mp hpoised.nodup).2, ?_⟩
    intro new hnew other hother heq
    have hle := ((CallTree.mem_attach_pending hid).mp hnew).1
    have hlt := (hpoised.rest hother).2
    omega
  · intro other hother
    exact hpoised.untouched_grow calls hother
  · intro other hother
    show inquiriesAbout state.inquiries other = []
    rcases List.mem_append.mp hother with hnew | hrest
    · exact hpoised.shaped.inquiriesAbout_of_size_le
        ((CallTree.mem_attach_pending hid).mp hnew).1
    · exact hpoised.unasked hrest
  · intro other found hfound hother
    rcases CallTree.node?_attach_cases hid hfound with
      ⟨heq, before, hbefore, rfl⟩ | ⟨hne, hbefore⟩ | ⟨hle, call, hcall, rfl⟩
    · have hsame : before = node :=
        Option.some.inj (hbefore.symm.trans hpoised.next.node?)
      rw [heq, hsame]
      exact hpoised.settled_next hshallow hasked hidentity hanswer
    · have hbefore' : other ∉ state.pending := by
        rw [hpoised.pending, List.mem_cons]
        rintro (hin | hin)
        · exact hne hin
        · exact hother (List.mem_append_right _ hin)
      exact (hpoised.settled hbefore hbefore').mono hgrows hshaped.size_le
        hpoised.shaped.formed hbefore rfl
    · exact hpoised.settled_newcomer hle hcall
        (fun hin => hother (List.mem_append_left _ hin)) _

/-!
## Rounds and runs
-/

theorem inquiriesAbout_ask_self (guard : Guard) (oracle : Oracle σ) {state : Expansion σ}
    {id : Nat}
    (hunasked : inquiriesAbout state.inquiries id = []) (identity : Identity) :
    inquiriesAbout (state.ask guard oracle id identity).2.inquiries id =
      [⟨id, identity, state.moment, (state.ask guard oracle id identity).1⟩] := by
  rw [inquiriesAbout_ask, if_pos rfl, hunasked, List.nil_append]

theorem Sound.round {state : Expansion σ} (hsound : state.Sound limits) (guard : Guard)
    (oracle : Oracle σ) (hpending : state.pending ≠ []) :
    (state.round limits guard oracle).Sound limits := by
  rcases List.exists_cons_of_ne_nil hpending with ⟨id, rest, hnext⟩
  rcases hsound.poised hnext with ⟨node, hpoised⟩
  have hunasked : inquiriesAbout state.inquiries id = [] := by
    apply hsound.unasked
    rw [hnext]
    exact List.mem_cons_self
  have hasked := inquiriesAbout_ask_self guard oracle hunasked node.identity
  have hleaf := hpoised.next.children
  have houtcome := round_outcome limits guard oracle hnext hpoised.next.node?
  generalize state.round limits guard oracle = after at houtcome ⊢
  cases houtcome with
  | cancelled _ =>
      apply hpoised.abandon
      intro tree
      exact CallTree.Settled.unasked hunasked rfl (Or.inr (Or.inl rfl)) hleaf
  | deep _ hdeep =>
      apply hpoised.dismiss StopReason.noConfusion
      intro tree
      have hdepth := hsound.shaped.depth_le hpoised.next.node?
      exact CallTree.Settled.unasked hunasked rfl
        (Or.inr (Or.inr ⟨rfl, Nat.le_antisymm hdepth hdeep⟩)) hleaf
  | answered _ hshallow hanswer =>
      exact hpoised.ask.grow hshallow hasked rfl hanswer
  | interrupted _ hshallow hanswer hcancelled =>
      apply hpoised.ask.abandon
      intro tree
      exact CallTree.Settled.unanswered hasked rfl hshallow hanswer
        (by rw [if_pos hcancelled]) hleaf
  | failed _ hshallow hanswer hother =>
      apply hpoised.ask.dismiss StopReason.noConfusion
      intro tree
      exact CallTree.Settled.unanswered hasked rfl hshallow hanswer
        (by simp [hother]) hleaf

theorem Sound.withMoment {state : Expansion σ} (hsound : state.Sound limits)
    (moment : Moment) : ({ state with moment := moment } : Expansion σ).Sound limits where
  shaped := ⟨hsound.shaped.formed, hsound.shaped.size_le, hsound.shaped.depth_le,
    hsound.shaped.cycle, hsound.shaped.asked⟩
  nodup := hsound.nodup
  untouched := hsound.untouched
  unasked := hsound.unasked
  settled := hsound.settled

theorem Run.sound {state final : Expansion σ} (hrun : Run limits guard oracle state final)
    (hsound : state.Sound limits) : final.Sound limits :=
  hrun.invariant (Sound limits)
    (fun _ hbefore hpending => hbefore.round guard oracle hpending)
    (fun before hbefore => hbefore.withMoment before.moment.cancel) hsound

/-!
## What a run leaves alone
-/

theorem Sound.outcome {state : Expansion σ} (hsound : state.Sound limits) (guard : Guard)
    (oracle : Oracle σ) (hpending : state.pending ≠ []) :
    ∃ id rest node, state.pending = id :: rest ∧ state.tree.Untouched id node ∧
      RoundOutcome limits guard oracle state id rest node
        (state.round limits guard oracle) := by
  rcases List.exists_cons_of_ne_nil hpending with ⟨id, rest, hnext⟩
  rcases hsound.poised hnext with ⟨node, hpoised⟩
  exact ⟨id, rest, node, hnext, hpoised.next,
    round_outcome limits guard oracle hnext hpoised.next.node?⟩

theorem Run.growsTo {state final : Expansion σ} (hrun : Run limits guard oracle state final)
    (hsound : state.Sound limits) : state.tree.GrowsTo final.tree := by
  have hlaw : final.Sound limits ∧ state.tree.GrowsTo final.tree := by
    apply hrun.invariant fun later =>
      later.Sound limits ∧ state.tree.GrowsTo later.tree
    · rintro before ⟨hbefore, hgrows⟩ hpending
      rcases hbefore.outcome guard oracle hpending with
        ⟨id, rest, node, _, hnext, houtcome⟩
      have hid := CallTree.lt_size_of_node? hnext.node?
      exact ⟨hbefore.round guard oracle hpending, hgrows.trans (houtcome.growsTo hid)⟩
    · rintro before ⟨hbefore, hgrows⟩
      exact ⟨hbefore.withMoment _, hgrows⟩
    · exact ⟨hsound, CallTree.GrowsTo.refl _⟩
  exact hlaw.2

theorem Run.node? {state final : Expansion σ} (hrun : Run limits guard oracle state final)
    (hsound : state.Sound limits) {id : Nat} {node : CallNode}
    (hnode : state.tree.node? id = some node) (hid : id ∉ state.pending) :
    final.tree.node? id = some node := by
  have hlaw : final.Sound limits ∧ id ∉ final.pending ∧
      final.tree.node? id = some node := by
    apply hrun.invariant fun later =>
      later.Sound limits ∧ id ∉ later.pending ∧ later.tree.node? id = some node
    · rintro before ⟨hbefore, hout, hfound⟩ hpending
      rcases hbefore.outcome guard oracle hpending with
        ⟨next, rest, _, hnext, huntouched, houtcome⟩
      have hlt := CallTree.lt_size_of_node? huntouched.node?
      have hold := CallTree.lt_size_of_node? hfound
      refine ⟨hbefore.round guard oracle hpending, ?_, ?_⟩
      · intro hin
        rcases houtcome.pending hlt hin with hrest | hnew
        · rw [hnext] at hout
          exact hout (List.mem_cons_of_mem next hrest)
        · omega
      · rw [houtcome.node? hnext hlt hout hold]
        exact hfound
    · rintro before ⟨hbefore, hout, hfound⟩
      exact ⟨hbefore.withMoment _, hout, hfound⟩
    · exact ⟨hsound, hid, hnode⟩
  exact hlaw.2.2

end Expansion

theorem Resolves.sound {σ : Type} {limits : CallLimits} {guard : Guard}
    {oracle : Oracle σ} {location : Location} {state : σ} {moment : Moment}
    {start : Expansion σ} (hstart : Resolves guard oracle location state moment start) :
    start.Sound limits := by
  rcases hstart with ⟨_, _, root, _, _, rfl⟩
  exact Expansion.sound_ofRoot limits root _ _

end EndpointTrace
