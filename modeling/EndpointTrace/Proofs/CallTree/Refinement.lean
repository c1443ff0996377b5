import EndpointTrace.Proofs.CallTree.Unfolding

/-!
# A build is an unfolding

If every question is answered in time and always in the same way, and the unfolding of
the root fits into the budget, then the tree that is built is the unfolding, and the
questions are asked in the order in which its nodes are met.

The loop is related to the recursion by what is planned for the pending nodes.  The
nodes that are there, with those that are planned, are as many as the unfolding has; the
questions that were asked, followed by those that are planned, are those of the
unfolding.  Once nothing is pending, every node is settled, and the arena is read
bottom up.
-/

namespace EndpointTrace

/-- The calls of every identity are answered in time and always in the same way, and no
answer is the report of a cancellation. -/
structure Oracle.Answers {σ : Type} (oracle : Oracle σ) (timeout : Nat)
    (answers : Identity → Except Failure (List OutgoingCall)) : Prop where
  prompt : ∀ identity memory, (oracle.outgoing identity memory).1.Prompt timeout
  outcome : ∀ identity memory,
    (oracle.outgoing identity memory).1.outcome = answers identity
  plain : ∀ {identity : Identity} {failure : Failure},
    answers identity = .error failure → failure.isCancelled = false

theorem Oracle.Answers.quiet {σ : Type} {oracle : Oracle σ} {timeout : Nat}
    {answers : Identity → Except Failure (List OutgoingCall)}
    (hanswers : oracle.Answers timeout answers) (identity : Identity) (memory : σ) :
    (oracle.outgoing identity memory).1.Quiet := by
  refine ⟨(hanswers.prompt identity memory).1, ?_⟩
  intro failure hfailure
  rw [hanswers.outcome] at hfailure
  exact hanswers.plain hfailure

/-!
## Plans
-/

namespace CallTree

def call (tree : CallTree) (id : Nat) : OutgoingCall :=
  ((tree.node? id).map CallNode.call).getD default

/-- What will be built at a node that is pending. -/
def planned (answers : Identity → Except Failure (List OutgoingCall)) (maxDepth : Nat)
    (tree : CallTree) (id : Nat) : Unfolding :=
  .ofCall answers maxDepth (tree.lineage id).tail (tree.depth id) (tree.call id)

section

variable {answers : Identity → Except Failure (List OutgoingCall)} {maxDepth : Nat}

theorem planned_of_node? {tree : CallTree} {id : Nat} {node : CallNode}
    (hnode : tree.node? id = some node) :
    tree.planned answers maxDepth id =
      .ofCall answers maxDepth (tree.lineage id).tail node.depth node.call := by
  rw [planned, depth_of_node? hnode, call, hnode]
  rfl

theorem planned_ofRoot (root : Identity) :
    (ofRoot root).planned answers maxDepth 0 = .ofRoot answers maxDepth root := by
  rw [planned_of_node? rfl, lineage_root rfl rfl]
  rfl

theorem GrowsTo.planned {tree larger : CallTree} (hgrows : tree.GrowsTo larger) {id : Nat}
    (hid : id < tree.size) :
    larger.planned answers maxDepth id = tree.planned answers maxDepth id := by
  rcases exists_node?_of_lt hid with ⟨node, hnode⟩
  rcases hgrows.node? hnode with ⟨later, hlater, horigin⟩
  rw [planned_of_node? hnode, planned_of_node? hlater, hgrows.lineage hid,
    CallNode.call_eq_of_origin_eq horigin]
  rw [show later.depth = node.depth from congrArg NodeOrigin.depth horigin]

theorem planned_newcomer {budget : Nat} {tree : CallTree} {id : Nat} (hid : id < tree.size)
    {calls : List OutgoingCall} {other : Nat} {call : OutgoingCall}
    (hother : tree.size ≤ other)
    (hnode : (attach budget tree id calls).1.node? other = some (tree.newcomer id call)) :
    (attach budget tree id calls).1.planned answers maxDepth other =
      .ofCall answers maxDepth (tree.lineage id) (tree.depth id + 1) call := by
  have hgrows := growsTo_attach budget tree hid calls
  rw [planned_of_node? hnode, lineage_child hnode rfl (Nat.lt_of_lt_of_le hid hother),
    List.tail_cons, hgrows.lineage hid]
  rfl

theorem map_planned_attach (answers : Identity → Except Failure (List OutgoingCall))
    (maxDepth : Nat) {budget : Nat} {tree : CallTree} {id : Nat} (hid : id < tree.size)
    {calls : List OutgoingCall} (hfits : calls.length ≤ budget - tree.size) :
    (attach budget tree id calls).2.map
        ((attach budget tree id calls).1.planned answers maxDepth) =
      (calls.filter fun call => !tree.onPath id call.callee).map
        (Unfolding.ofCall answers maxDepth (tree.lineage id) (tree.depth id + 1)) := by
  have hadmitted : tree.admitted budget calls = calls := List.take_of_length_le hfits
  have hcalls : calls = (calls.zipIdx tree.size).map Prod.fst :=
    (List.zipIdx_map_fst _ _).symm
  rw [attach_pending budget tree hid, hadmitted, List.map_map]
  conv => rhs; rw [hcalls, List.filter_map, List.map_map]
  apply List.map_congr_left
  rintro ⟨call, other⟩ hmem
  rw [List.mem_filter, List.mem_zipIdx_iff_le_and_getElem?_sub] at hmem
  apply planned_newcomer hid hmem.1.1
  have hlt := (List.getElem?_eq_some_iff.mp hmem.1.2).1
  rw [node?_attach budget tree hid, if_neg (by omega), if_neg (by omega), hadmitted]
  exact congrArg (Option.map (tree.newcomer id)) hmem.1.2

end

end CallTree

/-!
## The loop follows the plans
-/

namespace Expansion

variable {σ : Type} {limits : CallLimits} {guard : Guard} {oracle : Oracle σ}
  {answers : Identity → Except Failure (List OutgoingCall)} {whole : Unfolding}

theorem ask_answers (hguard : guard.cancelAt = none)
    (hanswers : oracle.Answers guard.timeout answers) {state : Expansion σ}
    (hlive : state.moment.cancelled = false) (id : Nat) (identity : Identity) :
    (state.ask guard oracle id identity).1 = answers identity := by
  rw [ask]
  simp only
  rw [guard.run_prompt hguard _ (hanswers.prompt identity state.oracle) hlive]
  exact hanswers.outcome identity state.oracle

/-- What is there and what is planned make up the whole. -/
structure OnPlan (answers : Identity → Except Failure (List OutgoingCall)) (maxDepth : Nat)
    (whole : Unfolding) (state : Expansion σ) : Prop where
  uncut : ¬ state.tree.IsCut
  answered : ∀ {inquiry : Inquiry}, inquiry ∈ state.inquiries →
    inquiry.answer = answers inquiry.identity
  size : state.tree.size + ((state.pending.map (state.tree.planned answers maxDepth)).flatMap
    Unfolding.descendants).length = whole.size
  asked : state.inquiries.map Inquiry.identity ++
    (state.pending.map (state.tree.planned answers maxDepth)).flatMap Unfolding.asked
      = whole.asked

theorem onPlan_ofRoot (answers : Identity → Except Failure (List OutgoingCall))
    (maxDepth : Nat) (root : Identity) (moment : Moment) (memory : σ) :
    (ofRoot root moment memory).OnPlan answers maxDepth
      (Unfolding.ofRoot answers maxDepth root) := by
  constructor
  · rintro ⟨id, node, hnode, hcut⟩
    rw [(CallTree.node?_ofRoot hnode).2] at hcut
    cases hcut
  · intro inquiry hmem
    cases hmem
  · simp only [ofRoot, List.map_cons, List.map_nil, CallTree.planned_ofRoot,
      List.flatMap_cons, List.flatMap_nil, List.append_nil, CallTree.size_ofRoot,
      Unfolding.size_eq]
    omega
  · simp only [ofRoot, List.map_cons, List.map_nil, CallTree.planned_ofRoot,
      List.flatMap_cons, List.flatMap_nil, List.append_nil, List.nil_append]

theorem OnPlan.answered_of_asked {maxDepth : Nat} {state : Expansion σ}
    (hplan : state.OnPlan answers maxDepth whole) {id : Nat} {inquiry : Inquiry}
    (hasked : inquiriesAbout state.inquiries id = [inquiry]) {identity : Identity}
    (hidentity : inquiry.identity = identity) : inquiry.answer = answers identity := by
  have hmem : inquiry ∈ inquiriesAbout state.inquiries id := by
    rw [hasked]
    exact List.mem_cons_self
  rw [← hidentity]
  exact hplan.answered (List.mem_filter.mp hmem).1

theorem OnPlan.replace {maxDepth : Nat} {state : Expansion σ} {id : Nat} {rest : List Nat}
    (hplan : state.OnPlan answers maxDepth whole) (next : Expansion σ) (new : List Nat)
    (hpending : state.pending = id :: rest) (hrest : ∀ other ∈ rest, other < state.tree.size)
    (hgrows : state.tree.GrowsTo next.tree) (hnext : next.pending = new ++ rest)
    (huncut : ¬ next.tree.IsCut)
    (hanswered : ∀ {inquiry : Inquiry}, inquiry ∈ next.inquiries →
      inquiry.answer = answers inquiry.identity)
    (hsize : next.tree.size + ((new.map (next.tree.planned answers maxDepth)).flatMap
      Unfolding.descendants).length
        = state.tree.size + (state.tree.planned answers maxDepth id).descendants.length)
    (hasked : next.inquiries.map Inquiry.identity ++
      (new.map (next.tree.planned answers maxDepth)).flatMap Unfolding.asked
        = state.inquiries.map Inquiry.identity ++
          (state.tree.planned answers maxDepth id).asked) :
    next.OnPlan answers maxDepth whole := by
  have hkept : rest.map (next.tree.planned answers maxDepth)
      = rest.map (state.tree.planned answers maxDepth) := by
    apply List.map_congr_left
    intro other hother
    exact hgrows.planned (hrest other hother)
  refine ⟨huncut, hanswered, ?_, ?_⟩
  · rw [← hplan.size, hnext, hpending, List.map_append, List.flatMap_append,
      List.length_append, List.map_cons, List.flatMap_cons, List.length_append, hkept]
    omega
  · rw [← hplan.asked, hnext, hpending, List.map_append, List.flatMap_append, List.map_cons,
      List.flatMap_cons, hkept, ← List.append_assoc, hasked, List.append_assoc]

theorem OnPlan.dismiss {maxDepth : Nat} {state : Expansion σ} {id : Nat} {rest : List Nat}
    {reason : StopReason} (hplan : state.OnPlan answers maxDepth whole) (asked : Expansion σ)
    (hpending : state.pending = id :: rest) (hrest : ∀ other ∈ rest, other < state.tree.size)
    (hreason : reason ≠ .nodeLimit) (htree : asked.tree = state.tree)
    (hanswered : ∀ {inquiry : Inquiry}, inquiry ∈ asked.inquiries →
      inquiry.answer = answers inquiry.identity)
    (hleaf : (state.tree.planned answers maxDepth id).descendants = [])
    (hasked : asked.inquiries.map Inquiry.identity = state.inquiries.map Inquiry.identity ++
      (state.tree.planned answers maxDepth id).asked) :
    (asked.dismiss reason id rest).OnPlan answers maxDepth whole := by
  apply hplan.replace (asked.dismiss reason id rest) [] hpending hrest _ rfl _ hanswered
  · rw [Expansion.dismiss, hleaf, htree, CallTree.size_stop]
    rfl
  · rw [List.map_nil, List.flatMap_nil, List.append_nil]
    exact hasked
  · rw [Expansion.dismiss, htree]
    exact CallTree.growsTo_stop state.tree reason id
  · rintro ⟨other, node, hnode, hcut⟩
    rw [Expansion.dismiss, htree] at hnode
    rcases CallTree.node?_stop_cases hnode with hmark | hbefore
    · rw [hmark] at hcut
      exact hreason (Option.some.inj hcut)
    · exact hplan.uncut ⟨other, node, hbefore, hcut⟩

theorem planned_answered {state : Expansion σ} (hsound : state.Sound limits) {id : Nat}
    {node : CallNode} (hnode : state.tree.node? id = some node) {maxDepth : Nat}
    (hshallow : node.depth < maxDepth) {calls : List OutgoingCall}
    (hanswer : answers node.identity = .ok calls) :
    state.tree.planned answers maxDepth id =
      ⟨node.identity, node.depth, node.sites, none, calls.map fun call =>
        if state.tree.onPath id call.callee then
          .ofCycle (node.depth + 1) call
        else
          .ofCall answers maxDepth (state.tree.lineage id) (node.depth + 1) call⟩ := by
  have hway : node.call.callee :: (state.tree.lineage id).tail = state.tree.lineage id :=
    (hsound.shaped.formed.lineage_eq hnode).symm
  rw [CallTree.planned_of_node? hnode, Unfolding.ofCall_answered hshallow hanswer, hway]
  rfl

/-- A node whose callees are known is replaced by the callees that are to be expanded. -/
theorem OnPlan.grow {state : Expansion σ} {id : Nat} {rest : List Nat} {node : CallNode}
    (hplan : state.OnPlan answers limits.maxDepth whole) (asked : Expansion σ)
    (hbudget : whole.size ≤ limits.budget) (hsound : state.Sound limits)
    (hpending : state.pending = id :: rest) (hrest : ∀ other ∈ rest, other < state.tree.size)
    (hnode : state.tree.node? id = some node) (hshallow : node.depth < limits.maxDepth)
    {calls : List OutgoingCall} (hanswer : answers node.identity = .ok calls)
    (htree : asked.tree = state.tree)
    (hanswered : ∀ {inquiry : Inquiry}, inquiry ∈ asked.inquiries →
      inquiry.answer = answers inquiry.identity)
    (hasked : asked.inquiries.map Inquiry.identity
      = state.inquiries.map Inquiry.identity ++ [node.identity]) :
    (asked.grow limits.budget id rest calls).OnPlan answers limits.maxDepth whole := by
  have hid := CallTree.lt_size_of_node? hnode
  have hplanned := planned_answered hsound hnode hshallow hanswer
  have hbelow : (state.tree.planned answers limits.maxDepth id).descendants.length
      = calls.length + ((calls.filter fun call => !state.tree.onPath id call.callee).flatMap
        fun call => (Unfolding.ofCall answers limits.maxDepth (state.tree.lineage id)
          (node.depth + 1) call).descendants).length := by
    rw [hplanned, Unfolding.descendants_eq]
    exact Unfolding.length_preorder_callees calls
  have hfits : calls.length ≤ limits.budget - state.tree.size := by
    have hsize := hplan.size
    rw [hpending, List.map_cons, List.flatMap_cons, List.length_append] at hsize
    omega
  have hadmitted : state.tree.admitted limits.budget calls = calls :=
    List.take_of_length_le hfits
  have hnew := CallTree.map_planned_attach answers limits.maxDepth hid hfits
  rw [CallTree.depth_of_node? hnode] at hnew
  apply hplan.replace (asked.grow limits.budget id rest calls)
    (state.tree.attach limits.budget id calls).2 hpending hrest
  · rw [Expansion.grow, htree]
    exact CallTree.growsTo_attach limits.budget state.tree hid calls
  · rw [Expansion.grow, htree]
  · rintro ⟨other, found, hfound, hcut⟩
    rw [Expansion.grow, htree] at hfound
    rcases CallTree.stopped_attach_cases hid hfound with
      hmark | hmark | ⟨_, hroom⟩ | ⟨before, hbefore, hmark⟩
    · rw [hmark] at hcut
      cases hcut
    · rw [hmark] at hcut
      cases hcut
    · exact absurd hfits (Nat.not_le.mpr hroom)
    · exact hplan.uncut ⟨other, before, hbefore, hmark.symm.trans hcut⟩
  · exact hanswered
  · rw [Expansion.grow, htree, hnew, hbelow, CallTree.size_attach _ _ hid, hadmitted,
      List.flatMap_map]
    exact Nat.add_assoc _ _ _
  · show asked.inquiries.map Inquiry.identity ++ _ = _
    rw [Expansion.grow, htree, hnew, hasked, hplanned, Unfolding.asked_eq,
      Unfolding.flatMap_asked_callees, List.flatMap_map, List.append_assoc]
    rfl

theorem OnPlan.round {state : Expansion σ} (hguard : guard.cancelAt = none)
    (hanswers : oracle.Answers guard.timeout answers) (hbudget : whole.size ≤ limits.budget)
    (hsound : state.Sound limits) (hundisturbed : state.Undisturbed)
    (hplan : state.OnPlan answers limits.maxDepth whole) (hpending : state.pending ≠ []) :
    (state.round limits guard oracle).OnPlan answers limits.maxDepth whole := by
  rcases hsound.outcome guard oracle hpending with
    ⟨id, rest, node, hnext, huntouched, houtcome⟩
  have hnode := huntouched.node?
  have hrest : ∀ other ∈ rest, other < state.tree.size := by
    intro other hother
    have hmem : other ∈ state.pending := by
      rw [hnext]
      exact List.mem_cons_of_mem id hother
    rcases hsound.untouched hmem with ⟨found, hfound⟩
    exact CallTree.lt_size_of_node? hfound.node?
  have hanswer := ask_answers hguard hanswers hundisturbed.live id node.identity
  have hanswered : ∀ {inquiry : Inquiry},
      inquiry ∈ (state.ask guard oracle id node.identity).2.inquiries →
        inquiry.answer = answers inquiry.identity := by
    intro inquiry hmem
    rw [inquiries_ask, List.mem_append, List.mem_singleton] at hmem
    rcases hmem with hbefore | rfl
    · exact hplan.answered hbefore
    · exact hanswer
  have hasked : (state.ask guard oracle id node.identity).2.inquiries.map Inquiry.identity
      = state.inquiries.map Inquiry.identity ++ [node.identity] := by
    rw [inquiries_ask, List.map_append]
    rfl
  generalize state.round limits guard oracle = after at houtcome ⊢
  cases houtcome with
  | cancelled hcancelled =>
      rw [hundisturbed.live] at hcancelled
      cases hcancelled
  | deep _ hdeep =>
      have hplanned : state.tree.planned answers limits.maxDepth id = _ :=
        CallTree.planned_of_node? hnode
      rw [Unfolding.ofCall_deep hdeep] at hplanned
      apply hplan.dismiss state hnext hrest StopReason.noConfusion rfl hplan.answered
      · rw [hplanned]
        rfl
      · rw [hplanned]
        exact (List.append_nil _).symm
  | answered _ hshallow hfound =>
      exact hplan.grow (state.ask guard oracle id node.identity).2 hbudget hsound hnext hrest
        hnode hshallow (hanswer.symm.trans hfound) rfl hanswered hasked
  | interrupted _ _ hfound hcancelled =>
      rw [hanswers.plain (hanswer.symm.trans hfound)] at hcancelled
      cases hcancelled
  | failed _ hshallow hfound _ =>
      have hplanned : state.tree.planned answers limits.maxDepth id = _ :=
        CallTree.planned_of_node? hnode
      rw [Unfolding.ofCall_failed hshallow (hanswer.symm.trans hfound)] at hplanned
      apply hplan.dismiss (state.ask guard oracle id node.identity).2 hnext hrest
        StopReason.noConfusion rfl hanswered
      · rw [hplanned]
        rfl
      · rw [hplanned]
        exact hasked

/-!
## The arena at the end
-/

theorem Sound.shown_child {state : Expansion σ} (hsound : state.Sound limits)
    {id child : Nat} {node below : CallNode} (hnode : state.tree.node? id = some node)
    (hbelow : state.tree.node? child = some below) (hparent : below.parent = some id)
    {maxDepth : Nat} :
    (if below.stopped = some .cycle then
        Unfolding.ofCycle below.depth below.call
      else
        state.tree.planned answers maxDepth child) =
      if state.tree.onPath id below.call.callee then
        .ofCycle (node.depth + 1) below.call
      else
        .ofCall answers maxDepth (state.tree.lineage id) (node.depth + 1) below.call := by
  rcases hsound.shaped.formed.parent_lt hbelow hparent with ⟨hlt, found, hfound, hdepth, _⟩
  rw [hnode] at hfound
  cases hfound
  have hway := CallTree.lineage_child hbelow hparent hlt
  have hcycle := hsound.shaped.cycle hbelow
  rw [CallTree.repeated, hway, List.tail_cons] at hcycle
  rw [CallTree.planned_of_node? hbelow, hway, List.tail_cons, hdepth]
  by_cases hpath : state.tree.onPath id below.call.callee = true
  · rw [if_pos hpath, if_pos (hcycle.mpr hpath)]
  · rw [if_neg hpath, if_neg (fun hmark => hpath (hcycle.mp hmark))]

theorem Sound.shows_answered {state : Expansion σ} (hsound : state.Sound limits) {id : Nat}
    {node : CallNode} (hnode : state.tree.node? id = some node)
    (hshallow : node.depth < limits.maxDepth) {calls : List OutgoingCall}
    (hanswer : answers node.identity = .ok calls) (hmark : node.stopped = none)
    (hcallees : state.tree.callees node = calls.map some)
    (hshows : ∀ {child : Nat} {below : CallNode}, id < child →
      state.tree.node? child = some below →
        state.tree.Shows child
          (if below.stopped = some .cycle then
            .ofCycle below.depth below.call
          else
            state.tree.planned answers limits.maxDepth child)) :
    state.tree.Shows id (state.tree.planned answers limits.maxDepth id) := by
  rw [planned_answered hsound hnode hshallow hanswer]
  refine ⟨node, hnode, rfl, rfl, rfl, hmark, ?_⟩
  apply CallTree.showsAll_map hcallees
  intro child hchild below hbelow
  rcases hsound.shaped.formed.child hnode hchild with ⟨found, hfound, hparent⟩
  rw [hbelow] at hfound
  cases hfound
  rw [← hsound.shown_child hnode hbelow hparent]
  exact hshows (hsound.shaped.formed.parent_lt hbelow hparent).1 hbelow

theorem Sound.shows {state : Expansion σ} (hsound : state.Sound limits)
    (hdone : state.pending = []) (hundisturbed : state.Undisturbed)
    (hplan : state.OnPlan answers limits.maxDepth whole) {id : Nat} {node : CallNode}
    (hnode : state.tree.node? id = some node) :
    state.tree.Shows id
      (if node.stopped = some .cycle then
        .ofCycle node.depth node.call
      else
        state.tree.planned answers limits.maxDepth id) := by
  -- children have larger numbers than their parents, so the induction is on what is left
  induction hleft : state.tree.size - id using Nat.strongRecOn generalizing id node with
  | ind left ih =>
      have hid := CallTree.lt_size_of_node? hnode
      have hsettled : state.tree.Settled limits state.inquiries id node := by
        apply hsound.settled hnode
        rw [hdone]
        exact List.not_mem_nil
      cases hsettled with
      | @answered inquiry taken dropped hasked hidentity hshallow hanswer hcallees hmark _ =>
          have hdropped : dropped = [] := by
            by_cases hempty : dropped = []
            · exact hempty
            · rw [if_neg hempty] at hmark
              exact absurd ⟨id, node, hnode, hmark⟩ hplan.uncut
          rw [hdropped, List.append_nil, hplan.answered_of_asked hasked hidentity] at hanswer
          rw [if_pos hdropped] at hmark
          rw [if_neg (by simp [hmark])]
          apply hsound.shows_answered hnode hshallow hanswer hmark hcallees
          intro child below hlt hbelow
          exact ih (state.tree.size - child) (by omega) hbelow rfl
      | @unanswered inquiry failure hasked hidentity hshallow hanswer hmark hleaf =>
          rw [hplan.answered_of_asked hasked hidentity] at hanswer
          have hfailed : node.stopped = some .oracleFailure := by
            by_cases hcancelled : failure.isCancelled = true
            · rw [if_pos hcancelled] at hmark
              exact absurd hmark (hundisturbed.unmarked hnode)
            · rw [if_neg hcancelled] at hmark
              exact hmark
          have hshown := CallTree.shows_leaf hnode hleaf
          rw [hfailed] at hshown
          rw [if_neg (by simp [hfailed]), CallTree.planned_of_node? hnode,
            Unfolding.ofCall_failed hshallow hanswer]
          exact hshown
      | @unasked reason _ hmark hreason hleaf =>
          have hshown := CallTree.shows_leaf hnode hleaf
          rw [hmark] at hshown
          rcases hreason with rfl | rfl | ⟨rfl, hdepth⟩
          · rw [if_pos hmark]
            exact hshown
          · exact absurd hmark (hundisturbed.unmarked hnode)
          · rw [if_neg (by simp [hmark]), CallTree.planned_of_node? hnode,
              Unfolding.ofCall_deep (Nat.le_of_eq hdepth.symm)]
            exact hshown

theorem finish_onPlan (hguard : guard.cancelAt = none)
    (hanswers : oracle.Answers guard.timeout answers) (hbudget : whole.size ≤ limits.budget)
    {state : Expansion σ} (hsound : state.Sound limits) (hundisturbed : state.Undisturbed)
    (hplan : state.OnPlan answers limits.maxDepth whole) :
    (state.finish limits guard oracle).Sound limits ∧
      (state.finish limits guard oracle).Undisturbed ∧
      (state.finish limits guard oracle).OnPlan answers limits.maxDepth whole := by
  apply finish_invariant fun later =>
    later.Sound limits ∧ later.Undisturbed ∧ later.OnPlan answers limits.maxDepth whole
  · rintro before ⟨hbefore, hstill, hfollows⟩ hpending
    exact ⟨hbefore.round guard oracle hpending,
      hstill.round hguard hanswers.quiet hbefore hpending,
      hfollows.round hguard hanswers hbudget hbefore hstill hpending⟩
  · exact ⟨hsound, hundisturbed, hplan⟩

theorem finish_ofRoot (hguard : guard.cancelAt = none)
    (hanswers : oracle.Answers guard.timeout answers) {root : Identity}
    (hbudget : (Unfolding.ofRoot answers limits.maxDepth root).size ≤ limits.budget)
    {moment : Moment} (hlive : moment.cancelled = false) {memory : σ}
    {final : Expansion σ}
    (hfinal : (ofRoot root moment memory).finish limits guard oracle = final) :
    final.tree.WellFormed ∧
      final.tree.Shows 0 (Unfolding.ofRoot answers limits.maxDepth root) ∧
      final.tree.size = (Unfolding.ofRoot answers limits.maxDepth root).size ∧
      final.inquiries.map Inquiry.identity
        = (Unfolding.ofRoot answers limits.maxDepth root).asked := by
  have hrun := run_finish limits guard oracle (ofRoot root moment memory)
  rcases finish_onPlan hguard hanswers hbudget (sound_ofRoot limits root moment memory)
    (undisturbed_ofRoot root hlive memory)
    (onPlan_ofRoot answers limits.maxDepth root moment memory) with
    ⟨hsound, hundisturbed, hplan⟩
  rw [hfinal] at hrun hsound hundisturbed hplan
  have hdone := hrun.pending
  have hgrows := hrun.growsTo (sound_ofRoot limits root moment memory)
  refine ⟨hsound.shaped.formed, ?_, ?_, ?_⟩
  · have hplanned : final.tree.planned answers limits.maxDepth 0
        = Unfolding.ofRoot answers limits.maxDepth root :=
      (hgrows.planned Nat.one_pos).trans (CallTree.planned_ofRoot root)
    rcases hsound.shaped.formed.root with ⟨node, hnode, hparent, _⟩
    have hfresh : node.stopped ≠ some .cycle := by
      rw [ne_eq, hsound.shaped.cycle hnode, CallTree.repeated,
        CallTree.lineage_root hnode hparent]
      simp
    have hshows := hsound.shows hdone hundisturbed hplan hnode
    rw [if_neg hfresh, hplanned] at hshows
    exact hshows
  · have hsize := hplan.size
    rw [hdone] at hsize
    exact hsize
  · have hasked := hplan.asked
    rw [hdone, List.map_nil, List.flatMap_nil, List.append_nil] at hasked
    exact hasked

end Expansion

/-!
## Builds
-/

theorem Ledger.answers : Ledger.oracle.Answers 5000
    (fun identity => (Ledger.oracle.outgoing identity ()).1.outcome) where
  prompt := by
    intro identity memory
    simp only [Ledger.oracle, Oracle.fixed]
    split
    · exact ⟨by decide, by decide⟩
    · exact ⟨by decide, by decide⟩
    · exact ⟨by decide, by decide⟩
    · exact ⟨by decide, by decide⟩
  outcome := by
    intro identity memory
    rfl
  plain := by
    intro identity failure hfailure
    exact (Ledger.quiet.outgoing identity ()).2 failure hfailure

namespace CallTree

/-- If the root is found and its unfolding fits into the budget, then the arena holds the
unfolding and nothing else, and the oracle was asked about its nodes in order. -/
theorem build_unfolding {σ : Type} (limits : CallLimits) (guard : Guard) (oracle : Oracle σ)
    (location : Location) (state : σ) (moment : Moment)
    {answers : Identity → Except Failure (List OutgoingCall)} {root : Identity}
    {others : List Identity} (hfile : location.file.isEmpty = false)
    (hguard : guard.cancelAt = none) (hlive : moment.cancelled = false)
    (hprompt : (oracle.prepare location.file location.position state).1.Prompt guard.timeout)
    (hprepared : (oracle.prepare location.file location.position state).1.outcome
      = .ok (root :: others))
    (hanswers : oracle.Answers guard.timeout answers)
    (hbudget : (Unfolding.ofRoot answers limits.maxDepth root).size ≤ limits.budget) :
    ∃ tree,
      (build limits guard oracle location state moment).result = .ok (some tree) ∧
      tree.WellFormed ∧
      tree.Shows 0 (Unfolding.ofRoot answers limits.maxDepth root) ∧
      tree.size = (Unfolding.ofRoot answers limits.maxDepth root).size ∧
      (build limits guard oracle location state moment).inquiries.map Inquiry.identity
        = (Unfolding.ofRoot answers limits.maxDepth root).asked := by
  have hrun := guard.run_prompt hguard "prepare_call_hierarchy" hprompt hlive
  have hstart : Resolves guard oracle location state moment (.ofRoot root _ _) :=
    ⟨hfile, hlive, root, others, (congrArg Prod.fst hrun).trans hprepared, rfl⟩
  rw [build_of_resolves hstart]
  refine ⟨_, rfl, Expansion.finish_ofRoot hguard hanswers hbudget ?_ rfl⟩
  exact congrArg (fun ended => ended.2.cancelled) hrun

theorem build_unfolding_ledger :
    ∃ tree answers,
      (build ⟨2, 7⟩ ⟨5000, none⟩ Ledger.oracle Ledger.place () .start).result
        = .ok (some tree) ∧
      tree.marks
        = [none, none, some .cycle, none, some .depthLimit, some .depthLimit,
          some .depthLimit] ∧
      tree.Shows 0 (Unfolding.ofRoot answers 2 (Ledger.callable "post")) ∧
      (Unfolding.ofRoot answers 2 (Ledger.callable "post")).asked
        = [Ledger.callable "post", Ledger.callable "lookup", Ledger.callable "store"] := by
  rcases build_unfolding ⟨2, 7⟩ ⟨5000, none⟩ Ledger.oracle Ledger.place () .start (by decide)
    rfl rfl ⟨List.not_mem_nil, Nat.zero_le _⟩ rfl Ledger.answers (by cbv) with
    ⟨tree, htree, _, hshows, _, _⟩
  exact ⟨tree, _, htree, Ledger.eq_of_result (f := marks) htree (by cbv), hshows, by cbv⟩

end CallTree

end EndpointTrace
