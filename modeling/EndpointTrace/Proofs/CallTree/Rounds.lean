import EndpointTrace.Proofs.CallTree.Attachment

/-!
# Rounds of an expansion

A round has five possible outcomes.  They are listed here once, with everything that
was checked on the way, and every law about the making of a call tree is a case
analysis on them.

A run is a sequence of rounds until nothing is pending, and between two rounds the run
may be cancelled from outside.  The loop that builds a tree is the run in which nobody
interferes.
-/

namespace EndpointTrace

namespace Expansion

variable {σ : Type} {limits : CallLimits} {guard : Guard} {oracle : Oracle σ}

/-!
## Outcomes of a round
-/

/-- What a round leaves behind, by what was found out about the node that was next. -/
inductive RoundOutcome (limits : CallLimits) (guard : Guard) (oracle : Oracle σ)
    (state : Expansion σ) (id : Nat) (rest : List Nat) (node : CallNode) :
    Expansion σ → Prop where
  | cancelled (hcancelled : state.moment.cancelled = true) :
      RoundOutcome limits guard oracle state id rest node state.abandon
  | deep (hlive : state.moment.cancelled = false) (hdeep : limits.maxDepth ≤ node.depth) :
      RoundOutcome limits guard oracle state id rest node
        (state.dismiss .depthLimit id rest)
  | answered {calls : List OutgoingCall} (hlive : state.moment.cancelled = false)
      (hshallow : node.depth < limits.maxDepth)
      (hanswer : (state.ask guard oracle id node.identity).1 = .ok calls) :
      RoundOutcome limits guard oracle state id rest node
        ((state.ask guard oracle id node.identity).2.grow limits.budget id rest calls)
  | interrupted {failure : Failure} (hlive : state.moment.cancelled = false)
      (hshallow : node.depth < limits.maxDepth)
      (hanswer : (state.ask guard oracle id node.identity).1 = .error failure)
      (hcancelled : failure.isCancelled = true) :
      RoundOutcome limits guard oracle state id rest node
        (state.ask guard oracle id node.identity).2.abandon
  | failed {failure : Failure} (hlive : state.moment.cancelled = false)
      (hshallow : node.depth < limits.maxDepth)
      (hanswer : (state.ask guard oracle id node.identity).1 = .error failure)
      (hother : failure.isCancelled = false) :
      RoundOutcome limits guard oracle state id rest node
        ((state.ask guard oracle id node.identity).2.dismiss .oracleFailure id rest)

theorem round_outcome (limits : CallLimits) (guard : Guard) (oracle : Oracle σ)
    {state : Expansion σ} {id : Nat} {rest : List Nat} {node : CallNode}
    (hpending : state.pending = id :: rest) (hnode : state.tree.node? id = some node) :
    RoundOutcome limits guard oracle state id rest node
      (state.round limits guard oracle) := by
  simp only [round, hpending, CallTree.depth_of_node? hnode, hnode]
  by_cases hcancelled : state.moment.cancelled = true
  · rw [if_pos hcancelled]
    exact RoundOutcome.cancelled hcancelled
  · rw [if_neg hcancelled]
    have hlive : state.moment.cancelled = false := by
      simpa using hcancelled
    by_cases hdeep : limits.maxDepth ≤ node.depth
    · rw [if_pos hdeep]
      exact RoundOutcome.deep hlive hdeep
    · rw [if_neg hdeep]
      have hshallow : node.depth < limits.maxDepth := Nat.not_le.mp hdeep
      cases hanswer : (state.ask guard oracle id node.identity).1 with
      | ok calls =>
          exact RoundOutcome.answered hlive hshallow hanswer
      | error failure =>
          by_cases hfailure : failure.isCancelled = true
          · simp only [hfailure, if_true]
            exact RoundOutcome.interrupted hlive hshallow hanswer hfailure
          · simp only [hfailure]
            exact RoundOutcome.failed hlive hshallow hanswer (by simpa using hfailure)

@[simp] theorem pending_ask (guard : Guard) (oracle : Oracle σ) (state : Expansion σ)
    (id : Nat) (identity : Identity) :
    (state.ask guard oracle id identity).2.pending = state.pending := rfl

theorem inquiries_ask (guard : Guard) (oracle : Oracle σ) (state : Expansion σ)
    (id : Nat) (identity : Identity) :
    (state.ask guard oracle id identity).2.inquiries =
      state.inquiries ++
        [⟨id, identity, state.moment, (state.ask guard oracle id identity).1⟩] := rfl

/-!
## What a round leaves alone

A round only adds nodes, and of the nodes that exist it touches none that was not
pending.
-/

theorem RoundOutcome.growsTo {state next : Expansion σ} {id : Nat} {rest : List Nat}
    {node : CallNode} (houtcome : RoundOutcome limits guard oracle state id rest node next)
    (hid : id < state.tree.size) : state.tree.GrowsTo next.tree := by
  cases houtcome with
  | cancelled _ =>
      exact CallTree.growsTo_stopAll state.tree _ _
  | deep _ _ =>
      exact CallTree.growsTo_stop state.tree _ _
  | answered _ _ _ =>
      exact CallTree.growsTo_attach limits.budget state.tree hid _
  | interrupted _ _ _ _ =>
      exact CallTree.growsTo_stopAll state.tree _ _
  | failed _ _ _ _ =>
      exact CallTree.growsTo_stop state.tree _ _

theorem node?_abandon_of_not_mem {state : Expansion σ} {other : Nat}
    (hother : other ∉ state.pending) :
    state.abandon.tree.node? other = state.tree.node? other := by
  simp [abandon, CallTree.node?_stopAll, hother]

theorem node?_dismiss_of_ne (state : Expansion σ) (reason : StopReason) {id other : Nat}
    (rest : List Nat) (hother : other ≠ id) :
    (state.dismiss reason id rest).tree.node? other = state.tree.node? other := by
  simp [dismiss, CallTree.node?_stop, Ne.symm hother]

theorem node?_grow_of_ne {state : Expansion σ} {budget id other : Nat} (rest : List Nat)
    (calls : List OutgoingCall) (hid : id < state.tree.size) (hother : other ≠ id)
    (hlt : other < state.tree.size) :
    (state.grow budget id rest calls).tree.node? other = state.tree.node? other := by
  simp [grow, CallTree.node?_attach budget state.tree hid, hother, hlt]

theorem RoundOutcome.node? {state next : Expansion σ} {id : Nat} {rest : List Nat}
    {node : CallNode} (houtcome : RoundOutcome limits guard oracle state id rest node next)
    (hpending : state.pending = id :: rest) (hid : id < state.tree.size) {other : Nat}
    (hother : other ∉ state.pending) (hlt : other < state.tree.size) :
    next.tree.node? other = state.tree.node? other := by
  have hne : other ≠ id := by
    intro heq
    apply hother
    rw [hpending, heq]
    exact List.mem_cons_self
  cases houtcome with
  | cancelled _ =>
      exact node?_abandon_of_not_mem hother
  | deep _ _ =>
      exact node?_dismiss_of_ne state _ rest hne
  | answered _ _ _ =>
      exact node?_grow_of_ne rest _ hid hne hlt
  | interrupted _ _ _ _ =>
      exact node?_abandon_of_not_mem hother
  | failed _ _ _ _ =>
      exact node?_dismiss_of_ne _ _ rest hne

theorem RoundOutcome.pending {state next : Expansion σ} {id : Nat} {rest : List Nat}
    {node : CallNode} (houtcome : RoundOutcome limits guard oracle state id rest node next)
    (hid : id < state.tree.size) {other : Nat} (hother : other ∈ next.pending) :
    other ∈ rest ∨ state.tree.size ≤ other := by
  cases houtcome with
  | cancelled _ =>
      cases hother
  | deep _ _ =>
      exact Or.inl hother
  | answered _ _ _ =>
      rcases List.mem_append.mp hother with hnew | hrest
      · exact Or.inr ((CallTree.mem_attach_pending hid).mp hnew).1
      · exact Or.inl hrest
  | interrupted _ _ _ _ =>
      cases hother
  | failed _ _ _ _ =>
      exact Or.inl hother

/-!
## Runs
-/

def cancel (state : Expansion σ) : Expansion σ :=
  { state with moment := state.moment.cancel }

/-- Rounds until nothing is pending, with cancellations from outside in between. -/
inductive Run (limits : CallLimits) (guard : Guard) (oracle : Oracle σ) :
    Expansion σ → Expansion σ → Prop where
  | done {state : Expansion σ} (hpending : state.pending = []) :
      Run limits guard oracle state state
  | round {state final : Expansion σ} (hpending : state.pending ≠ [])
      (hrest : Run limits guard oracle (state.round limits guard oracle) final) :
      Run limits guard oracle state final
  | cancelled {state final : Expansion σ}
      (hrest : Run limits guard oracle state.cancel final) :
      Run limits guard oracle state final

namespace Run

theorem pending {state final : Expansion σ} (hrun : Run limits guard oracle state final) :
    final.pending = [] := by
  induction hrun with
  | done hpending =>
      exact hpending
  | round _ _ ih =>
      exact ih
  | cancelled _ ih =>
      exact ih

/-- What holds at the start and is kept by rounds and cancellations holds at the end. -/
theorem invariant {state final : Expansion σ} (hrun : Run limits guard oracle state final)
    (law : Expansion σ → Prop)
    (hround : ∀ before, law before → before.pending ≠ [] →
      law (before.round limits guard oracle))
    (hcancel : ∀ before, law before → law before.cancel) (hstart : law state) :
    law final := by
  induction hrun with
  | done _ =>
      exact hstart
  | round hpending _ ih =>
      exact ih (hround _ hstart hpending)
  | cancelled _ ih =>
      exact ih (hcancel _ hstart)

end Run

theorem finish_of_done {state : Expansion σ} (hpending : state.pending = []) :
    state.finish limits guard oracle = state := by
  rw [finish, dif_pos hpending]

theorem finish_round (limits : CallLimits) (guard : Guard) (oracle : Oracle σ)
    {state : Expansion σ} (hpending : state.pending ≠ []) :
    (state.round limits guard oracle).finish limits guard oracle
      = state.finish limits guard oracle := by
  have hunfolded := finish.eq_1 limits guard oracle state
  rw [dif_neg hpending] at hunfolded
  exact hunfolded.symm

theorem run_finish (limits : CallLimits) (guard : Guard) (oracle : Oracle σ)
    (state : Expansion σ) :
    Run limits guard oracle state (state.finish limits guard oracle) := by
  induction state using finish.induct limits guard oracle with
  | case1 state hpending =>
      rw [finish_of_done hpending]
      exact Run.done hpending
  | case2 state hpending ih =>
      rw [finish_round limits guard oracle hpending] at ih
      exact Run.round hpending ih

theorem finish_invariant (law : Expansion σ → Prop) {state : Expansion σ}
    (hround : ∀ before, law before → before.pending ≠ [] →
      law (before.round limits guard oracle)) (hstart : law state) :
    law (state.finish limits guard oracle) := by
  induction state using finish.induct limits guard oracle with
  | case1 state hpending =>
      rw [finish_of_done hpending]
      exact hstart
  | case2 state hpending ih =>
      rw [← finish_round limits guard oracle hpending]
      exact ih (hround state hstart hpending)

end Expansion

/-!
## Builds
-/

/-- Preparing the location under the guard delivers a root, and `start` is the expansion
that begins with it. -/
def Resolves {σ : Type} (guard : Guard) (oracle : Oracle σ) (location : Location)
    (state : σ) (moment : Moment) (start : Expansion σ) : Prop :=
  location.file.isEmpty = false ∧ moment.cancelled = false ∧
    ∃ root others,
      (guard.run "prepare_call_hierarchy"
        (oracle.prepare location.file location.position state).1 moment).1
          = .ok (root :: others) ∧
      start = .ofRoot root
        (guard.run "prepare_call_hierarchy"
          (oracle.prepare location.file location.position state).1 moment).2
        (oracle.prepare location.file location.position state).2

namespace CallTree

variable {σ : Type} {limits : CallLimits} {guard : Guard} {oracle : Oracle σ}
  {location : Location} {state : σ} {moment : Moment}

theorem build_of_resolves {start : Expansion σ}
    (hstart : Resolves guard oracle location state moment start) :
    build limits guard oracle location state moment =
      ⟨.ok (some (start.finish limits guard oracle).tree),
        (start.finish limits guard oracle).moment, (start.finish limits guard oracle).oracle,
        (start.finish limits guard oracle).inquiries⟩ := by
  rcases hstart with ⟨hfile, hlive, root, others, hprepared, rfl⟩
  simp [build, hfile, hlive, hprepared]

theorem resolves_of_build {tree : CallTree}
    (hbuilt : (build limits guard oracle location state moment).result = .ok (some tree)) :
    ∃ start, Resolves guard oracle location state moment start := by
  unfold build at hbuilt
  split at hbuilt
  · cases hbuilt
  · rename_i hfile
    split at hbuilt
    · cases hbuilt
    · rename_i hlive
      simp only at hbuilt
      split at hbuilt
      · rename_i root others hprepared
        exact ⟨_, by simpa using hfile, by simpa using hlive, root, others, hprepared, rfl⟩
      · cases hbuilt

theorem build_of_not_resolves (hfile : location.file.isEmpty = false)
    (hnone : ∀ start, ¬ Resolves guard oracle location state moment start) :
    (build limits guard oracle location state moment).result = .ok none ∧
      (build limits guard oracle location state moment).inquiries = [] := by
  unfold build
  rw [hfile]
  simp only [Bool.false_eq_true, if_false]
  split
  · exact ⟨rfl, rfl⟩
  · rename_i hlive
    split
    · rename_i root others hprepared
      exact absurd ⟨hfile, by simpa using hlive, root, others, hprepared, rfl⟩ (hnone _)
    · exact ⟨rfl, rfl⟩

end CallTree

end EndpointTrace
