import EndpointTrace.Proofs.CallTree.Accounting
import EndpointTrace.Proofs.Timing.Interruption

/-!
# Cancelled call trees

A run that is cancelled is compared with the run of the same oracle that nobody
cancels.  Both make the same rounds until the cancellation is noticed, and at that point
the cancelled run marks everything that was pending and ends, while the other one goes
on.  The tree of a cancelled run is therefore the beginning of the full tree, and a node
of it has either all its children or none.

The last section is about runs in which nothing is cancelled.
-/

namespace EndpointTrace

namespace CallTree

/-- A tree that was cut from a whole by a cancellation: its nodes are the first nodes of
the whole, and each of them is either finished or marked and without children. -/
structure CutFrom (tree whole : CallTree) : Prop where
  grows : tree.GrowsTo whole
  node : ∀ {id : Nat} {node : CallNode}, tree.node? id = some node →
    whole.node? id = some node ∨ (node.children = [] ∧ node.stopped = some .cancelled)

end CallTree

namespace Expansion

variable {σ : Type} {limits : CallLimits} {guard : Guard} {oracle : Oracle σ}

def uncancelled (state : Expansion σ) : Expansion σ :=
  { state with moment := state.moment.uncancelled }

/-!
## One round, cancelled and not cancelled
-/

theorem uncancelled_of_live {state : Expansion σ} (hlive : state.moment.cancelled = false) :
    state.uncancelled = state := by
  rcases state with ⟨tree, pending, ⟨now, cancelled⟩, memory, inquiries⟩
  cases hlive
  rfl

theorem ask_cases (guard : Guard) (oracle : Oracle σ) {state : Expansion σ}
    (hlive : state.moment.cancelled = false) (id : Nat) (identity : Identity) :
    (state.ask guard oracle id identity).1 = .error (.cancelled "outgoing_calls") ∨
    ((state.uncancelled.ask guard.uncancelled oracle.uncancelled id identity).1
        = (state.ask guard oracle id identity).1 ∧
      (state.uncancelled.ask guard.uncancelled oracle.uncancelled id identity).2
        = (state.ask guard oracle id identity).2.uncancelled) := by
  rcases guard.run_cases "outgoing_calls" (oracle.outgoing identity state.oracle).1 hlive
    with ⟨hreport, _⟩ | hsame
  · exact Or.inl hreport
  · have hmoment : state.moment.uncancelled = state.moment :=
      congrArg Expansion.moment (uncancelled_of_live hlive)
    rw [hmoment] at hsame
    right
    rw [uncancelled_of_live hlive]
    simp only [ask, Oracle.uncancelled, ← hsame]
    exact ⟨trivial, rfl⟩

/-- A round ends the run and marks what was pending, or it is the round of the run that
nobody cancels. -/
theorem round_cases (limits : CallLimits) (guard : Guard) (oracle : Oracle σ)
    (state : Expansion σ) :
    ((state.round limits guard oracle).pending = [] ∧
      (state.round limits guard oracle).tree = state.abandon.tree) ∨
    state.uncancelled.round limits guard.uncancelled oracle.uncancelled
      = (state.round limits guard oracle).uncancelled := by
  cases hnext : state.pending with
  | nil =>
      have hsteady : state.uncancelled.pending = [] := hnext
      right
      simp only [round, hnext, hsteady]
  | cons id rest =>
      by_cases hcancelled : state.moment.cancelled = true
      · have habandoned : state.round limits guard oracle = state.abandon := by
          simp only [round, hnext, hcancelled, if_true]
        rw [habandoned]
        exact Or.inl ⟨rfl, rfl⟩
      · have hlive : state.moment.cancelled = false := by
          simpa using hcancelled
        rw [round, round, uncancelled_of_live hlive]
        simp only [hnext, hlive, Bool.false_eq_true, if_false]
        by_cases hdeep : limits.maxDepth ≤ state.tree.depth id
        · right
          simp only [hdeep, if_true]
          refine (uncancelled_of_live ?_).symm
          exact hlive
        · simp only [hdeep, if_false]
          cases hnode : state.tree.node? id with
          | none =>
              right
              refine (uncancelled_of_live ?_).symm
              exact hlive
          | some node =>
              simp only
              rcases ask_cases guard oracle hlive id node.identity with
                hreport | ⟨hanswer, hafter⟩
              · left
                rw [hreport]
                exact ⟨rfl, rfl⟩
              · rw [uncancelled_of_live hlive] at hanswer hafter
                right
                rw [hanswer, hafter]
                cases (state.ask guard oracle id node.identity).1 with
                | ok calls =>
                    rfl
                | error failure =>
                    simp only
                    split
                    · rfl
                    · rfl

/-!
## A whole run, cancelled and not cancelled
-/

theorem Run.tree_of_done {state final : Expansion σ}
    (hrun : Run limits guard oracle state final) (hpending : state.pending = []) :
    final.tree = state.tree := by
  induction hrun with
  | done _ =>
      rfl
  | round hsome _ _ =>
      exact absurd hpending hsome
  | cancelled _ ih =>
      exact ih hpending

theorem Run.reached {state final : Expansion σ} (hrun : Run limits guard oracle state final)
    (hsound : state.Sound limits) :
    ∃ reached : Expansion σ, reached.Sound limits ∧ final.tree = reached.abandon.tree ∧
      reached.finish limits guard.uncancelled oracle.uncancelled
        = state.uncancelled.finish limits guard.uncancelled oracle.uncancelled := by
  induction hrun with
  | @done state hpending =>
      refine ⟨state.uncancelled, hsound.withMoment _, ?_, rfl⟩
      show state.tree = state.tree.stopAll .cancelled state.pending
      rw [hpending]
      rfl
  | @round state final hpending hrest ih =>
      rcases round_cases limits guard oracle state with ⟨hdone, htree⟩ | hsame
      · refine ⟨state.uncancelled, hsound.withMoment _, ?_, rfl⟩
        exact (hrest.tree_of_done hdone).trans htree
      · rcases ih (hsound.round guard oracle hpending) with
          ⟨reached, hreached, hfinal, hfinish⟩
        refine ⟨reached, hreached, hfinal, ?_⟩
        rw [hfinish, ← hsame]
        exact finish_round limits guard.uncancelled oracle.uncancelled hpending
  | cancelled _ ih =>
      exact ih (hsound.withMoment _)

theorem Sound.cutFrom_finish {state : Expansion σ} (hsound : state.Sound limits) :
    state.abandon.tree.CutFrom (state.finish limits guard oracle).tree := by
  have hrun := run_finish limits guard oracle state
  constructor
  · have hback : state.abandon.tree.GrowsTo state.tree :=
      CallTree.GrowsTo.of_origins_eq (CallTree.origins_stopAll state.tree _ _)
    exact hback.trans (hrun.growsTo hsound)
  · intro id node hnode
    by_cases hid : id ∈ state.pending
    · rcases hsound.untouched hid with ⟨fresh, hfresh⟩
      rw [abandon, CallTree.node?_stopAll, if_pos hid, hfresh.node?] at hnode
      right
      rw [← Option.some.inj hnode]
      exact ⟨hfresh.children, rfl⟩
    · rw [node?_abandon_of_not_mem hid] at hnode
      exact Or.inl (hrun.node? hsound hnode hid)

theorem Run.cutFrom {state final : Expansion σ} (hrun : Run limits guard oracle state final)
    (hsound : state.Sound limits) :
    final.tree.CutFrom
      (state.uncancelled.finish limits guard.uncancelled oracle.uncancelled).tree := by
  rcases hrun.reached hsound with ⟨reached, hreached, hfinal, hfinish⟩
  rw [hfinal, ← hfinish]
  exact hreached.cutFrom_finish

theorem Run.asked_live {state final : Expansion σ}
    (hrun : Run limits guard oracle state final) (hsound : state.Sound limits)
    (hstart : ∀ inquiry ∈ state.inquiries, inquiry.askedAt.cancelled = false) :
    ∀ inquiry ∈ final.inquiries, inquiry.askedAt.cancelled = false := by
  have hlaw : final.Sound limits ∧
      ∀ inquiry ∈ final.inquiries, inquiry.askedAt.cancelled = false := by
    apply hrun.invariant fun later =>
      later.Sound limits ∧ ∀ inquiry ∈ later.inquiries, inquiry.askedAt.cancelled = false
    · rintro before ⟨hbefore, hlive⟩ hpending
      refine ⟨hbefore.round guard oracle hpending, ?_⟩
      have hasked : before.moment.cancelled = false → ∀ id identity, ∀ inquiry ∈
          (before.ask guard oracle id identity).2.inquiries,
            inquiry.askedAt.cancelled = false := by
        intro hmoment id identity inquiry hmem
        rw [inquiries_ask, List.mem_append, List.mem_singleton] at hmem
        rcases hmem with hold | rfl
        · exact hlive inquiry hold
        · exact hmoment
      rcases hbefore.outcome guard oracle hpending with
        ⟨id, rest, node, _, _, houtcome⟩
      generalize before.round limits guard oracle = after at houtcome ⊢
      cases houtcome with
      | cancelled _ =>
          exact hlive
      | deep _ _ =>
          exact hlive
      | answered hmoment _ _ =>
          exact hasked hmoment id node.identity
      | interrupted hmoment _ _ _ =>
          exact hasked hmoment id node.identity
      | failed hmoment _ _ _ =>
          exact hasked hmoment id node.identity
    · rintro before ⟨hbefore, hlive⟩
      exact ⟨hbefore.withMoment _, hlive⟩
    · exact ⟨hsound, hstart⟩
  exact hlaw.2

end Expansion

/-!
## Builds
-/

theorem Resolves.uncancelled {σ : Type} {guard : Guard} {oracle : Oracle σ}
    {location : Location} {state : σ} {moment : Moment} {start : Expansion σ}
    (hstart : Resolves guard oracle location state moment start) :
    Resolves guard.uncancelled oracle.uncancelled location state moment.uncancelled
      start.uncancelled := by
  rcases hstart with ⟨hfile, hlive, root, others, hprepared, rfl⟩
  rcases guard.run_cases "prepare_call_hierarchy"
    (oracle.prepare location.file location.position state).1 hlive with
    ⟨hreport, _⟩ | hsame
  · rw [hprepared] at hreport
    cases hreport
  · refine ⟨hfile, rfl, root, others, ?_, ?_⟩
    · exact (congrArg Prod.fst hsame).symm.trans hprepared
    · exact congrArg (fun later =>
        Expansion.ofRoot root later (oracle.prepare location.file location.position state).2)
        (congrArg Prod.snd hsame)

namespace CallTree

/-- A build that is cancelled, at whatever moment and from whatever side, finds no root or
leaves a tree that was cut from the tree of the uncancelled build, and asks nothing once
it is cancelled. -/
theorem build_cutFrom {σ : Type} (limits : CallLimits) (guard : Guard) (oracle : Oracle σ)
    (location : Location) (state : σ) (moment : Moment) :
    (location.file.isEmpty = false →
      (∀ start, ¬ Resolves guard oracle location state moment start) →
        (build limits guard oracle location state moment).result = .ok none ∧
          (build limits guard oracle location state moment).inquiries = []) ∧
    (∀ start, Resolves guard oracle location state moment start →
      ∃ tree whole,
        (build limits guard oracle location state moment).result = .ok (some tree) ∧
        (build limits guard.uncancelled oracle.uncancelled location state
          moment.uncancelled).result = .ok (some whole) ∧
        tree.CutFrom whole ∧
        (∀ inquiry ∈ (build limits guard oracle location state moment).inquiries,
          inquiry.askedAt.cancelled = false) ∧
        ∀ final, Expansion.Run limits guard oracle start final →
          final.tree.CutFrom whole ∧
            ∀ inquiry ∈ final.inquiries, inquiry.askedAt.cancelled = false) := by
  refine ⟨build_of_not_resolves, ?_⟩
  intro start hstart
  have hsound : start.Sound limits := hstart.sound
  have hunasked : ∀ inquiry ∈ start.inquiries, inquiry.askedAt.cancelled = false := by
    rcases hstart with ⟨_, _, root, others, _, rfl⟩
    intro inquiry hmem
    cases hmem
  have hrun := Expansion.run_finish limits guard oracle start
  rw [build_of_resolves hstart, build_of_resolves hstart.uncancelled]
  refine ⟨_, _, rfl, rfl, hrun.cutFrom hsound, hrun.asked_live hsound hunasked, ?_⟩
  intro final hfinal
  exact ⟨hfinal.cutFrom hsound, hfinal.asked_live hsound hunasked⟩

theorem build_cutFrom_ledger :
    ∃ tree whole,
      (build ⟨6, 512⟩ ⟨1000, some 500⟩ Ledger.oracle Ledger.place () .start).result
        = .ok (some tree) ∧
      tree.marks = [none, some .cancelled, some .cycle, some .cancelled] ∧
      whole.marks = [none, some .oracleFailure, some .cycle, none, none, none] ∧
      tree.CutFrom whole ∧
      ∃ final : Expansion Unit, final.tree.marks = [some .cancelled] ∧
        final.tree.CutFrom whole := by
  have hresolves : Resolves ⟨1000, some 500⟩ Ledger.oracle Ledger.place () .start
      (.ofRoot (Ledger.callable "post") .start ()) :=
    ⟨by decide, rfl, Ledger.callable "post", [], rfl, rfl⟩
  have hrun := Expansion.Run.cancelled (Expansion.run_finish ⟨6, 512⟩ ⟨1000, some 500⟩
    Ledger.oracle (Expansion.ofRoot (Ledger.callable "post") .start ()).cancel)
  rcases (build_cutFrom ⟨6, 512⟩ ⟨1000, some 500⟩ Ledger.oracle Ledger.place () .start).2 _
    hresolves with ⟨tree, whole, htree, hwhole, hcut, _, hruns⟩
  refine ⟨tree, whole, htree, ?_, ?_, hcut, _, ?_, (hruns _ hrun).1⟩
  · exact Ledger.eq_of_result (f := marks) htree (by cbv)
  · exact Ledger.eq_of_result (f := marks) hwhole (by cbv)
  · cbv

end CallTree

/-!
## Undisturbed runs

If nobody cancels from outside, and no call of the oracle does or says that it was
cancelled, then nothing is marked as cancelled.
-/

namespace Expansion

variable {σ : Type} {limits : CallLimits} {guard : Guard} {oracle : Oracle σ}

structure Undisturbed (state : Expansion σ) : Prop where
  live : state.moment.cancelled = false
  unmarked : ∀ {id : Nat} {node : CallNode}, state.tree.node? id = some node →
    node.stopped ≠ some .cancelled

theorem Undisturbed.stop {tree : CallTree} {reason : StopReason}
    (hreason : reason ≠ .cancelled) {next : Nat}
    (hunmarked : ∀ {id : Nat} {node : CallNode}, tree.node? id = some node →
      node.stopped ≠ some .cancelled) {id : Nat} {node : CallNode}
    (hnode : (tree.stop reason next).node? id = some node) :
    node.stopped ≠ some .cancelled := by
  rcases CallTree.node?_stop_cases hnode with hmark | hbefore
  · rw [hmark]
    simpa using hreason
  · exact hunmarked hbefore

theorem Undisturbed.round {state : Expansion σ} (hguard : guard.cancelAt = none)
    (hquiet : ∀ identity memory, (oracle.outgoing identity memory).1.Quiet)
    (hsound : state.Sound limits) (hundisturbed : state.Undisturbed)
    (hpending : state.pending ≠ []) : (state.round limits guard oracle).Undisturbed := by
  rcases hsound.outcome guard oracle hpending with
    ⟨id, rest, node, _, hnext, houtcome⟩
  have hid := CallTree.lt_size_of_node? hnext.node?
  rcases guard.run_quiet hguard "outgoing_calls" (hquiet node.identity state.oracle)
    hundisturbed.live with ⟨hlive, hplain⟩
  generalize state.round limits guard oracle = after at houtcome ⊢
  cases houtcome with
  | cancelled hcancelled =>
      rw [hundisturbed.live] at hcancelled
      cases hcancelled
  | deep _ _ =>
      exact ⟨hundisturbed.live,
        Undisturbed.stop StopReason.noConfusion hundisturbed.unmarked⟩
  | @answered calls _ _ _ =>
      refine ⟨hlive, ?_⟩
      intro other found hfound
      rcases CallTree.stopped_attach_cases hid hfound with
        hmark | hmark | ⟨hmark, _⟩ | ⟨before, hbefore, hmark⟩
      · simp [hmark]
      · simp [hmark]
      · simp [hmark]
      · rw [hmark]
        exact hundisturbed.unmarked hbefore
  | interrupted _ _ hanswer hcancelled =>
      rw [hplain _ hanswer] at hcancelled
      cases hcancelled
  | failed _ _ _ _ =>
      exact ⟨hlive, Undisturbed.stop StopReason.noConfusion hundisturbed.unmarked⟩

theorem Undisturbed.finish {state : Expansion σ} (hguard : guard.cancelAt = none)
    (hquiet : ∀ identity memory, (oracle.outgoing identity memory).1.Quiet)
    (hsound : state.Sound limits) (hundisturbed : state.Undisturbed) :
    (state.finish limits guard oracle).Undisturbed := by
  have hlaw : (state.finish limits guard oracle).Sound limits ∧
      (state.finish limits guard oracle).Undisturbed := by
    apply finish_invariant fun later => later.Sound limits ∧ later.Undisturbed
    · rintro before ⟨hbefore, hstill⟩ hpending
      exact ⟨hbefore.round guard oracle hpending,
        hstill.round hguard hquiet hbefore hpending⟩
    · exact ⟨hsound, hundisturbed⟩
  exact hlaw.2

theorem undisturbed_ofRoot (root : Identity) {moment : Moment}
    (hlive : moment.cancelled = false) (memory : σ) :
    (ofRoot root moment memory).Undisturbed where
  live := hlive
  unmarked := by
    intro id node hnode
    rw [(CallTree.node?_ofRoot hnode).2]
    simp

end Expansion

end EndpointTrace
