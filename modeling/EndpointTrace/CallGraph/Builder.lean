import EndpointTrace.CallGraph.Oracle
import EndpointTrace.CallGraph.Tree
import EndpointTrace.Timing.Guard

/-!
# Building call trees

A handler is expanded depth first.  A callee that is already on the path from the
root becomes a leaf, so recursion ends, while a callee reached along two paths
appears in full under both.  The depth and the number of nodes are limited, and a
cancellation marks every node that was still to be expanded.
-/

namespace EndpointTrace

structure CallLimits where
  maxDepth : Nat
  maxNodes : Nat
  deriving DecidableEq, Repr

namespace CallLimits

/-- The number of nodes a tree may have; there is always room for the root. -/
def budget (limits : CallLimits) : Nat :=
  max limits.maxNodes 1

end CallLimits

structure Inquiry where
  node : Nat
  identity : Identity
  askedAt : Moment
  answer : Except Failure (List OutgoingCall)

namespace CallTree

/-- Adds callees under a node until the budget is spent, and lists the new nodes that
are to be expanded. -/
def attach (budget : Nat) (tree : CallTree) (id : Nat) :
    List OutgoingCall → CallTree × List Nat
  | [] => (tree, [])
  | call :: rest =>
      if budget ≤ tree.size then
        (tree.stop .nodeLimit id, [])
      else if tree.onPath id call.callee then
        attach budget ((tree.addChild id call).stop .cycle tree.size) id rest
      else
        let (grown, expandable) := attach budget (tree.addChild id call) id rest
        (grown, tree.size :: expandable)

theorem attach_budget (budget : Nat) (tree : CallTree) (id : Nat)
    (calls : List OutgoingCall) :
    (attach budget tree id calls).2.length + (budget - (attach budget tree id calls).1.size)
      ≤ budget - tree.size := by
  induction calls generalizing tree with
  | nil =>
      simp [attach]
  | cons call rest ih =>
      unfold attach
      split
      · simp
      · split
        · have := ih ((tree.addChild id call).stop .cycle tree.size)
          simp only [size_stop, size_addChild] at this
          omega
        · have := ih (tree.addChild id call)
          simp only [size_addChild] at this
          simp only [List.length_cons]
          omega

end CallTree

/-- A tree in the making: the nodes still to be expanded, the next one first. -/
structure Expansion (σ : Type) where
  tree : CallTree
  pending : List Nat
  moment : Moment
  oracle : σ
  inquiries : List Inquiry

namespace Expansion

variable {σ : Type}

def ofRoot (root : Identity) (moment : Moment) (oracle : σ) : Expansion σ :=
  ⟨.ofRoot root, [0], moment, oracle, []⟩

/-- How much an expansion can still do. -/
def remaining (budget : Nat) (state : Expansion σ) : Nat :=
  state.pending.length + (budget - state.tree.size)

def abandon (state : Expansion σ) : Expansion σ :=
  { state with tree := state.tree.stopAll .cancelled state.pending, pending := [] }

def dismiss (state : Expansion σ) (reason : StopReason) (id : Nat) (rest : List Nat) :
    Expansion σ :=
  { state with tree := state.tree.stop reason id, pending := rest }

/-- Adds the callees of the node that was next, and expands the new nodes before the
others. -/
def grow (state : Expansion σ) (budget id : Nat) (rest : List Nat)
    (calls : List OutgoingCall) : Expansion σ :=
  let attached := state.tree.attach budget id calls
  { state with tree := attached.1, pending := attached.2 ++ rest }

def ask (guard : Guard) (oracle : Oracle σ) (state : Expansion σ) (id : Nat)
    (identity : Identity) : Except Failure (List OutgoingCall) × Expansion σ :=
  let asked := oracle.outgoing identity state.oracle
  let answered := guard.run "outgoing_calls" asked.1 state.moment
  (answered.1,
    { state with
      moment := answered.2
      oracle := asked.2
      inquiries := state.inquiries ++ [⟨id, identity, state.moment, answered.1⟩] })

def round (limits : CallLimits) (guard : Guard) (oracle : Oracle σ)
    (state : Expansion σ) : Expansion σ :=
  match state.pending with
  | [] => state
  | id :: rest =>
      if state.moment.cancelled then
        state.abandon
      else if limits.maxDepth ≤ state.tree.depth id then
        state.dismiss .depthLimit id rest
      else
        match state.tree.node? id with
        | none => { state with pending := rest }
        | some node =>
            let asked := state.ask guard oracle id node.identity
            match asked.1 with
            | .ok calls => asked.2.grow limits.budget id rest calls
            | .error failure =>
                if failure.isCancelled then asked.2.abandon
                else asked.2.dismiss .oracleFailure id rest

@[simp] theorem tree_ask (guard : Guard) (oracle : Oracle σ) (state : Expansion σ)
    (id : Nat) (identity : Identity) :
    (state.ask guard oracle id identity).2.tree = state.tree := rfl

@[simp] theorem remaining_abandon (budget : Nat) (state : Expansion σ) :
    state.abandon.remaining budget = budget - state.tree.size := by
  simp [remaining, abandon]

@[simp] theorem remaining_dismiss (budget : Nat) (state : Expansion σ)
    (reason : StopReason) (id : Nat) (rest : List Nat) :
    (state.dismiss reason id rest).remaining budget
      = rest.length + (budget - state.tree.size) := by
  simp [remaining, dismiss]

theorem remaining_grow_le (budget : Nat) (state : Expansion σ) (id : Nat)
    (rest : List Nat) (calls : List OutgoingCall) :
    (state.grow budget id rest calls).remaining budget
      ≤ rest.length + (budget - state.tree.size) := by
  have hroom := CallTree.attach_budget budget state.tree id calls
  simp only [remaining, grow, List.length_append]
  omega

/-- Every round uses up a pending node or room of the budget. -/
theorem remaining_round_lt (limits : CallLimits) (guard : Guard) (oracle : Oracle σ)
    {state : Expansion σ} (hpending : state.pending ≠ []) :
    (state.round limits guard oracle).remaining limits.budget
      < state.remaining limits.budget := by
  cases hnext : state.pending with
  | nil =>
      exact absurd hnext hpending
  | cons id rest =>
      have hbefore : state.remaining limits.budget
          = rest.length + 1 + (limits.budget - state.tree.size) := by
        simp [remaining, hnext]
      simp only [round, hnext]
      split
      · rw [remaining_abandon]
        omega
      · split
        · rw [remaining_dismiss]
          omega
        · split
          · simp only [remaining, hnext, List.length_cons]
            omega
          · rename_i node _
            split
            · rename_i calls _
              have hgrown := remaining_grow_le limits.budget
                (state.ask guard oracle id node.identity).2 id rest calls
              rw [tree_ask] at hgrown
              omega
            · split
              · rw [remaining_abandon, tree_ask]
                omega
              · rw [remaining_dismiss, tree_ask]
                omega

def finish (limits : CallLimits) (guard : Guard) (oracle : Oracle σ)
    (state : Expansion σ) : Expansion σ :=
  if _pending : state.pending = [] then
    state
  else
    finish limits guard oracle (state.round limits guard oracle)
termination_by state.remaining limits.budget
decreasing_by exact remaining_round_lt limits guard oracle _pending

end Expansion

structure CallTreeBuild (σ : Type) where
  result : Except Failure (Option CallTree)
  moment : Moment
  oracle : σ
  inquiries : List Inquiry

namespace CallTree

/-- The tree below the callable at a location.  There is none if nothing callable is
found there or the run is cancelled before; a later cancellation leaves a partial
tree. -/
def build {σ : Type} (limits : CallLimits) (guard : Guard) (oracle : Oracle σ)
    (location : Location) (state : σ) (moment : Moment) : CallTreeBuild σ :=
  if location.file.isEmpty then
    ⟨.error .locationWithoutFile, moment, state, []⟩
  else if moment.cancelled then
    ⟨.ok none, moment, state, []⟩
  else
    let asked := oracle.prepare location.file location.position state
    let (prepared, moment) := guard.run "prepare_call_hierarchy" asked.1 moment
    match prepared with
    | .ok (root :: _) =>
        let built := (Expansion.ofRoot root moment asked.2).finish limits guard oracle
        ⟨.ok (some built.tree), built.moment, built.oracle, built.inquiries⟩
    | _ => ⟨.ok none, moment, asked.2, []⟩

end CallTree

end EndpointTrace
