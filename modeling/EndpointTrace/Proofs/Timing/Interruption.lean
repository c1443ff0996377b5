import EndpointTrace.CallGraph.Oracle
import EndpointTrace.Timing.Guard

/-!
# Interrupted calls

A guarded call either ends with the report that it was cancelled, or it ends as it would
have ended in a run that nobody cancels, and at the same time.  To say this, the
cancellations are taken out of a call, of a guard and of an oracle.

A call that brings no cancellation of its own is quiet, and if it is also short enough
it delivers its outcome.
-/

namespace EndpointTrace

namespace Moment

def uncancelled (moment : Moment) : Moment :=
  ⟨moment.now, false⟩

end Moment

namespace Call

variable {α : Type}

def uncancelled (call : Call α) : Call α :=
  ⟨call.steps.filter fun step => step != .cancel, call.outcome⟩

/-- A call that neither cancels the run nor reports that it was cancelled. -/
def Quiet (call : Call α) : Prop :=
  Step.cancel ∉ call.steps ∧
    ∀ failure, call.outcome = .error failure → failure.isCancelled = false

def waiting : List Step → Nat
  | [] => 0
  | .wait milliseconds :: rest => milliseconds + waiting rest
  | .cancel :: rest => waiting rest

/-- A call that does not cancel the run and is over before its time is. -/
def Prompt (timeout : Nat) (call : Call α) : Prop :=
  Step.cancel ∉ call.steps ∧ waiting call.steps ≤ timeout

end Call

namespace Oracle

variable {σ : Type}

def uncancelled (oracle : Oracle σ) : Oracle σ where
  prepare file position state :=
    ((oracle.prepare file position state).1.uncancelled,
      (oracle.prepare file position state).2)
  outgoing identity state :=
    ((oracle.outgoing identity state).1.uncancelled, (oracle.outgoing identity state).2)

structure Quiet (oracle : Oracle σ) : Prop where
  prepare : ∀ file position state, (oracle.prepare file position state).1.Quiet
  outgoing : ∀ identity state, (oracle.outgoing identity state).1.Quiet

end Oracle

namespace Guard

variable {α : Type}

def uncancelled (guard : Guard) : Guard :=
  ⟨guard.timeout, none⟩

/-!
## The same call, cancelled and not cancelled
-/

theorem wait_of_cancelled (guard : Guard) (deadline milliseconds : Nat) {moment : Moment}
    (hcancelled : moment.cancelled = true) :
    guard.wait deadline milliseconds moment = .cancelled moment := by
  simp [wait, hcancelled]

/-- After its own cancellation a call goes on until it waits, and ends there. -/
theorem follow_of_cancelled (guard : Guard) (operation : String) (deadline : Nat)
    (outcome : Except Failure α) (steps : List Step) {moment : Moment}
    (hcancelled : moment.cancelled = true) :
    guard.follow operation deadline outcome steps moment =
      (if 0 < Call.waiting steps then .error (.cancelled operation) else outcome, moment) := by
  induction steps generalizing moment with
  | nil =>
      rfl
  | cons step rest ih =>
      cases step with
      | cancel =>
          have hmoment : moment.cancel = moment := by
            rw [Moment.cancel, ← hcancelled]
          rw [follow, hmoment, Call.waiting]
          exact ih hcancelled
      | wait milliseconds =>
          cases milliseconds with
          | zero =>
              rw [follow, Call.waiting, Nat.zero_add]
              exact ih hcancelled
          | succ milliseconds =>
              rw [follow, guard.wait_of_cancelled deadline _ hcancelled, Call.waiting,
                if_pos (by omega)]

theorem wait_uncancelled (guard : Guard) (deadline milliseconds : Nat) (moment : Moment) :
    guard.uncancelled.wait deadline milliseconds moment.uncancelled =
      if moment.now + milliseconds ≤ deadline then
        .elapsed ⟨moment.now + milliseconds, false⟩
      else
        .timedOut ⟨deadline, false⟩ := by
  rfl

theorem wait_cases (guard : Guard) (deadline milliseconds : Nat) (moment : Moment) :
    (∃ later, guard.wait deadline milliseconds moment = .cancelled later ∧
      later.cancelled = true) ∨
    guard.wait deadline milliseconds moment =
      guard.uncancelled.wait deadline milliseconds moment.uncancelled := by
  by_cases hcancelled : moment.cancelled = true
  · exact Or.inl ⟨moment, guard.wait_of_cancelled deadline milliseconds hcancelled,
      hcancelled⟩
  · rw [wait_uncancelled, wait]
    simp only [hcancelled, Bool.false_eq_true, if_false]
    split
    · exact Or.inl ⟨_, rfl, rfl⟩
    · exact Or.inr rfl

theorem follow_cases (guard : Guard) (operation : String) (deadline : Nat)
    (outcome : Except Failure α) (steps : List Step) (moment : Moment) :
    ((guard.follow operation deadline outcome steps moment).1
        = .error (.cancelled operation) ∧
      (guard.follow operation deadline outcome steps moment).2.cancelled = true) ∨
    ((guard.follow operation deadline outcome steps moment).1,
      (guard.follow operation deadline outcome steps moment).2.uncancelled) =
      guard.uncancelled.follow operation deadline outcome
        (steps.filter fun step => step != .cancel) moment.uncancelled := by
  induction steps generalizing moment with
  | nil =>
      exact Or.inr rfl
  | cons step rest ih =>
      cases step with
      | cancel =>
          exact ih moment.cancel
      | wait milliseconds =>
          cases milliseconds with
          | zero =>
              exact ih moment
          | succ milliseconds =>
              have hfilter : (Step.wait (milliseconds + 1) :: rest).filter
                    (fun step => step != .cancel)
                  = .wait (milliseconds + 1) :: rest.filter fun step => step != .cancel :=
                rfl
              rw [hfilter, follow, follow]
              rcases guard.wait_cases deadline (milliseconds + 1) moment with
                ⟨later, hlater, hcancelled⟩ | hsame
              · rw [hlater]
                exact Or.inl ⟨rfl, hcancelled⟩
              · rw [hsame, wait_uncancelled]
                by_cases hwake : moment.now + (milliseconds + 1) ≤ deadline
                · simp only [hwake, if_true]
                  exact ih ⟨moment.now + (milliseconds + 1), false⟩
                · simp only [hwake, if_false]
                  exact Or.inr rfl

theorem run_of_live (guard : Guard) (operation : String) (call : Call α) {moment : Moment}
    (hlive : moment.cancelled = false) :
    guard.run operation call moment =
      guard.follow operation (moment.now + guard.timeout) call.outcome call.steps
        moment := by
  simp [run, hlive]

/-- A guarded call that was started is cancelled, or it ends as in the run that nobody
cancels. -/
theorem run_cases (guard : Guard) (operation : String) (call : Call α) {moment : Moment}
    (hlive : moment.cancelled = false) :
    ((guard.run operation call moment).1 = .error (.cancelled operation) ∧
      (guard.run operation call moment).2.cancelled = true) ∨
    ((guard.run operation call moment).1, (guard.run operation call moment).2.uncancelled)
      = guard.uncancelled.run operation call.uncancelled moment.uncancelled := by
  rw [guard.run_of_live operation call hlive]
  exact guard.follow_cases operation _ call.outcome call.steps moment

/-!
## Quiet calls
-/

theorem follow_quiet {guard : Guard} (hguard : guard.cancelAt = none) (operation : String)
    (deadline : Nat) (outcome : Except Failure α) {steps : List Step}
    (hsteps : Step.cancel ∉ steps) {moment : Moment} (hlive : moment.cancelled = false) :
    (guard.follow operation deadline outcome steps moment).2.cancelled = false ∧
      ((guard.follow operation deadline outcome steps moment).1 = outcome ∨
        (guard.follow operation deadline outcome steps moment).1
          = .error (.timedOut operation (guard.timeout / 1000))) := by
  induction steps generalizing moment with
  | nil =>
      exact ⟨hlive, Or.inl rfl⟩
  | cons step rest ih =>
      have hrest : Step.cancel ∉ rest := fun hmem => hsteps (List.mem_cons_of_mem step hmem)
      cases step with
      | cancel =>
          exact absurd List.mem_cons_self hsteps
      | wait milliseconds =>
          cases milliseconds with
          | zero =>
              exact ih hrest hlive
          | succ milliseconds =>
              rw [follow, wait]
              simp only [hlive, interruption?, hguard, Option.map_none, Option.any_none,
                Bool.false_eq_true, if_false]
              by_cases hwake : moment.now + (milliseconds + 1) ≤ deadline
              · simp only [hwake, if_true]
                exact ih hrest rfl
              · simp only [hwake, if_false]
                exact ⟨trivial, Or.inr trivial⟩

theorem run_quiet {guard : Guard} (hguard : guard.cancelAt = none) (operation : String)
    {call : Call α} (hquiet : call.Quiet) {moment : Moment}
    (hlive : moment.cancelled = false) :
    (guard.run operation call moment).2.cancelled = false ∧
      ∀ failure, (guard.run operation call moment).1 = .error failure →
        failure.isCancelled = false := by
  rw [guard.run_of_live operation call hlive]
  rcases guard.follow_quiet hguard operation (moment.now + guard.timeout) call.outcome
    hquiet.1 hlive with ⟨hstill, houtcome | htimeout⟩
  · refine ⟨hstill, ?_⟩
    intro failure hfailure
    exact hquiet.2 failure (houtcome.symm.trans hfailure)
  · refine ⟨hstill, ?_⟩
    intro failure hfailure
    rw [htimeout] at hfailure
    cases hfailure
    rfl

theorem follow_prompt {guard : Guard} (hguard : guard.cancelAt = none) (operation : String)
    (deadline : Nat) (outcome : Except Failure α) {steps : List Step}
    (hsteps : Step.cancel ∉ steps) {moment : Moment} (hlive : moment.cancelled = false)
    (hprompt : moment.now + Call.waiting steps ≤ deadline) :
    guard.follow operation deadline outcome steps moment =
      (outcome, ⟨moment.now + Call.waiting steps, false⟩) := by
  induction steps generalizing moment with
  | nil =>
      rcases moment with ⟨now, cancelled⟩
      cases hlive
      rfl
  | cons step rest ih =>
      have hrest : Step.cancel ∉ rest := fun hmem => hsteps (List.mem_cons_of_mem step hmem)
      cases step with
      | cancel =>
          exact absurd List.mem_cons_self hsteps
      | wait milliseconds =>
          rw [Call.waiting] at hprompt ⊢
          cases milliseconds with
          | zero =>
              rw [Nat.zero_add] at hprompt ⊢
              exact ih hrest hlive hprompt
          | succ milliseconds =>
              have hwake : moment.now + (milliseconds + 1) ≤ deadline := by
                omega
              rw [follow, wait]
              simp only [hlive, interruption?, hguard, Option.map_none, Option.any_none,
                Bool.false_eq_true, if_false, hwake, if_true]
              rw [ih hrest rfl (by simp only; omega), Nat.add_assoc]

theorem run_prompt {guard : Guard} (hguard : guard.cancelAt = none) (operation : String)
    {call : Call α} (hprompt : call.Prompt guard.timeout) {moment : Moment}
    (hlive : moment.cancelled = false) :
    guard.run operation call moment =
      (call.outcome, ⟨moment.now + Call.waiting call.steps, false⟩) := by
  have hdeadline : moment.now + Call.waiting call.steps ≤ moment.now + guard.timeout :=
    Nat.add_le_add_left hprompt.2 moment.now
  rw [guard.run_of_live operation call hlive]
  exact guard.follow_prompt hguard operation _ call.outcome hprompt.1 hlive hdeadline

end Guard

end EndpointTrace
