import EndpointTrace.Proofs.Timing.Interruption

/-!
# What a call comes to in time

How a call ends that nobody cancels depends on its own steps alone: it delivers its outcome
if its waits together fit into the time limit, wherever in a run the call is made.  A
guarded call ends like this or with the report that it was cancelled, and in a run that is
still live when the call ends it ends exactly like this.
-/

namespace EndpointTrace

namespace Call

variable {α : Type}

/-- What a call comes to under a time limit if nobody cancels it. -/
def verdict (operation : String) (timeout : Nat) (call : Call α) : Except Failure α :=
  if waiting call.steps ≤ timeout then call.outcome
  else .error (.timedOut operation (timeout / 1000))

def delivered? (timeout : Nat) (call : Call α) : Option α :=
  if waiting call.steps ≤ timeout then call.outcome.toOption else none

@[simp] theorem toOption_verdict (operation : String) (timeout : Nat) (call : Call α) :
    (call.verdict operation timeout).toOption = call.delivered? timeout := by
  unfold verdict delivered?
  split
  · rfl
  · rfl

@[simp] theorem delivered?_immediate (timeout : Nat) (outcome : Except Failure α) :
    (immediate outcome).delivered? timeout = outcome.toOption := by
  simp [delivered?, immediate, waiting]

theorem waiting_filter (steps : List Step) :
    waiting (steps.filter fun step => step != .cancel) = waiting steps := by
  induction steps with
  | nil =>
      rfl
  | cons step rest ih =>
      cases step with
      | cancel =>
          exact ih
      | wait milliseconds =>
          exact congrArg (milliseconds + ·) ih

@[simp] theorem verdict_uncancelled (operation : String) (timeout : Nat) (call : Call α) :
    call.uncancelled.verdict operation timeout = call.verdict operation timeout := by
  simp only [verdict, uncancelled, waiting_filter]

@[simp] theorem delivered?_uncancelled (timeout : Nat) (call : Call α) :
    call.uncancelled.delivered? timeout = call.delivered? timeout := by
  simp only [delivered?, uncancelled, waiting_filter]

theorem cancel_not_mem_uncancelled (call : Call α) : Step.cancel ∉ call.uncancelled.steps := by
  simp [uncancelled]

/-- A call that cancels the run itself and answers without waiting again. -/
def CancelsThenAnswers (call : Call α) : Prop :=
  ∃ before after, call.steps = before ++ .cancel :: after ∧ waiting after = 0

end Call

namespace Guard

variable {α : Type}

theorem follow_late {guard : Guard} (hguard : guard.cancelAt = none) (operation : String)
    {deadline : Nat} (outcome : Except Failure α) {steps : List Step}
    (hsteps : Step.cancel ∉ steps) {moment : Moment} (hlive : moment.cancelled = false)
    (hstart : moment.now ≤ deadline)
    (hlate : deadline < moment.now + Call.waiting steps) :
    guard.follow operation deadline outcome steps moment =
      (.error (.timedOut operation (guard.timeout / 1000)), ⟨deadline, false⟩) := by
  induction steps generalizing moment with
  | nil =>
      exact absurd hlate (Nat.not_lt.mpr hstart)
  | cons step rest ih =>
      have hrest : Step.cancel ∉ rest := fun hmem => hsteps (List.mem_cons_of_mem step hmem)
      cases step with
      | cancel =>
          exact absurd List.mem_cons_self hsteps
      | wait milliseconds =>
          rw [Call.waiting] at hlate
          cases milliseconds with
          | zero =>
              rw [Nat.zero_add] at hlate
              exact ih hrest hlive hstart hlate
          | succ milliseconds =>
              rw [follow, wait]
              simp only [hlive, interruption?, hguard, Option.map_none, Option.any_none,
                Bool.false_eq_true, if_false]
              by_cases hwake : moment.now + (milliseconds + 1) ≤ deadline
              · simp only [hwake, if_true]
                rw [← Nat.add_assoc] at hlate
                exact ih hrest rfl hwake hlate
              · simp only [hwake, if_false]

theorem run_late {guard : Guard} (hguard : guard.cancelAt = none) (operation : String)
    {call : Call α} (hsteps : Step.cancel ∉ call.steps)
    (hlate : guard.timeout < Call.waiting call.steps) {moment : Moment}
    (hlive : moment.cancelled = false) :
    guard.run operation call moment =
      (.error (.timedOut operation (guard.timeout / 1000)),
        ⟨moment.now + guard.timeout, false⟩) := by
  rw [guard.run_of_live operation call hlive]
  exact guard.follow_late hguard operation call.outcome hsteps hlive
    (Nat.le_add_right _ _) (Nat.add_lt_add_left hlate moment.now)

theorem live_run_quiet {guard : Guard} (hguard : guard.cancelAt = none) (operation : String)
    {call : Call α} (hsteps : Step.cancel ∉ call.steps) {moment : Moment}
    (hlive : moment.cancelled = false) :
    (guard.run operation call moment).2.cancelled = false := by
  rw [guard.run_of_live operation call hlive]
  exact (guard.follow_quiet hguard operation _ call.outcome hsteps hlive).1

theorem verdict_of_quiet {guard : Guard} (hguard : guard.cancelAt = none)
    (operation : String) {call : Call α} (hsteps : Step.cancel ∉ call.steps)
    {moment : Moment} (hlive : moment.cancelled = false) :
    (guard.run operation call moment).1 = call.verdict operation guard.timeout := by
  unfold Call.verdict
  by_cases hprompt : Call.waiting call.steps ≤ guard.timeout
  · rw [if_pos hprompt, guard.run_prompt hguard operation ⟨hsteps, hprompt⟩ hlive]
  · rw [if_neg hprompt, guard.run_late hguard operation hsteps (Nat.not_le.mp hprompt) hlive]

/-- A guarded call is cancelled, or it ends as it would if nobody cancelled it. -/
theorem verdict_cases (guard : Guard) (operation : String) (call : Call α) {moment : Moment}
    (hlive : moment.cancelled = false) :
    (guard.run operation call moment).1 = .error (.cancelled operation) ∧
        (guard.run operation call moment).2.cancelled = true ∨
      (guard.run operation call moment).1 = call.verdict operation guard.timeout := by
  rcases guard.run_cases operation call hlive with hcancelled | hsame
  · exact Or.inl hcancelled
  · right
    have hquiet := guard.uncancelled.verdict_of_quiet rfl operation
      call.cancel_not_mem_uncancelled (show moment.uncancelled.cancelled = false from rfl)
    rw [← hsame, Call.verdict_uncancelled] at hquiet
    exact hquiet

theorem toOption_run_cases (guard : Guard) (operation : String) (call : Call α)
    {moment : Moment} (hlive : moment.cancelled = false) :
    (guard.run operation call moment).1.toOption = none ∧
        (guard.run operation call moment).2.cancelled = true ∨
      (guard.run operation call moment).1.toOption = call.delivered? guard.timeout := by
  rcases guard.verdict_cases operation call hlive with ⟨hfailed, hcancelled⟩ | hsame
  · left
    rw [hfailed]
    exact ⟨rfl, hcancelled⟩
  · right
    rw [hsame, Call.toOption_verdict]

theorem live_of_run_live {guard : Guard} {operation : String} {call : Call α}
    {moment : Moment} (hend : (guard.run operation call moment).2.cancelled = false) :
    moment.cancelled = false := by
  cases hcancelled : moment.cancelled with
  | false =>
      rfl
  | true =>
      rw [guard.run_of_cancelled operation call hcancelled, hcancelled] at hend
      cases hend

theorem verdict_of_live (guard : Guard) (operation : String) (call : Call α)
    (moment : Moment) (hend : (guard.run operation call moment).2.cancelled = false) :
    (guard.run operation call moment).1 = call.verdict operation guard.timeout := by
  rcases guard.verdict_cases operation call (live_of_run_live hend) with
    ⟨_, hcancelled⟩ | hsame
  · rw [hend] at hcancelled
    cases hcancelled
  · exact hsame

theorem waiting_eq_zero_of_cancelled (guard : Guard) (operation : String) (deadline : Nat)
    (outcome : Except Failure α) {steps : List Step} {moment : Moment}
    (hcancelled : moment.cancelled = true)
    (hown : (guard.follow operation deadline outcome steps moment).1 ≠
      .error (.cancelled operation)) : Call.waiting steps = 0 := by
  rw [guard.follow_of_cancelled operation deadline outcome steps hcancelled] at hown
  refine Nat.eq_zero_of_not_pos fun hwaits => ?_
  rw [if_pos hwaits] at hown
  exact hown rfl

/-- Only a call that cancels the run itself has an outcome of its own when the run has been
cancelled by its end. -/
theorem cancelsThenAnswers_of_follow (guard : Guard) (operation : String) (deadline : Nat)
    (call : Call α) {moment : Moment} (hlive : moment.cancelled = false)
    (hend : (guard.follow operation deadline call.outcome call.steps moment).2.cancelled = true)
    (hown : (guard.follow operation deadline call.outcome call.steps moment).1 ≠
      .error (.cancelled operation)) : call.CancelsThenAnswers := by
  rcases call with ⟨steps, outcome⟩
  dsimp only at hend hown
  induction steps generalizing moment with
  | nil =>
      rw [follow, hlive] at hend
      cases hend
  | cons step rest ih =>
      have hlater : ∀ {later : Moment}, later.cancelled = false →
          (guard.follow operation deadline outcome rest later).2.cancelled = true →
          (guard.follow operation deadline outcome rest later).1 ≠
            .error (.cancelled operation) → Call.CancelsThenAnswers ⟨step :: rest, outcome⟩ := by
        intro later hlater hend hown
        rcases ih hlater hend hown with ⟨before, after, hsteps, hwaiting⟩
        exact ⟨step :: before, after, congrArg (step :: ·) hsteps, hwaiting⟩
      cases step with
      | cancel =>
          exact ⟨[], rest, rfl, guard.waiting_eq_zero_of_cancelled operation deadline outcome
            (show moment.cancel.cancelled = true from rfl) hown⟩
      | wait milliseconds =>
          cases milliseconds with
          | zero =>
              exact hlater hlive hend hown
          | succ milliseconds =>
              rw [follow] at hend hown
              rcases guard.wait_cases deadline (milliseconds + 1) moment with
                ⟨later, hcut, _⟩ | hsame
              · rw [hcut] at hown
                exact absurd rfl hown
              · rw [hsame, wait_uncancelled] at hend hown
                by_cases hwake : moment.now + (milliseconds + 1) ≤ deadline
                · rw [if_pos hwake] at hend hown
                  exact hlater rfl hend hown
                · rw [if_neg hwake] at hend
                  cases hend

theorem cancelsThenAnswers_of_run (guard : Guard) (operation : String) (call : Call α)
    {moment : Moment} (hlive : moment.cancelled = false)
    (hend : (guard.run operation call moment).2.cancelled = true)
    (hown : (guard.run operation call moment).1 ≠ .error (.cancelled operation)) :
    call.CancelsThenAnswers := by
  rw [guard.run_of_live operation call hlive] at hend hown
  exact guard.cancelsThenAnswers_of_follow operation _ call hlive hend hown

theorem toOption_run_of_live (guard : Guard) (operation : String) (call : Call α)
    (moment : Moment) (hend : (guard.run operation call moment).2.cancelled = false) :
    (guard.run operation call moment).1.toOption = call.delivered? guard.timeout := by
  rw [guard.verdict_of_live operation call moment hend, Call.toOption_verdict]

end Guard

end EndpointTrace
