import EndpointTrace.Proofs.Timing.Interruption
import Mathlib

/-!
# Call, limit and cancellation

A call that is started runs against two clocks: its time limit, and the cancellation of the run,
by itself or from outside.  How it ends is said here in terms of its waits alone.  It is
interrupted at the first cancellation that finds it waiting; if there is none up to the limit
and it has not finished by then, it has timed out; otherwise it delivers its outcome when its
waits are over.  Where a cancellation and another end fall on the same instant, the cancellation
counts, and a call that finishes at its limit has finished.

Calls that are made one after the other share the state of the run.  So time goes on from call
to call, and once the run is cancelled no further call is started.
-/

namespace EndpointTrace

namespace Call

theorem waiting_append (before after : List Step) :
    waiting (before ++ after) = waiting before + waiting after := by
  induction before with
  | nil =>
      exact (Nat.zero_add _).symm
  | cons step rest ih =>
      cases step with
      | cancel =>
          exact ih
      | wait milliseconds =>
          rw [List.cons_append, waiting, waiting, ih, Nat.add_assoc]

end Call

namespace Guard

variable {α : Type}

/-!
## How a call ends
-/

/-- The instants at which a cancellation finds a call waiting that was started at `start`. -/
inductive Interruption (guard : Guard) (steps : List Step) (start : Nat) : Nat → Prop where
  /-- The call cancels the run and waits again. -/
  | own {before after : List Step} (hsteps : steps = before ++ .cancel :: after)
      (hwaits : 0 < Call.waiting after) :
      Interruption guard steps start (start + Call.waiting before)
  /-- The run is cancelled from outside before the last wait of the call is over. -/
  | outside {time : Nat} (hcancel : guard.cancelAt = some time)
      (hwaits : 0 < Call.waiting steps) (hbefore : time ≤ start + Call.waiting steps) :
      Interruption guard steps start (max start time)

/-- How a call ends that was started at `start` and may take until `deadline`. -/
inductive Decides (guard : Guard) (operation : String) (deadline : Nat)
    (outcome : Except Failure α) (steps : List Step) (start : Nat) :
    Except Failure α → Moment → Prop where
  | interrupted {time : Nat} (hinterruption : guard.Interruption steps start time)
      (hfirst : ∀ other, guard.Interruption steps start other → time ≤ other)
      (hprompt : time ≤ deadline) :
      Decides guard operation deadline outcome steps start
        (.error (.cancelled operation)) ⟨time, true⟩
  | timedOut (hlate : deadline < start + Call.waiting steps)
      (hnone : ∀ other, guard.Interruption steps start other → deadline < other) :
      Decides guard operation deadline outcome steps start
        (.error (.timedOut operation (guard.timeout / 1000))) ⟨deadline, false⟩
  | finished (hprompt : start + Call.waiting steps ≤ deadline)
      (hnone : ∀ other, ¬ guard.Interruption steps start other) :
      Decides guard operation deadline outcome steps start outcome
        ⟨start + Call.waiting steps, decide (.cancel ∈ steps)⟩

/-- How a call ends under the guard: it is not started at all in a cancelled run. -/
inductive Ends (guard : Guard) (operation : String) (call : Call α) (start : Moment) :
    Except Failure α → Moment → Prop where
  | refused (hcancelled : start.cancelled = true) :
      Ends guard operation call start (.error (.cancelled operation)) start
  | started {result : Except Failure α} {finish : Moment} (hlive : start.cancelled = false)
      (hdecides : guard.Decides operation (start.now + guard.timeout) call.outcome call.steps
        start.now result finish) :
      Ends guard operation call start result finish

section

variable {guard : Guard} {operation : String} {deadline : Nat} {outcome : Except Failure α}
  {steps : List Step} {start : Nat}

theorem Interruption.start_le {time : Nat} (hinterruption : guard.Interruption steps start time) :
    start ≤ time := by
  cases hinterruption with
  | own hsteps hwaits =>
      exact Nat.le_add_right _ _
  | outside hcancel hwaits hbefore =>
      exact Nat.le_max_left _ _

theorem Interruption.le_finish {time : Nat}
    (hinterruption : guard.Interruption steps start time) :
    time ≤ start + Call.waiting steps := by
  cases hinterruption with
  | own hsteps hwaits =>
      rw [hsteps, Call.waiting_append]
      exact Nat.add_le_add_left (Nat.le_add_right _ _) _
  | outside hcancel hwaits hbefore =>
      exact Nat.max_le.mpr ⟨Nat.le_add_right _ _, hbefore⟩

theorem Interruption.waits {time : Nat} (hinterruption : guard.Interruption steps start time) :
    0 < Call.waiting steps := by
  cases hinterruption with
  | own hsteps hwaits =>
      rw [hsteps, Call.waiting_append]
      exact Nat.lt_of_lt_of_le hwaits (Nat.le_add_left _ _)
  | outside hcancel hwaits hbefore =>
      exact hwaits

/-- The three ends exclude one another, and each of them fixes the result. -/
theorem Decides.unique {result other : Except Failure α} {finish last : Moment}
    (hdecides : guard.Decides operation deadline outcome steps start result finish)
    (hother : guard.Decides operation deadline outcome steps start other last) :
    result = other ∧ finish = last := by
  cases hdecides with
  | interrupted hinterruption hfirst hprompt =>
      cases hother with
      | interrupted hlater hleast _ =>
          rw [Nat.le_antisymm (hfirst _ hlater) (hleast _ hinterruption)]
          exact ⟨rfl, rfl⟩
      | timedOut _ hnone =>
          exact absurd (hnone _ hinterruption) (Nat.not_lt.mpr hprompt)
      | finished _ hnone =>
          exact absurd hinterruption (hnone _)
  | timedOut hlate hnone =>
      cases hother with
      | interrupted hlater _ hprompt =>
          exact absurd (hnone _ hlater) (Nat.not_lt.mpr hprompt)
      | timedOut _ _ =>
          exact ⟨rfl, rfl⟩
      | finished hprompt _ =>
          exact absurd hlate (Nat.not_lt.mpr hprompt)
  | finished hprompt hnone =>
      cases hother with
      | interrupted hlater _ _ =>
          exact absurd hlater (hnone _)
      | timedOut hlate _ =>
          exact absurd hlate (Nat.not_lt.mpr hprompt)
      | finished _ _ =>
          exact ⟨rfl, rfl⟩

/-!
## What the steps do to the end
-/

theorem interruption_wait {milliseconds : Nat} {rest : List Step}
    (houtside : ∀ time, guard.cancelAt = some time →
      milliseconds = 0 ∨ start + milliseconds < time) {time : Nat} :
    guard.Interruption (.wait milliseconds :: rest) start time ↔
      guard.Interruption rest (start + milliseconds) time := by
  constructor
  · intro hinterruption
    cases hinterruption with
    | @own before after hsteps hwaits =>
        cases before with
        | nil =>
            cases hsteps
        | cons step before =>
            cases hsteps
            rw [Call.waiting, ← Nat.add_assoc]
            exact .own rfl hwaits
    | @outside time hcancel hwaits hbefore =>
        rw [Call.waiting] at hwaits hbefore
        have hmax : max start time = max (start + milliseconds) time := by
          have := houtside time hcancel
          omega
        have hrest : 0 < Call.waiting rest := by
          have := houtside time hcancel
          omega
        rw [hmax]
        exact .outside hcancel hrest (by omega)
  · intro hinterruption
    cases hinterruption with
    | @own before after hsteps hwaits =>
        have hlonger : start + milliseconds + Call.waiting before =
            start + Call.waiting (.wait milliseconds :: before) := by
          rw [Call.waiting, Nat.add_assoc]
        have hmore : .wait milliseconds :: rest =
            (.wait milliseconds :: before) ++ .cancel :: after := by
          rw [hsteps, List.cons_append]
        rw [hlonger]
        exact .own hmore hwaits
    | @outside time hcancel hwaits hbefore =>
        have hmax : max (start + milliseconds) time = max start time := by
          have := houtside time hcancel
          omega
        rw [hmax]
        exact .outside hcancel (by rw [Call.waiting]; omega) (by rw [Call.waiting]; omega)

theorem Decides.wait {milliseconds : Nat} {rest : List Step}
    (houtside : ∀ time, guard.cancelAt = some time →
      milliseconds = 0 ∨ start + milliseconds < time)
    {result : Except Failure α} {finish : Moment}
    (hdecides : guard.Decides operation deadline outcome rest (start + milliseconds) result
      finish) :
    guard.Decides operation deadline outcome (.wait milliseconds :: rest) start result finish := by
  have hsame : ∀ {time}, guard.Interruption (.wait milliseconds :: rest) start time ↔
      guard.Interruption rest (start + milliseconds) time := interruption_wait houtside
  have hwaiting : start + milliseconds + Call.waiting rest =
      start + Call.waiting (.wait milliseconds :: rest) := by
    rw [Call.waiting, Nat.add_assoc]
  cases hdecides with
  | interrupted hinterruption hfirst hprompt =>
      exact .interrupted (hsame.mpr hinterruption)
        (fun other hother => hfirst other (hsame.mp hother)) hprompt
  | timedOut hlate hnone =>
      exact .timedOut (hwaiting ▸ hlate) fun other hother => hnone other (hsame.mp hother)
  | finished hprompt hnone =>
      have hmem : decide (Step.cancel ∈ rest) =
          decide (Step.cancel ∈ Step.wait milliseconds :: rest) := by
        simp
      rw [hwaiting, hmem]
      exact .finished (hwaiting ▸ hprompt) fun other hother => hnone other (hsame.mp hother)

/-- The instants that are left when a call waits first: the cancellation from outside comes at
its own time, the call itself cancels the run only after the wait. -/
theorem Interruption.outside_or_later {milliseconds : Nat} {rest : List Step} {time : Nat}
    (hinterruption : guard.Interruption (.wait milliseconds :: rest) start time) :
    (∃ cancel, guard.cancelAt = some cancel ∧ time = max start cancel) ∨
      start + milliseconds ≤ time := by
  cases hinterruption with
  | @own before after hsteps hwaits =>
      cases before with
      | nil =>
          cases hsteps
      | cons step before =>
          cases hsteps
          rw [Call.waiting]
          exact Or.inr (by omega)
  | outside hcancel hwaits hbefore =>
      exact Or.inl ⟨_, hcancel, rfl⟩

theorem wait_of_live (guard : Guard) (deadline milliseconds : Nat) {moment : Moment}
    (hlive : moment.cancelled = false) :
    (∃ cancel, guard.cancelAt = some cancel ∧
      max moment.now cancel ≤ min (moment.now + milliseconds) deadline ∧
      guard.wait deadline milliseconds moment = .cancelled ⟨max moment.now cancel, true⟩) ∨
    ((∀ cancel, guard.cancelAt = some cancel →
        min (moment.now + milliseconds) deadline < max moment.now cancel) ∧
      guard.wait deadline milliseconds moment =
        if moment.now + milliseconds ≤ deadline then
          .elapsed ⟨moment.now + milliseconds, false⟩
        else
          .timedOut ⟨deadline, false⟩) := by
  cases hcancel : guard.cancelAt with
  | none =>
      refine Or.inr ⟨fun cancel hsome => (nomatch hsome), ?_⟩
      simp [wait, hlive, interruption?, hcancel]
  | some cancel =>
      by_cases hcut : max moment.now cancel ≤ min (moment.now + milliseconds) deadline
      · refine Or.inl ⟨cancel, rfl, hcut, ?_⟩
        rw [wait]
        simp only [hlive, interruption?, hcancel, Option.map_some, Option.any_some, hcut,
          decide_true, Option.getD_some, Bool.false_eq_true, if_false, if_true]
      · refine Or.inr ⟨fun other hsome => ?_, ?_⟩
        · rw [← Option.some.inj hsome]
          exact Nat.lt_of_not_le hcut
        · rw [wait]
          simp only [hlive, interruption?, hcancel, Option.map_some, Option.any_some, hcut,
            decide_false, Bool.false_eq_true, if_false]

theorem decides_follow (guard : Guard) (operation : String) (deadline : Nat)
    (outcome : Except Failure α) (steps : List Step) {moment : Moment}
    (hlive : moment.cancelled = false) (hprompt : moment.now ≤ deadline) :
    guard.Decides operation deadline outcome steps moment.now
      (guard.follow operation deadline outcome steps moment).1
      (guard.follow operation deadline outcome steps moment).2 := by
  induction steps generalizing moment with
  | nil =>
      have hmoment : moment = ⟨moment.now, false⟩ := by
        rw [← hlive]
      rw [follow, hmoment]
      exact .finished hprompt fun other hother => Nat.lt_irrefl 0 hother.waits
  | cons step rest ih =>
      cases step with
      | cancel =>
          rw [follow, guard.follow_of_cancelled operation deadline outcome rest rfl]
          by_cases hwaits : 0 < Call.waiting rest
          · have hown : guard.Interruption (.cancel :: rest) moment.now moment.now :=
              .own (List.nil_append _).symm hwaits
            rw [if_pos hwaits]
            exact .interrupted hown (fun other hother => hother.start_le) hprompt
          · have hnothing : Call.waiting (.cancel :: rest) = 0 := Nat.eq_zero_of_not_pos hwaits
            have hfinished : guard.Decides operation deadline outcome (.cancel :: rest)
                moment.now outcome ⟨moment.now + Call.waiting (.cancel :: rest),
                  decide (Step.cancel ∈ Step.cancel :: rest)⟩ :=
              .finished (by rw [hnothing]; exact hprompt) fun other hother => hwaits hother.waits
            rw [hnothing] at hfinished
            rw [if_neg hwaits]
            simpa [Moment.cancel] using hfinished
      | wait milliseconds =>
          cases milliseconds with
          | zero =>
              exact .wait (fun _ _ => Or.inl rfl) (ih hlive hprompt)
          | succ milliseconds =>
              rw [follow]
              rcases guard.wait_of_live deadline (milliseconds + 1) hlive with
                ⟨cancel, hcancel, hcut, hwait⟩ | ⟨hlater, hwait⟩
              · rw [hwait]
                have hbounds := Nat.le_min.mp hcut
                refine .interrupted (.outside hcancel ?_ ?_) ?_ hbounds.2
                · rw [Call.waiting]
                  omega
                · rw [Call.waiting]
                  omega
                · intro other hother
                  rcases hother.outside_or_later with ⟨time, htime, rfl⟩ | hwake
                  · rw [hcancel] at htime
                    rw [Option.some.inj htime]
                  · exact Nat.le_trans hbounds.1 hwake
              · by_cases hwake : moment.now + (milliseconds + 1) ≤ deadline
                · have hafter : (Moment.mk (moment.now + (milliseconds + 1)) false).cancelled =
                      false := rfl
                  rw [hwait, if_pos hwake]
                  refine .wait (fun cancel hcancel => Or.inr ?_) (ih hafter hwake)
                  have hcut := hlater cancel hcancel
                  rw [Nat.min_eq_left hwake] at hcut
                  omega
                · rw [hwait, if_neg hwake]
                  refine .timedOut ?_ ?_
                  · rw [Call.waiting]
                    omega
                  · intro other hother
                    rcases hother.outside_or_later with ⟨cancel, hcancel, rfl⟩ | hlate
                    · have hcut := hlater cancel hcancel
                      rw [Nat.min_eq_right (Nat.le_of_not_le hwake)] at hcut
                      exact hcut
                    · exact Nat.lt_of_lt_of_le (Nat.lt_of_not_le hwake) hlate

/-!
## Bounds
-/

theorem interruption_or_over (steps : List Step) (start : Nat) {cancel : Nat}
    (hcancel : guard.cancelAt = some cancel) :
    guard.Interruption steps start (max start cancel) ∨
      start + Call.waiting steps ≤ max start cancel := by
  by_cases hwaiting : 0 < Call.waiting steps ∧ cancel ≤ start + Call.waiting steps
  · exact Or.inl (.outside hcancel hwaiting.1 hwaiting.2)
  · exact Or.inr (by omega)

theorem Decides.start_le {result : Except Failure α} {finish : Moment}
    (hdecides : guard.Decides operation deadline outcome steps start result finish)
    (hprompt : start ≤ deadline) : start ≤ finish.now := by
  cases hdecides with
  | interrupted hinterruption hfirst htime =>
      exact hinterruption.start_le
  | timedOut hlate hnone =>
      exact hprompt
  | finished hfinish hnone =>
      exact Nat.le_add_right _ _

theorem Decides.le_deadline {result : Except Failure α} {finish : Moment}
    (hdecides : guard.Decides operation deadline outcome steps start result finish) :
    finish.now ≤ deadline := by
  cases hdecides with
  | interrupted hinterruption hfirst htime =>
      exact htime
  | timedOut hlate hnone =>
      exact Nat.le_refl _
  | finished hfinish hnone =>
      exact hfinish

theorem Decides.le_cancel {result : Except Failure α} {finish : Moment}
    (hdecides : guard.Decides operation deadline outcome steps start result finish)
    {cancel : Nat} (hcancel : guard.cancelAt = some cancel) :
    finish.now ≤ max start cancel := by
  rcases interruption_or_over steps start hcancel with houtside | hover
  · cases hdecides with
    | interrupted hinterruption hfirst htime =>
        exact hfirst _ houtside
    | timedOut hlate hnone =>
        exact Nat.le_of_lt (hnone _ houtside)
    | finished hfinish hnone =>
        exact absurd houtside (hnone _)
  · cases hdecides with
    | interrupted hinterruption hfirst htime =>
        exact Nat.le_trans hinterruption.le_finish hover
    | timedOut hlate hnone =>
        exact Nat.le_trans (Nat.le_of_lt hlate) hover
    | finished hfinish hnone =>
        exact hover

end

/-!
## One call
-/

section

variable {guard : Guard} {operation : String} {call : Call α} {start : Moment}

theorem ends_run (guard : Guard) (operation : String) (call : Call α) (start : Moment) :
    guard.Ends operation call start (guard.run operation call start).1
      (guard.run operation call start).2 := by
  cases hstart : start.cancelled with
  | false =>
      rw [guard.run_of_live operation call hstart]
      exact .started hstart (guard.decides_follow operation _ call.outcome call.steps hstart
        (Nat.le_add_right _ _))
  | true =>
      rw [guard.run_of_cancelled operation call hstart]
      exact .refused hstart

theorem Ends.unique {result other : Except Failure α} {finish last : Moment}
    (hends : guard.Ends operation call start result finish)
    (hother : guard.Ends operation call start other last) :
    result = other ∧ finish = last := by
  cases hends with
  | refused hcancelled =>
      cases hother with
      | refused _ =>
          exact ⟨rfl, rfl⟩
      | started hlive _ =>
          exact absurd (hcancelled.symm.trans hlive) Bool.noConfusion
  | started hlive hdecides =>
      cases hother with
      | refused hcancelled =>
          exact absurd (hcancelled.symm.trans hlive) Bool.noConfusion
      | started _ hothers =>
          exact hdecides.unique hothers

/-- The ways to end describe the guard completely. -/
theorem ends_iff {result : Except Failure α} {finish : Moment} :
    guard.Ends operation call start result finish ↔
      guard.run operation call start = (result, finish) := by
  constructor
  · intro hends
    have hsame := (guard.ends_run operation call start).unique hends
    exact Prod.ext hsame.1 hsame.2
  · intro hrun
    have hends := guard.ends_run operation call start
    rw [hrun] at hends
    exact hends

theorem Ends.start_le {result : Except Failure α} {finish : Moment}
    (hends : guard.Ends operation call start result finish) : start.now ≤ finish.now := by
  cases hends with
  | refused hcancelled =>
      exact Nat.le_refl _
  | started hlive hdecides =>
      exact hdecides.start_le (Nat.le_add_right _ _)

theorem Ends.le_limit {result : Except Failure α} {finish : Moment}
    (hends : guard.Ends operation call start result finish) :
    finish.now ≤ start.now + guard.timeout := by
  cases hends with
  | refused hcancelled =>
      exact Nat.le_add_right _ _
  | started hlive hdecides =>
      exact hdecides.le_deadline

theorem Ends.le_cancel {result : Except Failure α} {finish : Moment}
    (hends : guard.Ends operation call start result finish) {cancel : Nat}
    (hcancel : guard.cancelAt = some cancel) : finish.now ≤ max start.now cancel := by
  cases hends with
  | refused hcancelled =>
      exact Nat.le_max_left _ _
  | started hlive hdecides =>
      exact hdecides.le_cancel hcancel

end

/-!
## One call after the other
-/

structure Turn (α : Type) where
  operation : String
  call : Call α
  start : Moment
  result : Except Failure α
  finish : Moment

def turns (guard : Guard) : List (String × Call α) → Moment → List (Turn α)
  | [], _ => []
  | (operation, call) :: rest, start =>
      ⟨operation, call, start, (guard.run operation call start).1,
        (guard.run operation call start).2⟩ ::
          guard.turns rest (guard.run operation call start).2

theorem turns_calls (guard : Guard) (calls : List (String × Call α)) (start : Moment) :
    (guard.turns calls start).map (fun turn => (turn.operation, turn.call)) = calls := by
  induction calls generalizing start with
  | nil =>
      rfl
  | cons first rest ih =>
      rw [turns, List.map_cons, ih]

theorem turns_chain (guard : Guard) (calls : List (String × Call α)) (start : Moment) :
    (∀ first ∈ (guard.turns calls start).head?, first.start = start) ∧
      (guard.turns calls start).IsChain fun earlier later => later.start = earlier.finish := by
  induction calls generalizing start with
  | nil =>
      exact ⟨fun first hfirst => (nomatch hfirst), .nil⟩
  | cons first rest ih =>
      rw [turns]
      refine ⟨fun turn hturn => ?_, List.isChain_cons.mpr (ih _)⟩
      rw [← Option.some.inj hturn]

theorem turns_run (guard : Guard) (calls : List (String × Call α)) (start : Moment) :
    ∀ turn ∈ guard.turns calls start,
      guard.run turn.operation turn.call turn.start = (turn.result, turn.finish) := by
  induction calls generalizing start with
  | nil =>
      exact fun turn hturn => nomatch hturn
  | cons first rest ih =>
      intro turn hturn
      rcases List.mem_cons.mp hturn with rfl | hturn
      · rfl
      · exact ih _ turn hturn

theorem turns_start_le (guard : Guard) (calls : List (String × Call α)) (start : Moment) :
    ∀ turn ∈ guard.turns calls start, start.now ≤ turn.finish.now := by
  induction calls generalizing start with
  | nil =>
      exact fun turn hturn => nomatch hturn
  | cons first rest ih =>
      intro turn hturn
      have hfirst := (guard.ends_run first.1 first.2 start).start_le
      rcases List.mem_cons.mp hturn with rfl | hturn
      · exact hfirst
      · exact Nat.le_trans hfirst (ih _ turn hturn)

theorem turns_of_cancelled (guard : Guard) (calls : List (String × Call α)) {start : Moment}
    (hcancelled : start.cancelled = true) :
    ∀ turn ∈ guard.turns calls start, turn.start = start ∧ turn.finish = start ∧
      turn.result = .error (.cancelled turn.operation) := by
  induction calls with
  | nil =>
      exact fun turn hturn => nomatch hturn
  | cons first rest ih =>
      rw [turns, guard.run_of_cancelled first.1 first.2 hcancelled]
      intro turn hturn
      rcases List.mem_cons.mp hturn with rfl | hturn
      · exact ⟨rfl, rfl, rfl⟩
      · exact ih turn hturn

theorem turns_ascending (guard : Guard) (calls : List (String × Call α)) (start : Moment) :
    ((guard.turns calls start).map fun turn => turn.finish.now).Pairwise (· ≤ ·) := by
  induction calls generalizing start with
  | nil =>
      exact .nil
  | cons first rest ih =>
      rw [turns, List.map_cons]
      refine .cons ?_ (ih _)
      intro time htime
      rcases List.mem_map.mp htime with ⟨turn, hturn, rfl⟩
      exact guard.turns_start_le rest _ turn hturn

theorem turns_sticky (guard : Guard) (calls : List (String × Call α)) (start : Moment) :
    (guard.turns calls start).Pairwise fun earlier later =>
      earlier.finish.cancelled = true →
        later.start = earlier.finish ∧ later.finish = earlier.finish ∧
          later.result = .error (.cancelled later.operation) := by
  induction calls generalizing start with
  | nil =>
      exact .nil
  | cons first rest ih =>
      rw [turns]
      exact .cons (fun later hlater hcancelled =>
        guard.turns_of_cancelled rest hcancelled later hlater) (ih _)

/-- Calls under one guard are bounded by its limit and by its cancellation, the run stays
cancelled once it is, and each call ends in the one way that its waits leave it. -/
theorem turns_bounded (guard : Guard) (calls : List (String × Call α)) (start : Moment) :
    (guard.turns calls start).map (fun turn => (turn.operation, turn.call)) = calls ∧
    ((∀ first ∈ (guard.turns calls start).head?, first.start = start) ∧
      (guard.turns calls start).IsChain fun earlier later => later.start = earlier.finish) ∧
    ((guard.turns calls start).map fun turn => turn.finish.now).Pairwise (· ≤ ·) ∧
    (∀ turn ∈ guard.turns calls start,
      turn.start.now ≤ turn.finish.now ∧
      turn.finish.now ≤ turn.start.now + guard.timeout ∧
      (∀ cancel, guard.cancelAt = some cancel →
        turn.finish.now ≤ max turn.start.now cancel) ∧
      ∀ result finish, guard.Ends turn.operation turn.call turn.start result finish ↔
        result = turn.result ∧ finish = turn.finish) ∧
    (guard.turns calls start).Pairwise fun earlier later =>
      earlier.finish.cancelled = true →
        later.start = earlier.finish ∧ later.finish = earlier.finish ∧
          later.result = .error (.cancelled later.operation) := by
  refine ⟨guard.turns_calls calls start, guard.turns_chain calls start,
    guard.turns_ascending calls start, fun turn hturn => ?_, guard.turns_sticky calls start⟩
  have hrun := guard.turns_run calls start turn hturn
  have hends := ends_iff.mpr hrun
  refine ⟨hends.start_le, hends.le_limit, fun cancel hcancel => hends.le_cancel hcancel, ?_⟩
  intro result finish
  constructor
  · exact fun hother => hother.unique hends
  · rintro ⟨rfl, rfl⟩
    exact hends

example :
    ((Guard.mk 50 (some 100)).turns
      [("a", ⟨[.wait 20], .ok 1⟩), ("b", ⟨[.wait 80], .ok 2⟩), ("c", ⟨[.wait 40], .ok 3⟩),
        ("d", ⟨[], .ok 4⟩)] .start).map (fun turn => (turn.result, turn.finish)) =
      [(.ok 1, ⟨20, false⟩), (.error (.timedOut "b" 0), ⟨70, false⟩),
        (.error (.cancelled "c"), ⟨100, true⟩), (.error (.cancelled "d"), ⟨100, true⟩)] := by
  rfl

end Guard
end EndpointTrace
