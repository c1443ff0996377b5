import EndpointTrace.Failure

/-!
# Calls under a guard

A call to a collaborator is what it does on the way, step by step, and what it
delivers in the end.  Time is counted in milliseconds from the start of a run.

Every call is made under a guard.  The guard does not start a call once the run is
cancelled, interrupts a waiting call at the moment of a cancellation, and gives up
on a call that is still waiting when its time is over.  A call that does not wait
again delivers its own outcome, even if it has cancelled the run itself.
-/

namespace EndpointTrace

/-!
## Calls that take time
-/

inductive Step where
  | wait (milliseconds : Nat)
  | cancel
  deriving DecidableEq, Repr

structure Call (α : Type) where
  steps : List Step
  outcome : Except Failure α

namespace Call

def immediate {α : Type} (outcome : Except Failure α) : Call α :=
  ⟨[], outcome⟩

def map {α β : Type} (f : α → β) (call : Call α) : Call β :=
  ⟨call.steps, call.outcome.map f⟩

/-- One call after another; the second is not made if the first fails. -/
def andThen {α β : Type} (call : Call α) (next : α → Call β) : Call β :=
  match call.outcome with
  | .ok value => ⟨call.steps ++ (next value).steps, (next value).outcome⟩
  | .error failure => ⟨call.steps, .error failure⟩

end Call

/-!
## The guard
-/

/-- A point of a run: the time, and whether the run has been cancelled. -/
structure Moment where
  now : Nat
  cancelled : Bool
  deriving DecidableEq, Repr

namespace Moment

def start : Moment := ⟨0, false⟩

def cancel (moment : Moment) : Moment := ⟨moment.now, true⟩

end Moment

/-- The time a call may take, and the time at which the run is cancelled from outside. -/
structure Guard where
  timeout : Nat
  cancelAt : Option Nat
  deriving DecidableEq, Repr

namespace Guard

/-- When a cancellation from outside reaches a call that waits from `now` on. -/
def interruption? (guard : Guard) (now : Nat) : Option Nat :=
  guard.cancelAt.map (max now)

inductive WaitEnd where
  | elapsed (moment : Moment)
  | cancelled (moment : Moment)
  | timedOut (moment : Moment)
  deriving DecidableEq, Repr

/-- Waiting under a deadline.  A cancellation comes before a timer that is due at the
same time, and the call comes before the deadline. -/
def wait (guard : Guard) (deadline milliseconds : Nat) (moment : Moment) : WaitEnd :=
  let wake := moment.now + milliseconds
  if moment.cancelled then
    .cancelled moment
  else if (guard.interruption? moment.now).any (· ≤ min wake deadline) then
    .cancelled ⟨(guard.interruption? moment.now).getD moment.now, true⟩
  else if wake ≤ deadline then
    .elapsed ⟨wake, false⟩
  else
    .timedOut ⟨deadline, false⟩

def follow {α : Type} (guard : Guard) (operation : String) (deadline : Nat)
    (outcome : Except Failure α) : List Step → Moment → Except Failure α × Moment
  | [], moment => (outcome, moment)
  | .cancel :: rest, moment => guard.follow operation deadline outcome rest moment.cancel
  | .wait 0 :: rest, moment => guard.follow operation deadline outcome rest moment
  | .wait (ms + 1) :: rest, moment =>
      match guard.wait deadline (ms + 1) moment with
      | .elapsed moment => guard.follow operation deadline outcome rest moment
      | .cancelled moment => (.error (.cancelled operation), moment)
      | .timedOut moment => (.error (.timedOut operation (guard.timeout / 1000)), moment)

def run {α : Type} (guard : Guard) (operation : String) (call : Call α)
    (moment : Moment) : Except Failure α × Moment :=
  if moment.cancelled then
    (.error (.cancelled operation), moment)
  else
    guard.follow operation (moment.now + guard.timeout) call.outcome call.steps moment

theorem run_of_cancelled {α : Type} (guard : Guard) (operation : String) (call : Call α)
    {moment : Moment} (cancelled : moment.cancelled = true) :
    guard.run operation call moment = (.error (.cancelled operation), moment) := by
  simp [run, cancelled]

theorem run_immediate {α : Type} (guard : Guard) (operation : String)
    (outcome : Except Failure α) {moment : Moment} (live : moment.cancelled = false) :
    guard.run operation (.immediate outcome) moment = (outcome, moment) := by
  simp [run, live, Call.immediate, follow]

end Guard

/-!
## Transcripts

What a run tells the person at the terminal, in order, each notice with the moment at
which it was given.
-/

inductive Notice where
  /-- A short status line while the work goes on. -/
  | progress (text : String)
  /-- A message that is meant to be read. -/
  | markdown (text : String)
  deriving DecidableEq, Repr

structure TranscriptEntry where
  moment : Moment
  notice : Notice
  deriving DecidableEq, Repr

abbrev Transcript := List TranscriptEntry

namespace Transcript

def notices (transcript : Transcript) : List Notice :=
  transcript.map TranscriptEntry.notice

def Silent (transcript : Transcript) : Prop :=
  ∀ entry ∈ transcript, entry.moment.cancelled = false

end Transcript

end EndpointTrace
