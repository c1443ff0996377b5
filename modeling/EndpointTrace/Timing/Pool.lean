import EndpointTrace.Timing.Guard

/-!
# A pool of jobs

Jobs start in the order in which they are given, at most so many at a time, and a new
one starts as soon as one ends.  A job that never waits ends before the next one is
looked at.  Once the run is cancelled the jobs under way are interrupted and the
others are not started.
-/

namespace EndpointTrace

/-- What a job delivers and the moment at which it ends, by the moment of its start. -/
abbrev Job (α : Type) := Moment → α × Moment

namespace Pool

inductive Fate (α : Type) where
  | finished (value : α)
  | interrupted
  | skipped
  deriving DecidableEq, Repr

namespace Fate

def value? {α : Type} : Fate α → Option α
  | finished value => some value
  | interrupted => none
  | skipped => none

end Fate

/-- A job under way: what it will deliver, and when, unless it is interrupted. -/
structure Running (ι α : Type) where
  item : ι
  value : α
  finish : Moment

structure Outcome (ι α : Type) where
  fates : List (ι × Fate α)
  moment : Moment

namespace Outcome

def values {ι α : Type} (outcome : Outcome ι α) : List α :=
  outcome.fates.filterMap fun entry => entry.2.value?

def settle {ι α : Type} (item : ι) (fate : Fate α) (outcome : Outcome ι α) :
    Outcome ι α :=
  ⟨(item, fate) :: outcome.fates, outcome.moment⟩

end Outcome

/-- The job that ends first, and the others; of two that end together, the one that
was started first. -/
def earliest {ι α : Type} (first : Running ι α) :
    List (Running ι α) → Running ι α × List (Running ι α)
  | [] => (first, [])
  | second :: rest =>
      let (best, others) := earliest second rest
      if first.finish.now ≤ best.finish.now then
        (first, second :: rest)
      else
        (best, first :: others)

theorem length_earliest {ι α : Type} (first : Running ι α) (rest : List (Running ι α)) :
    (earliest first rest).2.length = rest.length := by
  induction rest generalizing first with
  | nil => rfl
  | cons second rest ih =>
      simp only [earliest]
      split
      · rfl
      · simp [ih second]

def abandon {ι α : Type} (pending : List ι) (running : List (Running ι α))
    (moment : Moment) : Outcome ι α :=
  ⟨running.map (fun job => (job.item, .interrupted))
      ++ pending.map (fun item => (item, .skipped)), moment⟩

def admit? {ι α : Type} (limit : Nat) :
    List ι → List (Running ι α) → Option (ι × List ι)
  | [], _ => none
  | item :: rest, running => if running.length < limit then some (item, rest) else none

theorem eq_cons_of_admit? {ι α : Type} {limit : Nat} {pending : List ι}
    {running : List (Running ι α)} {next : ι × List ι}
    (admitted : admit? limit pending running = some next) :
    pending = next.1 :: next.2 := by
  cases pending with
  | nil => simp [admit?] at admitted
  | cons item rest =>
      simp only [admit?] at admitted
      split at admitted
      · cases admitted
        rfl
      · cases admitted

def forestalled? (cancelAt : Option Nat) (now due : Nat) : Option Nat :=
  (cancelAt.map (max now)).filter (· ≤ due)

/-- The run from a moment on, with some jobs under way and some items not yet started. -/
def drain {ι α : Type} (limit : Nat) (cancelAt : Option Nat) (work : ι → Job α)
    (pending : List ι) (running : List (Running ι α)) (moment : Moment) : Outcome ι α :=
  if moment.cancelled then
    abandon pending running moment
  else
    match _admitted : admit? limit pending running with
    | some (item, rest) =>
        let (value, finish) := work item moment
        if finish.now ≤ moment.now then
          (drain limit cancelAt work rest running finish).settle item (.finished value)
        else
          drain limit cancelAt work rest (running ++ [⟨item, value, finish⟩]) moment
    | none =>
        match running with
        | [] => abandon pending [] moment
        | first :: rest =>
            match _parted : earliest first rest with
            | (job, others) =>
                match forestalled? cancelAt moment.now job.finish.now with
                | some time => abandon pending (first :: rest) ⟨time, true⟩
                | none =>
                    (drain limit cancelAt work pending others job.finish).settle job.item
                      (.finished job.value)
termination_by 2 * pending.length + running.length
decreasing_by
  · simp [eq_cons_of_admit? _admitted]
  · simp [eq_cons_of_admit? _admitted]
    omega
  · have := length_earliest first rest
    rw [_parted] at this
    simp [this]

/-- The run of a list of items.  A limit of zero counts as one. -/
def run {ι α : Type} (limit : Nat) (cancelAt : Option Nat) (work : ι → Job α)
    (items : List ι) (moment : Moment) : Outcome ι α :=
  drain (max limit 1) cancelAt work items [] moment

end Pool
end EndpointTrace
