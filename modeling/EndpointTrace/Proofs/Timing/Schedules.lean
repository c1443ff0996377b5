import EndpointTrace.Timing.Pool
import Mathlib.Data.List.Perm.Basic

/-!
# Schedules of a pool

A schedule is one way in which a pool may run: any job under way may be the next to end,
and the run may be cancelled from outside at any time.  It keeps a log of the jobs that are
started.  The run that goes by the clock is one of the schedules, so what holds of all
schedules holds of it, whatever the delays are.

In every schedule each item is settled once; it was either started while the run was live
or skipped; and what a job has delivered is what its work delivers from its start on.
-/

namespace EndpointTrace
namespace Pool

variable {ι α : Type}

/-- The rest of a run, with the log of the jobs that it starts. -/
inductive Schedule (limit : Nat) (work : ι → Job α) :
    List ι → List (Running ι α) → Moment → List (ι × Moment) → Outcome ι α → Prop where
  | done (moment : Moment) : Schedule limit work [] [] moment [] ⟨[], moment⟩
  | cancelled {pending : List ι} {running : List (Running ι α)} {moment : Moment}
      (hcancelled : moment.cancelled = true) :
      Schedule limit work pending running moment [] (abandon pending running moment)
  | interrupted {pending : List ι} {running : List (Running ι α)} {moment : Moment}
      {time : Nat} (hlive : moment.cancelled = false) (htime : moment.now ≤ time) :
      Schedule limit work pending running moment [] (abandon pending running ⟨time, true⟩)
  | start {item : ι} {rest : List ι} {running : List (Running ι α)} {moment : Moment}
      {log : List (ι × Moment)} {outcome : Outcome ι α}
      (hlive : moment.cancelled = false) (hroom : running.length < limit)
      (hrest : Schedule limit work rest
        (running ++ [⟨item, (work item moment).1, (work item moment).2⟩]) moment log outcome) :
      Schedule limit work (item :: rest) running moment ((item, moment) :: log) outcome
  | finish {pending : List ι} {running others : List (Running ι α)} {job : Running ι α}
      {moment : Moment} {log : List (ι × Moment)} {outcome : Outcome ι α}
      (hlive : moment.cancelled = false) (hnext : running.Perm (job :: others))
      (hrest : Schedule limit work pending others job.finish log outcome) :
      Schedule limit work pending running moment log
        (outcome.settle job.item (.finished job.value))

/-!
## Going by the clock
-/

theorem earliest_perm (first : Running ι α) (rest : List (Running ι α)) :
    (first :: rest).Perm ((earliest first rest).1 :: (earliest first rest).2) := by
  induction rest generalizing first with
  | nil =>
      exact List.Perm.refl _
  | cons second rest ih =>
      simp only [earliest]
      split
      · exact List.Perm.refl _
      · exact ((ih second).cons first).trans (List.Perm.swap _ _ _)

theorem admit?_eq_none {limit : Nat} {pending : List ι} {running : List (Running ι α)}
    (hlimit : 0 < limit) (hnone : admit? limit pending running = none) :
    pending = [] ∨ running ≠ [] := by
  cases pending with
  | nil =>
      exact Or.inl rfl
  | cons item rest =>
      right
      intro hidle
      rw [hidle] at hnone
      simp [admit?, hlimit] at hnone

theorem room_of_admit? {limit : Nat} {pending : List ι} {running : List (Running ι α)}
    {next : ι × List ι} (hadmitted : admit? limit pending running = some next) :
    running.length < limit := by
  cases pending with
  | nil =>
      cases hadmitted
  | cons item rest =>
      by_contra hfull
      simp [admit?, hfull] at hadmitted

theorem now_le_of_forestalled? {cancelAt : Option Nat} {now due time : Nat}
    (hforestalled : forestalled? cancelAt now due = some time) : now ≤ time := by
  unfold forestalled? at hforestalled
  rcases Option.map_eq_some_iff.mp (Option.filter_eq_some_iff.mp hforestalled).1 with
    ⟨planned, _, rfl⟩
  exact Nat.le_max_left now planned

section

variable {limit : Nat} {cancelAt : Option Nat} {work : ι → Job α} {pending : List ι}
  {running : List (Running ι α)} {moment : Moment}

theorem drain_admitted (hlive : ¬ moment.cancelled = true) {item : ι} {rest : List ι}
    (hadmitted : admit? limit pending running = some (item, rest)) :
    drain limit cancelAt work pending running moment =
      if (work item moment).2.now ≤ moment.now then
        (drain limit cancelAt work rest running (work item moment).2).settle item
          (.finished (work item moment).1)
      else
        drain limit cancelAt work rest
          (running ++ [⟨item, (work item moment).1, (work item moment).2⟩]) moment := by
  rw [drain, if_neg hlive]
  split
  · rename_i other later hother
    rw [hadmitted] at hother
    cases hother
    rfl
  · rename_i hother
    rw [hadmitted] at hother
    cases hother

theorem drain_idle (hlive : ¬ moment.cancelled = true)
    (hfull : admit? limit pending ([] : List (Running ι α)) = none) :
    drain limit cancelAt work pending [] moment = abandon pending [] moment := by
  rw [drain, if_neg hlive]
  split
  · rename_i other later hother
    rw [hfull] at hother
    cases hother
  · rfl

theorem drain_busy (hlive : ¬ moment.cancelled = true) {first : Running ι α}
    {rest : List (Running ι α)} (hfull : admit? limit pending (first :: rest) = none) :
    drain limit cancelAt work pending (first :: rest) moment =
      match forestalled? cancelAt moment.now (earliest first rest).1.finish.now with
      | some time => abandon pending (first :: rest) ⟨time, true⟩
      | none =>
          (drain limit cancelAt work pending (earliest first rest).2
            (earliest first rest).1.finish).settle (earliest first rest).1.item
              (.finished (earliest first rest).1.value) := by
  rw [drain, if_neg hlive]
  split
  · rename_i other later hother
    rw [hfull] at hother
    cases hother
  · rfl

end

/-- The run that goes by the clock is a schedule, and it depends only on the jobs that it
starts. -/
theorem schedule_drain {limit : Nat} (hlimit : 0 < limit) (cancelAt : Option Nat)
    (work : ι → Job α) (pending : List ι) (running : List (Running ι α)) (moment : Moment) :
    ∃ log, Schedule limit work pending running moment log
        (drain limit cancelAt work pending running moment) ∧
      ∀ other : ι → Job α,
        (∀ entry ∈ log, other entry.1 entry.2 = work entry.1 entry.2) →
          drain limit cancelAt other pending running moment =
            drain limit cancelAt work pending running moment := by
  -- Each case of the recursion is one step of a schedule, except that a job that never
  -- waits is started and finished at once.
  induction pending, running, moment using drain.induct limit cancelAt work with
  | case1 pending running moment hcancelled =>
      rw [drain, if_pos hcancelled]
      refine ⟨[], .cancelled hcancelled, ?_⟩
      intro other _
      rw [drain, if_pos hcancelled]
  | case2 pending running moment hlive item rest hadmitted value finish hwork hatOnce ih =>
      rcases ih with ⟨log, hrest, hsame⟩
      rw [drain_admitted hlive hadmitted, eq_cons_of_admit? hadmitted, hwork, if_pos hatOnce]
      refine ⟨(item, moment) :: log,
        .start (by simpa using hlive) (room_of_admit? hadmitted) ?_, ?_⟩
      · rw [hwork]
        exact .finish (by simpa using hlive) (List.perm_append_singleton _ _) hrest
      · intro other hother
        rcases List.forall_mem_cons.mp hother with ⟨hfirst, hlater⟩
        rw [← eq_cons_of_admit? hadmitted, drain_admitted hlive hadmitted, hfirst, hwork,
          if_pos hatOnce, hsame other hlater]
  | case3 pending running moment hlive item rest hadmitted value finish hwork hlater ih =>
      rcases ih with ⟨log, hrest, hsame⟩
      rw [drain_admitted hlive hadmitted, eq_cons_of_admit? hadmitted, hwork, if_neg hlater]
      refine ⟨(item, moment) :: log,
        .start (by simpa using hlive) (room_of_admit? hadmitted) ?_, ?_⟩
      · rw [hwork]
        exact hrest
      · intro other hother
        rcases List.forall_mem_cons.mp hother with ⟨hfirst, hremaining⟩
        rw [← eq_cons_of_admit? hadmitted, drain_admitted hlive hadmitted, hfirst, hwork,
          if_neg hlater, hsame other hremaining]
  | case4 pending moment hlive hfull =>
      rw [drain_idle hlive hfull]
      rcases admit?_eq_none hlimit hfull with hempty | hbusy
      · rw [hempty] at hfull ⊢
        refine ⟨[], .done moment, ?_⟩
        intro other _
        exact drain_idle hlive hfull
      · exact absurd rfl hbusy
  | case5 pending moment hlive first rest hfull job others hparted time hforestalled =>
      rw [drain_busy hlive hfull, hparted, hforestalled]
      refine ⟨[],
        .interrupted (by simpa using hlive) (now_le_of_forestalled? hforestalled), ?_⟩
      intro other _
      rw [drain_busy hlive hfull, hparted, hforestalled]
  | case6 pending moment hlive first rest hfull job others hparted hforestalled ih =>
      rcases ih with ⟨log, hrest, hsame⟩
      have hnext := earliest_perm first rest
      rw [drain_busy hlive hfull, hparted, hforestalled]
      rw [hparted] at hnext
      refine ⟨log, .finish (by simpa using hlive) hnext hrest, ?_⟩
      intro other hother
      rw [drain_busy hlive hfull, hparted, hforestalled, hsame other hother]

theorem schedule_run (limit : Nat) (cancelAt : Option Nat) (work : ι → Job α)
    (items : List ι) (moment : Moment) :
    ∃ log, Schedule (max limit 1) work items [] moment log
        (run limit cancelAt work items moment) ∧
      ∀ other : ι → Job α,
        (∀ entry ∈ log, other entry.1 entry.2 = work entry.1 entry.2) →
          run limit cancelAt other items moment = run limit cancelAt work items moment :=
  schedule_drain (Nat.lt_of_lt_of_le Nat.one_pos (Nat.le_max_right limit 1)) cancelAt work
    items [] moment

theorem live_drain {work : ι → Job α}
    (hwork : ∀ item moment, moment.cancelled = false →
      (work item moment).2.cancelled = false)
    (limit : Nat) (pending : List ι) {running : List (Running ι α)}
    (hrunning : ∀ job ∈ running, job.finish.cancelled = false) {moment : Moment}
    (hlive : moment.cancelled = false) :
    (drain limit none work pending running moment).moment.cancelled = false := by
  induction pending, running, moment using drain.induct limit none work with
  | case1 pending running moment hcancelled =>
      rw [hlive] at hcancelled
      cases hcancelled
  | case2 pending running moment hstill item rest hadmitted value finish hprocess hatOnce ih =>
      have hfinish := hwork item moment hlive
      rw [drain_admitted hstill hadmitted, hprocess, if_pos hatOnce]
      rw [hprocess] at hfinish
      exact ih hrunning hfinish
  | case3 pending running moment hstill item rest hadmitted value finish hprocess hlater ih =>
      have hfinish := hwork item moment hlive
      rw [drain_admitted hstill hadmitted, hprocess, if_neg hlater]
      rw [hprocess] at hfinish
      apply ih _ hlive
      intro job hjob
      rcases List.mem_append.mp hjob with hbefore | hnew
      · exact hrunning job hbefore
      · rw [List.mem_singleton.mp hnew]
        exact hfinish
  | case4 pending moment hstill hfull =>
      rw [drain_idle hstill hfull]
      exact hlive
  | case5 pending moment hstill first rest hfull job others hparted time hforestalled =>
      cases hforestalled
  | case6 pending moment hstill first rest hfull job others hparted hforestalled ih =>
      have hnext := earliest_perm first rest
      rw [drain_busy hstill hfull, hparted, hforestalled]
      rw [hparted] at hnext
      apply ih
      · intro other hother
        exact hrunning other (hnext.mem_iff.mpr (List.mem_cons_of_mem _ hother))
      · exact hrunning job (hnext.mem_iff.mpr List.mem_cons_self)

/-!
## What holds of every schedule
-/

/-- The items whose jobs were never started. -/
def Outcome.skipped (outcome : Outcome ι α) : List ι :=
  outcome.fates.filterMap fun entry =>
    match entry.2 with
    | .skipped => some entry.1
    | .finished _ | .interrupted => none

def Running.StartedLive (work : ι → Job α) (job : Running ι α) : Prop :=
  ∃ moment, moment.cancelled = false ∧
    job.value = (work job.item moment).1 ∧ job.finish = (work job.item moment).2

theorem skipped_abandon (pending : List ι) (running : List (Running ι α)) (moment : Moment) :
    (abandon pending running moment).skipped = pending := by
  simp [Outcome.skipped, abandon, List.filterMap_append, List.filterMap_map]

namespace Schedule

variable {limit : Nat} {work : ι → Job α} {pending : List ι} {running : List (Running ι α)}
  {moment : Moment} {log : List (ι × Moment)} {outcome : Outcome ι α}

theorem settled (hschedule : Schedule limit work pending running moment log outcome) :
    (outcome.fates.map Prod.fst).Perm (running.map Running.item ++ pending) := by
  induction hschedule with
  | done => 
      exact List.Perm.refl _
  | cancelled _ =>
      simp [abandon, Function.comp_def]
  | interrupted _ _ =>
      simp [abandon, Function.comp_def]
  | start _ _ _ ih =>
      simpa using ih
  | finish _ hnext _ ih =>
      exact (ih.cons _).trans ((hnext.map Running.item).symm.append_right _)

theorem started_or_skipped
    (hschedule : Schedule limit work pending running moment log outcome) :
    (log.map Prod.fst ++ outcome.skipped).Perm pending ∧
      ∀ entry ∈ log, entry.2.cancelled = false := by
  induction hschedule with
  | done =>
      exact ⟨List.Perm.refl _, List.forall_mem_nil _⟩
  | cancelled _ =>
      rw [skipped_abandon]
      exact ⟨List.Perm.refl _, List.forall_mem_nil _⟩
  | interrupted _ _ =>
      rw [skipped_abandon]
      exact ⟨List.Perm.refl _, List.forall_mem_nil _⟩
  | start hlive _ _ ih =>
      exact ⟨ih.1.cons _, List.forall_mem_cons.mpr ⟨hlive, ih.2⟩⟩
  | finish _ _ _ ih =>
      exact ih

theorem live (hschedule : Schedule limit work pending running moment log outcome)
    (hend : outcome.moment.cancelled = false) : moment.cancelled = false := by
  cases hschedule with
  | done =>
      exact hend
  | cancelled _ =>
      exact hend
  | interrupted _ _ =>
      cases hend
  | start hlive _ _ =>
      exact hlive
  | finish hlive _ _ =>
      exact hlive

/-- What an item has delivered was delivered by a job that was started in a live run and,
if the run is live in the end, has not cancelled it. -/
theorem delivered (hschedule : Schedule limit work pending running moment log outcome)
    (hrunning : ∀ job ∈ running, job.StartedLive work) {item : ι} {value : α}
    (hentry : (item, .finished value) ∈ outcome.fates) :
    ∃ job : Running ι α, job.StartedLive work ∧ job.item = item ∧ job.value = value ∧
      (outcome.moment.cancelled = false → job.finish.cancelled = false) := by
  induction hschedule with
  | done =>
      cases hentry
  | cancelled _ =>
      simp [abandon] at hentry
  | interrupted _ _ =>
      simp [abandon] at hentry
  | @start first rest running moment log outcome hlive _ hrest ih =>
      -- The new job joins those under way, and all of them were started in a live run.
      apply ih _ hentry
      intro job hjob
      rcases List.mem_append.mp hjob with hbefore | hnew
      · exact hrunning job hbefore
      · rw [List.mem_singleton.mp hnew]
        exact ⟨moment, hlive, rfl, rfl⟩
  | @finish pending running others job moment log outcome hlive hnext hrest ih =>
      rcases List.mem_cons.mp hentry with heq | hlater
      · cases heq
        exact ⟨job, hrunning job (hnext.mem_iff.mpr List.mem_cons_self), rfl, rfl, hrest.live⟩
      · apply ih _ hlater
        intro other hother
        exact hrunning other (hnext.mem_iff.mpr (List.mem_cons_of_mem _ hother))

theorem all_finished (hschedule : Schedule limit work pending running moment log outcome)
    (hend : outcome.moment.cancelled = false) :
    ∀ entry ∈ outcome.fates, ∃ value, entry.2 = .finished value := by
  induction hschedule with
  | done =>
      exact List.forall_mem_nil _
  | cancelled hcancelled =>
      rw [abandon] at hend
      rw [hcancelled] at hend
      cases hend
  | interrupted _ _ =>
      cases hend
  | start _ _ _ ih =>
      exact ih hend
  | finish _ _ _ ih =>
      exact List.forall_mem_cons.mpr ⟨⟨_, rfl⟩, ih hend⟩

theorem congr (hschedule : Schedule limit work pending running moment log outcome)
    {other : ι → Job α}
    (hsame : ∀ entry ∈ log, other entry.1 entry.2 = work entry.1 entry.2) :
    Schedule limit other pending running moment log outcome := by
  induction hschedule with
  | done moment =>
      exact .done moment
  | cancelled hcancelled =>
      exact .cancelled hcancelled
  | interrupted hlive htime =>
      exact .interrupted hlive htime
  | start hlive hroom _ ih =>
      rcases List.forall_mem_cons.mp hsame with ⟨hfirst, hlater⟩
      apply Schedule.start hlive hroom
      rw [hfirst]
      exact ih hlater
  | finish hlive hnext _ ih =>
      exact .finish hlive hnext (ih hsame)

end Schedule

end Pool
end EndpointTrace
