import EndpointTrace.Proofs.Discovery.Scheduling

/-!
# Cancelled discoveries

A run can be cancelled from outside or by any of its calls, at any time.  Whenever this
happens, no file is left half reported: each contributes what it contributes to the run that
nobody cancels, or nothing.  A file whose turn comes later is not looked at any more, and
what its calls would have done makes no difference.
-/

namespace EndpointTrace

namespace Corpus

def uncancelled (corpus : Corpus) : Corpus where
  files := corpus.files.uncancelled
  document file := (corpus.document file).uncancelled
  symbols file := (corpus.symbols file).uncancelled

theorem steady_uncancelled (corpus : Corpus) : corpus.uncancelled.Steady where
  files := corpus.files.cancel_not_mem_uncancelled
  document file := (corpus.document file).cancel_not_mem_uncancelled
  symbols file := (corpus.symbols file).cancel_not_mem_uncancelled

end Corpus

namespace Discovery

theorem found_uncancelled (options : Options) (timeout : Nat) (corpus : Corpus)
    (file : FilePath) :
    found options timeout corpus.uncancelled file = found options timeout corpus file := by
  simp only [found, delivery?, Corpus.uncancelled, Call.delivered?_uncancelled]

theorem job_of_cancelled (options : Options) (timeout : Nat) (corpus : Corpus)
    (file : FilePath) {moment : Moment} (hcancelled : moment.cancelled = true) :
    job options timeout corpus file moment = ([], moment) := by
  rw [job_eq, inFile, Guard.run_of_cancelled _ _ _ hcancelled]
  rfl

/-- In a pool every file contributes what it can or nothing, whatever happens to the run. -/
theorem contributed_cases {options : Options} {timeout limit : Nat} {corpus : Corpus}
    {files : List FilePath} {moment : Moment} {log : List (FilePath × Moment)}
    {findings : Findings}
    (hpool : Pool.Schedule limit (job options timeout corpus) files [] moment log findings) :
    ∀ entry ∈ findings.fates,
      contributed entry = [] ∨ contributed entry = found options timeout corpus entry.1 := by
  rintro ⟨file, fate⟩ hentry
  cases fate with
  | interrupted =>
      exact Or.inl rfl
  | skipped =>
      exact Or.inl rfl
  | finished value =>
      rcases hpool.delivered (List.forall_mem_nil _) hentry with
        ⟨process, ⟨start, hstart, hdelivers, _⟩, hitem, hprocess, _⟩
      have hvalue : contributed (file, .finished value) =
          (job options timeout corpus file start).1 := by
        rw [← hitem, ← hdelivers, hprocess]
        rfl
      rw [hvalue]
      exact (job_cases options corpus file timeout hstart).imp_left And.left

/-- Findings that are complete or empty file by file, compared with the whole. -/
structure PartOf (findings whole : Findings) : Prop where
  files : findings.fates = [] ∨
    (findings.fates.map Prod.fst).Perm (whole.fates.map Prod.fst)
  contributes : ∀ entry ∈ findings.fates, contributed entry = [] ∨
    ∀ counterpart ∈ whole.fates, counterpart.1 = entry.1 →
      counterpart.2 = .finished (contributed entry)

section

variable {options : Options} {guard : Guard} {corpus : Corpus} {moment : Moment}
  {log : List (FilePath × Moment)} {findings : Findings}

theorem Scheduled.congr (hscheduled : Scheduled options guard corpus moment log findings)
    {another : Corpus} (hfiles : another.files = corpus.files)
    (halike : ∀ entry ∈ log, AlikeOn corpus another entry.1) :
    Scheduled options guard another moment log findings := by
  unfold Scheduled at hscheduled ⊢
  rw [hfiles]
  rcases hlisted : guard.run "list_files" corpus.files moment with ⟨failure | files, later⟩
  · rw [hlisted] at hscheduled
    exact hscheduled
  · rw [hlisted] at hscheduled
    apply Pool.Schedule.congr hscheduled
    intro entry hentry
    rw [job_congr (halike entry hentry)]

theorem Scheduled.partOf
    (hscheduled : Scheduled options guard corpus moment log findings) :
    PartOf findings
      (run options guard.uncancelled corpus.uncancelled moment.uncancelled) := by
  have hend := live_run (show guard.uncancelled.cancelAt = none from rfl)
    corpus.steady_uncancelled options (show moment.uncancelled.cancelled = false from rfl)
  rcases exists_scheduled_run options guard.uncancelled corpus.uncancelled moment.uncancelled
    with ⟨_, hwhole, _⟩
  rcases hscheduled.listed_cases with ⟨_, hnothing, _⟩ | ⟨files, later, hlisted, hpool⟩
  · constructor
    · exact Or.inl hnothing
    · rw [hnothing]
      exact List.forall_mem_nil _
  · have hfiles : corpus.uncancelled.files.delivered? guard.uncancelled.timeout = some files :=
      (corpus.files.delivered?_uncancelled guard.timeout).trans hlisted
    rcases hwhole.fates_eq hfiles hend with ⟨hall, hfates⟩
    constructor
    · exact Or.inr (hpool.settled.trans hall.symm)
    · intro entry hentry
      rcases contributed_cases hpool entry hentry with hnothing | hfound
      · exact Or.inl hnothing
      · right
        intro counterpart hcounterpart hsame
        rw [hfates counterpart hcounterpart, hsame, found_uncancelled, hfound]
        rfl

theorem Scheduled.started_or_skipped
    (hscheduled : Scheduled options guard corpus moment log findings) :
    (log.map Prod.fst ++ findings.skipped).Perm (findings.fates.map Prod.fst) ∧
      ∀ entry ∈ log, entry.2.cancelled = false := by
  rcases hscheduled.listed_cases with ⟨rfl, hnothing, _⟩ | ⟨files, later, _, hpool⟩
  · rw [Pool.Outcome.skipped, hnothing]
    exact ⟨List.Perm.refl _, List.forall_mem_nil _⟩
  · rcases hpool.started_or_skipped with ⟨hstarted, hlive⟩
    exact ⟨hstarted.trans hpool.settled.symm, hlive⟩

end

/-- A cancelled discovery is a part of the whole one, file by file, in whatever way it may
go, and the files whose turn never comes have no part in it.  Of the run that goes by the
clock they have no part either: with any other calls for them it would be the same. -/
theorem cancelled_all_or_nothing (options : Options) (guard : Guard) (corpus : Corpus)
    (moment : Moment) :
    (run options guard.uncancelled corpus.uncancelled moment.uncancelled).moment.cancelled
        = false ∧
    (∀ (another : Corpus) (file : FilePath) {late : Moment}, late.cancelled = true →
      job options guard.timeout another file late = ([], late)) ∧
    (∃ log, Scheduled options guard corpus moment log (run options guard corpus moment) ∧
      ∀ another : Corpus, another.files = corpus.files →
        (∀ entry ∈ log, AlikeOn corpus another entry.1) →
          run options guard another moment = run options guard corpus moment) ∧
    ∀ {log : List (FilePath × Moment)} {findings : Findings},
      Scheduled options guard corpus moment log findings →
        endpoints findings = findings.fates.flatMap contributed ∧
        PartOf findings
          (run options guard.uncancelled corpus.uncancelled moment.uncancelled) ∧
        (log.map Prod.fst ++ findings.skipped).Perm (findings.fates.map Prod.fst) ∧
        (∀ entry ∈ log, entry.2.cancelled = false) ∧
        ∀ another : Corpus, another.files = corpus.files →
          (∀ entry ∈ log, AlikeOn corpus another entry.1) →
            Scheduled options guard another moment log findings := by
  refine ⟨live_run rfl corpus.steady_uncancelled options rfl,
    fun another file _ hlate => job_of_cancelled options _ another file hlate,
    exists_scheduled_run options guard corpus moment, ?_⟩
  intro log findings hscheduled
  rcases hscheduled.started_or_skipped with ⟨hstarted, hlive⟩
  exact ⟨endpoints_eq findings, hscheduled.partOf, hstarted, hlive,
    fun another hfiles halike => hscheduled.congr hfiles halike⟩

theorem cancelled_all_or_nothing_copies :
    (run ⟨.standard, 5, 3⟩ ⟨1000, some 20⟩
        (copies [⟨"c/C.java"⟩, ⟨"b/C.java"⟩, ⟨"a/C.java"⟩]) .start).fates.map
          (fun entry => (entry.1.text, (contributed entry).length)) =
        [("a/C.java", 2), ("c/C.java", 0), ("b/C.java", 0)] ∧
    PartOf
      (run ⟨.standard, 5, 3⟩ ⟨1000, some 20⟩
        (copies [⟨"c/C.java"⟩, ⟨"b/C.java"⟩, ⟨"a/C.java"⟩]) .start)
      (run ⟨.standard, 5, 3⟩ ⟨1000, none⟩
        (copies [⟨"c/C.java"⟩, ⟨"b/C.java"⟩, ⟨"a/C.java"⟩]) .start) := by
  constructor
  · cbv
  · rcases cancelled_all_or_nothing ⟨.standard, 5, 3⟩ ⟨1000, some 20⟩
      (copies [⟨"c/C.java"⟩, ⟨"b/C.java"⟩, ⟨"a/C.java"⟩]) .start with
      ⟨_, _, ⟨log, hrun, _⟩, hall⟩
    exact (hall hrun).2.1

end Discovery
end EndpointTrace
