import EndpointTrace.Proofs.Route.HandlerTrees
import EndpointTrace.Proofs.Route.Presentation
import EndpointTrace.Proofs.Timing.Delivery
import EndpointTrace.Proofs.Timing.Schedules
import EndpointTrace.Route.Discovery

/-!
# Discovery and its schedules

The work on a file makes two calls, and the file counts only if both deliver.  What it then
contributes does not depend on when the work is done or what else is done at that time.  So
in a run that nobody cancels the endpoints that are found are those of the files that
deliver, and sorting them removes every trace of the schedule.
-/

namespace EndpointTrace

/-- No call brings a cancellation of its own. -/
structure Corpus.Steady (corpus : Corpus) : Prop where
  files : Step.cancel ∉ corpus.files.steps
  document : ∀ file, Step.cancel ∉ (corpus.document file).steps
  symbols : ∀ file, Step.cancel ∉ (corpus.symbols file).steps

namespace Discovery

/-!
## Single files
-/

structure Delivery where
  file : FilePath
  document : Document
  symbols : List Symbol

def delivery? (timeout : Nat) (corpus : Corpus) (file : FilePath) : Option Delivery :=
  match (corpus.document file).delivered? timeout,
      (corpus.symbols file).delivered? timeout with
  | some document, some symbols => some ⟨file, document, symbols⟩
  | _, _ => none

/-- The deliveries of the files whose calls both succeed in time. -/
def deliveries (timeout : Nat) (corpus : Corpus) (files : List FilePath) : List Delivery :=
  files.filterMap (delivery? timeout corpus)

namespace Delivery

def endpoints (options : Options) (delivery : Delivery) : List Endpoint :=
  Extraction.endpoints options.rules options.windowLines delivery.file delivery.document
    delivery.symbols

theorem file_of_mem {options : Options} {delivery : Delivery} {endpoint : Endpoint}
    (hmem : endpoint ∈ delivery.endpoints options) :
    endpoint.location.file = delivery.file := by
  rcases Extraction.endpoint_declared hmem with ⟨declared, _, _, hlocation⟩
  rw [hlocation]

theorem apart_symm {a b : Delivery} (hapart : a.file.same b.file = false) :
    b.file.same a.file = false := by
  rw [← Bool.not_eq_true, FilePath.same_iff] at hapart ⊢
  exact fun hsame => hapart hsame.symm

end Delivery

theorem file_of_delivery? {timeout : Nat} {corpus : Corpus} {file : FilePath}
    {delivery : Delivery} (hdelivery : delivery? timeout corpus file = some delivery) :
    delivery.file = file := by
  unfold delivery? at hdelivery
  split at hdelivery
  · cases hdelivery
    rfl
  · cases hdelivery

def found (options : Options) (timeout : Nat) (corpus : Corpus) (file : FilePath) :
    List Endpoint :=
  ((delivery? timeout corpus file).map (Delivery.endpoints options)).getD []

theorem flatMap_found (options : Options) (timeout : Nat) (corpus : Corpus)
    (files : List FilePath) :
    files.flatMap (found options timeout corpus) =
      (deliveries timeout corpus files).flatMap (Delivery.endpoints options) := by
  induction files with
  | nil =>
      rfl
  | cons file rest ih =>
      rw [List.flatMap_cons, ih, deliveries, deliveries, List.filterMap_cons, found]
      cases delivery? timeout corpus file with
      | none =>
          rfl
      | some delivery =>
          rfl

theorem live_inFile {guard : Guard} (hguard : guard.cancelAt = none) {corpus : Corpus}
    (hsteady : corpus.Steady) (options : Options) (file : FilePath) {moment : Moment}
    (hlive : moment.cancelled = false) :
    (inFile options guard corpus file moment).2.cancelled = false := by
  unfold inFile
  have hopened := guard.live_run_quiet hguard "open_document" (hsteady.document file) hlive
  generalize guard.run "open_document" (corpus.document file) moment = opened at hopened ⊢
  rcases opened with ⟨failure | document, later⟩
  · exact hopened
  · have hread := guard.live_run_quiet hguard "document_symbols" (hsteady.symbols file) hopened
    dsimp only at hread ⊢
    generalize guard.run "document_symbols" (corpus.symbols file) later = read at hread ⊢
    rcases read with ⟨failure | symbols, last⟩
    · exact hread
    · exact hread

section

variable (options : Options) (corpus : Corpus) (file : FilePath)

theorem inFile_cases (guard : Guard) {moment : Moment} (hlive : moment.cancelled = false) :
    (inFile options guard corpus file moment).1.toOption = none ∧
        (inFile options guard corpus file moment).2.cancelled = true ∨
      (inFile options guard corpus file moment).1.toOption =
        (delivery? guard.timeout corpus file).map (Delivery.endpoints options) := by
  unfold inFile delivery?
  have hopened := guard.toOption_run_cases "open_document" (corpus.document file) hlive
  generalize guard.run "open_document" (corpus.document file) moment = opened at hopened ⊢
  rcases opened with ⟨document | document, later⟩
  · rcases hopened with ⟨_, hcancelled⟩ | hopened
    · exact Or.inl ⟨rfl, hcancelled⟩
    · rw [← hopened]
      exact Or.inr rfl
  · rcases hopened with ⟨hnone, _⟩ | hopened
    · cases hnone
    · rw [← hopened]
      dsimp only
      -- The first call may have cancelled the run and delivered all the same.
      cases hlater : later.cancelled with
      | true =>
          simp only [guard.run_of_cancelled "document_symbols" (corpus.symbols file) hlater]
          exact Or.inl ⟨rfl, hlater⟩
      | false =>
          have hread := guard.toOption_run_cases "document_symbols" (corpus.symbols file) hlater
          generalize guard.run "document_symbols" (corpus.symbols file) later = read
            at hread ⊢
          rcases read with ⟨symbols | symbols, last⟩
          · rcases hread with ⟨_, hcancelled⟩ | hread
            · exact Or.inl ⟨rfl, hcancelled⟩
            · rw [← hread]
              exact Or.inr rfl
          · rcases hread with ⟨hnone, _⟩ | hread
            · cases hnone
            · rw [← hread]
              exact Or.inr rfl

theorem job_eq (timeout : Nat) (moment : Moment) :
    job options timeout corpus file moment =
      ((inFile options ⟨timeout, none⟩ corpus file moment).1.toOption.getD [],
        (inFile options ⟨timeout, none⟩ corpus file moment).2) := by
  unfold job
  split
  · rename_i endpoints later hin
    rw [hin]
    rfl
  · rename_i failure later hin
    rw [hin]
    rfl

theorem job_cases (timeout : Nat) {moment : Moment} (hlive : moment.cancelled = false) :
    (job options timeout corpus file moment).1 = [] ∧
        (job options timeout corpus file moment).2.cancelled = true ∨
      (job options timeout corpus file moment).1 = found options timeout corpus file := by
  rw [job_eq, found]
  rcases inFile_cases options corpus file ⟨timeout, none⟩ hlive with
    ⟨hnone, hcancelled⟩ | hsame
  · rw [hnone]
    exact Or.inl ⟨rfl, hcancelled⟩
  · rw [hsame]
    exact Or.inr rfl

end

/-!
## Schedules
-/

/-- One way in which a discovery may go, with the log of the files whose processing is
started. -/
def Scheduled (options : Options) (guard : Guard) (corpus : Corpus) (moment : Moment)
    (log : List (FilePath × Moment)) (findings : Findings) : Prop :=
  match guard.run "list_files" corpus.files moment with
  | (.error _, later) => log = [] ∧ findings = ⟨[], later⟩
  | (.ok files, later) =>
      Pool.Schedule (max options.concurrency 1) (job options guard.timeout corpus) files []
        later log findings

def AlikeOn (corpus another : Corpus) (file : FilePath) : Prop :=
  another.document file = corpus.document file ∧ another.symbols file = corpus.symbols file

theorem job_congr {corpus another : Corpus} {file : FilePath}
    (halike : AlikeOn corpus another file) (options : Options) (timeout : Nat) :
    job options timeout another file = job options timeout corpus file := by
  unfold job inFile
  rw [halike.1, halike.2]

theorem exists_scheduled_run (options : Options) (guard : Guard) (corpus : Corpus)
    (moment : Moment) :
    ∃ log, Scheduled options guard corpus moment log (run options guard corpus moment) ∧
      ∀ another : Corpus, another.files = corpus.files →
        (∀ entry ∈ log, AlikeOn corpus another entry.1) →
          run options guard another moment = run options guard corpus moment := by
  unfold Scheduled run
  rcases hlisted : guard.run "list_files" corpus.files moment with ⟨listed | listed, later⟩
  · refine ⟨[], ⟨rfl, rfl⟩, ?_⟩
    intro another hfiles _
    rw [hfiles, hlisted]
  · rcases Pool.schedule_run options.concurrency guard.cancelAt
      (job options guard.timeout corpus) listed later with ⟨log, hschedule, hsame⟩
    refine ⟨log, hschedule, ?_⟩
    intro another hfiles halike
    rw [hfiles, hlisted]
    apply hsame
    intro entry hentry
    rw [job_congr (halike entry hentry)]

def contributed (entry : FilePath × Pool.Fate (List Endpoint)) : List Endpoint :=
  entry.2.value?.getD []

theorem endpoints_eq (findings : Findings) :
    endpoints findings = findings.fates.flatMap contributed := by
  unfold endpoints Pool.Outcome.values
  induction findings.fates with
  | nil =>
      rfl
  | cons entry rest ih =>
      rw [List.filterMap_cons, List.flatMap_cons, ← ih, contributed]
      cases entry.2.value? with
      | none =>
          rfl
      | some endpoints =>
          rfl

section

variable {options : Options} {guard : Guard} {corpus : Corpus} {moment : Moment}
  {log : List (FilePath × Moment)} {findings : Findings} {files : List FilePath}

theorem Scheduled.listed_cases
    (hscheduled : Scheduled options guard corpus moment log findings) :
    (log = [] ∧ findings.fates = [] ∧
      (findings.moment.cancelled = false → corpus.files.delivered? guard.timeout = none)) ∨
      ∃ files later, corpus.files.delivered? guard.timeout = some files ∧
        Pool.Schedule (max options.concurrency 1) (job options guard.timeout corpus) files []
          later log findings := by
  unfold Scheduled at hscheduled
  rcases hlisted : guard.run "list_files" corpus.files moment with ⟨failure | files, later⟩
  · rw [hlisted] at hscheduled
    have hnothing := guard.toOption_run_of_live "list_files" corpus.files moment
    rw [hlisted] at hnothing
    left
    rw [hscheduled.2]
    exact ⟨hscheduled.1, rfl, fun hend => (hnothing hend).symm⟩
  · rw [hlisted] at hscheduled
    right
    refine ⟨files, later, ?_, hscheduled⟩
    cases hmoment : moment.cancelled with
    | true =>
        rw [guard.run_of_cancelled _ _ hmoment] at hlisted
        cases hlisted
    | false =>
        have hdelivered := guard.toOption_run_cases "list_files" corpus.files hmoment
        rw [hlisted] at hdelivered
        rcases hdelivered with ⟨hnone, _⟩ | hdelivered
        · cases hnone
        · exact hdelivered.symm

theorem Scheduled.processed (hfiles : corpus.files.delivered? guard.timeout = some files)
    (hscheduled : Scheduled options guard corpus moment log findings)
    (hend : findings.moment.cancelled = false) :
    ∃ later, Pool.Schedule (max options.concurrency 1) (job options guard.timeout corpus)
      files [] later log findings := by
  rcases hscheduled.listed_cases with ⟨_, _, hnone⟩ | ⟨listed, later, hlisted, hpool⟩
  · cases hfiles.symm.trans (hnone hend)
  · cases hfiles.symm.trans hlisted
    exact ⟨later, hpool⟩

theorem Scheduled.fates_eq (hfiles : corpus.files.delivered? guard.timeout = some files)
    (hscheduled : Scheduled options guard corpus moment log findings)
    (hend : findings.moment.cancelled = false) :
    (findings.fates.map Prod.fst).Perm files ∧
      ∀ entry ∈ findings.fates,
        entry.2 = .finished (found options guard.timeout corpus entry.1) := by
  rcases hscheduled.processed hfiles hend with ⟨later, hpool⟩
  refine ⟨hpool.settled, ?_⟩
  intro entry hentry
  rcases hpool.all_finished hend entry hentry with ⟨value, hvalue⟩
  have hmem : (entry.1, .finished value) ∈ findings.fates := by
    rw [← hvalue]
    exact hentry
  rcases hpool.delivered (List.forall_mem_nil _) hmem with
    ⟨process, ⟨start, hstart, hdelivers, hfinish⟩, hitem, hprocess, hlive⟩
  have hstill := hlive hend
  rw [hfinish] at hstill
  rw [hvalue, ← hprocess, hdelivers, hitem]
  rw [hitem] at hstill
  -- A job that comes to nothing has cancelled the run, which is still live.
  rcases job_cases options corpus entry.1 guard.timeout hstart with
    ⟨_, hcancelled⟩ | hfound
  · rw [hstill] at hcancelled
    cases hcancelled
  · rw [hfound]

/-- What is found in a run that nobody cancels: the endpoints of all deliveries, in the
order in which the files have ended. -/
theorem Scheduled.exists_order
    (hfiles : corpus.files.delivered? guard.timeout = some files)
    (hscheduled : Scheduled options guard corpus moment log findings)
    (hend : findings.moment.cancelled = false) :
    ∃ order : List Delivery, order.Perm (deliveries guard.timeout corpus files) ∧
      endpoints findings = order.flatMap (Delivery.endpoints options) := by
  rcases hscheduled.fates_eq hfiles hend with ⟨hperm, hfates⟩
  refine ⟨deliveries guard.timeout corpus (findings.fates.map Prod.fst),
    hperm.filterMap _, ?_⟩
  rw [endpoints_eq, ← flatMap_found, List.flatMap_map]
  apply List.flatMap_congr
  intro entry hentry
  rw [contributed, hfates entry hentry]
  rfl

end

theorem live_run {guard : Guard} (hguard : guard.cancelAt = none) {corpus : Corpus}
    (hsteady : corpus.Steady) (options : Options) {moment : Moment}
    (hlive : moment.cancelled = false) :
    (run options guard corpus moment).moment.cancelled = false := by
  have hlisted := guard.live_run_quiet hguard "list_files" hsteady.files hlive
  unfold run
  generalize guard.run "list_files" corpus.files moment = answer at hlisted ⊢
  rcases answer with ⟨failure | files, later⟩
  · exact hlisted
  · rw [hguard]
    apply Pool.live_drain _ _ _ (List.forall_mem_nil _) hlisted
    intro file start hstart
    rw [job_eq]
    exact live_inFile rfl hsteady options file hstart

theorem distinct_deliveries {timeout : Nat} {corpus : Corpus} {files : List FilePath}
    (hdistinct : files.Pairwise fun a b => a.same b = false) :
    (deliveries timeout corpus files).Pairwise fun a b => a.file.same b.file = false := by
  apply List.pairwise_filterMap.mpr
  apply hdistinct.imp
  intro a b hother first hfirst second hsecond
  rw [file_of_delivery? hfirst, file_of_delivery? hsecond]
  exact hother

theorem sort_deliveries {options : Options} {first second : List Delivery}
    (hdistinct : first.Pairwise fun a b => a.file.same b.file = false)
    (hperm : first.Perm second) :
    Endpoint.sort (first.flatMap (Delivery.endpoints options)) =
      Endpoint.sort (second.flatMap (Delivery.endpoints options)) :=
  Endpoint.sort_flatMap_perm Delivery.file _
    (fun _ _ _ hendpoint => Delivery.file_of_mem hendpoint) hdistinct hperm

end Discovery
end EndpointTrace
