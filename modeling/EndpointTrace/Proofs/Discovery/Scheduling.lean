import EndpointTrace.Proofs.Discovery.Deliveries

/-!
# Discovery does not depend on scheduling

In a run that nobody cancels, the endpoints that are found are those of the files whose
calls succeed in time.  Neither the number of files that are looked at side by side nor the
order in which they end has a say in this, and a file that fails might as well not be there.
After sorting, not even the order of equal endpoints depends on any of that.
-/

namespace EndpointTrace
namespace Discovery

/-- Whatever the concurrency and the order in which files end, a run that is not cancelled
finds the endpoints of the files that deliver, and sorted they are the same list for every
other run with the same deliveries.  The run that goes by the clock is one of those that are
spoken of, and it is not cancelled if neither a call nor the guard does it. -/
theorem endpoints_of_any_schedule (options : Options) (guard : Guard) (corpus : Corpus)
    (moment : Moment) {files : List FilePath}
    (hfiles : corpus.files.delivered? guard.timeout = some files)
    (hdistinct : files.Pairwise fun a b => a.same b = false) (concurrency : Nat) :
    (∃ log, Scheduled { options with concurrency := concurrency } guard corpus moment log
      (run { options with concurrency := concurrency } guard corpus moment)) ∧
    (guard.cancelAt = none → corpus.Steady → moment.cancelled = false →
      (run { options with concurrency := concurrency } guard corpus moment).moment.cancelled
        = false) ∧
    ∀ {log : List (FilePath × Moment)} {findings : Findings},
      Scheduled { options with concurrency := concurrency } guard corpus moment log findings →
      findings.moment.cancelled = false →
        (endpoints findings).Perm
          ((deliveries guard.timeout corpus files).flatMap (Delivery.endpoints options)) ∧
        (∀ order : List Delivery, order.Perm (deliveries guard.timeout corpus files) →
          Endpoint.sort (endpoints findings) =
            Endpoint.sort (order.flatMap (Delivery.endpoints options))) ∧
        ∀ (width : Nat) (another : Corpus) {listed : List FilePath} {start : Moment}
          {trail : List (FilePath × Moment)} {others : Findings},
          another.files.delivered? guard.timeout = some listed →
          (deliveries guard.timeout another listed).Perm
            (deliveries guard.timeout corpus files) →
          Scheduled { options with concurrency := width } guard another start trail others →
          others.moment.cancelled = false →
            Endpoint.sort (endpoints others) = Endpoint.sort (endpoints findings) := by
  refine ⟨(exists_scheduled_run _ guard corpus moment).imp fun _ hrun => hrun.1, ?_, ?_⟩
  · intro hguard hsteady hlive
    exact live_run hguard hsteady _ hlive
  · intro log findings hscheduled hend
    have hapart : ∀ {order : List Delivery},
        order.Perm (deliveries guard.timeout corpus files) →
          order.Pairwise fun a b => a.file.same b.file = false := by
      intro order horder
      exact (horder.pairwise_iff Delivery.apart_symm).mpr (distinct_deliveries hdistinct)
    rcases hscheduled.exists_order hfiles hend with ⟨ended, hended, hfound⟩
    rw [hfound]
    refine ⟨hended.flatMap_right _, ?_, ?_⟩
    · intro order horder
      exact sort_deliveries (hapart hended) (hended.trans horder.symm)
    · intro width another listed start trail others hlisted hsame hother hlive
      rcases hother.exists_order hlisted hlive with ⟨order, horder, heq⟩
      rw [heq]
      exact sort_deliveries (hapart (horder.trans hsame)) (horder.trans (hsame.trans hended.symm))

/-!
## Three copies of a file, one of which is slow
-/

/-- The later files answer sooner, and the first one not in time. -/
def delay (file : FilePath) : Nat :=
  match file.text with
  | "a/C.java" => 10
  | "b/C.java" => 30
  | _ => 5000

def copies (files : List FilePath) : Corpus where
  files := .immediate (.ok files)
  document file :=
    ⟨[.wait (delay file)], .ok (.ofString Extraction.nestedControllers)⟩
  symbols _ := .immediate (.ok (Java.symbols Extraction.nestedTree))

def copy (file : FilePath) : Delivery :=
  ⟨file, .ofString Extraction.nestedControllers, Java.symbols Extraction.nestedTree⟩

theorem steady_copies (files : List FilePath) : (copies files).Steady where
  files := by simp [copies, Call.immediate]
  document := by simp [copies]
  symbols := by simp [copies, Call.immediate]

theorem endpoints_of_any_schedule_copies :
    (run ⟨.standard, 5, 2⟩ ⟨1000, none⟩
        (copies [⟨"c/C.java"⟩, ⟨"b/C.java"⟩, ⟨"a/C.java"⟩]) .start).fates.map
          (fun entry => entry.1.text) = ["b/C.java", "a/C.java", "c/C.java"] ∧
    (run ⟨.standard, 5, 3⟩ ⟨1000, none⟩
        (copies [⟨"c/C.java"⟩, ⟨"b/C.java"⟩, ⟨"a/C.java"⟩]) .start).fates.map
          (fun entry => entry.1.text) = ["a/C.java", "b/C.java", "c/C.java"] ∧
    Extraction.nestedEndpoint ⟨"a/C.java"⟩ ∈ (copy ⟨"a/C.java"⟩).endpoints ⟨.standard, 5, 1⟩ ∧
    ∀ concurrency,
      Endpoint.sort (endpoints (run ⟨.standard, 5, concurrency⟩ ⟨1000, none⟩
          (copies [⟨"c/C.java"⟩, ⟨"b/C.java"⟩, ⟨"a/C.java"⟩]) .start)) =
        Endpoint.sort ((copy ⟨"a/C.java"⟩).endpoints ⟨.standard, 5, 1⟩ ++
          (copy ⟨"b/C.java"⟩).endpoints ⟨.standard, 5, 1⟩) ∧
      Endpoint.sort (endpoints (run ⟨.standard, 5, 1⟩ ⟨1000, none⟩
          (copies [⟨"a/C.java"⟩, ⟨"b/C.java"⟩]) .start)) =
        Endpoint.sort (endpoints (run ⟨.standard, 5, concurrency⟩ ⟨1000, none⟩
          (copies [⟨"c/C.java"⟩, ⟨"b/C.java"⟩, ⟨"a/C.java"⟩]) .start)) := by
  refine ⟨by cbv, by cbv, Extraction.nestedEndpoint_mem _, ?_⟩
  intro concurrency
  have hdistinct : [⟨"c/C.java"⟩, ⟨"b/C.java"⟩, ⟨"a/C.java"⟩].Pairwise
      fun a b : FilePath => a.same b = false := by
    decide
  have hdeliver : deliveries 1000 (copies [⟨"c/C.java"⟩, ⟨"b/C.java"⟩, ⟨"a/C.java"⟩])
      [⟨"c/C.java"⟩, ⟨"b/C.java"⟩, ⟨"a/C.java"⟩] = [copy ⟨"b/C.java"⟩, copy ⟨"a/C.java"⟩] :=
    rfl
  have hfewer : deliveries 1000 (copies [⟨"a/C.java"⟩, ⟨"b/C.java"⟩])
      [⟨"a/C.java"⟩, ⟨"b/C.java"⟩] = [copy ⟨"a/C.java"⟩, copy ⟨"b/C.java"⟩] :=
    rfl
  have hswap := List.Perm.swap (copy ⟨"b/C.java"⟩) (copy ⟨"a/C.java"⟩) []
  rcases endpoints_of_any_schedule ⟨.standard, 5, 1⟩ ⟨1000, none⟩
    (copies [⟨"c/C.java"⟩, ⟨"b/C.java"⟩, ⟨"a/C.java"⟩]) .start (Call.delivered?_immediate _ _)
    hdistinct concurrency with ⟨⟨log, hrun⟩, hlive, hall⟩
  rcases hall hrun (hlive rfl (steady_copies _) rfl) with ⟨_, horders, hothers⟩
  rcases exists_scheduled_run ⟨.standard, 5, 1⟩ ⟨1000, none⟩
    (copies [⟨"a/C.java"⟩, ⟨"b/C.java"⟩]) .start with ⟨trail, hshort, _⟩
  constructor
  · rw [horders [copy ⟨"a/C.java"⟩, copy ⟨"b/C.java"⟩] (by rw [hdeliver]; exact hswap)]
    simp
  · apply hothers 1 (copies [⟨"a/C.java"⟩, ⟨"b/C.java"⟩]) (Call.delivered?_immediate _ _)
      (by rw [hdeliver, hfewer]; exact hswap) hshort
    exact live_run rfl (steady_copies _) _ rfl

end Discovery
end EndpointTrace
