import EndpointTrace.Proofs.CallTree.Rounds
import EndpointTrace.Proofs.Discovery.Scheduling
import EndpointTrace.Proofs.Resolution.Silence
import EndpointTrace.Trace

/-!
# What a trace writes

Apart from its progress a trace writes one message at most, at its very end, and how it ends
decides which.  That there are no endpoints, and that the request is not clear, is only said
in a live run.  The third message, that the handler is not known, is also written when the
run has been cancelled since the handler was looked for: that there is no tree is all that
the trace learns, and this is so after a cancellation, too.
-/

namespace EndpointTrace

namespace Notice

def isMessage : Notice → Bool
  | progress _ => false
  | markdown _ => true

end Notice

namespace Transcript

def messages (transcript : Transcript) : Transcript :=
  transcript.filter fun entry => entry.notice.isMessage

@[simp] theorem messages_append (first second : Transcript) :
    messages (first ++ second) = messages first ++ messages second :=
  List.filter_append first second

@[simp] theorem messages_nil : messages [] = [] :=
  rfl

@[simp] theorem messages_progress (moment : Moment) (text : String) (rest : Transcript) :
    messages (⟨moment, .progress text⟩ :: rest) = messages rest :=
  rfl

@[simp] theorem messages_markdown (moment : Moment) (text : String) (rest : Transcript) :
    messages (⟨moment, .markdown text⟩ :: rest) = ⟨moment, .markdown text⟩ :: messages rest :=
  rfl

end Transcript

namespace Resolution

/-!
## Resolutions
-/

/-- What a stage can come to.  Only the last one writes a message. -/
inductive Performs (request : String) (progress : Progress) : Stage → StageEnd → Prop where
  | selects {stage : Stage} {endpoint : Endpoint} {next : Progress}
      (hsame : next.transcript.messages = progress.transcript.messages) :
      Performs request progress stage (.settled (.selected endpoint stage) next)
  | findsNothing (hnothing : progress.candidates = []) :
      Performs request progress .trivial (.settled .notFound progress)
  | withdraws {next : Progress}
      (hsame : next.transcript.messages = progress.transcript.messages) :
      Performs request progress .assistant (.settled .cancelled next)
  | handsOn {stage : Stage} {next : Progress} (hstage : stage ≠ .clarification)
      (hsame : next.transcript.messages = progress.transcript.messages) :
      Performs request progress stage (.handedOn next)
  | asks : Performs request progress .clarification (clarificationStage request progress)

inductive Concludes (request : String) : Run → Prop where
  | selected {endpoint : Endpoint} {stage : Stage} {progress : Progress}
      (hnone : progress.transcript.messages = []) :
      Concludes request ⟨.selected endpoint stage, progress⟩
  | asked {progress : Progress} (hlive : progress.moment.cancelled = false)
      (hnone : progress.transcript.messages = []) :
      Concludes request ⟨.needsClarification progress.candidates,
        progress.tell (.markdown (clarification request progress.candidates))⟩
  | cancelled {progress : Progress} (hnone : progress.transcript.messages = []) :
      Concludes request ⟨.cancelled, progress⟩

section

variable (guard : Guard) (assistant : Option Assistant) (request : String)

theorem performs_settleBy (stage : Stage) (hstage : stage ≠ .clarification)
    (found : Option Endpoint) {progress next : Progress}
    (hsame : next.transcript.messages = progress.transcript.messages) :
    Performs request progress stage (settleBy stage found next) := by
  cases found with
  | none =>
      exact .handsOn hstage hsame
  | some endpoint =>
      exact .selects hsame

theorem performs_judgeReply (reply : Except Failure String) {progress next : Progress}
    (hsame : next.transcript.messages = progress.transcript.messages) :
    Performs request progress .assistant (judgeReply reply next) := by
  rcases judgeReply_cases reply next with
    ⟨_, _, _, _, _, _, hjudged⟩ | ⟨_, _, _, _, hjudged⟩ | ⟨_, _, _, hjudged⟩ |
    ⟨_, _, _, hjudged⟩
  · rw [hjudged]
    exact .selects hsame
  · rw [hjudged]
    exact .handsOn (by decide) (by simpa [Progress.tell] using hsame)
  · rw [hjudged]
    exact .handsOn (by decide) (by simpa [Progress.tell] using hsame)
  · rw [hjudged]
    exact .withdraws hsame

theorem performs_perform (stage : Stage) (progress : Progress) :
    Performs request progress stage (perform guard assistant request stage progress) := by
  cases stage with
  | trivial =>
      rw [perform, trivialStage]
      split
      · rename_i hnothing
        exact .findsNothing hnothing
      · exact performs_settleBy request .trivial (by decide) _ rfl
  | directMatch =>
      exact performs_settleBy request .directMatch (by decide) _ rfl
  | keywordMatch =>
      exact performs_settleBy request .keywordMatch (by decide) _ rfl
  | assistant =>
      cases assistant with
      | none =>
          exact .handsOn (by decide) rfl
      | some asked =>
          rw [perform_assistant]
          exact performs_judgeReply request _ (by simp)
  | clarification =>
      exact .asks

variable {guard assistant request} in
theorem stage_mem_of_selected {stages : List Stage} {progress : Progress}
    {endpoint : Endpoint} {selectedAt : Stage}
    (hselected : (follow guard assistant request stages progress).resolution =
      .selected endpoint selectedAt) : selectedAt ∈ stages := by
  induction stages generalizing progress with
  | nil =>
      cases hselected
  | cons stage later ih =>
      cases hcancelled : progress.moment.cancelled with
      | true =>
          rw [follow_of_cancelled hcancelled] at hselected
          cases hselected
      | false =>
          have hperformed := performs_perform guard assistant request stage progress
          rw [follow_of_live hcancelled] at hselected
          generalize perform guard assistant request stage progress = stageEnd
            at hselected hperformed
          cases hperformed with
          | selects _ =>
              cases hselected
              exact List.mem_cons_self
          | findsNothing _ =>
              cases hselected
          | withdraws _ =>
              cases hselected
          | handsOn _ _ =>
              exact List.mem_cons_of_mem stage (ih hselected)
          | asks =>
              cases hselected

theorem concludes_follow {stages : List Stage} (hfirst : .trivial ∉ stages)
    (hlast : .clarification ∈ stages) {progress : Progress}
    (hnone : progress.transcript.messages = []) :
    Concludes request (follow guard assistant request stages progress) := by
  induction stages generalizing progress with
  | nil =>
      cases hlast
  | cons stage later ih =>
      cases hcancelled : progress.moment.cancelled with
      | true =>
          rw [follow_of_cancelled hcancelled]
          exact .cancelled hnone
      | false =>
          rw [follow_of_live hcancelled]
          have hperforms := performs_perform guard assistant request stage progress
          generalize perform guard assistant request stage progress = stageEnd at hperforms ⊢
          cases hperforms with
          | selects hsame =>
              exact .selected (hsame.trans hnone)
          | findsNothing hnothing =>
              exact absurd List.mem_cons_self hfirst
          | withdraws hsame =>
              exact .cancelled (hsame.trans hnone)
          | handsOn hstage hsame =>
              exact ih (fun hmem => hfirst (List.mem_cons_of_mem stage hmem))
                (List.mem_of_ne_of_mem hstage.symm hlast) (hsame.trans hnone)
          | asks =>
              exact .asked hcancelled hnone

variable (query : String) (endpoints : List Endpoint) (moment : Moment)

theorem run_notFound_or_concludes :
    endpoints = [] ∧ moment.cancelled = false ∧
        run guard assistant query endpoints moment = ⟨.notFound, opening endpoints moment⟩ ∨
      ¬ (endpoints = [] ∧ moment.cancelled = false) ∧
        Concludes (Text.trimmed query) (run guard assistant query endpoints moment) := by
  cases hcancelled : moment.cancelled with
  | true =>
      right
      have hrun : run guard assistant query endpoints moment =
          ⟨.cancelled, opening endpoints moment⟩ := follow_of_cancelled hcancelled _ _
      rw [hrun]
      exact ⟨fun hlive => Bool.noConfusion hlive.2, .cancelled rfl⟩
  | false =>
      have hstage := performs_perform guard assistant (Text.trimmed query) .trivial
        (opening endpoints moment)
      have hlive : (opening endpoints moment).moment.cancelled = false := hcancelled
      have hrun : run guard assistant query endpoints moment =
          follow guard assistant (Text.trimmed query)
            [.trivial, .directMatch, .keywordMatch, .assistant, .clarification]
            (opening endpoints moment) := rfl
      rw [hrun, follow_of_live hlive]
      by_cases hnothing : endpoints = []
      · subst hnothing
        have hempty : Endpoint.sort [] = [] := List.mergeSort_nil
        left
        rw [perform, trivialStage, opening, hempty]
        exact ⟨rfl, rfl, rfl⟩
      · refine Or.inr ⟨fun hnone => hnothing hnone.1, ?_⟩
        generalize perform guard assistant (Text.trimmed query) .trivial
          (opening endpoints moment) = stageEnd at hstage ⊢
        cases hstage with
        | selects hsame =>
            exact .selected hsame
        | findsNothing hempty =>
            have hperm : List.Perm [] endpoints := by
              rw [← show Endpoint.sort endpoints = [] from hempty]
              exact Endpoint.sort_perm endpoints
            exact absurd hperm.symm.eq_nil hnothing
        | handsOn hlater hsame =>
            exact concludes_follow guard assistant _ (by decide) (by decide) hsame

end

end Resolution

namespace TraceEnd

def message? (root : FilePath) (request : String) : TraceEnd → Option String
  | noEndpoints => some (Trace.emptyNotice root)
  | unclear candidates => some (Resolution.clarification request candidates)
  | unknownHandler endpoint => some (Trace.unknownHandlerNotice endpoint)
  | drawn _ _ | cancelled | failed _ => none

end TraceEnd

/-- The oracle does not come back with the callable at a location. -/
def CallTree.Unprepared {σ : Type} (guard : Guard) (oracle : Oracle σ) (location : Location)
    (state : σ) (moment later : Moment) : Prop :=
  location.file.isEmpty = false ∧
    ∃ answer,
      guard.run "prepare_call_hierarchy"
        (oracle.prepare location.file location.position state).1 moment = (answer, later) ∧
      ∀ root others, answer ≠ .ok (root :: others)

theorem CallTree.unprepared_of_error {σ : Type} {guard : Guard} {oracle : Oracle σ}
    {location : Location} {state : σ} {moment later : Moment} {failure : Failure}
    (hfile : location.file.isEmpty = false)
    (hrun : guard.run "prepare_call_hierarchy"
      (oracle.prepare location.file location.position state).1 moment =
        (.error failure, later)) :
    Unprepared guard oracle location state moment later := by
  refine ⟨hfile, _, hrun, ?_⟩
  intro root others hroots
  cases hroots

theorem CallTree.unprepared_or_built {σ : Type} (limits : CallLimits) (guard : Guard)
    (oracle : Oracle σ) (location : Location) (state : σ) (moment : Moment) :
    (build limits guard oracle location state moment).result = .ok none ∧
        Unprepared guard oracle location state moment
          (build limits guard oracle location state moment).moment ∨
      (build limits guard oracle location state moment).result ≠ .ok none ∧
        ∀ later, ¬ Unprepared guard oracle location state moment later := by
  cases hfile : location.file.isEmpty with
  | true =>
      right
      rw [build, if_pos hfile]
      constructor
      · intro hnone
        cases hnone
      · intro later hunprepared
        exact absurd (hfile.symm.trans hunprepared.1) Bool.noConfusion
  | false =>
      cases hcancelled : moment.cancelled with
      | true =>
          left
          rw [build, hfile, hcancelled]
          exact ⟨rfl, unprepared_of_error hfile (guard.run_of_cancelled _ _ hcancelled)⟩
      | false =>
          rw [build, hfile, hcancelled]
          simp only [Bool.false_eq_true, if_false]
          cases hrun : guard.run "prepare_call_hierarchy"
              (oracle.prepare location.file location.position state).1 moment with
          | mk answer later =>
              cases answer with
              | error failure =>
                  exact Or.inl ⟨rfl, unprepared_of_error hfile hrun⟩
              | ok roots =>
                  cases roots with
                  | nil =>
                      refine Or.inl ⟨rfl, hfile, _, hrun, ?_⟩
                      intro root others hroots
                      cases hroots
                  | cons root others =>
                      right
                      constructor
                      · intro hnone
                        cases hnone
                      · rintro other ⟨_, answer, hanswer, hnone⟩
                        rw [hrun] at hanswer
                        cases hanswer
                        exact hnone root others rfl

namespace Trace

section

variable (tracer : Tracer) (codebase : Codebase) (endpoint : Endpoint) (moment : Moment)

/-!
## From the choice of an endpoint on
-/

/-- The callables are indexed, and the handler of an endpoint is not found among them. -/
def Loses (later : Moment) : Prop :=
  ∃ index indexed,
    codebase.index tracer.guard moment = (.ok index, indexed) ∧
    CallTree.Unprepared tracer.guard (codebase.oracle index) endpoint.location () indexed later

theorem pursue_cases (transcript : Transcript) :
    (∃ later, Loses tracer codebase endpoint moment later ∧
      pursue tracer codebase endpoint moment transcript =
        closing (.unknownHandler endpoint) later
          (transcript ++ [⟨moment, .progress (pursuitNotice endpoint)⟩])
          (unknownHandlerNotice endpoint)) ∨
    ((∀ later, ¬ Loses tracer codebase endpoint moment later) ∧
      ∃ ending later, (∀ root request, ending.message? root request = none) ∧
        pursue tracer codebase endpoint moment transcript =
          ⟨ending, later, transcript ++ [⟨moment, .progress (pursuitNotice endpoint)⟩]⟩) := by
  rw [pursue]
  cases hindex : codebase.index tracer.guard moment with
  | mk result indexed =>
      cases result with
      | error failure =>
          right
          constructor
          · rintro later ⟨index, other, hother, _⟩
            rw [hindex] at hother
            cases hother
          · refine ⟨_, _, fun root request => ?_, rfl⟩
            split
            · rfl
            · rfl
      | ok index =>
          rcases CallTree.unprepared_or_built tracer.limits tracer.guard
            (codebase.oracle index) endpoint.location () indexed with
            ⟨hnone, hunprepared⟩ | ⟨hsome, hprepared⟩
          · left
            exact ⟨_, ⟨index, indexed, hindex, hunprepared⟩, by simp only [hnone]⟩
          · right
            constructor
            · rintro later ⟨other, after, hother, hunprepared⟩
              rw [hindex] at hother
              cases hother
              exact hprepared later hunprepared
            · dsimp only
              split
              · exact ⟨_, _, fun _ _ => rfl, rfl⟩
              · rename_i hnone
                exact absurd hnone hsome
              · exact ⟨_, _, fun _ _ => rfl, rfl⟩

end

section

variable (tracer : Tracer) (codebase : Codebase) (request : String) (moment : Moment)

/-!
## The whole trace
-/

def resolved : Resolution.Run :=
  Resolution.run tracer.guard tracer.assistant request
    (codebase.endpoints tracer.options tracer.guard moment).1
    (codebase.endpoints tracer.options tracer.guard moment).2

/-- There is nothing to choose from, and this is known in a live run. -/
def FindsNothing : Prop :=
  (codebase.endpoints tracer.options tracer.guard moment).1 = [] ∧
    (codebase.endpoints tracer.options tracer.guard moment).2.cancelled = false

/-- The messages of a trace, and what they rest on. -/
structure Reports (trace : Trace) : Prop where
  messages : trace.transcript.messages =
    (trace.ending.message? codebase.root (Text.trimmed request)).toList.map
      fun text => ⟨trace.moment, .markdown text⟩
  noEndpoints : trace.ending = .noEndpoints ↔ FindsNothing tracer codebase moment
  live : (trace.ending = .noEndpoints ∨ ∃ candidates, trace.ending = .unclear candidates) →
    trace.moment.cancelled = false
  unknownHandler : ∀ endpoint, trace.ending = .unknownHandler endpoint ↔
    ∃ stage, (resolved tracer codebase request moment).resolution = .selected endpoint stage ∧
      Loses tracer codebase endpoint (resolved tracer codebase request moment).progress.moment
        trace.moment

variable {tracer codebase request moment}

theorem reports_of_silent {ending : TraceEnd} {later : Moment} {transcript : Transcript}
    (hsilent : ∀ root request, ending.message? root request = none)
    (hnone : transcript.messages = []) (hfound : ¬ FindsNothing tracer codebase moment)
    (hkept : ∀ endpoint stage,
      (resolved tracer codebase request moment).resolution = .selected endpoint stage →
        ¬ Loses tracer codebase endpoint
          (resolved tracer codebase request moment).progress.moment later) :
    Reports tracer codebase request moment ⟨ending, later, transcript⟩ where
  messages := by
    rw [hsilent, hnone]
    rfl
  noEndpoints := by
    refine iff_of_false ?_ hfound
    rintro rfl
    cases hsilent codebase.root ""
  live := by
    rintro (rfl | ⟨candidates, rfl⟩)
    · cases hsilent codebase.root ""
    · cases hsilent codebase.root ""
  unknownHandler endpoint := by
    refine iff_of_false ?_ fun ⟨stage, hselected, hloses⟩ => hkept endpoint stage hselected hloses
    rintro rfl
    cases hsilent codebase.root ""

theorem run_of_selected {endpoint : Endpoint} {stage : Stage}
    (hselected : (resolved tracer codebase request moment).resolution =
      .selected endpoint stage) :
    run tracer codebase request moment =
      pursue tracer codebase endpoint
        (resolved tracer codebase request moment).progress.moment
        (⟨moment, .progress discoveryNotice⟩ ::
          (resolved tracer codebase request moment).progress.transcript) := by
  rw [resolved] at hselected
  simp only [run, hselected]
  rfl

theorem reports_of_selected {endpoint : Endpoint} {stage : Stage}
    (hselected : (resolved tracer codebase request moment).resolution =
      .selected endpoint stage)
    (hnone : (resolved tracer codebase request moment).progress.transcript.messages = [])
    (hfound : ¬ FindsNothing tracer codebase moment) :
    Reports tracer codebase request moment (run tracer codebase request moment) := by
  have hsole : ∀ other chosen,
      (resolved tracer codebase request moment).resolution = .selected other chosen →
        other = endpoint := by
    intro other chosen hother
    rw [hselected] at hother
    cases hother
    rfl
  rw [run_of_selected hselected]
  rcases pursue_cases tracer codebase endpoint
    (resolved tracer codebase request moment).progress.moment
    (⟨moment, .progress discoveryNotice⟩ ::
      (resolved tracer codebase request moment).progress.transcript) with
    ⟨later, hloses, hpursue⟩ | ⟨hkept, ending, later, hsilent, hpursue⟩
  · rw [hpursue]
    refine ⟨by simp [closing, TraceEnd.message?, hnone], iff_of_false nofun hfound, ?_, ?_⟩
    · rintro (hending | ⟨candidates, hending⟩)
      · cases hending
      · cases hending
    · intro other
      constructor
      · intro hending
        cases hending
        exact ⟨stage, hselected, hloses⟩
      · rintro ⟨chosen, hother, _⟩
        rw [hsole other chosen hother]
        rfl
  · rw [hpursue]
    refine reports_of_silent hsilent (by simp [hnone]) hfound ?_
    intro other chosen hother hloses
    rw [hsole other chosen hother] at hloses
    exact hkept later hloses

theorem Loses.unknown {endpoint : Endpoint} {later : Moment}
    (hloses : Loses tracer codebase endpoint moment later) (hlive : later.cancelled = false) :
    ∃ index indexed, codebase.index tracer.guard moment = (.ok index, indexed) ∧
      ∀ root others,
        ((codebase.oracle index).prepare endpoint.location.file endpoint.location.position
          ()).1.verdict "prepare_call_hierarchy" tracer.guard.timeout ≠ .ok (root :: others) := by
  rcases hloses with ⟨index, indexed, hindex, _, answer, hanswer, hnone⟩
  refine ⟨index, indexed, hindex, fun root others hverdict => hnone root others ?_⟩
  rw [← hverdict, ← tracer.guard.verdict_of_live "prepare_call_hierarchy" _ indexed
    (by rw [hanswer]; exact hlive), hanswer]

/-- The one message that can be late is about an unknown handler. -/
theorem Reports.late_iff {trace : Trace}
    (hreports : Reports tracer codebase request moment trace) :
    (∃ entry ∈ trace.transcript.messages, entry.moment.cancelled = true) ↔
      (∃ endpoint, trace.ending = .unknownHandler endpoint) ∧
        trace.moment.cancelled = true := by
  rw [hreports.messages]
  constructor
  · rintro ⟨entry, hentry, hcancelled⟩
    rcases List.mem_map.mp hentry with ⟨text, htext, rfl⟩
    have hlate : ¬ trace.moment.cancelled = false := by
      rw [hcancelled]
      exact Bool.noConfusion
    refine ⟨?_, hcancelled⟩
    cases hending : trace.ending with
    | unknownHandler endpoint =>
        exact ⟨endpoint, rfl⟩
    | noEndpoints =>
        exact absurd (hreports.live (Or.inl hending)) hlate
    | unclear candidates =>
        exact absurd (hreports.live (Or.inr ⟨candidates, hending⟩)) hlate
    | drawn endpoint tree =>
        rw [hending] at htext
        cases htext
    | cancelled =>
        rw [hending] at htext
        cases htext
    | failed failure =>
        rw [hending] at htext
        cases htext
  · rintro ⟨⟨endpoint, hending⟩, hcancelled⟩
    rw [hending]
    exact ⟨_, List.mem_cons_self, hcancelled⟩

variable (tracer codebase request moment)

/-- What a trace writes follows from how it ends, and how it ends from what its stages come
to. -/
theorem reports_run :
    Reports tracer codebase request moment (run tracer codebase request moment) := by
  have hresolution := Resolution.run_notFound_or_concludes tracer.guard tracer.assistant request
    (codebase.endpoints tracer.options tracer.guard moment).1
    (codebase.endpoints tracer.options tracer.guard moment).2
  have hresolved : resolved tracer codebase request moment = Resolution.run tracer.guard
      tracer.assistant request (codebase.endpoints tracer.options tracer.guard moment).1
      (codebase.endpoints tracer.options tracer.guard moment).2 := rfl
  rw [← hresolved] at hresolution
  rcases hresolution with ⟨hnothing, hlive, hsettled⟩ | ⟨hfound, hconcludes⟩
  · rw [hsettled] at hresolved
    simp only [run, ← hresolved]
    refine ⟨by simp [closing, TraceEnd.message?, Resolution.opening],
      iff_of_true rfl ⟨hnothing, hlive⟩, fun _ => hlive, fun endpoint => iff_of_false nofun ?_⟩
    rintro ⟨stage, hselected, _⟩
    rw [hsettled] at hselected
    cases hselected
  · generalize hsettled : resolved tracer codebase request moment = settled at hconcludes
    rw [hsettled] at hresolved
    cases hconcludes with
    | selected hnone =>
        exact reports_of_selected (by rw [hsettled]) (by rw [hsettled]; exact hnone) hfound
    | @asked progress hlive hnone =>
        simp only [run, ← hresolved]
        refine ⟨by simp [TraceEnd.message?, Resolution.Progress.tell, hnone],
          iff_of_false nofun hfound, fun _ => hlive, fun endpoint => iff_of_false nofun ?_⟩
        rintro ⟨stage, hselected, _⟩
        rw [hsettled] at hselected
        cases hselected
    | cancelled hnone =>
        simp only [run, ← hresolved]
        refine reports_of_silent (fun _ _ => rfl) (by simp [hnone]) hfound ?_
        intro endpoint stage hselected
        rw [hsettled] at hselected
        cases hselected

/-- All that a trace writes after a cancellation is that a handler is not known.  In a live
run it only writes this if the oracle does not know the handler. -/
theorem messages_unless_late :
    Reports tracer codebase request moment (run tracer codebase request moment) ∧
    (∀ endpoint, (run tracer codebase request moment).ending = .unknownHandler endpoint →
      (run tracer codebase request moment).moment.cancelled = false →
        ∃ index indexed,
          codebase.index tracer.guard
            (resolved tracer codebase request moment).progress.moment = (.ok index, indexed) ∧
          ∀ root others,
            ((codebase.oracle index).prepare endpoint.location.file endpoint.location.position
              ()).1.verdict "prepare_call_hierarchy" tracer.guard.timeout ≠
                .ok (root :: others)) ∧
    ((∃ entry ∈ (run tracer codebase request moment).transcript.messages,
        entry.moment.cancelled = true) ↔
      (∃ endpoint, (run tracer codebase request moment).ending = .unknownHandler endpoint) ∧
        (run tracer codebase request moment).moment.cancelled = true) := by
  have hreports := reports_run tracer codebase request moment
  refine ⟨hreports, fun endpoint hending hlive => ?_, hreports.late_iff⟩
  rcases (hreports.unknownHandler endpoint).mp hending with ⟨_, _, hloses⟩
  exact hloses.unknown hlive

end

/-!
## A cancellation at the end of indexing
-/

def unassisted : Tracer where
  options := ⟨.standard, 5, 1⟩
  limits := ⟨6, 512⟩
  guard := ⟨1000, none⟩
  assistant := none

def nestedSource : Java.Source :=
  ⟨⟨"b/C.java"⟩, Extraction.nestedTree⟩

def interrupted : Codebase where
  root := ⟨"."⟩
  corpus := Discovery.copies [nestedSource.file]
  text _ := .immediate (.ok Extraction.nestedControllers.toList)
  callables _ _ := ⟨[.cancel], .ok (CallIndex.ofSources [nestedSource])⟩
  oracle := CallIndex.oracle

theorem resolved_interrupted :
    (resolved unassisted interrupted "GET /a" .start).resolution =
        .selected (Extraction.nestedEndpoint nestedSource.file) .directMatch ∧
      (resolved unassisted interrupted "GET /a" .start).progress.moment = ⟨30, false⟩ ∧
      (resolved unassisted interrupted "GET /a" .start).progress.transcript = [] := by
  refine ⟨by cbv, by cbv, by cbv⟩

theorem prepare_nestedSource :
    ∃ identity,
      (CallIndex.merged [nestedSource]).prepare nestedSource.file ⟨2, 25⟩ = [identity] ∧
        identity.name = "f" := by
  have hdistinct : Java.Source.Distinct [nestedSource] := List.pairwise_singleton _ _
  have hnames : ∀ source ∈ [nestedSource], source.NamesApart := by
    intro source hsource
    cases List.mem_singleton.mp hsource
    exact Extraction.namesApart_nestedTree _
  have hholds : ∀ callable, callable ∈ (CallIndex.merged [nestedSource]).callables.toList ↔
      ∃ source ∈ [nestedSource], callable ∈ source.callables := by
    intro callable
    rw [CallIndex.callables_merged, List.mem_flatMap]
  have hdeclared : (some "A", ⟨"f", .method, ⟨⟨2, 2⟩, ⟨2, 31⟩⟩, ⟨⟨2, 25⟩, ⟨2, 26⟩⟩, []⟩) ∈
      Symbol.callablesIn none (Java.symbols nestedSource.tree) :=
    List.mem_cons_self
  rcases CallIndex.prepare_of_declared hdistinct hnames hholds List.mem_cons_self hdeclared with
    ⟨identity, hprepare, hname, _⟩
  exact ⟨identity, hprepare, hname⟩

/-- The handler is in the index, and the cancelled run says that it is not known. -/
theorem late_message_interrupted :
    (run unassisted interrupted "GET /a" .start).ending =
        .unknownHandler (Extraction.nestedEndpoint nestedSource.file) ∧
      (run unassisted interrupted "GET /a" .start).transcript.messages =
        [⟨⟨30, true⟩, .markdown
          "Could not resolve the call hierarchy of \x60f\x60 at b/C.java:3:26."⟩] ∧
      interrupted.index unassisted.guard
          (resolved unassisted interrupted "GET /a" .start).progress.moment =
        (.ok (CallIndex.merged [nestedSource]), ⟨30, true⟩) ∧
      ∃ identity,
        (CallIndex.merged [nestedSource]).prepare nestedSource.file ⟨2, 25⟩ = [identity] ∧
          identity.name = "f" := by
  rcases resolved_interrupted with ⟨hselected, hmoment, htranscript⟩
  have hindex : interrupted.index unassisted.guard ⟨30, false⟩ =
      (.ok (CallIndex.merged [nestedSource]), ⟨30, true⟩) := rfl
  have hrun : run unassisted interrupted "GET /a" .start =
      pursue unassisted interrupted (Extraction.nestedEndpoint nestedSource.file) ⟨30, false⟩
        [⟨.start, .progress discoveryNotice⟩] := by
    rw [run_of_selected hselected, hmoment, htranscript]
  rw [hrun, hmoment]
  refine ⟨rfl, rfl, hindex, prepare_nestedSource⟩

end Trace
end EndpointTrace
