import EndpointTrace.Proofs.Resolution.Decision

/-!
# What a cancelled resolution says

A resolution looks for a cancellation before each of its stages and says nothing more once it
has found one.  It does not look again while it judges what the assistant has answered.  So
there is one thing that can be said too late: an assistant that cancels the run itself and
still answers, with something that settles nothing, makes the resolution explain this before
it ends.  In all other cases everything is said before the run is cancelled, whoever cancels
it and when.
-/

namespace EndpointTrace

theorem Transcript.silent_append {first second : Transcript} :
    Transcript.Silent (first ++ second) ↔
      Transcript.Silent first ∧ Transcript.Silent second :=
  List.forall_mem_append

theorem Transcript.silent_singleton {entry : TranscriptEntry} :
    Transcript.Silent [entry] ↔ entry.moment.cancelled = false :=
  List.forall_mem_singleton

namespace Resolution

/-!
## Answers that settle nothing
-/

def explanation? (count : Nat) : Except Failure String → Option String
  | .ok text => (Choice.ofReply text.toList count).objection? count
  | .error failure => if failure.isCancelled then none else some unreachable

theorem judgeReply_of_explanation (progress : Progress) {reply : Except Failure String}
    {reason : String} (hreason : explanation? progress.candidates.length reply = some reason) :
    judgeReply reply progress =
      .handedOn (progress.tell (.progress (failureNotice reason))) := by
  cases reply with
  | error failure =>
      rw [explanation?] at hreason
      split at hreason
      · cases hreason
      · rename_i hother
        cases hreason
        rw [judgeReply, if_neg hother]
  | ok text =>
      rw [explanation?] at hreason
      simp only [judgeReply, hreason]

theorem progress_judgeReply (progress : Progress) {reply : Except Failure String}
    (hnone : explanation? progress.candidates.length reply = none) :
    (judgeReply reply progress).progress = progress := by
  rcases judgeReply_cases reply progress with
    ⟨_, _, _, _, _, _, hjudged⟩ | ⟨text, reason, rfl, hreason, _⟩ |
    ⟨failure, rfl, hother, _⟩ | ⟨_, _, _, hjudged⟩
  · rw [hjudged]
    rfl
  · rw [explanation?, hreason] at hnone
    cases hnone
  · rw [explanation?, hother] at hnone
    cases hnone
  · rw [hjudged]
    rfl

def Progress.consulted (progress : Progress) (asked : Assistant) (request : String)
    (later : Moment) : Progress where
  candidates := progress.candidates
  moment := later
  transcript := progress.transcript ++ [⟨progress.moment,
    .progress (askingNotice asked.model progress.candidates.length)⟩]
  conversations := progress.conversations ++ [conversation request progress.candidates]

section

variable (guard : Guard) (assistant : Option Assistant) (request : String)

/-- The assistant is asked at this point, and when its answer comes, which settles nothing,
the run has been cancelled. -/
def AnsweredLate (progress : Progress) (later : Moment) (reason : String) : Prop :=
  ∃ asked reply, assistant = some asked ∧
    guard.run "ask" (asked.reply (conversation request progress.candidates))
      progress.moment = (reply, later) ∧
    later.cancelled = true ∧ explanation? progress.candidates.length reply = some reason

/-- The points of a resolution at which a stage is about to begin, each with the stages that
are left. -/
inductive Reaches (start : Progress) : List Stage → Progress → Prop where
  | start : Reaches start Stage.all start
  | next {stage : Stage} {later : List Stage} {progress next : Progress}
      (hreached : Reaches start (stage :: later) progress)
      (hlive : progress.moment.cancelled = false)
      (hhanded : perform guard assistant request stage progress = .handedOn next) :
      Reaches start later next

end

section

variable {guard : Guard} {assistant : Option Assistant} {request : String}
  {progress : Progress}

/-!
## One stage
-/

theorem perform_of_answered {asked : Assistant} {reply : Except Failure String} {later : Moment}
    (hanswered : guard.run "ask" (asked.reply (conversation request progress.candidates))
      progress.moment = (reply, later)) :
    perform guard (some asked) request .assistant progress =
      judgeReply reply (progress.consulted asked request later) := by
  rw [perform_assistant, hanswered]
  rfl

theorem perform_of_answeredLate {later : Moment} {reason : String}
    (hlate : AnsweredLate guard assistant request progress later reason) :
    ∃ next notice, perform guard assistant request .assistant progress = .handedOn next ∧
      next.moment = later ∧
      next.transcript = progress.transcript ++ [⟨progress.moment, notice⟩] ++
        [⟨later, .progress (failureNotice reason)⟩] := by
  rcases hlate with ⟨asked, reply, rfl, hanswered, _, hreason⟩
  rw [perform_of_answered hanswered,
    judgeReply_of_explanation (progress.consulted asked request later) hreason]
  exact ⟨_, _, rfl, rfl, rfl⟩

theorem silent_perform (hlive : progress.moment.cancelled = false)
    (hsilent : progress.transcript.Silent) (stage : Stage) :
    (perform guard assistant request stage progress).progress.transcript.Silent ∨
      stage = .assistant ∧
        ∃ later reason, AnsweredLate guard assistant request progress later reason := by
  have htold : ∀ notice, (progress.tell notice).transcript.Silent := fun notice =>
    Transcript.silent_append.mpr ⟨hsilent, Transcript.silent_singleton.mpr hlive⟩
  cases stage with
  | trivial =>
      left
      rw [perform, trivialStage]
      split
      · exact hsilent
      · rw [progress_settleBy]
        exact hsilent
  | directMatch =>
      left
      rw [perform, progress_settleBy]
      exact hsilent
  | keywordMatch =>
      left
      rw [perform, keywordStage, progress_settleBy]
      exact hsilent
  | clarification =>
      exact Or.inl (htold _)
  | assistant =>
      cases assistant with
      | none =>
          exact Or.inl hsilent
      | some asked =>
          cases hanswered : guard.run "ask"
              (asked.reply (conversation request progress.candidates)) progress.moment with
          | mk reply later =>
              rw [perform_of_answered hanswered]
              cases hreason : explanation? progress.candidates.length reply with
              | none =>
                  left
                  rw [progress_judgeReply (progress.consulted asked request later) hreason]
                  exact htold _
              | some reason =>
                  cases hcancelled : later.cancelled with
                  | false =>
                      left
                      rw [judgeReply_of_explanation (progress.consulted asked request later)
                        hreason]
                      exact Transcript.silent_append.mpr
                        ⟨htold _, Transcript.silent_singleton.mpr hcancelled⟩
                  | true =>
                      exact Or.inr ⟨rfl, later, reason, asked, reply, rfl, hanswered,
                        hcancelled, hreason⟩

/-!
## The whole resolution
-/

theorem Reaches.follow_eq {start : Progress} {stages : List Stage}
    (hreached : Reaches guard assistant request start stages progress) :
    follow guard assistant request Stage.all start =
      follow guard assistant request stages progress := by
  induction hreached with
  | start =>
      rfl
  | next _ hlive hhanded ih =>
      rw [ih, follow_of_live hlive, hhanded]

theorem Reaches.suffix {start : Progress} {stages : List Stage}
    (hreached : Reaches guard assistant request start stages progress) :
    stages <:+ Stage.all := by
  induction hreached with
  | start =>
      exact List.suffix_rfl
  | next _ _ _ ih =>
      exact (List.suffix_cons _ _).trans ih

theorem Reaches.after_assistant {start : Progress} {later : List Stage}
    (hreached : Reaches guard assistant request start (.assistant :: later) progress) :
    later = [.clarification] := by
  have hsuffix := hreached.suffix
  simp only [Stage.all, List.suffix_cons_iff, List.cons.injEq, reduceCtorEq, false_and,
    true_and, false_or, List.suffix_nil, or_false] at hsuffix
  exact hsuffix

theorem Reaches.silent {start : Progress} (hstart : start.transcript.Silent)
    {stages : List Stage} (hreached : Reaches guard assistant request start stages progress)
    (hlive : progress.moment.cancelled = false) : progress.transcript.Silent := by
  induction hreached with
  | start =>
      exact hstart
  | @next stage later progress next _ hbefore hhanded ih =>
      rcases silent_perform hbefore (ih hbefore) stage with hsilent | ⟨rfl, later, reason, hlate⟩
      · rw [hhanded] at hsilent
        exact hsilent
      · rcases perform_of_answeredLate hlate with ⟨late, notice, hperform, hmoment, _⟩
        rw [hhanded] at hperform
        cases hperform
        rcases hlate with ⟨_, _, _, _, hcancelled, _⟩
        rw [hmoment, hcancelled] at hlive
        cases hlive

/-- From a point on where all has been said in time, all is said in time or there is a late
answer. -/
theorem Reaches.silent_or_late {start : Progress} {stages : List Stage}
    (hreached : Reaches guard assistant request start stages progress)
    (hsilent : progress.transcript.Silent) :
    (follow guard assistant request stages progress).progress.transcript.Silent ∨
      ∃ asking later reason,
        Reaches guard assistant request start [.assistant, .clarification] asking ∧
        asking.moment.cancelled = false ∧
        AnsweredLate guard assistant request asking later reason := by
  induction stages generalizing progress with
  | nil =>
      exact Or.inl hsilent
  | cons stage later ih =>
      cases hcancelled : progress.moment.cancelled with
      | true =>
          rw [follow_of_cancelled hcancelled]
          exact Or.inl hsilent
      | false =>
          rw [follow_of_live hcancelled]
          rcases silent_perform hcancelled hsilent stage with hstage | ⟨rfl, late, reason, hlate⟩
          · cases hend : perform guard assistant request stage progress with
            | settled resolution next =>
                rw [hend] at hstage
                exact Or.inl hstage
            | handedOn next =>
                rw [hend] at hstage
                exact ih (hreached.next hcancelled hend) hstage
          · rw [hreached.after_assistant] at hreached
            exact Or.inr ⟨progress, late, reason, hreached, hcancelled, hlate⟩

theorem Reaches.follow_of_late {start : Progress}
    (hreached : Reaches guard assistant request start [.assistant, .clarification] progress)
    (hlive : progress.moment.cancelled = false) {later : Moment} {reason : String}
    (hlate : AnsweredLate guard assistant request progress later reason) :
    ∃ next notice, follow guard assistant request Stage.all start = ⟨.cancelled, next⟩ ∧
      next.transcript = progress.transcript ++ [⟨progress.moment, notice⟩] ++
        [⟨later, .progress (failureNotice reason)⟩] := by
  rcases perform_of_answeredLate hlate with ⟨next, notice, hperform, rfl, htranscript⟩
  refine ⟨next, notice, ?_, htranscript⟩
  rcases hlate with ⟨_, _, _, _, hcancelled, _⟩
  rw [hreached.follow_eq, follow_of_live hlive, hperform]
  exact follow_of_cancelled hcancelled _ _

theorem cancelsThenAnswers_of_answeredLate (hlive : progress.moment.cancelled = false)
    {later : Moment} {reason : String}
    (hlate : AnsweredLate guard assistant request progress later reason) :
    ∃ asked messages, assistant = some asked ∧ (asked.reply messages).CancelsThenAnswers := by
  rcases hlate with ⟨asked, reply, hasked, hanswered, hcancelled, hreason⟩
  refine ⟨asked, conversation request progress.candidates, hasked, ?_⟩
  apply guard.cancelsThenAnswers_of_run "ask" _ hlive
  · rw [hanswered]
    exact hcancelled
  · rw [hanswered]
    rintro rfl
    cases hreason

end

section

variable (guard : Guard) (assistant : Option Assistant) (query : String)
  (endpoints : List Endpoint) (moment : Moment)

def opening : Progress :=
  ⟨Endpoint.sort endpoints, moment, [], []⟩

def SpeaksLate : Prop :=
  ∃ progress later reason,
    Reaches guard assistant (Text.trimmed query) (opening endpoints moment)
      [.assistant, .clarification] progress ∧
    progress.moment.cancelled = false ∧
    AnsweredLate guard assistant (Text.trimmed query) progress later reason

/-- How a resolution ends whose assistant has answered late: what it says of the answer is the
last thing it says, it is cancelled nevertheless, and it was the assistant who has cancelled
it. -/
structure EndsLate (assistant : Option Assistant) (run : Run) : Prop where
  cancelled : run.resolution = .cancelled
  lastSaid : ∃ said later reason,
    run.progress.transcript = said ++ [⟨later, .progress (failureNotice reason)⟩] ∧
      Transcript.Silent said ∧ later.cancelled = true
  byAssistant : ∃ asked messages, assistant = some asked ∧
    (asked.reply messages).CancelsThenAnswers

variable {guard assistant query endpoints moment}

theorem silent_opening : (opening endpoints moment).transcript.Silent := by
  intro entry hentry
  cases hentry

theorem SpeaksLate.endsLate (hspeaks : SpeaksLate guard assistant query endpoints moment) :
    EndsLate assistant (run guard assistant query endpoints moment) := by
  rcases hspeaks with ⟨progress, later, reason, hreached, hlive, hlate⟩
  rcases hreached.follow_of_late hlive hlate with ⟨next, notice, hend, htranscript⟩
  have hrun : run guard assistant query endpoints moment = ⟨.cancelled, next⟩ := hend
  rw [hrun]
  refine ⟨rfl, ⟨_, later, reason, htranscript, ?_, ?_⟩,
    cancelsThenAnswers_of_answeredLate hlive hlate⟩
  · exact Transcript.silent_append.mpr
      ⟨hreached.silent silent_opening hlive, Transcript.silent_singleton.mpr hlive⟩
  · rcases hlate with ⟨_, _, _, _, hcancelled, _⟩
    exact hcancelled

theorem EndsLate.not_silent {run : Run} (hend : EndsLate assistant run) :
    ¬ run.progress.transcript.Silent := by
  rcases hend.lastSaid with ⟨said, later, reason, htranscript, _, hcancelled⟩
  rw [htranscript, Transcript.silent_append, Transcript.silent_singleton, hcancelled]
  rintro ⟨_, hlive⟩
  cases hlive

variable (guard assistant query endpoints moment)

/-- All is said before the run is cancelled, unless the assistant answers late.  A resolution
that is found cancelled where a stage would begin ends there and is cancelled. -/
theorem silent_unless_late :
    ((run guard assistant query endpoints moment).progress.transcript.Silent ↔
      ¬ SpeaksLate guard assistant query endpoints moment) ∧
    (SpeaksLate guard assistant query endpoints moment →
      EndsLate assistant (run guard assistant query endpoints moment)) ∧
    ∀ stage later progress,
      Reaches guard assistant (Text.trimmed query) (opening endpoints moment)
        (stage :: later) progress →
      progress.moment.cancelled = true →
      run guard assistant query endpoints moment = ⟨.cancelled, progress⟩ := by
  refine ⟨⟨?_, ?_⟩, SpeaksLate.endsLate, ?_⟩
  · intro hsilent hspeaks
    exact hspeaks.endsLate.not_silent hsilent
  · intro hnone
    rcases Reaches.start.silent_or_late silent_opening with hsilent | hspeaks
    · exact hsilent
    · exact absurd hspeaks hnone
  · intro stage later progress hreached hcancelled
    calc run guard assistant query endpoints moment
        = follow guard assistant (Text.trimmed query) (stage :: later) progress :=
          hreached.follow_eq
      _ = ⟨.cancelled, progress⟩ := follow_of_cancelled hcancelled stage later

end

theorem silent_unless_late_steadfast :
    (run ⟨1000, some 20⟩ (some steadfast) "something" shop .start).progress.transcript.Silent ∧
      (run ⟨1000, some 20⟩ (some steadfast) "something" shop .start).progress.transcript ≠ [] ∧
      (run ⟨1000, none⟩ (some steadfast) "something" shop ⟨7, true⟩) =
        ⟨.cancelled, opening shop ⟨7, true⟩⟩ := by
  rcases silent_unless_late ⟨1000, some 20⟩ (some steadfast) "something" shop .start with
    ⟨hsilent, hlate, _⟩
  refine ⟨hsilent.mpr ?_, ?_, ?_⟩
  · intro hspeaks
    rcases (hlate hspeaks).byAssistant with ⟨asked, messages, heq, before, after, hsteps, _⟩
    cases heq
    have hwaits : [Step.wait 30] = before ++ .cancel :: after := hsteps
    have hcancel : Step.cancel ∈ [Step.wait 30] := by
      rw [hwaits]
      exact List.mem_append_right before List.mem_cons_self
    exact absurd hcancel (by decide)
  · rw [run, sort_shop]
    exact List.cons_ne_nil _ _
  · exact (silent_unless_late ⟨1000, none⟩ (some steadfast) "something" shop ⟨7, true⟩).2.2
      .trivial _ _ .start rfl

/-- An assistant that cancels the run and declines all the same. -/
def hasty : Assistant where
  model := "hasty"
  ask _ := ⟨[.cancel], .ok (.ofPieces [.immediate (.ok "None")])⟩

theorem not_silent_hasty :
    (run ⟨1000, none⟩ (some hasty) "something" shop .start).progress.transcript =
        [⟨⟨0, false⟩, .progress (askingNotice "hasty" 4)⟩,
          ⟨⟨0, true⟩, .progress (failureNotice "the assistant found no single match")⟩] ∧
      ¬ (run ⟨1000, none⟩ (some hasty) "something" shop .start).progress.transcript.Silent := by
  have htranscript : (run ⟨1000, none⟩ (some hasty) "something" shop
      .start).progress.transcript =
        [⟨⟨0, false⟩, .progress (askingNotice "hasty" 4)⟩,
          ⟨⟨0, true⟩, .progress (failureNotice "the assistant found no single match")⟩] := by
    rw [run, sort_shop]
    rfl
  refine ⟨htranscript, ?_⟩
  intro hsilent
  rw [htranscript] at hsilent
  cases hsilent _ (List.mem_cons_of_mem _ List.mem_cons_self)

end Resolution
end EndpointTrace
