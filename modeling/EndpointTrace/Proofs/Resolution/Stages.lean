import EndpointTrace.Proofs.Resolution.Matching
import EndpointTrace.Proofs.Resolution.Reply
import EndpointTrace.Proofs.Timing.Delivery
import EndpointTrace.Resolution.Resolver

/-!
# How a request is settled

The ways in which a resolution can end that nobody cancels are listed here, each with what
has led to it, what the assistant was asked and what the person was told.  Every resolution
ends in one of them.
-/

namespace EndpointTrace
namespace Resolution

def shortlist (request : String) (candidates : List Endpoint) : List Endpoint :=
  narrow request.toList candidates

/-- There are several candidates, and the request says too little or too much to tell one of
them from the others. -/
def Undecided (request : String) (candidates : List Endpoint) : Prop :=
  2 ≤ candidates.length ∧ (∀ endpoint, ¬ Sole (Names request.toList) candidates endpoint) ∧
    ∀ endpoint, ¬ Sole (Hit request.toList) candidates endpoint

def answer (timeout : Nat) (assistant : Assistant) (request : String)
    (candidates : List Endpoint) : Except Failure String :=
  (assistant.reply (conversation request candidates)).verdict "ask" timeout

section

variable (assistant : Option Assistant) (timeout : Nat) (request : String)
  (candidates : List Endpoint)

inductive Consults : Resolution → List (List Message) → List Notice → Prop where
  | unasked (hnone : assistant = none) :
      Consults (.needsClarification candidates) []
        [.markdown (clarification request candidates)]
  | chosen {asked : Assistant} {reply : String} {index : Nat} {endpoint : Endpoint}
      (hasked : assistant = some asked)
      (hreply : answer timeout asked request candidates = .ok reply)
      (hnumber : StandsFor reply.toList (index + 1))
      (hendpoint : candidates[index]? = some endpoint) :
      Consults (.selected endpoint .assistant) [conversation request candidates]
        [.progress (askingNotice asked.model candidates.length)]
  | objected {asked : Assistant} {reply reason : String} (hasked : assistant = some asked)
      (hreply : answer timeout asked request candidates = .ok reply)
      (hreason : (Choice.ofReply reply.toList candidates.length).objection?
        candidates.length = some reason) :
      Consults (.needsClarification candidates) [conversation request candidates]
        [.progress (askingNotice asked.model candidates.length),
          .progress (failureNotice reason), .markdown (clarification request candidates)]
  | failed {asked : Assistant} {failure : Failure} (hasked : assistant = some asked)
      (hfailed : answer timeout asked request candidates = .error failure)
      (hother : failure.isCancelled = false) :
      Consults (.needsClarification candidates) [conversation request candidates]
        [.progress (askingNotice asked.model candidates.length),
          .progress (failureNotice unreachable),
          .markdown (clarification request candidates)]
  | withdrawn {asked : Assistant} {failure : Failure} (hasked : assistant = some asked)
      (hfailed : answer timeout asked request candidates = .error failure)
      (hcancelled : failure.isCancelled = true) :
      Consults .cancelled [conversation request candidates]
        [.progress (askingNotice asked.model candidates.length)]

inductive Settles : Resolution → List (List Message) → List Notice → Prop where
  | nothing (hcandidates : candidates = []) : Settles .notFound [] []
  | only {endpoint : Endpoint} (hcandidates : candidates = [endpoint]) :
      Settles (.selected endpoint .trivial) [] []
  | direct {endpoint : Endpoint} (hseveral : 2 ≤ candidates.length)
      (hnamed : Sole (Names request.toList) candidates endpoint) :
      Settles (.selected endpoint .directMatch) [] []
  | keyword {endpoint : Endpoint} (hseveral : 2 ≤ candidates.length)
      (hunnamed : ∀ other, ¬ Sole (Names request.toList) candidates other)
      (hhit : Sole (Hit request.toList) candidates endpoint) :
      Settles (.selected endpoint .keywordMatch) [] []
  | consulted {resolution : Resolution} {conversations : List (List Message)}
      {notices : List Notice} (hundecided : Undecided request candidates)
      (hconsults : Consults assistant timeout request (shortlist request candidates)
        resolution conversations notices) :
      Settles resolution conversations notices

end

def Run.Ends (run : Run) (ways : Resolution → List (List Message) → List Notice → Prop) :
    Prop :=
  ways run.resolution run.progress.conversations run.progress.transcript.notices

/-!
## Stage by stage
-/

theorem Choice.objection?_eq_none_iff {count : Nat} {choice : Choice} :
    choice.objection? count = none ↔ ∃ index, choice = candidate index := by
  cases choice with
  | candidate index =>
      exact ⟨fun _ => ⟨index, rfl⟩, fun _ => rfl⟩
  | declined =>
      simp [objection?]
  | outOfRange number =>
      simp [objection?]
  | unparseable text =>
      simp [objection?]

theorem judgeReply_cases (reply : Except Failure String) (progress : Progress) :
    (∃ text index endpoint, reply = .ok text ∧ StandsFor text.toList (index + 1) ∧
      progress.candidates[index]? = some endpoint ∧
      judgeReply reply progress = .settled (.selected endpoint .assistant) progress) ∨
    (∃ text reason, reply = .ok text ∧
      (Choice.ofReply text.toList progress.candidates.length).objection?
        progress.candidates.length = some reason ∧
      judgeReply reply progress =
        .handedOn (progress.tell (.progress (failureNotice reason)))) ∨
    (∃ failure, reply = .error failure ∧ failure.isCancelled = false ∧
      judgeReply reply progress =
        .handedOn (progress.tell (.progress (failureNotice unreachable)))) ∨
    ∃ failure, reply = .error failure ∧ failure.isCancelled = true ∧
      judgeReply reply progress = .settled .cancelled progress := by
  cases reply with
  | error failure =>
      cases hkind : failure.isCancelled with
      | false =>
          exact Or.inr (Or.inr (Or.inl ⟨failure, rfl, hkind, by simp [judgeReply, hkind]⟩))
      | true =>
          exact Or.inr (Or.inr (Or.inr ⟨failure, rfl, hkind, by simp [judgeReply, hkind]⟩))
  | ok text =>
      cases hobjection : (Choice.ofReply text.toList progress.candidates.length).objection?
          progress.candidates.length with
      | some reason =>
          exact Or.inr (Or.inl ⟨text, reason, rfl, hobjection, by
            simp only [judgeReply, hobjection]⟩)
      | none =>
          rcases Choice.objection?_eq_none_iff.mp hobjection with ⟨index, hchoice⟩
          rcases Choice.ofReply_eq_candidate_iff.mp hchoice with ⟨hindex, hnumber⟩
          refine Or.inl ⟨text, index, progress.candidates[index], rfl, hnumber,
            List.getElem?_eq_getElem hindex, ?_⟩
          simp only [judgeReply, hobjection]
          simp only [hchoice, List.getElem?_eq_getElem hindex, settleBy]

section

variable {guard : Guard} {assistant : Option Assistant} {request : String}
  {progress : Progress}

theorem follow_of_live (hlive : progress.moment.cancelled = false) (stage : Stage)
    (later : List Stage) :
    follow guard assistant request (stage :: later) progress =
      match perform guard assistant request stage progress with
      | .settled resolution progress => ⟨resolution, progress⟩
      | .handedOn progress => follow guard assistant request later progress := by
  rw [follow, hlive]
  rfl

theorem follow_of_cancelled (hcancelled : progress.moment.cancelled = true) (stage : Stage)
    (later : List Stage) :
    follow guard assistant request (stage :: later) progress = ⟨.cancelled, progress⟩ := by
  rw [follow, if_pos hcancelled]

theorem live_of_follow_live {stages : List Stage}
    (hend : (follow guard assistant request stages progress).progress.moment.cancelled
      = false) : progress.moment.cancelled = false := by
  cases stages with
  | nil =>
      exact hend
  | cons stage later =>
      cases hcancelled : progress.moment.cancelled with
      | false =>
          rfl
      | true =>
          rw [follow, if_pos hcancelled, hcancelled] at hend
          cases hend

theorem follow_clarification (hlive : progress.moment.cancelled = false) :
    follow guard assistant request [.clarification] progress =
      ⟨.needsClarification progress.candidates,
        progress.tell (.markdown (clarification request progress.candidates))⟩ :=
  follow_of_live hlive _ _

theorem perform_assistant (asked : Assistant) :
    perform guard (some asked) request .assistant progress =
      judgeReply
        (guard.run "ask" (asked.reply (conversation request progress.candidates))
          progress.moment).1
        ⟨progress.candidates,
          (guard.run "ask" (asked.reply (conversation request progress.candidates))
            progress.moment).2,
          progress.transcript ++ [⟨progress.moment,
            .progress (askingNotice asked.model progress.candidates.length)⟩],
          progress.conversations ++ [conversation request progress.candidates]⟩ :=
  rfl

theorem consults_follow {candidates : List Endpoint} {moment : Moment}
    (hend : (follow guard assistant request [.assistant, .clarification]
      ⟨candidates, moment, [], []⟩).progress.moment.cancelled = false) :
    (follow guard assistant request [.assistant, .clarification]
      ⟨candidates, moment, [], []⟩).Ends
        (Consults assistant guard.timeout request candidates) := by
  have hlive : moment.cancelled = false := live_of_follow_live hend
  rw [follow_of_live hlive] at hend ⊢
  cases assistant with
  | none =>
      have hpassed : perform guard none request .assistant ⟨candidates, moment, [], []⟩ =
          .handedOn ⟨candidates, moment, [], []⟩ :=
        rfl
      rw [hpassed]
      dsimp only
      rw [follow_clarification hlive]
      exact .unasked rfl
  | some asked =>
      rw [perform_assistant] at hend ⊢
      generalize hanswered : guard.run "ask" (asked.reply (conversation request candidates))
        moment = answered at hend ⊢
      rcases answered with ⟨reply, later⟩
      -- The reply is the answer if the run is live when it comes, and whatever follows from
      -- the reply, the run ends at that moment.
      have hanswer : later.cancelled = false →
          answer guard.timeout asked request candidates = reply := by
        intro hlater
        have hverdict := guard.verdict_of_live "ask"
          (asked.reply (conversation request candidates)) moment
        rw [hanswered] at hverdict
        exact (hverdict hlater).symm
      rcases judgeReply_cases reply
        ⟨candidates, later,
          [] ++ [⟨moment, .progress (askingNotice asked.model candidates.length)⟩],
          [] ++ [conversation request candidates]⟩ with
        ⟨text, index, endpoint, rfl, hnumber, hendpoint, hjudged⟩ |
        ⟨text, reason, rfl, hreason, hjudged⟩ | ⟨failure, rfl, hother, hjudged⟩ |
        ⟨failure, rfl, hcancelled, hjudged⟩
      · rw [hjudged] at hend ⊢
        exact .chosen rfl (hanswer hend) hnumber hendpoint
      · rw [hjudged] at hend ⊢
        have hlater := live_of_follow_live hend
        dsimp only
        rw [follow_clarification hlater]
        exact .objected rfl (hanswer hlater) hreason
      · rw [hjudged] at hend ⊢
        have hlater := live_of_follow_live hend
        dsimp only
        rw [follow_clarification hlater]
        exact .failed rfl (hanswer hlater) hother
      · rw [hjudged] at hend ⊢
        exact .withdrawn rfl (hanswer hend) hcancelled

end

/-!
## The whole cascade

The first three stages need no time and ask nobody, so what they come to follows from the
request and the candidates alone: a run is settled at one of them, or it is handed on to the
assistant and the person with the candidates that are left.  This is so for every run, also
for one that is cancelled later.
-/

def Progress.narrowed (progress : Progress) (request : String) : Progress :=
  { progress with candidates := shortlist request progress.candidates }

section

variable (guard : Guard) (assistant : Option Assistant) (request : String)

/-- The run that a resolution leads to, by the stages that need no time. -/
inductive Cascades (progress : Progress) : Run → Prop where
  | cancelled (hcancelled : progress.moment.cancelled = true) :
      Cascades progress ⟨.cancelled, progress⟩
  | nothing (hcandidates : progress.candidates = []) : Cascades progress ⟨.notFound, progress⟩
  | only {endpoint : Endpoint} (hcandidates : progress.candidates = [endpoint]) :
      Cascades progress ⟨.selected endpoint .trivial, progress⟩
  | direct {endpoint : Endpoint} (hseveral : 2 ≤ progress.candidates.length)
      (hnamed : Sole (Names request.toList) progress.candidates endpoint) :
      Cascades progress ⟨.selected endpoint .directMatch, progress⟩
  | keyword {endpoint : Endpoint} (hseveral : 2 ≤ progress.candidates.length)
      (hunnamed : ∀ other, ¬ Sole (Names request.toList) progress.candidates other)
      (hhit : Sole (Hit request.toList) progress.candidates endpoint) :
      Cascades progress ⟨.selected endpoint .keywordMatch, progress.narrowed request⟩
  | handedOn (hundecided : Undecided request progress.candidates) :
      Cascades progress (follow guard assistant request [.assistant, .clarification]
        (progress.narrowed request))

theorem cascades_several {progress : Progress} (hlive : progress.moment.cancelled = false)
    (hseveral : 2 ≤ progress.candidates.length) :
    Cascades guard assistant request progress
      (follow guard assistant request [.directMatch, .keywordMatch, .assistant, .clarification]
        progress) := by
  rw [follow_of_live hlive, perform]
  cases hdirect : sole? (directMatches request.toList progress.candidates) with
  | some endpoint =>
      exact .direct hseveral (sole?_directMatches.mp hdirect)
  | none =>
      have hunnamed : ∀ other, ¬ Sole (Names request.toList) progress.candidates other := by
        intro other hsole
        rw [sole?_directMatches.mpr hsole] at hdirect
        cases hdirect
      dsimp only [settleBy]
      rw [follow_of_live hlive, perform, keywordStage]
      cases hkeyword : sole? (keywordHits request.toList progress.candidates) with
      | some endpoint =>
          exact .keyword hseveral hunnamed (sole?_keywordHits.mp hkeyword)
      | none =>
          have hunhit : ∀ other, ¬ Sole (Hit request.toList) progress.candidates other := by
            intro other hsole
            rw [sole?_keywordHits.mpr hsole] at hkeyword
            cases hkeyword
          exact .handedOn ⟨hseveral, hunnamed, hunhit⟩

theorem cascades_follow (progress : Progress) :
    Cascades guard assistant request progress
      (follow guard assistant request Stage.all progress) := by
  rw [Stage.all]
  cases hcancelled : progress.moment.cancelled with
  | true =>
      rw [follow_of_cancelled hcancelled]
      exact .cancelled hcancelled
  | false =>
      rw [follow_of_live hcancelled, perform, trivialStage]
      rcases hcandidates : progress.candidates with _ | ⟨first, _ | ⟨second, rest⟩⟩
      · exact .nothing hcandidates
      · exact .only hcandidates
      · apply cascades_several guard assistant request hcancelled
        rw [hcandidates]
        exact Nat.le_add_left 2 rest.length

end

theorem settles_all {guard : Guard} {assistant : Option Assistant} {request : String}
    (candidates : List Endpoint) {moment : Moment}
    (hend : (follow guard assistant request Stage.all
      ⟨candidates, moment, [], []⟩).progress.moment.cancelled = false) :
    (follow guard assistant request Stage.all ⟨candidates, moment, [], []⟩).Ends
      (Settles assistant guard.timeout request candidates) := by
  have hcascades := cascades_follow guard assistant request ⟨candidates, moment, [], []⟩
  generalize follow guard assistant request Stage.all ⟨candidates, moment, [], []⟩ = run
    at hend hcascades ⊢
  cases hcascades with
  | cancelled hcancelled =>
      rw [hcancelled] at hend
      cases hend
  | nothing hcandidates =>
      exact .nothing hcandidates
  | only hcandidates =>
      exact .only hcandidates
  | direct hseveral hnamed =>
      exact .direct hseveral hnamed
  | keyword hseveral hunnamed hhit =>
      exact .keyword hseveral hunnamed hhit
  | handedOn hundecided =>
      exact .consulted hundecided (consults_follow hend)

theorem settles_run {guard : Guard} {assistant : Option Assistant} {query : String}
    {endpoints : List Endpoint} {moment : Moment}
    (hend : (run guard assistant query endpoints moment).progress.moment.cancelled = false) :
    (run guard assistant query endpoints moment).Ends
      (Settles assistant guard.timeout (Text.trimmed query) (Endpoint.sort endpoints)) :=
  settles_all _ hend

/-!
## Runs that nobody cancels
-/

def StageEnd.progress : StageEnd → Progress
  | settled _ progress => progress
  | handedOn progress => progress

theorem progress_settleBy (stage : Stage) (found : Option Endpoint) (progress : Progress) :
    (settleBy stage found progress).progress = progress := by
  cases found with
  | none =>
      rfl
  | some endpoint =>
      rfl

theorem moment_judgeReply (reply : Except Failure String) (progress : Progress) :
    (judgeReply reply progress).progress.moment = progress.moment := by
  rcases judgeReply_cases reply progress with
    ⟨_, _, _, _, _, _, hjudged⟩ | ⟨_, _, _, _, hjudged⟩ | ⟨_, _, _, hjudged⟩ |
    ⟨_, _, _, hjudged⟩
  · rw [hjudged]
    rfl
  · rw [hjudged]
    rfl
  · rw [hjudged]
    rfl
  · rw [hjudged]
    rfl

section

variable {guard : Guard} (hguard : guard.cancelAt = none) {assistant : Option Assistant}
  (hassistant : ∀ asked messages, assistant = some asked →
    Step.cancel ∉ (asked.reply messages).steps) (request : String)

include hguard hassistant

theorem live_perform (stage : Stage) {progress : Progress}
    (hlive : progress.moment.cancelled = false) :
    (perform guard assistant request stage progress).progress.moment.cancelled = false := by
  cases stage with
  | trivial =>
      rw [perform, trivialStage]
      split
      · exact hlive
      · rw [progress_settleBy]
        exact hlive
  | directMatch =>
      rw [perform, progress_settleBy]
      exact hlive
  | keywordMatch =>
      rw [perform, keywordStage, progress_settleBy]
      exact hlive
  | assistant =>
      cases assistant with
      | none =>
          exact hlive
      | some asked =>
          rw [perform_assistant, moment_judgeReply]
          exact guard.live_run_quiet hguard "ask" (hassistant asked _ rfl) hlive
  | clarification =>
      exact hlive

theorem live_follow (stages : List Stage) {progress : Progress}
    (hlive : progress.moment.cancelled = false) :
    (follow guard assistant request stages progress).progress.moment.cancelled = false := by
  induction stages generalizing progress with
  | nil =>
      exact hlive
  | cons stage later ih =>
      have hstage := live_perform hguard hassistant request stage hlive
      rw [follow_of_live hlive]
      generalize perform guard assistant request stage progress = stageEnd at hstage ⊢
      cases stageEnd with
      | settled resolution progress =>
          exact hstage
      | handedOn progress =>
          exact ih hstage

end

end Resolution
end EndpointTrace
