import EndpointTrace.Resolution.Matching
import EndpointTrace.Resolution.Prompt
import EndpointTrace.Timing.Guard

/-!
# Resolving a request to one endpoint

A request passes through stages, and each either settles it or hands the candidates on,
possibly fewer of them.  Nothing is guessed among several equally good matches: the
last stage asks the person.  Before every stage it is checked that the run has not been
cancelled.
-/

namespace EndpointTrace

inductive Stage where
  | trivial
  | directMatch
  | keywordMatch
  | assistant
  | clarification
  deriving DecidableEq, Repr

namespace Stage

def all : List Stage :=
  [trivial, directMatch, keywordMatch, assistant, clarification]

end Stage

inductive Resolution where
  | selected (endpoint : Endpoint) (stage : Stage)
  /-- There was nothing to choose from. -/
  | notFound
  /-- The candidates were shown to the person, who has to choose. -/
  | needsClarification (candidates : List Endpoint)
  | cancelled

namespace Resolution

def endpoint? : Resolution → Option Endpoint
  | selected endpoint _ => some endpoint
  | _ => none

/-- A resolution under way: what can still be chosen and what has happened so far. -/
structure Progress where
  candidates : List Endpoint
  moment : Moment
  transcript : Transcript
  conversations : List (List Message)

namespace Progress

def tell (progress : Progress) (notice : Notice) : Progress :=
  { progress with transcript := progress.transcript ++ [⟨progress.moment, notice⟩] }

end Progress

structure Run where
  resolution : Resolution
  progress : Progress

/-- What a stage comes to. -/
inductive StageEnd where
  | settled (resolution : Resolution) (progress : Progress)
  | handedOn (progress : Progress)

def settleBy (stage : Stage) (found : Option Endpoint) (progress : Progress) : StageEnd :=
  match found with
  | some endpoint => .settled (.selected endpoint stage) progress
  | none => .handedOn progress

def trivialStage (progress : Progress) : StageEnd :=
  match progress.candidates with
  | [] => .settled .notFound progress
  | candidates => settleBy .trivial (sole? candidates) progress

def keywordStage (request : List Char) (progress : Progress) : StageEnd :=
  settleBy .keywordMatch (sole? (keywordHits request progress.candidates))
    { progress with candidates := narrow request progress.candidates }

def judgeReply (reply : Except Failure String) (progress : Progress) : StageEnd :=
  match reply with
  | .error failure =>
      if failure.isCancelled then .settled .cancelled progress
      else .handedOn (progress.tell (.progress (failureNotice unreachable)))
  | .ok text =>
      let choice := Choice.ofReply text.toList progress.candidates.length
      match choice.objection? progress.candidates.length with
      | some reason => .handedOn (progress.tell (.progress (failureNotice reason)))
      | none =>
          match choice with
          | .candidate index => settleBy .assistant progress.candidates[index]? progress
          | _ => .handedOn progress

/-- The assistant is asked once; without one the candidates are handed on. -/
def assistantStage (guard : Guard) (assistant : Option Assistant) (request : String)
    (progress : Progress) : StageEnd :=
  match assistant with
  | none => .handedOn progress
  | some assistant =>
      let messages := conversation request progress.candidates
      let progress := progress.tell
        (.progress (askingNotice assistant.model progress.candidates.length))
      let (reply, moment) := guard.run "ask" (assistant.reply messages) progress.moment
      judgeReply reply
        { progress with
          moment := moment
          conversations := progress.conversations ++ [messages] }

def clarificationStage (request : String) (progress : Progress) : StageEnd :=
  .settled (.needsClarification progress.candidates)
    (progress.tell (.markdown (clarification request progress.candidates)))

def perform (guard : Guard) (assistant : Option Assistant) (request : String)
    (stage : Stage) (progress : Progress) : StageEnd :=
  match stage with
  | .trivial => trivialStage progress
  | .directMatch =>
      settleBy .directMatch (sole? (directMatches request.toList progress.candidates))
        progress
  | .keywordMatch => keywordStage request.toList progress
  | .assistant => assistantStage guard assistant request progress
  | .clarification => clarificationStage request progress

def follow (guard : Guard) (assistant : Option Assistant) (request : String) :
    List Stage → Progress → Run
  | [], progress => ⟨.needsClarification progress.candidates, progress⟩
  | stage :: later, progress =>
      if progress.moment.cancelled then
        ⟨.cancelled, progress⟩
      else
        match perform guard assistant request stage progress with
        | .settled resolution progress => ⟨resolution, progress⟩
        | .handedOn progress => follow guard assistant request later progress

/-- Resolves a request against endpoints, whatever their order. -/
def run (guard : Guard) (assistant : Option Assistant) (request : String)
    (endpoints : List Endpoint) (moment : Moment) : Run :=
  follow guard assistant (Text.trimmed request) Stage.all
    ⟨Endpoint.sort endpoints, moment, [], []⟩

end Resolution

end EndpointTrace
