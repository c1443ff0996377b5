import EndpointTrace.Assistant.Message
import EndpointTrace.Resolution.Reply
import EndpointTrace.Route.Endpoint

/-!
# Questions about endpoints

Candidates are numbered from one, in the question to the assistant as in the question
to the person.
-/

namespace EndpointTrace
namespace Resolution

def numbered (describe : Endpoint → String) (candidates : List Endpoint) : String :=
  String.join <| candidates.zipIdx.map fun (candidate, index) =>
    toString (index + 1) ++ ". " ++ describe candidate ++ "\n"

/-!
## The assistant
-/

def instruction : String :=
  "You map requests about a web application onto its HTTP endpoints. "
    ++ "Answer with a single candidate number or the word None, nothing else."

def question (request : String) (candidates : List Endpoint) : String :=
  "Request: " ++ request ++ "\n\nCandidate endpoints:\n"
    ++ numbered (fun e => e.route ++ " (handler: " ++ e.handler ++ ")") candidates
    ++ "\nReply with the number of the one endpoint the request refers to. "
    ++ "Reply None if no endpoint fits or several fit equally well."

def conversation (request : String) (candidates : List Endpoint) : List Message :=
  [⟨.system, instruction⟩, ⟨.user, question request candidates⟩]

def askingNotice (model : String) (count : Nat) : String :=
  "Asking " ++ model ++ " to pick among " ++ toString count ++ " endpoints"

def Choice.objection? (count : Nat) : Choice → Option String
  | candidate _ => none
  | declined => some "the assistant found no single match"
  | outOfRange number =>
      some ("the assistant answered " ++ toString number ++ " but there are "
        ++ toString count ++ " candidates")
  | unparseable text =>
      some ("the assistant answered '" ++ String.ofList text ++ "' instead of a number")

def unreachable : String := "the assistant could not be reached"

def failureNotice (reason : String) : String :=
  "Could not pick an endpoint automatically: " ++ reason

/-!
## The person
-/

def clarification (request : String) (candidates : List Endpoint) : String :=
  (if request.isEmpty then "Several endpoints are available."
    else "Several endpoints could match **" ++ request ++ "**.")
    ++ " Which one did you mean?\n\n"
    ++ numbered (fun e => "\x60" ++ e.route ++ "\x60 (" ++ e.handler ++ " in "
        ++ e.location.file.text ++ ")") candidates

end Resolution
end EndpointTrace
