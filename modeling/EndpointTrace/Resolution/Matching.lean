import EndpointTrace.Route.Endpoint
import EndpointTrace.Route.Path
import EndpointTrace.Text.Matches

/-!
# Matching a request against endpoints

A request can name a route outright, or share words with one.  A match counts only if
it is the only one.
-/

namespace EndpointTrace
namespace Resolution

def sole? {α : Type} : List α → Option α
  | [x] => some x
  | _ => none

theorem sole?_eq_some_iff {α : Type} {xs : List α} {x : α} :
    sole? xs = some x ↔ xs = [x] := by
  match xs with
  | [] => simp [sole?]
  | [y] => simp [sole?]
  | y :: z :: rest => simp [sole?]

def namedRoute? (request : List Char) : Option (Method × List Char) :=
  match Text.words request with
  | [method, path] =>
      (Method.ofChars? method).map fun method => (method, RoutePath.normalizeChars path)
  | _ => none

def directMatches (request : List Char) (candidates : List Endpoint) : List Endpoint :=
  match namedRoute? request with
  | none => []
  | some (method, path) =>
      candidates.filter fun e => e.method = method ∧ e.path.toList = path

/-- Whether a request, in lower case, shares a keyword with an endpoint: one of them is
part of the other.  The root path says nothing. -/
def sharesKeyword (needle : List Char) (endpoint : Endpoint) : Bool :=
  let path := Text.lower endpoint.path.toList
  let handler := Text.lower endpoint.handler.toList
  Text.occursIn needle path || Text.occursIn needle handler
    || (path != ['/'] && Text.occursIn path needle) || Text.occursIn handler needle

def keywordHits (request : List Char) (candidates : List Endpoint) : List Endpoint :=
  if request.isEmpty then
    []
  else
    candidates.filter (sharesKeyword (Text.lower request))

/-- The candidates that remain after looking for keywords: several hits displace the
others. -/
def narrow (request : List Char) (candidates : List Endpoint) : List Endpoint :=
  let hits := keywordHits request candidates
  if 1 < hits.length then hits else candidates

end Resolution
end EndpointTrace
