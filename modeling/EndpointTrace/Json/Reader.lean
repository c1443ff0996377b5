import EndpointTrace.Json.Token

/-!
# Reading JSON

A reader goes through the tokens once.  It keeps the lists and objects that are open
around its place, the innermost first, and what it expects next.
-/

namespace EndpointTrace
namespace JsonReader

/-- A list or an object that is still open, with what it holds so far. -/
inductive Frame where
  | list (items : List JsonValue)
  | object (fields : List (String × JsonValue)) (key : String)

inductive Expects where
  | value
  | valueOrEnd
  | keyOrEnd (fields : List (String × JsonValue))
  | key (fields : List (String × JsonValue))
  | colon
  | commaOrEnd (last : JsonValue)
  | finish (value : JsonValue)

structure State where
  frames : List Frame
  expects : Expects

def depthLimit : Nat := 127

def start : State := ⟨[], .value⟩

def complete (value : JsonValue) : List Frame → State
  | [] => ⟨[], .finish value⟩
  | frames => ⟨frames, .commaOrEnd value⟩

def enter (frames : List Frame) : JsonToken → Option State
  | .openList =>
      if frames.length < depthLimit then some ⟨.list [] :: frames, .valueOrEnd⟩ else none
  | .openObject =>
      if frames.length < depthLimit then some ⟨frames, .keyOrEnd []⟩ else none
  | .scalar value => some (complete value frames)
  | _ => none

def step (state : State) (token : JsonToken) : Option State :=
  match state.expects, state.frames, token with
  | .value, frames, token => enter frames token
  | .valueOrEnd, .list [] :: frames, .closeList => some (complete (.list []) frames)
  | .valueOrEnd, frames, token => enter frames token
  | .keyOrEnd fields, frames, .closeObject => some (complete (.ofFields fields) frames)
  | .keyOrEnd fields, frames, .scalar (.text key) => some ⟨.object fields key :: frames, .colon⟩
  | .key fields, frames, .scalar (.text key) => some ⟨.object fields key :: frames, .colon⟩
  | .colon, frames, .colon => some ⟨frames, .value⟩
  | .commaOrEnd last, .list items :: frames, .comma =>
      some ⟨.list (items ++ [last]) :: frames, .value⟩
  | .commaOrEnd last, .list items :: frames, .closeList =>
      some (complete (.list (items ++ [last])) frames)
  | .commaOrEnd last, .object fields key :: frames, .comma =>
      some ⟨frames, .key (fields ++ [(key, last)])⟩
  | .commaOrEnd last, .object fields key :: frames, .closeObject =>
      some (complete (.ofFields (fields ++ [(key, last)])) frames)
  | _, _, _ => none

end JsonReader

/-- The value of a text that is exactly one value. -/
def JsonValue.parse? (cs : List Char) : Option JsonValue := do
  let tokens ← JsonToken.scan cs
  let state ← tokens.foldlM JsonReader.step JsonReader.start
  match state.expects with
  | .finish value => some value
  | _ => none

end EndpointTrace
