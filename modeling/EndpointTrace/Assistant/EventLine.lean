import EndpointTrace.Json.Reader
import EndpointTrace.Text.Character

/-!
# Lines of an event stream

Only data lines count.  One says that the reply is over, any other holds a JSON event
that carries a piece of the reply, or none, or the report of an error.
-/

namespace EndpointTrace

inductive StreamFault where
  | unparseable
  | reported (error : JsonValue)

namespace StreamFault

def describe : StreamFault → String
  | unparseable => "unparseable stream event:"
  | reported error => "stream reported an error: " ++ error.render

end StreamFault

inductive EventLine where
  | skip
  | done
  | content (text : String)
  | malformed (fault : StreamFault)

namespace EventLine

def content? (event : JsonValue) : Option String := do
  let choices ← event.field? "choices"
  let choice ← choices.item? 0
  let delta ← choice.field? "delta"
  let content ← delta.field? "content"
  content.text?

def ofEvent (event : JsonValue) : EventLine :=
  match event.field? "error" with
  | some error => malformed (.reported error)
  | none =>
      match content? event with
      | some text => if text.isEmpty then skip else content text
      | none => skip

def ofData (data : List Char) : EventLine :=
  if data = "[DONE]".toList then
    done
  else
    match JsonValue.parse? data with
    | some event => ofEvent event
    | none => malformed .unparseable

/-- What a line says; blanks around it and after its field name do not count. -/
def ofChars (line : List Char) : EventLine :=
  match Text.trim line with
  | 'd' :: 'a' :: 't' :: 'a' :: ':' :: data => ofData (Text.trim data)
  | _ => skip

end EventLine

end EndpointTrace
