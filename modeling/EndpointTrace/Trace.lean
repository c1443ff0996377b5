import EndpointTrace.Assistant.ChatService
import EndpointTrace.CallGraph.Builder
import EndpointTrace.Codebase
import EndpointTrace.Diagram.Sequence
import EndpointTrace.Resolution.Resolver

/-!
# Traces

A trace leads from a request in words to the diagram of one endpoint: the endpoints are
discovered, the request is resolved to one of them, the callables are indexed, and the
calls of the handler are followed.  It can end early, and what the person is told about
that depends on how it ended.
-/

namespace EndpointTrace

structure Tracer where
  options : Discovery.Options
  limits : CallLimits
  guard : Guard
  assistant : Option Assistant

namespace Tracer

/-- The assistant that settings ask for.  One that cannot be set up is done without. -/
def assistant? (settings : AssistantSettings) (environmentKey : Option String)
    (send : ChatService → List Message → Call ReplyStream) : Option Assistant :=
  match ChatService.create settings environmentKey with
  | .ok service => some ⟨service.model, send service⟩
  | .error _ => none

def ofSettings (settings : Settings) (environmentKey : Option String)
    (send : ChatService → List Message → Call ReplyStream) : Tracer where
  options := ⟨.standard, settings.discovery.windowLines, settings.discovery.concurrency⟩
  limits := settings.callTree
  guard := ⟨settings.timeoutSeconds * 1000, none⟩
  assistant := assistant? settings.assistant environmentKey send

end Tracer

inductive TraceEnd where
  | drawn (endpoint : Endpoint) (tree : CallTree)
  | noEndpoints
  /-- Several endpoints are possible, and the person has been asked which one is meant. -/
  | unclear (candidates : List Endpoint)
  | unknownHandler (endpoint : Endpoint)
  | cancelled
  | failed (failure : Failure)

namespace TraceEnd

def diagram : TraceEnd → Except Failure (Option String)
  | drawn endpoint tree =>
      .ok (some (Diagram.render tree (some (Diagram.Request.ofEndpoint endpoint))))
  | failed failure => .error failure
  | noEndpoints | unclear _ | unknownHandler _ | cancelled => .ok none

end TraceEnd

structure Trace where
  ending : TraceEnd
  moment : Moment
  transcript : Transcript

namespace Trace

def discoveryNotice : String := "Discovering endpoints"

def pursuitNotice (endpoint : Endpoint) : String :=
  "Tracing calls from " ++ endpoint.route ++ " (" ++ endpoint.handler ++ ")"

def emptyNotice (root : FilePath) : String :=
  "No HTTP endpoints found under \x60" ++ root.text ++ "\x60."

def unknownHandlerNotice (endpoint : Endpoint) : String :=
  "Could not resolve the call hierarchy of \x60" ++ endpoint.handler ++ "\x60 at "
    ++ endpoint.location.toText ++ "."

def closing (ending : TraceEnd) (moment : Moment) (transcript : Transcript)
    (message : String) : Trace :=
  ⟨ending, moment, transcript ++ [⟨moment, .markdown message⟩]⟩

def pursue (tracer : Tracer) (codebase : Codebase) (endpoint : Endpoint) (moment : Moment)
    (transcript : Transcript) : Trace :=
  let transcript := transcript ++ [⟨moment, .progress (pursuitNotice endpoint)⟩]
  match codebase.index tracer.guard moment with
  | (.error failure, moment) =>
      ⟨if failure.isCancelled then .cancelled else .failed failure, moment, transcript⟩
  | (.ok index, moment) =>
      let built := CallTree.build tracer.limits tracer.guard (codebase.oracle index)
        endpoint.location () moment
      match built.result with
      | .error failure => ⟨.failed failure, built.moment, transcript⟩
      | .ok none =>
          closing (.unknownHandler endpoint) built.moment transcript
            (unknownHandlerNotice endpoint)
      | .ok (some tree) => ⟨.drawn endpoint tree, built.moment, transcript⟩

def run (tracer : Tracer) (codebase : Codebase) (request : String) (moment : Moment) :
    Trace :=
  let (endpoints, discovered) := codebase.endpoints tracer.options tracer.guard moment
  let resolved := Resolution.run tracer.guard tracer.assistant request endpoints discovered
  let transcript :=
    ⟨moment, .progress discoveryNotice⟩ :: resolved.progress.transcript
  match resolved.resolution with
  | .selected endpoint _ =>
      pursue tracer codebase endpoint resolved.progress.moment transcript
  | .notFound =>
      closing .noEndpoints resolved.progress.moment transcript (emptyNotice codebase.root)
  | .needsClarification candidates =>
      ⟨.unclear candidates, resolved.progress.moment, transcript⟩
  | .cancelled => ⟨.cancelled, resolved.progress.moment, transcript⟩

end Trace

end EndpointTrace
