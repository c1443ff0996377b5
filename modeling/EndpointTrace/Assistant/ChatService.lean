import EndpointTrace.Assistant.Message
import EndpointTrace.Json.Value
import EndpointTrace.Settings.Basic
import EndpointTrace.Text.Character

/-!
# Chat services

What is needed to ask a service that completes chats: where it is, and what to send.
-/

namespace EndpointTrace

structure ChatService where
  endpoint : String
  apiKey : String
  model : String
  maxTokens : Option Nat
  temperature : Option Floating

namespace ChatService

def supportedProvider : String := "openai"

def providerName : String := "OpenAI"

def defaultBaseUrl : String := "https://api.openai.com/v1"

def trimSlashes (url : String) : String :=
  String.ofList (url.toList.reverse.dropWhile (· = '/')).reverse

/-- The service that settings describe.  The key of the environment is asked for only
if the settings name none, and a blank key is no key. -/
def ofSettings (settings : AssistantSettings) (environmentKey : Option String) :
    Except Failure ChatService :=
  match (settings.apiKey <|> environmentKey).filter fun key => !Text.isBlankText key.toList with
  | none => .error .missingApiKey
  | some key =>
      .ok {
        endpoint := trimSlashes (settings.baseUrl.getD defaultBaseUrl) ++ "/chat/completions"
        apiKey := key
        model := settings.model
        maxTokens := settings.maxTokens
        temperature := settings.temperature }

def create (settings : AssistantSettings) (environmentKey : Option String) :
    Except Failure ChatService :=
  if !settings.enabled then .error .assistantDisabled
  else if settings.provider ≠ supportedProvider then
    .error (.unsupportedProvider settings.provider)
  else ofSettings settings environmentKey

def temperatureValue (temperature : Floating) : JsonValue :=
  match temperature.convert .double with
  | .finite negative magnitude => .number (.floating negative magnitude)
  | .infinite _ => .null
  | .undefined _ => .null

def messageValue (message : Message) : JsonValue :=
  .ofFields [("role", .text message.role.name), ("content", .text message.content)]

def payload (service : ChatService) (messages : List Message) : JsonValue :=
  .ofFields <|
    [("model", .text service.model), ("messages", .list (messages.map messageValue)),
      ("stream", .bool true)]
    ++ (service.maxTokens.map fun n => ("max_tokens", .number (.natural n))).toList
    ++ (service.temperature.map fun t => ("temperature", temperatureValue t)).toList

end ChatService

end EndpointTrace
