import EndpointTrace.CallGraph.Builder
import EndpointTrace.Number.Binary
import EndpointTrace.Source.FilePath

/-!
# Settings

Everything a project can set, by section, with the values that hold where nothing is
set.  Two settings must not be zero.
-/

namespace EndpointTrace

structure ProjectSettings where
  name : String
  sourceDirectory : FilePath
  includeGlob : String
  deriving DecidableEq, Repr

structure DiscoverySettings where
  windowLines : Nat
  concurrency : Nat
  maxFileSize : Nat
  deriving DecidableEq, Repr

structure AssistantSettings where
  enabled : Bool
  provider : String
  model : String
  apiKey : Option String
  baseUrl : Option String
  maxTokens : Option Nat
  /-- A number of single precision. -/
  temperature : Option Floating
  deriving DecidableEq, Repr

structure Settings where
  project : ProjectSettings
  discovery : DiscoverySettings
  callTree : CallLimits
  timeoutSeconds : Nat
  assistant : AssistantSettings
  deriving DecidableEq, Repr

namespace Settings

def defaults : Settings where
  project := ⟨"Unnamed Project", ⟨"."⟩, "**/*.java"⟩
  discovery := ⟨5, 8, 1024 * 1024⟩
  callTree := ⟨6, 512⟩
  timeoutSeconds := 30
  assistant :=
    { enabled := false
      provider := "openai"
      model := "gpt-4o-mini"
      apiKey := none
      baseUrl := none
      maxTokens := some 16
      temperature := some (.finite false BinaryFormat.single.zero) }

def validate (settings : Settings) : Except Failure Settings :=
  if settings.discovery.concurrency = 0 then .error .zeroConcurrency
  else if settings.timeoutSeconds = 0 then .error .zeroTimeout
  else .ok settings

end Settings

end EndpointTrace
