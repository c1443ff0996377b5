import EndpointTrace.Settings.Basic
import EndpointTrace.Toml.Reader
import EndpointTrace.Toml.Writer

/-!
# Settings as they are stored

Settings are stored as a TOML document with a table for each section.  All but the
optional keys of the assistant must be there, and unknown keys do not matter.
-/

namespace EndpointTrace
namespace Settings

/-!
## Reading
-/

def section? (name : String) (document : Toml.Fields) : Option Toml.Fields :=
  match document.lookup name with
  | some (.table _ fields) => some fields
  | _ => none

def text? : Toml → Option String
  | .text value => some value
  | _ => none

def bool? : Toml → Option Bool
  | .bool value => some value
  | _ => none

def natural? : Toml → Option Nat
  | .integer (.ofNat value) => some value
  | _ => none

/-- Counts of tokens have thirty-two bits. -/
def tokenCount? (value : Toml) : Option Nat :=
  (natural? value).filter (· < UInt32.size)

def temperature? : Toml → Option Floating
  | .float value => some (value.convert .single)
  | .integer value => some (.ofRat .single (value < 0) value.natAbs)
  | _ => none

def required {α : Type} (read : Toml → Option α) (key : String) (fields : Toml.Fields) :
    Option α :=
  fields.lookup key >>= read

/-- A key that may be missing, but not have a value of another type. -/
def optional {α : Type} (read : Toml → Option α) (key : String) (fields : Toml.Fields) :
    Option (Option α) :=
  match fields.lookup key with
  | none => some none
  | some value => (read value).map some

def assistant? (fields : Toml.Fields) : Option AssistantSettings := do
  pure {
    enabled := ← required bool? "enabled" fields
    provider := ← required text? "provider" fields
    model := ← required text? "model" fields
    apiKey := ← optional text? "api_key" fields
    baseUrl := ← optional text? "base_url" fields
    maxTokens := ← optional tokenCount? "max_tokens" fields
    temperature := ← optional temperature? "temperature" fields }

def ofDocument? (document : Toml.Fields) : Option Settings := do
  let project ← section? "project" document
  let discovery ← section? "discovery" document
  let callTree ← section? "call_tree" document
  let collaborators ← section? "collaborators" document
  let assistant ← section? "llm" document
  pure {
    project :=
      { name := ← required text? "name" project
        sourceDirectory := ⟨← required text? "source_dir" project⟩
        includeGlob := ← required text? "include_glob" project }
    discovery :=
      { windowLines := ← required natural? "class_window_lines" discovery
        concurrency := ← required natural? "concurrency" discovery
        maxFileSize := ← required natural? "max_file_size" discovery }
    callTree :=
      { maxDepth := ← required natural? "max_depth" callTree
        maxNodes := ← required natural? "max_nodes" callTree }
    timeoutSeconds := ← required natural? "timeout_secs" collaborators
    assistant := ← assistant? assistant }

def parse (text : List Char) : Except Failure Settings :=
  match Toml.parse? text >>= ofDocument? with
  | some settings => settings.validate
  | none => .error .unreadableSettings

/-!
## Writing
-/

def line (key value : String) : String :=
  key ++ " = " ++ value ++ "\n"

def optionalLine {α : Type} (key : String) (render : α → String) : Option α → String
  | none => ""
  | some value => line key (render value)

def renderSection (name : String) (lines : List String) : String :=
  "[" ++ name ++ "]\n" ++ String.join lines

def render (settings : Settings) : String :=
  let assistant := settings.assistant
  "\n".intercalate [
    renderSection "project" [
      line "name" (Toml.renderText settings.project.name),
      line "source_dir" (Toml.renderText settings.project.sourceDirectory.text),
      line "include_glob" (Toml.renderText settings.project.includeGlob)],
    renderSection "discovery" [
      line "class_window_lines" (toString settings.discovery.windowLines),
      line "concurrency" (toString settings.discovery.concurrency),
      line "max_file_size" (toString settings.discovery.maxFileSize)],
    renderSection "call_tree" [
      line "max_depth" (toString settings.callTree.maxDepth),
      line "max_nodes" (toString settings.callTree.maxNodes)],
    renderSection "collaborators" [
      line "timeout_secs" (toString settings.timeoutSeconds)],
    renderSection "llm" [
      line "enabled" (Toml.renderBool assistant.enabled),
      line "provider" (Toml.renderText assistant.provider),
      line "model" (Toml.renderText assistant.model),
      optionalLine "api_key" Toml.renderText assistant.apiKey,
      optionalLine "base_url" Toml.renderText assistant.baseUrl,
      optionalLine "max_tokens" toString assistant.maxTokens,
      optionalLine "temperature" (fun t => Toml.renderFloat (t.convert .double))
        assistant.temperature]]

end Settings
end EndpointTrace
