/-!
# Failures

Everything that can go wrong, by cause.  A failure belongs to a kind, and its
message is the text shown to the person at the terminal.
-/

namespace EndpointTrace

inductive FileProblem where
  | notFound
  | alreadyExists
  | notADirectory
  | isADirectory
  | invalidUtf8
  deriving DecidableEq, Repr

namespace FileProblem

def describe : FileProblem → String
  | notFound => "No such file or directory (os error 2)"
  | alreadyExists => "File exists (os error 17)"
  | notADirectory => "Not a directory (os error 20)"
  | isADirectory => "Is a directory (os error 21)"
  | invalidUtf8 => "stream did not contain valid UTF-8"

end FileProblem

inductive Failure where
  | noMappingRules
  | unreadableSettings
  | zeroConcurrency
  | zeroTimeout
  | settingsExist (target : String)
  | assistantDisabled
  | unsupportedProvider (name : String)
  | missingApiKey
  | oversizedFile (path : String)
  | file (problem : FileProblem)
  | directory (problem : FileProblem)
  | invalidGlob (glob : String)
  | unwalkableRoot (path : String)
  | missingSource (path : String)
  | unsupportedMethod (text : String)
  | locationWithoutFile
  | collaborator (operation : String) (detail : String)
  | timedOut (operation : String) (seconds : Nat)
  | cancelled (operation : String)
  deriving DecidableEq, Repr

inductive FailureKind where
  | config
  | parser
  | io
  | fileSystem
  | collaborator
  | timeout
  | cancelled
  | invalidInput
  | other
  deriving DecidableEq, Repr

namespace Failure

def kind : Failure → FailureKind
  | noMappingRules | unreadableSettings | zeroConcurrency | zeroTimeout | settingsExist _
  | assistantDisabled | unsupportedProvider _ | missingApiKey => .config
  | oversizedFile _ => .parser
  | file _ => .io
  | directory _ => .other
  | invalidGlob _ | unwalkableRoot _ | missingSource _ => .fileSystem
  | unsupportedMethod _ | locationWithoutFile => .invalidInput
  | collaborator .. => .collaborator
  | timedOut .. => .timeout
  | cancelled _ => .cancelled

def isCancelled (failure : Failure) : Bool :=
  failure.kind == .cancelled

def apiKeyVariable : String := "OPENAI_API_KEY"

def message : Failure → String
  | noMappingRules => "Configuration error: At least one mapping rule is required"
  | unreadableSettings => "Configuration error: the settings file is not well formed"
  | zeroConcurrency => "Configuration error: discovery.concurrency must be at least 1"
  | zeroTimeout => "Configuration error: collaborators.timeout_secs must be at least 1"
  | settingsExist target =>
      "Configuration error: " ++ target ++ " already exists (use --force to overwrite)"
  | assistantDisabled => "Configuration error: Language assistant is disabled"
  | unsupportedProvider name => "Configuration error: Unsupported LLM provider: " ++ name
  | missingApiKey =>
      "Configuration error: API key required: set llm.api_key or " ++ apiKeyVariable
  | oversizedFile path => "Parser error: File " ++ path ++ " exceeds maximum size limit"
  | file problem => "IO error: " ++ problem.describe
  | directory problem => problem.describe
  | invalidGlob glob => "File system error: Invalid glob '" ++ glob ++ "'"
  | unwalkableRoot path => "File system error: cannot walk " ++ path
  | missingSource path => "File system error: Source directory not found: " ++ path
  | unsupportedMethod text => "Invalid input: Unsupported HTTP method: " ++ text
  | locationWithoutFile => "Invalid input: call tree location has no file"
  | collaborator operation detail => operation ++ " failed: " ++ detail
  | timedOut operation seconds =>
      operation ++ " timed out after " ++ toString seconds ++ "s"
  | cancelled operation => operation ++ " was cancelled"

end Failure

end EndpointTrace
