import EndpointTrace.Timing.Guard

/-!
# Talking to a language assistant

A conversation is a list of messages.  The reply comes in pieces, each in its own time,
and fails with the first piece that fails.
-/

namespace EndpointTrace

inductive Role where
  | system
  | user
  deriving DecidableEq, Repr

def Role.name : Role → String
  | system => "system"
  | user => "user"

structure Message where
  role : Role
  content : String
  deriving DecidableEq, Repr

/-- A reply as it arrives, and what still happens after its last piece. -/
structure ReplyStream where
  pieces : List (Call String)
  closing : List Step

namespace ReplyStream

def ofPieces (pieces : List (Call String)) : ReplyStream :=
  ⟨pieces, []⟩

def collectFrom (reply : String) (closing : List Step) : List (Call String) → Call String
  | [] => ⟨closing, .ok reply⟩
  | piece :: rest =>
      match piece.outcome with
      | .error failure => ⟨piece.steps, .error failure⟩
      | .ok text =>
          let later := collectFrom (reply ++ text) closing rest
          ⟨piece.steps ++ later.steps, later.outcome⟩

def collect (stream : ReplyStream) : Call String :=
  collectFrom "" stream.closing stream.pieces

end ReplyStream

structure Assistant where
  model : String
  ask : List Message → Call ReplyStream

namespace Assistant

def reply (assistant : Assistant) (messages : List Message) : Call String :=
  (assistant.ask messages).andThen ReplyStream.collect

end Assistant

end EndpointTrace
