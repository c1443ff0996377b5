import EndpointTrace.Assistant.EventLine
import EndpointTrace.Assistant.Message
import EndpointTrace.Text.Utf8

/-!
# Event streams

The bytes of a stream arrive in chunks that may end anywhere.  They are cut into lines
first and decoded line by line, so that it makes no difference where a chunk ends.  A
last line without line feed counts if the stream ends well.
-/

namespace EndpointTrace
namespace EventStream

def lineFeed : UInt8 := 10

def splitLines : List UInt8 → List (List UInt8) × List UInt8
  | [] => ([], [])
  | byte :: rest =>
      match splitLines rest with
      | (lines, last) =>
          if byte = lineFeed then
            ([] :: lines, last)
          else
            match lines with
            | [] => ([], byte :: last)
            | line :: lines => ((byte :: line) :: lines, last)

/-- What is known of a reply after some lines: it goes on, or nothing can follow. -/
inductive Ending where
  | open (steps : List Step)
  | closed (steps : List Step)

namespace Ending

def steps : Ending → List Step
  | .open steps => steps
  | closed steps => steps

end Ending

/-- The pieces that lines carry.  `steps` is what happens before the next piece. -/
def readLines (steps : List Step) : List (List UInt8) → List (Call String) × Ending
  | [] => ([], .open steps)
  | line :: rest =>
      match EventLine.ofChars (Text.Utf8.decodeLossy line) with
      | .skip => readLines steps rest
      | .done => ([], .closed steps)
      | .content text =>
          let (pieces, ending) := readLines [] rest
          (⟨steps, .ok text⟩ :: pieces, ending)
      | .malformed fault =>
          ([⟨steps, .error (.collaborator "ask" fault.describe)⟩], .closed [])

/-- The reply that chunks carry, when some bytes of a line have arrived before. -/
def decodeFrom (held : List UInt8) (steps : List Step) :
    List (Call (List UInt8)) → ReplyStream
  | [] =>
      if held.isEmpty then
        ⟨[], steps⟩
      else
        let (pieces, ending) := readLines steps [held]
        ⟨pieces, ending.steps⟩
  | chunk :: rest =>
      match chunk.outcome with
      | .error failure => ⟨[⟨steps ++ chunk.steps, .error failure⟩], []⟩
      | .ok bytes =>
          let (lines, held) := splitLines (held ++ bytes)
          match readLines (steps ++ chunk.steps) lines with
          | (pieces, .closed steps) => ⟨pieces, steps⟩
          | (pieces, .open steps) =>
              let later := decodeFrom held steps rest
              ⟨pieces ++ later.pieces, later.closing⟩

def decode (chunks : List (Call (List UInt8))) : ReplyStream :=
  decodeFrom [] [] chunks

end EventStream
end EndpointTrace
