/-!
# UTF-8

A scan of bytes that stands between characters or within one.  Bytes that are part of
no character are damage: every longest beginning of a character that does not go on,
and every byte that begins none, counts as one damaged unit.
-/

namespace EndpointTrace
namespace Text
namespace Utf8

/-- Where a scan stands.  Within a character it knows the bounds of the next byte, how
many bytes follow that one, and the value of those before it. -/
inductive State where
  | between
  | within (low high : UInt8) (more : Nat) (value : Nat)
  deriving DecidableEq, Repr

abbrev Piece := Option Char

def begin (byte : UInt8) : List Piece × State :=
  if byte < 0x80 then ([some (Char.ofNat byte.toNat)], .between)
  else if 0xC2 ≤ byte ∧ byte ≤ 0xDF then ([], .within 0x80 0xBF 0 (byte.toNat - 0xC0))
  else if byte = 0xE0 then ([], .within 0xA0 0xBF 1 0)
  else if byte = 0xED then ([], .within 0x80 0x9F 1 0xD)
  else if 0xE1 ≤ byte ∧ byte ≤ 0xEF then ([], .within 0x80 0xBF 1 (byte.toNat - 0xE0))
  else if byte = 0xF0 then ([], .within 0x90 0xBF 2 0)
  else if 0xF1 ≤ byte ∧ byte ≤ 0xF3 then ([], .within 0x80 0xBF 2 (byte.toNat - 0xF0))
  else if byte = 0xF4 then ([], .within 0x80 0x8F 2 4)
  else ([none], .between)

def step (state : State) (byte : UInt8) : List Piece × State :=
  match state with
  | .between => begin byte
  | .within low high more value =>
      if low ≤ byte ∧ byte ≤ high then
        let value := value * 64 + (byte.toNat - 0x80)
        match more with
        | 0 => ([some (Char.ofNat value)], .between)
        | more + 1 => ([], .within 0x80 0xBF more value)
      else
        let (pieces, state) := begin byte
        (none :: pieces, state)

def pieces (state : State) : List UInt8 → List Piece
  | [] =>
      match state with
      | .between => []
      | .within .. => [none]
  | byte :: rest =>
      let (first, next) := step state byte
      first ++ pieces next rest

def decode? (bytes : List UInt8) : Option (List Char) :=
  (pieces .between bytes).mapM id

/-- The text of any bytes, with one replacement character for each damaged unit. -/
def decodeLossy (bytes : List UInt8) : List Char :=
  (pieces .between bytes).map fun piece => piece.getD (Char.ofNat 0xFFFD)

def encode (cs : List Char) : List UInt8 :=
  cs.flatMap String.utf8EncodeChar

theorem encode_append (a b : List Char) : encode (a ++ b) = encode a ++ encode b := by
  simp [encode]

end Utf8
end Text
end EndpointTrace
