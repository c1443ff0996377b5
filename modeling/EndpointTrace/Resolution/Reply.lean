import EndpointTrace.Text.Character
import EndpointTrace.Text.Casing

/-!
# Understanding a reply

The assistant is asked for the number of one candidate or for the word `None`.  Quotes,
stars, full stops and white space around the answer do not count; anything else makes
it no answer.
-/

namespace EndpointTrace
namespace Resolution

inductive Choice where
  /-- A candidate, counted from zero. -/
  | candidate (index : Nat)
  | declined
  | outOfRange (number : Nat)
  | unparseable (text : List Char)
  deriving DecidableEq, Repr

namespace Choice

def isDecoration (c : Char) : Bool :=
  c = '"' || c = '\'' || c = '\x60' || c = '.' || c = '*' || Text.isBlank c

def bare (reply : List Char) : List Char :=
  ((reply.dropWhile isDecoration).reverse.dropWhile isDecoration).reverse

def greatestNumber : Nat := UInt64.size - 1

def number? (cs : List Char) : Option Nat :=
  let digits :=
    match cs with
    | '+' :: rest => rest
    | cs => cs
  if digits ≠ [] ∧ digits.all Char.isDigit ∧ Text.ofDecimal digits ≤ greatestNumber then
    some (Text.ofDecimal digits)
  else
    none

/-- What a reply says about a number of candidates, which it counts from one. -/
def ofReply (reply : List Char) (count : Nat) : Choice :=
  let answer := bare reply
  if Text.equalIgnoringAsciiCase answer ['n', 'o', 'n', 'e'] then
    declined
  else
    match number? answer with
    | some number =>
        if 1 ≤ number ∧ number ≤ count then candidate (number - 1) else outOfRange number
    | none => unparseable answer

end Choice

end Resolution
end EndpointTrace
