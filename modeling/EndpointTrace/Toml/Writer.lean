import EndpointTrace.Number.Shortest
import EndpointTrace.Toml.Value

/-!
# Writing TOML

A text is written in the plainest quotes that need no escapes: double quotes, single
ones, or three of either; only if none will do, with escapes.  A float always has a
point, and no exponent.
-/

namespace EndpointTrace
namespace Toml

/-!
## Texts
-/

def longestRun (c : Char) (cs : List Char) : Nat :=
  ((cs.splitOnP (· ≠ c)).map List.length).max?.getD 0

def needsEscape (c : Char) : Bool :=
  (c.toNat < 0x20 && c != '\t' && c != '\n') || c.toNat = 0x7F

inductive Quotes where
  | basic
  | literal
  | longBasic
  | longLiteral
  deriving DecidableEq, Repr

def quotesFor (cs : List Char) : Quotes :=
  let broken := cs.contains '\n'
  let controlled := cs.any needsEscape
  let slashed := cs.contains '\\'
  let singles := longestRun '\'' cs
  let doubles := longestRun '"' cs
  if !controlled && !slashed && doubles = 0 && !broken then .basic
  else if !controlled && singles = 0 && !broken then .literal
  else if !controlled && !slashed && doubles ≤ 2 then .longBasic
  else if !controlled && singles ≤ 2 then .longLiteral
  else if broken then .longBasic
  else .basic

def hexUpper (n : Nat) : Char :=
  if n < 10 then Char.ofNat ('0'.toNat + n) else Char.ofNat ('A'.toNat + (n - 10))

def escapeChar (long : Bool) (c : Char) : List Char :=
  match c with
  | '\x08' => ['\\', 'b']
  | '\t' => ['\\', 't']
  | '\n' => if long then ['\n'] else ['\\', 'n']
  | '\x0c' => ['\\', 'f']
  | '\r' => ['\\', 'r']
  | '\\' => ['\\', '\\']
  | c =>
      if c.toNat < 0x20 ∨ c.toNat = 0x7F then
        ['\\', 'u', '0', '0', hexUpper (c.toNat / 16), hexUpper (c.toNat % 16)]
      else
        [c]

/-- A text between double quotes, where `doubles` of them stand right before it.  Three
in a row would end a long text, so the third is escaped. -/
def escapeText (long : Bool) (doubles : Nat) : List Char → List Char
  | [] => []
  | c :: rest =>
      if c = '"' then
        if (if long then 2 else 0) < doubles + 1 then
          '\\' :: '"' :: escapeText long 0 rest
        else
          '"' :: escapeText long (doubles + 1) rest
      else
        escapeChar long c ++ escapeText long 0 rest

/-- A long text with line breaks starts on a line of its own. -/
def opening (cs : List Char) : List Char :=
  if cs.contains '\n' then ['\n'] else []

def renderText (value : String) : String :=
  let cs := value.toList
  match quotesFor cs with
  | .basic => "\"" ++ String.ofList (escapeText false 0 cs) ++ "\""
  | .literal => "'" ++ value ++ "'"
  | .longBasic =>
      "\"\"\"" ++ String.ofList (opening cs ++ escapeText true 0 cs) ++ "\"\"\""
  | .longLiteral => "'''" ++ String.ofList (opening cs ++ cs) ++ "'''"

/-!
## Numbers
-/

def signed (negative : Bool) (text : String) : String :=
  if negative then "-" ++ text else text

def renderFloat : Floating → String
  | .finite negative magnitude =>
      signed negative (Decimal.shortest .double magnitude).pointed
  | .infinite negative => signed negative "inf"
  | .undefined negative => signed negative "nan"

def renderBool (value : Bool) : String :=
  if value then "true" else "false"

end Toml
end EndpointTrace
