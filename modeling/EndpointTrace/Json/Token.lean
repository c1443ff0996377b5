import EndpointTrace.Json.Value
import EndpointTrace.Text.Character

/-!
# JSON tokens

Whole numbers of sixty-four bits are exact.  Any other number is read by its leading
digits, as many as fit into sixty-four bits, and then scaled by a power of ten; both
steps round to the nearest double.  A number beyond the doubles is no number.
-/

namespace EndpointTrace

inductive JsonToken where
  | openList
  | closeList
  | openObject
  | closeObject
  | colon
  | comma
  | scalar (value : JsonValue)
  deriving Repr

namespace JsonToken

/-!
## Numbers
-/

def wordLimit : Nat := UInt64.size

/-- Digits taken while the number they form fits a word, with how many were taken. -/
def absorb (number : Nat) : List Char → Nat × Nat
  | [] => (number, 0)
  | digit :: rest =>
      if number * 10 + Text.digitValue digit < wordLimit then
        let (total, taken) := absorb (number * 10 + Text.digitValue digit) rest
        (total, taken + 1)
      else
        (number, 0)

def greatestScale : Nat := 308

/-- A magnitude divided by a power of ten, in steps that doubles can hold. -/
def scaleDown (magnitude : Binary) (places : Nat) : Option Binary :=
  if places ≤ greatestScale then do
    let scale ← BinaryFormat.double.round? ((10 : Rat) ^ places)
    BinaryFormat.double.round? (magnitude.toRat / scale.toRat)
  else if magnitude.isZero then
    some magnitude
  else do
    let scale ← BinaryFormat.double.round? ((10 : Rat) ^ greatestScale)
    let less ← BinaryFormat.double.round? (magnitude.toRat / scale.toRat)
    scaleDown less (places - greatestScale)
termination_by places
decreasing_by simp_all [greatestScale]; omega

def scaleUp (magnitude : Binary) (places : Nat) : Option Binary :=
  if magnitude.isZero then
    some magnitude
  else if places ≤ greatestScale then do
    let scale ← BinaryFormat.double.round? ((10 : Rat) ^ places)
    BinaryFormat.double.round? (magnitude.toRat * scale.toRat)
  else
    none

def scaled? (significand : Nat) (exponent : Int) : Option Binary := do
  let magnitude ← BinaryFormat.double.round? significand
  match exponent with
  | .ofNat places => scaleUp magnitude places
  | .negSucc places => scaleDown magnitude (places + 1)

structure Numeral where
  negative : Bool
  whole : List Char
  fraction : List Char
  exponent : Option Int

namespace Numeral

def floating? (numeral : Numeral) : Option JsonNumber := do
  let (leading, taken) := absorb 0 numeral.whole
  let (significand, places) := absorb leading numeral.fraction
  let exponent := ((numeral.whole.length - taken : Nat) : Int) - places
    + numeral.exponent.getD 0
  let magnitude ← scaled? significand exponent
  pure (.floating numeral.negative magnitude)

def number? (numeral : Numeral) : Option JsonNumber :=
  let value := Text.ofDecimal numeral.whole
  if numeral.fraction ≠ [] ∨ numeral.exponent.isSome then numeral.floating?
  else if numeral.negative then
    if 0 < value ∧ value ≤ wordLimit / 2 then some (.negative value) else numeral.floating?
  else if value < wordLimit then some (.natural value)
  else numeral.floating?

end Numeral

/-- The whole part: a zero alone, or digits that start with another one. -/
def whole? : List Char → Option (List Char × List Char)
  | '0' :: rest => some (['0'], rest)
  | cs =>
      let digits := cs.takeWhile Char.isDigit
      if digits.isEmpty then none else some (digits, cs.dropWhile Char.isDigit)

def fraction? : List Char → Option (List Char × List Char)
  | '.' :: rest =>
      let digits := rest.takeWhile Char.isDigit
      if digits.isEmpty then none else some (digits, rest.dropWhile Char.isDigit)
  | cs => some ([], cs)

def sign (cs : List Char) : Bool × List Char :=
  match cs with
  | '-' :: rest => (true, rest)
  | '+' :: rest => (false, rest)
  | cs => (false, cs)

def exponent? (cs : List Char) : Option (Option Int × List Char) :=
  match cs with
  | c :: rest =>
      if c = 'e' ∨ c = 'E' then
        let (negative, rest) := sign rest
        let digits := rest.takeWhile Char.isDigit
        let value : Int := Text.ofDecimal digits
        if digits.isEmpty then none
        else some (some (if negative then -value else value), rest.dropWhile Char.isDigit)
      else
        some (none, cs)
  | [] => some (none, [])

def numeral? (cs : List Char) : Option (Numeral × List Char) := do
  let (negative, cs) :=
    match cs with
    | '-' :: rest => (true, rest)
    | cs => (false, cs)
  let (whole, cs) ← whole? cs
  let (fraction, cs) ← fraction? cs
  let (exponent, cs) ← exponent? cs
  pure (⟨negative, whole, fraction, exponent⟩, cs)

/-!
## Text
-/

def unit? : List Char → Option Nat
  | [a, b, c, d] => do
      let a ← Text.hexValue? a
      let b ← Text.hexValue? b
      let c ← Text.hexValue? c
      let d ← Text.hexValue? d
      pure (((a * 16 + b) * 16 + c) * 16 + d)
  | _ => none

def escaped? : Char → Option Char
  | '"' => some '"'
  | '\\' => some '\\'
  | '/' => some '/'
  | 'b' => some '\x08'
  | 'f' => some '\x0c'
  | 'n' => some '\n'
  | 'r' => some '\r'
  | 't' => some '\t'
  | _ => none

def isHighSurrogate (unit : Nat) : Bool := 0xD800 ≤ unit && unit ≤ 0xDBFF

def isLowSurrogate (unit : Nat) : Bool := 0xDC00 ≤ unit && unit ≤ 0xDFFF

def ofSurrogates (high low : Nat) : Char :=
  Char.ofNat (0x10000 + (high - 0xD800) * 0x400 + (low - 0xDC00))

/-- A text up to its closing quote.  Surrogates come in pairs or not at all. -/
def text? : List Char → Option (List Char × List Char)
  | [] => none
  | '"' :: rest => some ([], rest)
  | '\\' :: 'u' :: a :: b :: c :: d :: rest => do
      let unit ← unit? [a, b, c, d]
      if isHighSurrogate unit then
        match rest with
        | '\\' :: 'u' :: a :: b :: c :: d :: rest => do
            let low ← unit? [a, b, c, d]
            if isLowSurrogate low then do
              let (value, rest) ← text? rest
              pure (ofSurrogates unit low :: value, rest)
            else
              none
        | _ => none
      else if isLowSurrogate unit then
        none
      else do
        let (value, rest) ← text? rest
        pure (Char.ofNat unit :: value, rest)
  | '\\' :: c :: rest => do
      let c ← escaped? c
      let (value, rest) ← text? rest
      pure (c :: value, rest)
  | c :: rest =>
      if c.toNat < 0x20 ∨ c = '\\' then none
      else do
        let (value, rest) ← text? rest
        pure (c :: value, rest)

/-!
## Tokens
-/

def isBlank (c : Char) : Bool :=
  c = ' ' || c = '\t' || c = '\n' || c = '\r'

def words : List (List Char × JsonValue) :=
  [(['n', 'u', 'l', 'l'], .null), (['t', 'r', 'u', 'e'], .bool true),
    (['f', 'a', 'l', 's', 'e'], .bool false)]

def word? (cs : List Char) : Option (JsonToken × List Char) :=
  words.findSome? fun (word, value) =>
    if word.isPrefixOf cs then some (.scalar value, cs.drop word.length) else none

def first? : List Char → Option (JsonToken × List Char)
  | [] => none
  | '[' :: rest => some (openList, rest)
  | ']' :: rest => some (closeList, rest)
  | '{' :: rest => some (openObject, rest)
  | '}' :: rest => some (closeObject, rest)
  | ':' :: rest => some (colon, rest)
  | ',' :: rest => some (comma, rest)
  | '"' :: rest => do
      let (value, rest) ← text? rest
      pure (.scalar (.text (String.ofList value)), rest)
  | c :: rest =>
      if c.isDigit || c = '-' then do
        let (numeral, rest) ← numeral? (c :: rest)
        let number ← numeral.number?
        pure (.scalar (.number number), rest)
      else
        word? (c :: rest)

/-- The tokens of a text; `fuel` bounds their number. -/
def scanWith : Nat → List Char → Option (List JsonToken)
  | 0, _ => none
  | fuel + 1, cs =>
      match cs.dropWhile isBlank with
      | [] => some []
      | c :: rest => do
          let (token, rest) ← first? (c :: rest)
          let tokens ← scanWith fuel rest
          pure (token :: tokens)

def scan (cs : List Char) : Option (List JsonToken) :=
  scanWith (cs.length + 1) cs

end JsonToken

end EndpointTrace
