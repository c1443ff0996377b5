import EndpointTrace.Text.Character
import EndpointTrace.Toml.Value

/-!
# TOML scalars

Texts in their four kinds of quotes, numbers, dates and times.  A scalar without quotes
is judged as a whole: the longest run of characters that such scalars are made of.
-/

namespace EndpointTrace
namespace Toml

def isBlank (c : Char) : Bool :=
  c = ' ' || c = '\t'

def isPlain (c : Char) : Bool :=
  c = '\t' || (0x20 ≤ c.toNat && c.toNat ≤ 0x7E) || 0x80 ≤ c.toNat

def newline? : List Char → Option (List Char)
  | '\n' :: rest => some rest
  | '\r' :: '\n' :: rest => some rest
  | _ => none

/-!
## Texts
-/

def scalar? (point : Nat) : Option Char :=
  if point < 0xD800 ∨ (0xDFFF < point ∧ point < 0x110000) then some (Char.ofNat point)
  else none

def escaped? : Char → Option Char
  | '"' => some '"'
  | '\\' => some '\\'
  | 'b' => some '\x08'
  | 'f' => some '\x0c'
  | 'n' => some '\n'
  | 'r' => some '\r'
  | 't' => some '\t'
  | _ => none

def named? (digits : List Char) : Option Char :=
  if digits.all Text.isHexDigit then scalar? (Text.ofRadix 16 digits) else none

def escape? : List Char → Option (Char × Nat)
  | 'u' :: a :: b :: c :: d :: _ => do
      pure (← named? [a, b, c, d], 5)
  | 'U' :: a :: b :: c :: d :: e :: f :: g :: h :: _ => do
      pure (← named? [a, b, c, d, e, f, g, h], 9)
  | c :: _ => do
      pure (← escaped? c, 1)
  | [] => none

def prepend (c : Char) (read : List Char × List Char) : List Char × List Char :=
  (c :: read.1, read.2)

/-- A text in double quotes, after the opening one.  `skip` characters were read before. -/
def basicText? (skip : Nat) : List Char → Option (List Char × List Char)
  | [] => none
  | c :: rest =>
      match skip with
      | skip + 1 => basicText? skip rest
      | 0 =>
          if c = '"' then some ([], rest)
          else if c = '\\' then do
            let (value, length) ← escape? rest
            let read ← basicText? length rest
            pure (prepend value read)
          else if isPlain c then (basicText? 0 rest).map (prepend c)
          else none

def literalText? : List Char → Option (List Char × List Char)
  | [] => none
  | c :: rest =>
      if c = '\'' then some ([], rest)
      else if isPlain c then (literalText? rest).map (prepend c)
      else none

/-- The end of a text in triple quotes: up to two more quotes before the closing three
belong to the text. -/
def closing? (quote : Char) (cs : List Char) : Option (List Char × List Char) :=
  let run := (cs.takeWhile (· = quote)).length
  if run < 3 then none
  else
    let more := min (run - 3) 2
    some (List.replicate more quote, cs.drop (more + 3))

def endsLine (cs : List Char) : Bool :=
  (newline? (cs.dropWhile isBlank)).isSome

/-- Where a reader of a long text stands: at a character, within characters that were read
before, or in the white space after a backslash at the end of a line. -/
inductive LongState where
  | normal
  | skipping (more : Nat)
  | folding

def LongState.isFolding : LongState → Bool
  | folding => true
  | _ => false

def longBasicText? (state : LongState) : List Char → Option (List Char × List Char)
  | [] => none
  | c :: rest =>
      match state with
      | .skipping (more + 1) => longBasicText? (.skipping more) rest
      | state =>
          if state.isFolding && (isBlank c || c = '\n') then
            longBasicText? .folding rest
          else if c = '\r' then
            if rest.head? ≠ some '\n' then none
            else longBasicText? (if state.isFolding then .folding else .normal) rest
          else
            match closing? '"' (c :: rest) with
            | some (last, rest) => some (last, rest)
            | none =>
                if c = '\\' then
                  if endsLine rest then longBasicText? .folding rest
                  else do
                    let (value, length) ← escape? rest
                    let read ← longBasicText? (.skipping length) rest
                    pure (prepend value read)
                else if c = '\n' || isPlain c then
                  (longBasicText? .normal rest).map (prepend c)
                else
                  none

def longLiteralText? : List Char → Option (List Char × List Char)
  | [] => none
  | c :: rest =>
      match closing? '\'' (c :: rest) with
      | some (last, rest) => some (last, rest)
      | none =>
          if c = '\r' then
            if rest.head? = some '\n' then longLiteralText? rest else none
          else if c = '\n' || isPlain c then (longLiteralText? rest).map (prepend c)
          else none

/-- A line break right after the opening quotes does not count. -/
def afterOpening (cs : List Char) : List Char :=
  (newline? cs).getD cs

def quoted? : List Char → Option (List Char × List Char)
  | '"' :: '"' :: '"' :: rest => longBasicText? .normal (afterOpening rest)
  | '"' :: rest => basicText? 0 rest
  | '\'' :: '\'' :: '\'' :: rest => longLiteralText? (afterOpening rest)
  | '\'' :: rest => literalText? rest
  | _ => none

/-!
## Numbers
-/

/-- The digits of a run in which single underscores stand between digits. -/
def ungroup? (isDigit : Char → Bool) : List Char → Option (List Char)
  | [] => none
  | [c] => if isDigit c then some [c] else none
  | c :: '_' :: rest => if isDigit c then (ungroup? isDigit rest).map (c :: ·) else none
  | c :: rest => if isDigit c then (ungroup? isDigit rest).map (c :: ·) else none

def unsign (cs : List Char) : Bool × List Char :=
  match cs with
  | '-' :: rest => (true, rest)
  | '+' :: rest => (false, rest)
  | cs => (false, cs)

/-- A whole part has no zero in front of other digits. -/
def wholeDigits? (cs : List Char) : Option (List Char) := do
  let digits ← ungroup? Char.isDigit cs
  if digits.head? = some '0' ∧ digits ≠ ['0'] then none else pure digits

/-- Integers have sixty-four bits. -/
def bounded? (value : Int) : Option Toml :=
  if Int64.minValue.toInt ≤ value ∧ value ≤ Int64.maxValue.toInt then
    some (.integer value)
  else
    none

def radix? (radix : Nat) (cs : List Char) : Option Toml := do
  let digits ← ungroup? (fun c => (Text.hexValue? c).any (· < radix)) cs
  bounded? (Text.ofRadix radix digits)

def integer? : List Char → Option Toml
  | '0' :: 'x' :: cs => radix? 16 cs
  | '0' :: 'o' :: cs => radix? 8 cs
  | '0' :: 'b' :: cs => radix? 2 cs
  | cs => do
      let (negative, cs) := unsign cs
      let digits ← wholeDigits? cs
      let value : Int := Text.ofDecimal digits
      bounded? (if negative then -value else value)

/-- A decimal is rounded to the nearest double.  One that is too great for a double is no
number, unless it is negative. -/
def decimalFloat? (negative : Bool) (whole fraction : List Char) (exponent : Int) :
    Option Toml :=
  let value : Rat := (Text.ofDecimal (whole ++ fraction) : Rat)
    * (10 : Rat) ^ (exponent - fraction.length)
  match Floating.ofRat .double negative value with
  | .infinite false => none
  | number => some (.float number)

def isExponentMark (c : Char) : Bool := c = 'e' || c = 'E'

def exponent? : List Char → Option Int
  | [] => some 0
  | _ :: cs => do
      let (negative, cs) := unsign cs
      let digits ← ungroup? Char.isDigit cs
      let value : Int := Text.ofDecimal digits
      pure (if negative then -value else value)

def fraction? : List Char → Option (List Char)
  | [] => some []
  | _ :: cs => ungroup? Char.isDigit cs

/-- A size of exponents at which every decimal that can be written is out of range. -/
def exponentBound : Int := 100000

def float? (cs : List Char) : Option Toml :=
  let (negative, unsigned) := unsign cs
  if unsigned = ['i', 'n', 'f'] then some (.float (.infinite negative))
  else if unsigned = ['n', 'a', 'n'] then some (.float (.undefined negative))
  else do
    let mantissa := unsigned.takeWhile (!isExponentMark ·)
    let whole ← wholeDigits? (mantissa.takeWhile (· ≠ '.'))
    let fraction ← fraction? (mantissa.dropWhile (· ≠ '.'))
    let exponent ← exponent? (unsigned.dropWhile (!isExponentMark ·))
    if mantissa = unsigned ∧ fraction.isEmpty then
      none
    else
      decimalFloat? negative whole fraction
        (max (-exponentBound) (min exponentBound exponent))

/-!
## Dates and times
-/

def two? (low high : Nat) : List Char → Option (Nat × List Char)
  | a :: b :: rest =>
      let value := Text.ofDecimal [a, b]
      if a.isDigit ∧ b.isDigit ∧ low ≤ value ∧ value ≤ high then some (value, rest) else none
  | _ => none

def expect? (c : Char) : List Char → Option (List Char)
  | d :: rest => if c = d then some rest else none
  | [] => none

def daysIn (year month : Nat) : Nat :=
  if month = 2 then
    if year % 4 = 0 ∧ (year % 100 ≠ 0 ∨ year % 400 = 0) then 29 else 28
  else if month = 4 ∨ month = 6 ∨ month = 9 ∨ month = 11 then 30
  else 31

def date? (cs : List Char) : Option (List Char) := do
  let (century, cs) ← two? 0 99 cs
  let (year, cs) ← two? 0 99 cs
  let cs ← expect? '-' cs
  let (month, cs) ← two? 1 12 cs
  let cs ← expect? '-' cs
  let (_, cs) ← two? 1 (daysIn (century * 100 + year) month) cs
  pure cs

def time? (cs : List Char) : Option (List Char) := do
  let (_, cs) ← two? 0 23 cs
  let cs ← expect? ':' cs
  let (_, cs) ← two? 0 59 cs
  let cs ← expect? ':' cs
  let (_, cs) ← two? 0 60 cs
  match cs with
  | '.' :: rest =>
      if (rest.head?.any Char.isDigit) then some (rest.dropWhile Char.isDigit) else none
  | cs => some cs

def offset? (cs : List Char) : Option (List Char) :=
  match cs with
  | 'Z' :: rest => some rest
  | 'z' :: rest => some rest
  | '+' :: rest | '-' :: rest => do
      let (_, rest) ← two? 0 23 rest
      let rest ← expect? ':' rest
      let (_, rest) ← two? 0 59 rest
      pure rest
  | cs => some cs

def isJoint (c : Char) : Bool := c = 'T' || c = 't' || c = ' '

def instant? (cs : List Char) : Option Toml := do
  let rest ←
    match date? cs with
    | some (c :: rest) => if isJoint c then time? rest >>= offset? else none
    | some [] => some []
    | none => time? cs
  if rest.isEmpty then some .instant else none

/-!
## Scalars without quotes
-/

def isScalarChar (c : Char) : Bool :=
  c.isAlphanum || c = '_' || c = '+' || c = '-' || c = '.' || c = ':'

/-- The run of characters that a scalar consists of.  A date takes a time along that
follows it after a space. -/
def scalarRun (cs : List Char) : List Char :=
  let run := cs.takeWhile isScalarChar
  match date? run, cs.dropWhile isScalarChar with
  | some [], ' ' :: c :: rest =>
      if c.isDigit then run ++ ' ' :: (c :: rest).takeWhile isScalarChar else run
  | _, _ => run

def bare? (run : List Char) : Option Toml :=
  if run = ['t', 'r', 'u', 'e'] then some (.bool true)
  else if run = ['f', 'a', 'l', 's', 'e'] then some (.bool false)
  else instant? run <|> integer? run <|> float? run

def scalarValue? (cs : List Char) : Option (Toml × List Char) :=
  match quoted? cs with
  | some (value, rest) => some (.text (String.ofList value), rest)
  | none =>
      let run := scalarRun cs
      (bare? run).map fun value => (value, cs.drop run.length)

end Toml
end EndpointTrace
