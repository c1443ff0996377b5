import EndpointTrace.Text.Property

/-!
# White space, letters and digits

The white space of this library is the Unicode property White_Space.  Trimming
removes it at either end of a text and nothing else, and a trimmed text stays as
it is.

Of letters and digits two classes are used: alphanumeric characters (letters and
numbers of any script) and word characters, which also take in combining marks,
connectors such as the underscore, and the two join controls, but no letterless
numbers.  Digits of any radix up to sixteen have a value.
-/

namespace EndpointTrace
namespace Text

/-!
## White space
-/

def isBlank (c : Char) : Bool :=
  let n := c.toNat
  (9 ≤ n && n ≤ 13) || n == 0x20 || n == 0x85 || n == 0xA0 || n == 0x1680
    || (0x2000 ≤ n && n ≤ 0x200A) || n == 0x2028 || n == 0x2029 || n == 0x202F
    || n == 0x205F || n == 0x3000

def trimStart (cs : List Char) : List Char :=
  cs.dropWhile isBlank

def trimEnd (cs : List Char) : List Char :=
  (cs.reverse.dropWhile isBlank).reverse

def trim (cs : List Char) : List Char :=
  trimEnd (trimStart cs)

def trimmed (s : String) : String :=
  String.ofList (trim s.toList)

def isBlankText (cs : List Char) : Bool :=
  cs.all isBlank

def words (cs : List Char) : List (List Char) :=
  (cs.splitOnP isBlank).filter (!·.isEmpty)

theorem trimStart_append_blank {gap cs : List Char} (blank : gap.all isBlank = true) :
    trimStart (gap ++ cs) = trimStart cs := by
  induction gap with
  | nil =>
      rfl
  | cons c rest ih =>
      simp only [List.all_cons, Bool.and_eq_true] at blank
      simp [trimStart, blank.1]
      exact ih blank.2

/-!
## Letters and word characters
-/

def isAsciiLetter (c : Char) : Bool :=
  ('a' ≤ c && c ≤ 'z') || ('A' ≤ c && c ≤ 'Z')

def isAsciiDigit (c : Char) : Bool :=
  '0' ≤ c && c ≤ '9'

def isAlphanumeric (c : Char) : Bool :=
  if c.toNat < 128 then
    isAsciiLetter c || isAsciiDigit c
  else
    Property.alphabetic.contains c || Property.decimalNumber.contains c
      || Property.otherNumber.contains c

def isWordChar (c : Char) : Bool :=
  if c.toNat < 128 then
    isAsciiLetter c || isAsciiDigit c || c == '_'
  else
    Property.alphabetic.contains c || Property.mark.contains c
      || Property.decimalNumber.contains c || Property.connector.contains c
      || Property.joinControl.contains c

/-- A word boundary lies where exactly one of the two neighbours is a word character;
a missing neighbour is none. -/
def isWordBoundary (before after : Option Char) : Bool :=
  before.any isWordChar != after.any isWordChar

/-!
## Values of digits
-/

def digitValue (c : Char) : Nat :=
  c.toNat - '0'.toNat

def hexValue? (c : Char) : Option Nat :=
  if c.isDigit then some (digitValue c)
  else if 'a' ≤ c ∧ c ≤ 'f' then some (c.toNat - 'a'.toNat + 10)
  else if 'A' ≤ c ∧ c ≤ 'F' then some (c.toNat - 'A'.toNat + 10)
  else none

def isHexDigit (c : Char) : Bool :=
  (hexValue? c).isSome

def ofRadix (radix : Nat) (digits : List Char) : Nat :=
  digits.foldl (fun total digit => total * radix + (hexValue? digit).getD 0) 0

def ofDecimal (digits : List Char) : Nat :=
  ofRadix 10 digits

def hexDigit (n : Nat) : Char :=
  if n < 10 then Char.ofNat ('0'.toNat + n) else Char.ofNat ('a'.toNat + (n - 10))

end Text
end EndpointTrace
