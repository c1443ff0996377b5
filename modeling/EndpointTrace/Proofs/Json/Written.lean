import EndpointTrace.Json.Reader
import Mathlib.Tactic.Common

/-!
# Written JSON

How a JSON value is written: as a sequence of tokens, laid out with blanks between any two
of them.  A character between quotes stands for itself, or is written as a backslash with
a letter, as a code unit of four hexadecimal digits, or as a pair of code units; every
choice is allowed at every place.  Beside what is written stands the value that it means.

Numbers are those that the reader can hold, and a text is one of characters, so code units
that are surrogates come in pairs.
-/

namespace EndpointTrace
namespace JsonText

/-!
## Texts
-/

structure HexDigit where
  char : Char
  value : Nat
  reads : Text.hexValue? char = some value

structure CodeUnit where
  first : HexDigit
  second : HexDigit
  third : HexDigit
  fourth : HexDigit

namespace CodeUnit

def value (unit : CodeUnit) : Nat :=
  unit.first.value * 0x1000 + unit.second.value * 0x100 + unit.third.value * 0x10
    + unit.fourth.value

def chars (unit : CodeUnit) : List Char :=
  [unit.first.char, unit.second.char, unit.third.char, unit.fourth.char]

end CodeUnit

/-- The letters that may follow a backslash, with what they stand for. -/
def shortForms : List (Char × Char) :=
  [('"', '"'), ('\\', '\\'), ('/', '/'), ('b', '\x08'), ('f', '\x0c'), ('n', '\n'),
    ('r', '\r'), ('t', '\t')]

inductive QuotedChar where
  | plain (c : Char) (allowed : 0x20 ≤ c.toNat ∧ c ≠ '"' ∧ c ≠ '\\')
  | short (letter c : Char) (stands : (letter, c) ∈ shortForms)
  | unit (code : CodeUnit) (c : Char) (names : code.value = c.toNat)
  | pair (high low : CodeUnit) (c : Char)
      (inHigh : 0xD800 ≤ high.value ∧ high.value ≤ 0xDBFF)
      (inLow : 0xDC00 ≤ low.value ∧ low.value ≤ 0xDFFF)
      (names : 0x10000 + (high.value - 0xD800) * 0x400 + (low.value - 0xDC00) = c.toNat)

namespace QuotedChar

def value : QuotedChar → Char
  | plain c _ => c
  | short _ c _ => c
  | unit _ c _ => c
  | pair _ _ c _ _ _ => c

def chars : QuotedChar → List Char
  | plain c _ => [c]
  | short letter _ _ => ['\\', letter]
  | unit code _ _ => '\\' :: 'u' :: code.chars
  | pair high low _ _ _ _ => '\\' :: 'u' :: high.chars ++ '\\' :: 'u' :: low.chars

end QuotedChar

abbrev Quoted := List QuotedChar

namespace Quoted

def value (quoted : Quoted) : String :=
  String.ofList (quoted.map QuotedChar.value)

def chars (quoted : Quoted) : List Char :=
  quoted.flatMap QuotedChar.chars

end Quoted

/-!
## Numbers
-/

structure Digits where
  chars : List Char
  nonempty : chars ≠ []
  digits : chars.all Char.isDigit = true

/-- The digits before the point: a zero alone, or digits that start with another one. -/
inductive Whole where
  | zero
  | digits (first : Char) (rest : List Char) (nonzero : first ≠ '0')
      (digits : (first :: rest).all Char.isDigit = true)

def Whole.chars : Whole → List Char
  | zero => ['0']
  | digits first rest _ _ => first :: rest

inductive Sign where
  | unwritten
  | plus
  | minus
  deriving DecidableEq

def Sign.chars : Sign → List Char
  | unwritten => []
  | plus => ['+']
  | minus => ['-']

structure Exponent where
  capital : Bool
  sign : Sign
  digits : Digits

namespace Exponent

def chars (exponent : Exponent) : List Char :=
  (if exponent.capital then 'E' else 'e') :: (exponent.sign.chars ++ exponent.digits.chars)

def value (exponent : Exponent) : Int :=
  let magnitude : Int := Text.ofDecimal exponent.digits.chars
  if exponent.sign = .minus then -magnitude else magnitude

end Exponent

structure Number where
  negative : Bool
  whole : Whole
  fraction : Option Digits
  exponent : Option Exponent

namespace Number

def fractionChars (number : Number) : List Char :=
  match number.fraction with
  | none => []
  | some digits => '.' :: digits.chars

def exponentChars (number : Number) : List Char :=
  match number.exponent with
  | none => []
  | some exponent => exponent.chars

def chars (number : Number) : List Char :=
  (if number.negative then ['-'] else []) ++
    (number.whole.chars ++ (number.fractionChars ++ number.exponentChars))

def numeral (number : Number) : JsonToken.Numeral :=
  ⟨number.negative, number.whole.chars, (number.fraction.map Digits.chars).getD [],
    number.exponent.map Exponent.value⟩

end Number

/-!
## Tokens
-/

inductive Mark where
  | openList
  | closeList
  | openObject
  | closeObject
  | colon
  | comma
  deriving DecidableEq

namespace Mark

def char : Mark → Char
  | openList => '['
  | closeList => ']'
  | openObject => '{'
  | closeObject => '}'
  | colon => ':'
  | comma => ','

def token : Mark → JsonToken
  | openList => .openList
  | closeList => .closeList
  | openObject => .openObject
  | closeObject => .closeObject
  | colon => .colon
  | comma => .comma

end Mark

inductive Token where
  | mark (sign : Mark)
  | null
  | bool (value : Bool)
  | number (written : Number) (value : JsonNumber) (fits : written.numeral.number? = some value)
  | text (quoted : Quoted)

namespace Token

def chars : Token → List Char
  | mark sign => [sign.char]
  | null => ['n', 'u', 'l', 'l']
  | bool true => ['t', 'r', 'u', 'e']
  | bool false => ['f', 'a', 'l', 's', 'e']
  | number written _ _ => written.chars
  | text quoted => '"' :: quoted.chars ++ ['"']

def IsNumber : Token → Prop
  | number _ _ _ => True
  | _ => False

def IsMark : Token → Prop
  | mark _ => True
  | _ => False

def token : Token → JsonToken
  | mark sign => sign.token
  | null => .scalar .null
  | bool value => .scalar (.bool value)
  | number _ value _ => .scalar (.number value)
  | text quoted => .scalar (.text quoted.value)

end Token

structure Gap where
  chars : List Char
  blank : chars.all JsonToken.isBlank = true

structure Placed where
  gap : Gap
  token : Token

def Placed.chars (placed : Placed) : List Char :=
  placed.gap.chars ++ placed.token.chars

abbrev Layout := List Placed

def Layout.chars (layout : Layout) : List Char :=
  layout.flatMap Placed.chars

/-!
## Values
-/

inductive Value where
  | null
  | bool (value : Bool)
  | number (written : Number) (value : JsonNumber) (fits : written.numeral.number? = some value)
  | text (quoted : Quoted)
  | list (items : List Value)
  | object (fields : List (Quoted × Value))

namespace Value

mutual

def tokens : Value → List Token
  | null => [.null]
  | bool value => [.bool value]
  | number written value fits => [.number written value fits]
  | text quoted => [.text quoted]
  | list [] => [.mark .openList, .mark .closeList]
  | list (first :: rest) =>
      .mark .openList :: (first.tokens ++ (itemTokens rest ++ [.mark .closeList]))
  | object [] => [.mark .openObject, .mark .closeObject]
  | object ((key, first) :: rest) =>
      .mark .openObject :: .text key :: .mark .colon ::
        (first.tokens ++ (fieldTokens rest ++ [.mark .closeObject]))

def itemTokens : List Value → List Token
  | [] => []
  | item :: rest => .mark .comma :: (item.tokens ++ itemTokens rest)

def fieldTokens : List (Quoted × Value) → List Token
  | [] => []
  | (key, value) :: rest =>
      .mark .comma :: .text key :: .mark .colon :: (value.tokens ++ fieldTokens rest)

end

mutual

def meaning : Value → JsonValue
  | null => .null
  | bool value => .bool value
  | number _ value _ => .number value
  | text quoted => .text quoted.value
  | list items => .list (meanings items)
  | object fields => .ofFields (fieldMeanings fields)

def meanings : List Value → List JsonValue
  | [] => []
  | item :: rest => item.meaning :: meanings rest

def fieldMeanings : List (Quoted × Value) → List (String × JsonValue)
  | [] => []
  | (key, value) :: rest => (key.value, value.meaning) :: fieldMeanings rest

end

mutual

def depth : Value → Nat
  | null => 0
  | bool _ => 0
  | number _ _ _ => 0
  | text _ => 0
  | list items => depthItems items + 1
  | object fields => depthFields fields + 1

def depthItems : List Value → Nat
  | [] => 0
  | item :: rest => max item.depth (depthItems rest)

def depthFields : List (Quoted × Value) → Nat
  | [] => 0
  | (_, value) :: rest => max value.depth (depthFields rest)

end

end Value

end JsonText

/-- A JSON text: a value that is written somehow, and perhaps blanks after it. -/
structure JsonText where
  value : JsonText.Value
  layout : JsonText.Layout
  tokens_eq : layout.map JsonText.Placed.token = value.tokens
  gap : JsonText.Gap

namespace JsonText

def chars (text : JsonText) : List Char :=
  text.layout.chars ++ text.gap.chars

/-!
## The blanks around a text
-/

def Gap.none : Gap :=
  ⟨[], rfl⟩

def Layout.before : Layout → Gap
  | [] => .none
  | first :: _ => first.gap

def Layout.bare : Layout → Layout
  | [] => []
  | first :: rest => ⟨.none, first.token⟩ :: rest

theorem Layout.chars_bare (layout : Layout) :
    layout.chars = layout.before.chars ++ layout.bare.chars := by
  cases layout with
  | nil =>
      rfl
  | cons first rest =>
      simp only [Layout.chars, Layout.bare, Layout.before, List.flatMap_cons, Placed.chars,
        Gap.none, List.nil_append, List.append_assoc]

theorem Layout.tokens_bare (layout : Layout) :
    layout.bare.map Placed.token = layout.map Placed.token := by
  cases layout <;> rfl

/-- The text without the blanks around it. -/
def bare (text : JsonText) : JsonText :=
  ⟨text.value, text.layout.bare, text.layout.tokens_bare.trans text.tokens_eq, .none⟩

theorem chars_bare (text : JsonText) :
    text.chars = text.layout.before.chars ++ text.bare.chars ++ text.gap.chars := by
  rw [chars, text.layout.chars_bare, chars]
  simp only [bare, Gap.none, List.append_nil]

theorem Value.tokens_object (fields : List (Quoted × Value)) :
    ∃ inner, (Value.object fields).tokens =
      .mark .openObject :: (inner ++ [.mark .closeObject]) := by
  cases fields with
  | nil =>
      exact ⟨[], by rw [tokens]; rfl⟩
  | cons field rest =>
      refine ⟨.text field.1 :: .mark .colon :: (field.2.tokens ++ fieldTokens rest), ?_⟩
      rw [tokens]
      simp only [List.cons_append, List.append_assoc]

theorem bare_object {text : JsonText} {fields : List (Quoted × Value)}
    (hvalue : text.value = .object fields) :
    ∃ inner, text.bare.chars = ('{' :: inner) ++ ['}'] := by
  rcases Value.tokens_object fields with ⟨innerTokens, htokens⟩
  have hlayout := text.tokens_eq
  rw [hvalue, htokens] at hlayout
  rcases List.map_eq_cons_iff.mp hlayout with ⟨first, others, hfirst, hopen, hothers⟩
  rcases List.map_eq_append_iff.mp hothers with ⟨middle, ending, hmiddle, _, hending⟩
  rcases List.map_eq_singleton_iff.mp hending with ⟨last, rfl, hclose⟩
  refine ⟨Layout.chars middle ++ last.gap.chars, ?_⟩
  simp only [chars, bare, hfirst, hmiddle, Layout.bare, Layout.chars, List.flatMap_cons,
    List.flatMap_append, List.flatMap_nil, Placed.chars, Gap.none, hopen, hclose,
    Token.chars, Mark.char, List.nil_append, List.append_nil, List.cons_append,
    List.append_assoc]

/-!
## Texts on one line
-/

theorem HexDigit.ne_lineFeed (digit : HexDigit) : digit.char ≠ '\n' := by
  intro hfeed
  have hreads := digit.reads
  rw [hfeed] at hreads
  cases hreads

theorem CodeUnit.lineFeed_not_mem (code : CodeUnit) : '\n' ∉ code.chars := by
  simp only [chars, List.mem_cons, List.not_mem_nil, or_false, not_or]
  exact ⟨code.first.ne_lineFeed.symm, code.second.ne_lineFeed.symm,
    code.third.ne_lineFeed.symm, code.fourth.ne_lineFeed.symm⟩

theorem QuotedChar.lineFeed_not_mem (quoted : QuotedChar) : '\n' ∉ quoted.chars := by
  cases quoted with
  | plain c allowed =>
      intro hmem
      rw [chars, List.mem_singleton] at hmem
      rw [← hmem] at allowed
      exact absurd allowed.1 (by decide)
  | short letter c stands =>
      have hletters : ∀ form ∈ shortForms, '\n' ∉ ['\\', form.1] := by
        decide
      exact hletters _ stands
  | unit code c names =>
      simp only [chars, List.mem_cons, not_or]
      exact ⟨by decide, by decide, code.lineFeed_not_mem⟩
  | pair high low c inHigh inLow names =>
      simp only [chars, List.cons_append, List.mem_cons, List.mem_append, not_or]
      exact ⟨by decide, by decide, high.lineFeed_not_mem, by decide, by decide,
        low.lineFeed_not_mem⟩

theorem Quoted.lineFeed_not_mem (quoted : Quoted) : '\n' ∉ quoted.chars := by
  simp only [Quoted.chars, List.mem_flatMap, not_exists, not_and]
  exact fun c _ => c.lineFeed_not_mem

theorem hexValue?_hexDigit : ∀ {n : Nat}, n < 16 →
    Text.hexValue? (Text.hexDigit n) = some n := by
  decide

def HexDigit.ofNat (n : Nat) (hn : n < 16) : HexDigit :=
  ⟨Text.hexDigit n, n, hexValue?_hexDigit hn⟩

/-- Every character can be written; one way is that of the values themselves. -/
theorem exists_quotedChar (c : Char) :
    ∃ quoted : QuotedChar, quoted.value = c ∧ quoted.chars = JsonValue.escape c := by
  unfold JsonValue.escape
  split
  · exact ⟨.short '"' '"' (by decide), rfl, rfl⟩
  · exact ⟨.short '\\' '\\' (by decide), rfl, rfl⟩
  · exact ⟨.short 'n' '\n' (by decide), rfl, rfl⟩
  · exact ⟨.short 'r' '\r' (by decide), rfl, rfl⟩
  · exact ⟨.short 't' '\t' (by decide), rfl, rfl⟩
  · exact ⟨.short 'b' '\x08' (by decide), rfl, rfl⟩
  · exact ⟨.short 'f' '\x0c' (by decide), rfl, rfl⟩
  · rename_i hquote hbackslash _ _ _ _ _
    split
    · rename_i hcontrol
      have hhigh : c.toNat / 16 < 16 := by omega
      have hlow : c.toNat % 16 < 16 := by omega
      refine ⟨.unit ⟨.ofNat 0 (by omega), .ofNat 0 (by omega), .ofNat _ hhigh,
        .ofNat _ hlow⟩ c ?_, rfl, rfl⟩
      simp only [CodeUnit.value, HexDigit.ofNat]
      omega
    · rename_i hprinted
      exact ⟨.plain c ⟨by omega, hquote, hbackslash⟩, rfl, rfl⟩

theorem exists_quoted (text : String) :
    ∃ quoted : Quoted, quoted.value = text ∧
      quoted.chars = text.toList.flatMap JsonValue.escape := by
  have hchars : ∀ cs : List Char, ∃ quoted : Quoted,
      quoted.map QuotedChar.value = cs ∧ quoted.chars = cs.flatMap JsonValue.escape := by
    intro cs
    induction cs with
    | nil =>
        exact ⟨[], rfl, rfl⟩
    | cons c rest ih =>
        rcases exists_quotedChar c with ⟨first, hvalue, hfirst⟩
        rcases ih with ⟨others, hvalues, hothers⟩
        refine ⟨first :: others, ?_, ?_⟩
        · rw [List.map_cons, hvalue, hvalues]
        · rw [List.flatMap_cons, ← hfirst, ← hothers]
          rfl
  rcases hchars text.toList with ⟨quoted, hvalue, hquoted⟩
  exact ⟨quoted, by rw [Quoted.value, hvalue, String.ofList_toList], hquoted⟩

def compact (value : Value) : JsonText where
  value := value
  layout := value.tokens.map fun token => ⟨.none, token⟩
  tokens_eq := by
    rw [List.map_map]
    exact List.map_id _
  gap := .none

theorem chars_compact (value : Value) :
    (compact value).chars = value.tokens.flatMap Token.chars := by
  simp only [chars, compact, Layout.chars, List.flatMap_map, Placed.chars, Gap.none,
    List.nil_append, List.append_nil]

end JsonText

end EndpointTrace
