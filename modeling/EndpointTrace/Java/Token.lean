import EndpointTrace.Source.Position
import EndpointTrace.Text.Character

/-!
# Tokens

A source text is cut into words, literals and symbols; white space and comments lie
between them.  A token knows where it stands, so the text between any two tokens can
be given back as it is written.
-/

namespace EndpointTrace
namespace Java

inductive TokenKind where
  | word
  | literal
  | symbol
  deriving DecidableEq, Repr

structure Token where
  kind : TokenKind
  text : String
  range : Range
  /-- Number of characters before the token. -/
  index : Nat
  /-- Number of characters of the token. -/
  length : Nat
  /-- The source from the token on. -/
  here : List Char

namespace Token

def isSymbol (token : Token) (text : String) : Bool :=
  token.kind == .symbol && token.text == text

def isWord (token : Token) (text : String) : Bool :=
  token.kind == .word && token.text == text

def through (first last : Token) : String :=
  String.ofList (first.here.take (last.index + last.length - first.index))

end Token

/-!
## Lexemes
-/

def isWordStart (c : Char) : Bool :=
  (Text.isWordChar c && !Text.isAsciiDigit c) || c == '$'

def isWordPart (c : Char) : Bool :=
  Text.isWordChar c || c == '$'

/-- Length of a literal after its opening quote, the closing quote included; a line
feed ends a literal that is not closed. -/
def quotedLength (quote : Char) : List Char → Nat
  | [] => 0
  | '\\' :: _ :: rest => 2 + quotedLength quote rest
  | c :: rest => if c = quote then 1 else if c = '\n' then 0 else 1 + quotedLength quote rest

def textBlockLength : List Char → Nat
  | [] => 0
  | '\\' :: _ :: rest => 2 + textBlockLength rest
  | '"' :: '"' :: '"' :: _ => 3
  | _ :: rest => 1 + textBlockLength rest

def commentLength : List Char → Nat
  | [] => 0
  | '*' :: '/' :: _ => 2
  | _ :: rest => 1 + commentLength rest

/-- Length of a number: letters, digits and underscores, a point before a digit, and a
sign after an exponent. -/
def numberLength (hex : Bool) : List Char → Nat
  | [] => 0
  | e :: sign :: rest =>
      let exponent := if hex then e == 'p' || e == 'P' else e == 'e' || e == 'E'
      if exponent && (sign == '+' || sign == '-') then 2 + numberLength hex rest
      else if isWordPart e then 1 + numberLength hex (sign :: rest)
      else if e == '.' && !isWordStart sign && sign != '.' then
        1 + numberLength hex (sign :: rest)
      else 0
  | [c] => if isWordPart c || c == '.' then 1 else 0

/-- What the text starts with, if it is a token, and its length. -/
def lexeme : List Char → Option TokenKind × Nat
  | [] => (none, 0)
  | '/' :: '/' :: rest => (none, 2 + (rest.takeWhile (· != '\n')).length)
  | '/' :: '*' :: rest => (none, 2 + commentLength rest)
  | '"' :: '"' :: '"' :: rest => (some .literal, 3 + textBlockLength rest)
  | '-' :: '>' :: _ => (some .symbol, 2)
  | ':' :: ':' :: _ => (some .symbol, 2)
  | '.' :: '.' :: '.' :: _ => (some .symbol, 3)
  | c :: rest =>
      if Text.isBlank c then (none, 1)
      else if c = '"' ∨ c = '\'' then (some .literal, 1 + quotedLength c rest)
      else if Text.isAsciiDigit c then
        let hex := c == '0' && (rest.head?.any fun x => x == 'x' || x == 'X')
        (some .literal, 1 + numberLength hex rest)
      else if c = '.' ∧ rest.head?.any Text.isAsciiDigit then
        (some .literal, 1 + numberLength false rest)
      else if isWordStart c then (some .word, 1 + (rest.takeWhile isWordPart).length)
      else (some .symbol, 1)

def advance (position : Position) (c : Char) : Position :=
  if c = '\n' then ⟨position.line + 1, 0⟩
  else ⟨position.line, position.character + c.utf8Size⟩

/-- The tokens of at most `bound` lexemes from a place on. -/
def tokensFrom : Nat → Position → Nat → List Char → List Token
  | 0, _, _, _ => []
  | _, _, _, [] => []
  | bound + 1, position, index, cs =>
      let (kind, length) := lexeme cs
      let taken := cs.take length
      let stop := taken.foldl advance position
      let more := tokensFrom bound stop (index + length) (cs.drop length)
      match kind with
      | none => more
      | some kind => ⟨kind, String.ofList taken, ⟨position, stop⟩, index, length, cs⟩ :: more

def tokens (source : List Char) : List Token :=
  tokensFrom source.length ⟨0, 0⟩ 0 source

end Java
end EndpointTrace
