import EndpointTrace.Route.Method
import EndpointTrace.Source.LexicalView
import EndpointTrace.Text.Character
import EndpointTrace.Text.Bytes
import EndpointTrace.Text.Matches

/-!
# Attributes of a route annotation

The attribute list is the text between the parentheses of an annotation.  Keys are
looked up where the contents of literals are hidden; values are read from the text
itself.  A path value is a string literal or a brace list of them; any other value
gives no paths at all.
-/

namespace EndpointTrace
namespace Attributes

/-!
## Brackets
-/

inductive Quoting where
  | outside
  | inside (escaped : Bool)
  deriving DecidableEq, Repr

/-- The text before the bracket that closes `depth + 1` open ones, or all of it. -/
def beforeClosing (opening closing : Char) : Nat → Quoting → List Char → List Char
  | _, _, [] => []
  | depth, .inside escaped, c :: rest =>
      let quoting :=
        if escaped then Quoting.inside false
        else if c = '\\' then .inside true
        else if c = '"' then .outside
        else .inside false
      c :: beforeClosing opening closing depth quoting rest
  | depth, .outside, c :: rest =>
      if c = '"' then c :: beforeClosing opening closing depth (.inside false) rest
      else if c = opening then c :: beforeClosing opening closing (depth + 1) .outside rest
      else if c = closing then
        match depth with
        | 0 => []
        | depth + 1 => c :: beforeClosing opening closing depth .outside rest
      else c :: beforeClosing opening closing depth .outside rest

/-- What stands between the parentheses that open at the start of the text, white
space aside; unclosed parentheses hold the rest of the text. -/
def list? (cs : List Char) : Option (List Char) :=
  match Text.trimStart cs with
  | '(' :: inner => some (beforeClosing '(' ')' 0 .outside inner)
  | _ => none

def braced (inner : List Char) : List Char :=
  beforeClosing '{' '}' 0 .outside inner

/-!
## Keys
-/

def valueAt? (keys : List (List Char)) (cs : List Char) : Option (List Char) :=
  keys.findSome? fun key =>
    match (Text.after? key cs).map Text.trimStart with
    | some ('=' :: value) => some (Text.trimStart value)
    | _ => none

/-- The text from the value of the first such key on. -/
def valueOf? (keys : List (List Char)) : Option Char → List Char → Option (List Char)
  | _, [] => none
  | before, c :: rest =>
      let here := if before.any Text.isWordChar then none else valueAt? keys (c :: rest)
      here.or (valueOf? keys (some c) rest)

def pathKeys : List (List Char) := ["value".toList, "path".toList]

def methodKeys : List (List Char) := ["method".toList]

/-!
## String literals
-/

/-- Content of a string literal after its opening quote, and the text behind it.  A
backslash takes the next character with it, which may not be a line feed. -/
def literalBody? : List Char → Option (List Char × List Char)
  | [] => none
  | '"' :: rest => some ([], rest)
  | ['\\'] => none
  | '\\' :: c :: rest =>
      if c = '\n' then none
      else (literalBody? rest).map fun (content, left) => ('\\' :: c :: content, left)
  | c :: rest => (literalBody? rest).map fun (content, left) => (c :: content, left)

def literal? : List Char → Option (List Char × List Char)
  | '"' :: rest => literalBody? rest
  | _ => none

def literals (cs : List Char) : List (List Char) :=
  (Text.occurrences literal? cs).map fun found => Text.trim found.1

/-!
## Values
-/

def pathsOfValue? (value : List Char) : Option (List (List Char)) :=
  match Text.trimStart value with
  | '"' :: rest => (literals ('"' :: rest)).head?.map fun path => [path]
  | '{' :: inner =>
      match literals (braced inner) with
      | [] => some [['/']]
      | paths => some paths
  | _ => none

/-- Where the value of the path key starts, counted in bytes. -/
def pathValueStart? (attributes : List Char) : Option Nat :=
  let masked := LexicalView.maskLiterals attributes
  (valueOf? pathKeys none masked).map fun value => Text.byteSize masked - Text.byteSize value

/-- The declared paths: those under `value` or `path`, those of a value without a key,
or the root where neither is given. -/
def paths? (attributes : List Char) : Option (List (List Char)) :=
  match pathValueStart? attributes with
  | some start => pathsOfValue? (Text.dropBytes start attributes)
  | none =>
      match Text.trimStart attributes with
      | '"' :: _ | '{' :: _ => pathsOfValue? attributes
      | _ => some [['/']]

def letterWords (cs : List Char) : List (List Char) :=
  (cs.splitOnP fun c => !Text.isWordChar c).filter fun word =>
    !word.isEmpty && word.all Text.isAsciiLetter

def method? (attributes : List Char) : Option Method :=
  match valueOf? methodKeys none (LexicalView.maskLiterals attributes) with
  | none => none
  | some value =>
      let listed :=
        match value with
        | '{' :: inner => braced inner
        | _ => value.takeWhile fun c => c != ',' && c != ')'
      (letterWords listed).findSome? Method.ofChars?

end Attributes
end EndpointTrace
