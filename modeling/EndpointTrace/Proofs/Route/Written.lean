import EndpointTrace.Proofs.Source.Scanning
import EndpointTrace.Proofs.Text.Characters
import EndpointTrace.Route.Mapping

/-!
# Written annotations

How a route annotation is written: a name, perhaps qualified, and an attribute list in
parentheses.  The attribute list is a single value or a list of keys with their values; it
is a sequence of tokens, laid out with white space and comments between any two of them.

A value is one expression or a list of expressions in braces; an expression joins string
literals and constants.  Beside what is written stands what it says: the method and the
paths.
-/

namespace EndpointTrace
namespace Written

open LexicalView (Labelled)

/-!
## White space and comments
-/

inductive Filler where
  | blank (c : Char) (white : Text.isBlank c = true)
  | lineComment (text : List Char) (oneLine : '\n' ∉ text)
  | blockComment (text : List Char) (unended : ¬ ['*', '/'] <:+: text)

def Filler.labelled : Filler → Labelled
  | blank c _ => .ofCode [c]
  | lineComment text _ => .ofLineComment text
  | blockComment text _ => .ofBlockComment text

abbrev Gap := List Filler

def Gap.labelled (gap : Gap) : Labelled :=
  gap.flatMap Filler.labelled

/-!
## Tokens
-/

inductive LiteralPart where
  | plain (c : Char) (allowed : c ≠ '"' ∧ c ≠ '\\' ∧ c ≠ '\n')
  | escape (c : Char) (allowed : c ≠ '\n')

def LiteralPart.text : LiteralPart → List Char
  | plain c _ => [c]
  | escape c _ => ['\\', c]

abbrev Literal := List LiteralPart

def Literal.content (literal : Literal) : List Char :=
  literal.flatMap LiteralPart.text

def Literal.labelled (literal : Literal) : Labelled :=
  .ofCode ['"'] ++ .inRegion (.literal '"') (literal.content ++ ['"'])

structure Identifier where
  chars : List Char
  nonempty : chars ≠ []
  parts : chars.all AnnotationName.isNamePart = true

/-- An identifier of word characters: letters, digits and underscores. -/
structure Word where
  chars : List Char
  nonempty : chars ≠ []
  parts : chars.all Text.isWordChar = true

def Word.identifier (word : Word) : Identifier where
  chars := word.chars
  nonempty := word.nonempty
  parts := by
    apply List.all_eq_true.mpr
    intro c hc
    exact Text.isNamePart_of_isWordChar (List.all_eq_true.mp word.parts c hc)

inductive Mark where
  | comma
  | equals
  | dot
  | plus
  | opening
  | closing
  deriving DecidableEq

def Mark.char : Mark → Char
  | comma => ','
  | equals => '='
  | dot => '.'
  | plus => '+'
  | opening => '{'
  | closing => '}'

inductive Token where
  | name (identifier : Identifier)
  | literal (written : Literal)
  | mark (sign : Mark)

def Token.labelled : Token → Labelled
  | name identifier => .ofCode identifier.chars
  | literal written => written.labelled
  | mark sign => .ofCode [sign.char]

structure Placed where
  gap : Gap
  token : Token

def Placed.labelled (placed : Placed) : Labelled :=
  placed.gap.labelled ++ placed.token.labelled

abbrev Layout := List Placed

def evenly (gap : Gap) (tokens : List Token) : Layout :=
  tokens.map fun token => ⟨gap, token⟩

theorem map_token_evenly (gap : Gap) (tokens : List Token) :
    (evenly gap tokens).map Placed.token = tokens := by
  rw [evenly, List.map_map]
  exact List.map_id tokens

def Layout.labelled (layout : Layout) : Labelled :=
  layout.flatMap Placed.labelled

/-!
## Attribute lists
-/

def commaSeparated : List (List Token) → List Token
  | [] => []
  | first :: rest => first ++ rest.flatMap (Token.mark .comma :: ·)

def inBraces (items : List (List Token)) : List Token :=
  .mark .opening :: commaSeparated items ++ [.mark .closing]

inductive Operand where
  | literal (written : Literal)
  | constant (first : Identifier) (rest : List Identifier)

structure Expression where
  first : Operand
  rest : List Operand

inductive Value where
  | single (expression : Expression)
  | list (expressions : List Expression)

/-- The name of a method, perhaps with `RequestMethod` and a dot before it. -/
structure MethodName where
  qualified : Bool
  word : Word

inductive MethodValue where
  | single (name : MethodName)
  | list (names : List MethodName)

inductive PathKey where
  | value
  | path

inductive Attribute where
  | path (key : PathKey) (value : Value)
  | method (value : MethodValue)
  | other (key : Word)
      (different : key.chars ∉ Attributes.pathKeys ++ Attributes.methodKeys) (value : Value)

inductive AttributeList where
  | positional (value : Value)
  | keyed (attributes : List Attribute)

def requestMethod : Word := ⟨"RequestMethod".toList, by decide, by decide⟩

def valueKey : Word := ⟨"value".toList, by decide, by decide⟩

def pathKey : Word := ⟨"path".toList, by decide, by decide⟩

def methodKey : Word := ⟨"method".toList, by decide, by decide⟩

def Operand.tokens : Operand → List Token
  | literal written => [.literal written]
  | constant first rest =>
      .name first :: rest.flatMap fun identifier => [.mark .dot, .name identifier]

def Expression.tokens (expression : Expression) : List Token :=
  expression.first.tokens ++
    expression.rest.flatMap fun operand => .mark .plus :: operand.tokens

def Value.tokens : Value → List Token
  | single expression => expression.tokens
  | list expressions => inBraces (expressions.map Expression.tokens)

def MethodName.tokens (name : MethodName) : List Token :=
  if name.qualified then
    [.name requestMethod.identifier, .mark .dot, .name name.word.identifier]
  else
    [.name name.word.identifier]

def MethodValue.tokens : MethodValue → List Token
  | single name => name.tokens
  | list names => inBraces (names.map MethodName.tokens)

def PathKey.word : PathKey → Word
  | value => valueKey
  | path => pathKey

def Attribute.key : Attribute → Word
  | path key _ => key.word
  | method _ => methodKey
  | other key _ _ => key

def Attribute.valueTokens : Attribute → List Token
  | path _ value => value.tokens
  | method value => value.tokens
  | other _ _ value => value.tokens

def Attribute.tokens (entry : Attribute) : List Token :=
  .name entry.key.identifier :: .mark .equals :: entry.valueTokens

def AttributeList.tokens : AttributeList → List Token
  | positional value => value.tokens
  | keyed attributes => commaSeparated (attributes.map Attribute.tokens)

/-!
## Annotations
-/

/-- A part of a qualified name, with its dot and the gaps around the dot. -/
structure Segment where
  first : Char
  rest : List Char
  initial : AnnotationName.isNameStart first = true
  parts : rest.all AnnotationName.isNamePart = true
  before : Gap
  after : Gap

def Segment.labelled (segment : Segment) : Labelled :=
  .ofCode (segment.first :: segment.rest) ++ segment.before.labelled ++ .ofCode ['.'] ++
    segment.after.labelled

/-- A mapping annotation, with the layout of its attribute list. -/
structure Mapping where
  qualifier : List Segment
  rule : MappingRule
  known : rule ∈ AnnotationRules.defaultMappings
  gap : Gap
  attributes : AttributeList
  layout : Layout
  laidOut : layout.map Placed.token = attributes.tokens
  trailing : Gap

namespace Mapping

variable (mapping : Mapping)

def inner : Labelled :=
  mapping.layout.labelled ++ mapping.trailing.labelled

def list : Labelled :=
  mapping.gap.labelled ++ .ofCode ['('] ++ mapping.inner ++ .ofCode [')']

def head : Labelled :=
  mapping.qualifier.flatMap Segment.labelled ++ .ofCode mapping.rule.name.toList

def labelled : Labelled :=
  .ofCode ['@'] ++ mapping.head ++ mapping.list

def text : List Char :=
  mapping.labelled.text

end Mapping

/-!
## What an annotation says
-/

def MethodName.method? (name : MethodName) : Option Method :=
  Method.all.find? fun method =>
    Text.equalIgnoringAsciiCase method.name.toList name.word.chars

def MethodValue.names : MethodValue → List MethodName
  | single name => [name]
  | list names => names

def Literal.path (literal : Literal) : String :=
  String.ofList (Text.trim literal.content)

def Expression.literal? : Expression → Option Literal
  | ⟨.literal written, []⟩ => some written
  | _ => none

/-- The literals of a value that is a string literal or a list of them. -/
def Value.literals? : Value → Option (List Literal)
  | single expression => expression.literal?.map fun written => [written]
  | list expressions => expressions.mapM Expression.literal?

def Attribute.pathValue? : Attribute → Option Value
  | path _ value => some value
  | _ => none

def Attribute.methodValue? : Attribute → Option MethodValue
  | method value => some value
  | _ => none

def AttributeList.pathValue? : AttributeList → Option Value
  | positional value => some value
  | keyed attributes => attributes.findSome? Attribute.pathValue?

def AttributeList.methodValue? : AttributeList → Option MethodValue
  | positional _ => none
  | keyed attributes => attributes.findSome? Attribute.methodValue?

/-- The paths of a list of literals; an empty list stands for the root. -/
def pathsOf : List Literal → List String
  | [] => ["/"]
  | literals => literals.map Literal.path

namespace Mapping

variable (mapping : Mapping)

/-- The method of the annotation name, or the first supported one that is listed, or
GET. -/
def method : Method :=
  let listed := (mapping.attributes.methodValue?.map MethodValue.names).getD []
  mapping.rule.method.getD ((listed.findSome? MethodName.method?).getD .get)

/-- The paths, if they are spelled out by literals; without a path value, the root. -/
def paths? : Option (List String) :=
  match mapping.attributes.pathValue? with
  | none => some ["/"]
  | some value => value.literals?.map pathsOf

end Mapping

end Written
end EndpointTrace
