import EndpointTrace.Java.Token
import EndpointTrace.Java.Tree

/-!
# Parsing

A parser for declarations and invocations.  Type bodies are read member by member.
Method bodies and field values are read as a sequence of items: blocks, nested
declarations, and primary expressions with the chain of selections behind them, in
which every call is an invocation.  Tokens that open nothing are passed over, so every
text has a tree.

The depth of the recursion is bounded by a number that grows with the text.
-/

namespace EndpointTrace
namespace Java

abbrev Tokens := List Token

/-- What was read: the nodes, the last token taken, and the tokens left. -/
structure Parsed where
  nodes : List Node
  last : Token
  rest : Tokens

def startsWith (symbol : String) (tokens : Tokens) : Bool :=
  tokens.head?.any (·.isSymbol symbol)

/-!
## Skipping
-/

def isOpening (token : Token) : Bool :=
  token.kind == .symbol && ["(", "[", "\x7b"].contains token.text

def isClosing (token : Token) : Bool :=
  token.kind == .symbol && [")", "]", "\x7d"].contains token.text

def afterClosing : Nat → Tokens → Tokens
  | _, [] => []
  | depth, token :: rest =>
      if isOpening token then afterClosing (depth + 1) rest
      else if isClosing token then
        match depth with
        | 0 => rest
        | depth + 1 => afterClosing depth rest
      else afterClosing depth rest

def afterAngles? : Nat → Tokens → Option (Token × Tokens)
  | _, [] => none
  | depth, token :: rest =>
      if token.isSymbol "<" then afterAngles? (depth + 1) rest
      else if token.isSymbol ">" then
        match depth with
        | 0 => some (token, rest)
        | depth + 1 => afterAngles? depth rest
      else if token.kind == .word
          || (token.kind == .symbol && [".", ",", "?", "&", "[", "]", "@"].contains token.text)
      then afterAngles? depth rest
      else none

def afterQualified : Tokens → Tokens
  | [] => []
  | [token] => if token.kind == .word then [] else [token]
  | token :: dot :: rest =>
      if token.kind == .word then
        if dot.isSymbol "." then afterQualified rest else dot :: rest
      else token :: dot :: rest

def afterMark (tokens : Tokens) : Tokens :=
  match afterQualified tokens with
  | [] => []
  | token :: rest => if token.isSymbol "(" then afterClosing 0 rest else token :: rest

def modifiers : List String :=
  ["public", "protected", "private", "static", "abstract", "final", "native",
    "synchronized", "transient", "volatile", "strictfp", "default", "sealed", "non"]

def afterModifiers : Nat → Tokens → Tokens
  | 0, tokens => tokens
  | _, [] => []
  | bound + 1, token :: rest =>
      if token.isSymbol "@" && !rest.head?.any (·.isWord "interface") then
        afterModifiers bound (afterMark rest)
      else if token.kind == .word && modifiers.contains token.text then
        if token.text == "non" && startsWith "-" rest then afterModifiers bound (rest.drop 1)
        else afterModifiers bound rest
      else token :: rest

def afterAnnotations : Nat → Tokens → Tokens
  | bound + 1, token :: rest =>
      if token.isSymbol "@" then afterAnnotations bound (afterMark rest) else token :: rest
  | _, tokens => tokens

def afterDimension? (bound : Nat) (tokens : Tokens) : Option (Token × Tokens) :=
  match afterAnnotations bound tokens with
  | left :: right :: rest =>
      if left.isSymbol "[" && right.isSymbol "]" then some (right, rest) else none
  | _ => none

def afterDimensions : Nat → Tokens → Tokens
  | 0, tokens => tokens
  | bound + 1, tokens =>
      match afterDimension? bound tokens with
      | some (_, rest) => afterDimensions bound rest
      | none => tokens

/-- The last token of a type whose first name has been taken, and the tokens after. -/
def afterType : Nat → Token → Tokens → Token × Tokens
  | 0, last, tokens => (last, tokens)
  | bound + 1, last, tokens =>
      match tokens with
      | token :: next :: rest =>
          if token.isSymbol "<" then
            match afterAngles? 0 (next :: rest) with
            | some (closing, rest) => afterType bound closing rest
            | none => (last, tokens)
          else if token.isSymbol "." && next.kind == .word then afterType bound next rest
          else if token.isSymbol "." && next.isSymbol "@" then
            match afterMark rest with
            | name :: rest => afterType bound name rest
            | [] => (last, tokens)
          else
            match afterDimension? bound tokens with
            | some (closing, rest) => afterType bound closing rest
            | none => (last, tokens)
      | _ => (last, tokens)

/-- The tokens after a type and, if there is one, the record pattern it starts. -/
def afterPattern (tokens : Tokens) : Tokens :=
  match afterModifiers tokens.length tokens with
  | name :: rest =>
      match afterType rest.length name rest with
      | (_, token :: rest) => if token.isSymbol "(" then afterClosing 0 rest else token :: rest
      | (_, []) => []
  | [] => []

/-- The tokens after the pattern of a case label and the word that opens its guard.
A label that is no pattern is left alone. -/
def afterCase (tokens : Tokens) : Tokens :=
  match afterModifiers tokens.length tokens with
  | [] => []
  | name :: rest =>
      if name.kind == .word then
        let (_, behind) := afterType rest.length name rest
        match behind with
        | [] => tokens
        | token :: more =>
            let guarded :=
              if token.isSymbol "(" then
                let left := afterClosing 0 more
                if left.head?.any fun t => t.kind == .word && t.text != "when" then left.drop 1
                else left
              else if token.kind == .word then more
              else tokens
            if guarded.head?.any (·.isWord "when") then guarded.drop 1 else guarded
      else tokens

/-!
## Declarations
-/

inductive Declared where
  | named (kind : TypeKind)
  | annotationType
  deriving DecidableEq, Repr

def declared? : Tokens → Option (Declared × Tokens)
  | token :: next :: rest =>
      if token.isSymbol "@" && next.isWord "interface" then some (.annotationType, rest)
      else if next.kind == .word then
        if token.isWord "class" then some (.named .classType, next :: rest)
        else if token.isWord "interface" then some (.named .interfaceType, next :: rest)
        else if token.isWord "enum" then some (.named .enumType, next :: rest)
        else if token.isWord "record" && (startsWith "(" rest || startsWith "<" rest) then
          some (.named .recordType, next :: rest)
        else none
      else none
  | _ => none

def afterHeader? : Nat → Tokens → Option (Token × Tokens)
  | _, [] => none
  | depth, token :: rest =>
      if token.isSymbol "(" then afterHeader? (depth + 1) rest
      else if token.isSymbol ")" then afterHeader? (depth - 1) rest
      else if depth == 0 && token.isSymbol "\x7b" then some (token, rest)
      else if depth == 0 && (token.isSymbol ";" || token.isSymbol "\x7d") then none
      else afterHeader? depth rest

def statementWords : List String :=
  ["if", "else", "for", "while", "do", "try", "catch", "finally", "switch", "return",
    "throw", "throws", "break", "continue", "assert", "yield", "extends", "implements",
    "import", "package", "goto", "const", "public", "protected", "private", "static",
    "abstract", "final", "native", "synchronized", "transient", "volatile", "strictfp",
    "default"]

inductive BodyKind where
  | plain
  | record
  | interface
  | annotationType
  deriving DecidableEq, Repr

namespace BodyKind

def ofType : TypeKind → BodyKind
  | .recordType => record
  | .interfaceType => interface
  | .classType | .enumType => plain

/-- Callables of an annotation type are not members. -/
def callable (body : BodyKind) (node : Node) : Node :=
  if body = annotationType then .other [node] else node

/-- Constants of an interface are not fields. -/
def field (body : BodyKind) (range : Range) (typeText : String) (names : List Name)
    (values : List Node) : Node :=
  if body = interface ∨ body = annotationType then .other values
  else .field range typeText names values

end BodyKind

def nameOf (token : Token) : Name :=
  ⟨token.text, token.range⟩

def rangeOf (first last : Token) : Range :=
  ⟨first.range.start, last.range.stop⟩

/-!
## The grammar
-/

mutual

/-- Items up to a closing bracket; in a list, also up to a comma or semicolon. -/
def items (bound : Nat) (inList : Bool) (last : Token) (tokens : Tokens) : Parsed :=
  match bound, tokens with
  | 0, _ => ⟨[], last, tokens⟩
  | _, [] => ⟨[], last, []⟩
  | bound + 1, token :: rest =>
      if isClosing token || (inList && (token.isSymbol "," || token.isSymbol ";")) then
        ⟨[], last, token :: rest⟩
      else
        let first := item bound token rest
        let more := items bound inList first.last first.rest
        ⟨first.nodes ++ more.nodes, more.last, more.rest⟩

def bracketed (bound : Nat) (opening : Token) (tokens : Tokens) : Parsed :=
  match bound with
  | 0 => ⟨[], opening, tokens⟩
  | bound + 1 =>
      let inner := items bound false opening tokens
      match inner.rest with
      | [] => inner
      | closing :: rest => ⟨inner.nodes, closing, rest⟩

def item (bound : Nat) (token : Token) (rest : Tokens) : Parsed :=
  match bound with
  | 0 => ⟨[], token, rest⟩
  | bound + 1 =>
      match declared? (afterModifiers bound (token :: rest)) with
      | some (declared, tokens) => typeDecl bound token declared tokens
      | none =>
          match token.kind with
          | .literal => chain bound token [] token rest
          | .symbol =>
              if token.isSymbol "(" then
                let inner := bracketed bound token rest
                chain bound token inner.nodes inner.last inner.rest
              else if isOpening token then bracketed bound token rest
              else if token.isSymbol "@" then ⟨[], token, afterMark rest⟩
              else ⟨[], token, rest⟩
          | .word =>
              if token.text == "new" then
                let made := creation bound token rest
                chain bound token made.nodes made.last made.rest
              else if token.text == "case" then ⟨[], token, afterCase rest⟩
              else if token.text == "instanceof" then ⟨[], token, afterPattern rest⟩
              else if statementWords.contains token.text then ⟨[], token, rest⟩
              else
                match rest with
                | [] => ⟨[], token, []⟩
                | next :: arguments =>
                    if next.isSymbol "(" then
                      let inner := bracketed bound next arguments
                      if token.text == "this" || token.text == "super" then inner
                      else
                        chain bound token
                          [.invocation (rangeOf token inner.last) none token.text inner.nodes]
                          inner.last inner.rest
                    else chain bound token [] token rest

/-- The selections behind a primary expression that runs from `start` through `last`. -/
def chain (bound : Nat) (start : Token) (nodes : List Node) (last : Token)
    (tokens : Tokens) : Parsed :=
  match bound, tokens with
  | bound + 1, token :: next :: rest =>
      if token.isSymbol "." then
        if next.isSymbol "<" then
          match afterAngles? 0 rest with
          | some (_, name :: rest) => selection bound start nodes last name rest
          | _ => ⟨nodes, last, tokens⟩
        else if next.isWord "new" then
          let made := creation bound next rest
          chain bound start (nodes ++ made.nodes) made.last made.rest
        else if next.isWord "super" then
          match rest with
          | paren :: arguments =>
              if paren.isSymbol "(" then
                let inner := bracketed bound paren arguments
                ⟨nodes ++ inner.nodes, inner.last, inner.rest⟩
              else chain bound start nodes last rest
          | [] => ⟨nodes, next, []⟩
        else if next.kind == .word then selection bound start nodes last next rest
        else ⟨nodes, last, tokens⟩
      else if token.isSymbol "[" then
        let inner := bracketed bound token (next :: rest)
        chain bound start (nodes ++ inner.nodes) inner.last inner.rest
      else if token.isSymbol "::" then
        if next.isSymbol "<" then
          match afterAngles? 0 rest with
          | some (_, name :: rest) => chain bound start nodes name rest
          | _ => ⟨nodes, last, tokens⟩
        else if next.kind == .word then chain bound start nodes next rest
        else ⟨nodes, last, tokens⟩
      else if token.isSymbol "<" then
        match afterAngles? 0 (next :: rest) with
        | some (closing, rest) =>
            if startsWith "::" (afterDimensions bound rest) then
              chain bound start nodes closing (afterDimensions bound rest)
            else ⟨nodes, last, tokens⟩
        | none => ⟨nodes, last, tokens⟩
      else ⟨nodes, last, tokens⟩
  | _, _ => ⟨nodes, last, tokens⟩

/-- A name behind a dot: an invocation if arguments follow, else a field. -/
def selection (bound : Nat) (start : Token) (nodes : List Node) (last name : Token)
    (tokens : Tokens) : Parsed :=
  match bound, tokens with
  | bound + 1, next :: arguments =>
      if next.isSymbol "(" then
        let inner := bracketed bound next arguments
        chain bound start
          [.invocation (rangeOf start inner.last) (some (start.through last)) name.text
            (nodes ++ inner.nodes)]
          inner.last inner.rest
      else chain bound start nodes name tokens
  | _, _ => ⟨nodes, name, tokens⟩

/-- A new object, the word `new` already taken: arguments with a class body, or the
elements of an array. -/
def creation (bound : Nat) (last : Token) (tokens : Tokens) : Parsed :=
  match bound with
  | 0 => ⟨[], last, tokens⟩
  | bound + 1 =>
      let tokens := afterModifiers bound tokens
      let named :=
        match tokens with
        | token :: rest =>
            if token.isSymbol "<" then ((afterAngles? 0 rest).map Prod.snd).getD rest
            else tokens
        | [] => []
      match named with
      | [] => ⟨[], last, []⟩
      | name :: rest =>
          match afterType bound name rest with
          | (typeLast, []) => ⟨[], typeLast, []⟩
          | (typeLast, token :: rest) =>
              if token.isSymbol "(" then
                let inner := bracketed bound token rest
                match inner.rest with
                | brace :: more =>
                    if brace.isSymbol "\x7b" then
                      let body := members bound .plain brace more
                      ⟨inner.nodes ++ body.nodes, body.last, body.rest⟩
                    else inner
                | [] => inner
              else if token.isSymbol "\x7b" then bracketed bound token rest
              else ⟨[], typeLast, token :: rest⟩

def typeDecl (bound : Nat) (start : Token) (declared : Declared) (tokens : Tokens) :
    Parsed :=
  match bound, tokens with
  | bound + 1, name :: header =>
      match afterHeader? 0 header with
      | none => ⟨[], name, header⟩
      | some (brace, tokens) =>
          match declared with
          | .annotationType =>
              let body := members bound .annotationType brace tokens
              ⟨[.other body.nodes], body.last, body.rest⟩
          | .named kind =>
              let body :=
                if kind = .enumType then constants bound brace tokens
                else members bound (.ofType kind) brace tokens
              ⟨[.typeDecl kind (rangeOf start body.last) (some (nameOf name))
                  body.nodes],
                body.last, body.rest⟩
  | _, _ => ⟨[], start, tokens⟩

def constants (bound : Nat) (last : Token) (tokens : Tokens) : Parsed :=
  match bound, tokens with
  | 0, _ => ⟨[], last, tokens⟩
  | _, [] => ⟨[], last, []⟩
  | bound + 1, token :: rest =>
      if token.isSymbol "\x7d" then ⟨[], token, rest⟩
      else if token.isSymbol ";" then
        let body := members bound .plain token rest
        ⟨[.enumMembers body.nodes], body.last, body.rest⟩
      else if token.isSymbol "@" then constants bound token (afterMark rest)
      else if token.isSymbol "(" then
        let inner := bracketed bound token rest
        let more := constants bound inner.last inner.rest
        ⟨.other inner.nodes :: more.nodes, more.last, more.rest⟩
      else if token.isSymbol "\x7b" then
        let body := members bound .plain token rest
        let more := constants bound body.last body.rest
        ⟨.other body.nodes :: more.nodes, more.last, more.rest⟩
      else constants bound token rest

def members (bound : Nat) (body : BodyKind) (last : Token) (tokens : Tokens) : Parsed :=
  match bound, tokens with
  | 0, _ => ⟨[], last, tokens⟩
  | _, [] => ⟨[], last, []⟩
  | bound + 1, token :: rest =>
      if token.isSymbol "\x7d" then ⟨[], token, rest⟩
      else
        let first := member bound body token rest
        let more := members bound body first.last first.rest
        ⟨first.nodes ++ more.nodes, more.last, more.rest⟩

def member (bound : Nat) (body : BodyKind) (token : Token) (rest : Tokens) : Parsed :=
  match bound with
  | 0 => ⟨[], token, rest⟩
  | bound + 1 =>
      if token.isSymbol ";" then ⟨[], token, rest⟩
      else if token.isSymbol "\x7b" then
        let block := bracketed bound token rest
        ⟨[.other block.nodes], block.last, block.rest⟩
      else
        let declaration := afterModifiers bound (token :: rest)
        match declared? declaration with
        | some (declared, tokens) => typeDecl bound token declared tokens
        | none =>
            let typed :=
              match declaration with
              | angle :: tokens =>
                  if angle.isSymbol "<" then ((afterAngles? 0 tokens).map Prod.snd).getD tokens
                  else declaration
              | [] => []
            match typed with
            | [] => ⟨[], token, []⟩
            | first :: tokens =>
                if first.kind == .word then
                  match tokens with
                  | next :: inner =>
                      if next.isSymbol "(" then callable bound body .constructor token first inner
                      else if body = .record && next.isSymbol "\x7b" then
                        let block := bracketed bound next inner
                        ⟨[.other block.nodes], block.last, block.rest⟩
                      else
                        match afterType bound first tokens with
                        | (typeLast, name :: tokens) =>
                            if name.kind == .word then
                              if startsWith "(" tokens then
                                callable bound body .method token name (tokens.drop 1)
                              else
                                let (names, values) := declarators bound name tokens
                                ⟨[body.field (rangeOf token values.last)
                                    (first.through typeLast) names values.nodes],
                                  values.last, values.rest⟩
                            else ⟨[], typeLast, name :: tokens⟩
                        | (typeLast, []) => ⟨[], typeLast, []⟩
                  | [] => ⟨[], first, []⟩
                else if first.isSymbol "\x7b" then
                  let block := bracketed bound first tokens
                  ⟨[.other block.nodes], block.last, block.rest⟩
                else if first.isSymbol "\x7d" && first.index != token.index then
                  ⟨[], token, first :: tokens⟩
                else ⟨[], first, tokens⟩

def callable (bound : Nat) (body : BodyKind) (kind : CallableKind) (start name : Token)
    (tokens : Tokens) : Parsed :=
  match bound with
  | 0 => ⟨[], name, tokens⟩
  | bound + 1 =>
      let behind := (afterClosing 0 tokens).dropWhile fun token =>
        !(token.isSymbol "\x7b" || token.isSymbol "\x7d" || token.isSymbol ";")
      match behind with
      | [] => ⟨[], name, []⟩
      | token :: rest =>
          if token.isSymbol "\x7b" then
            let block := bracketed bound token rest
            ⟨[body.callable
                (.callable kind (rangeOf start block.last) (some (nameOf name)) block.nodes)],
              block.last, block.rest⟩
          else if token.isSymbol ";" then
            ⟨[body.callable (.callable kind (rangeOf start token) (some (nameOf name)) [])],
              token, rest⟩
          else ⟨[], name, token :: rest⟩

def declarators (bound : Nat) (name : Token) (tokens : Tokens) : List Name × Parsed :=
  match bound with
  | 0 => ([nameOf name], ⟨[], name, tokens⟩)
  | bound + 1 =>
      let behind := afterDimensions bound tokens
      let value :=
        match behind with
        | token :: rest =>
            if token.isSymbol "=" then items bound true token rest else ⟨[], name, behind⟩
        | [] => ⟨[], name, []⟩
      match value.rest with
      | token :: rest =>
          if token.isSymbol ";" then ([nameOf name], ⟨value.nodes, token, rest⟩)
          else if token.isSymbol "," then
            match rest with
            | next :: rest =>
                if next.kind == .word then
                  let (names, more) := declarators bound next rest
                  (nameOf name :: names, ⟨value.nodes ++ more.nodes, more.last, more.rest⟩)
                else ([nameOf name], ⟨value.nodes, token, next :: rest⟩)
            | [] => ([nameOf name], ⟨value.nodes, token, []⟩)
          else ([nameOf name], value)
      | [] => ([nameOf name], value)

end

/-!
## Compilation units
-/

/-- The declarations of a file: package and import declarations are passed over. -/
def declarations : Nat → Tokens → List Node
  | 0, _ => []
  | _, [] => []
  | bound + 1, token :: rest =>
      if token.isWord "package" || token.isWord "import" then
        declarations bound ((rest.dropWhile fun t => !t.isSymbol ";").drop 1)
      else
        let first := member bound .plain token rest
        first.nodes ++ declarations bound first.rest

def parse (source : List Char) : List Node :=
  let tokens := tokens source
  declarations (8 * tokens.length + 8) tokens

end Java
end EndpointTrace
