/-!
# Arguments

Arguments are read from left to right.  An option is written as a letter after one dash,
several letters together, or as a word after two.  The value of an option is attached
to it or is the next argument, unless that looks like an option.  After two dashes alone
there are no more options.
-/

namespace EndpointTrace

inductive ArgumentKey where
  | settingsFile
  | verbose
  | help
  | version
  | directory
  | overwrite
  | source
  | json
  | request
  deriving DecidableEq, Repr

inductive ArgumentKind where
  | flag
  /-- An option with a path that is not empty. -/
  | path
  | words
  | help
  | version
  deriving DecidableEq, Repr

namespace ArgumentKey

def kind : ArgumentKey → ArgumentKind
  | verbose | overwrite | json => .flag
  | settingsFile | directory | source => .path
  | request => .words
  | help => .help
  | version => .version

end ArgumentKey

inductive UsageError where
  | helpWanted
  | versionWanted
  | nothingAsked
  | missingCommand
  | unknownCommand
  | unknownArgument
  | missingArgument
  | repeatedArgument
  | missingValue
  | unexpectedValue
  deriving DecidableEq, Repr

structure OptionRule where
  key : ArgumentKey
  letter : Option Char
  word : String
  deriving DecidableEq, Repr

structure ArgumentRules where
  options : List OptionRule
  words : Option ArgumentKey
  commands : List String

structure Occurrence where
  key : ArgumentKey
  values : List String
  deriving DecidableEq, Repr

/-- What has been read: complete arguments, and one that may still take values. -/
structure ArgumentReading where
  settled : List Occurrence
  pending : Option Occurrence
  deriving DecidableEq, Repr

namespace ArgumentReading

def empty : ArgumentReading := ⟨[], none⟩

/-!
## What has been read
-/

def has (reading : ArgumentReading) (key : ArgumentKey) : Bool :=
  reading.settled.any (·.key = key)

def valuesOf (reading : ArgumentReading) (key : ArgumentKey) : List String :=
  (reading.settled.filter (·.key = key)).flatMap Occurrence.values

/-!
## Reading on
-/

def put (reading : ArgumentReading) (occurrence : Occurrence) :
    Except UsageError ArgumentReading :=
  let accepted := { reading with settled := reading.settled ++ [occurrence] }
  match occurrence.key.kind with
  | .help => .error .helpWanted
  | .version => .error .versionWanted
  | .words => .ok accepted
  | .flag => if reading.has occurrence.key then .error .repeatedArgument else .ok accepted
  | .path =>
      if occurrence.values.isEmpty then .error .missingValue
      else if reading.has occurrence.key then .error .repeatedArgument
      else if occurrence.values.any (·.isEmpty) then .error .missingValue
      else .ok accepted

def settle (reading : ArgumentReading) : Except UsageError ArgumentReading :=
  match reading.pending with
  | some occurrence => put ⟨reading.settled, none⟩ occurrence
  | none => .ok reading

def add (reading : ArgumentReading) (occurrence : Occurrence) :
    Except UsageError ArgumentReading := do
  (← reading.settle).put occurrence

def await (reading : ArgumentReading) (occurrence : Occurrence) :
    Except UsageError ArgumentReading := do
  pure { (← reading.settle) with pending := some occurrence }

def give (reading : ArgumentReading) (value : String) : ArgumentReading :=
  { reading with
    pending := reading.pending.map fun occurrence =>
      { occurrence with values := occurrence.values ++ [value] } }

def awaitsValue (reading : ArgumentReading) : Bool :=
  reading.pending.any fun occurrence =>
    occurrence.key.kind = .path && occurrence.values.isEmpty

end ArgumentReading

inductive ArgumentShape where
  | letters (letters : List Char)
  | word (name : String) (value : Option String)
  | dashes
  | plain
  deriving DecidableEq, Repr

namespace ArgumentShape

def ofString (argument : String) : ArgumentShape :=
  match argument.toList with
  | ['-', '-'] => dashes
  | '-' :: '-' :: rest =>
      word (String.ofList (rest.takeWhile (· ≠ '=')))
        (match rest.dropWhile (· ≠ '=') with
          | _ :: value => some (String.ofList value)
          | [] => none)
  | '-' :: letter :: rest => letters (letter :: rest)
  | _ => plain

end ArgumentShape

namespace ArgumentRules

def readWord (rules : ArgumentRules) (reading : ArgumentReading) (name : String)
    (value : Option String) : Except UsageError ArgumentReading :=
  match rules.options.find? (·.word = name) with
  | none => .error .unknownArgument
  | some rule =>
      match rule.key.kind, value with
      | .path, some value => reading.add ⟨rule.key, [value]⟩
      | .path, none => reading.await ⟨rule.key, []⟩
      | _, some _ => .error .unexpectedValue
      | _, none => reading.add ⟨rule.key, []⟩

/-- Options by their letters.  What follows the letter of an option with a value is the
value, with or without a sign of equality before it. -/
def readLetters (rules : ArgumentRules) (reading : ArgumentReading) :
    List Char → Except UsageError ArgumentReading
  | [] => .ok reading
  | letter :: rest =>
      match rules.options.find? (·.letter = some letter) with
      | none => .error .unknownArgument
      | some rule =>
          if rule.key.kind = .path then
            match rest with
            | [] => reading.await ⟨rule.key, []⟩
            | '=' :: value => reading.add ⟨rule.key, [String.ofList value]⟩
            | value => reading.add ⟨rule.key, [String.ofList value]⟩
          else do
            rules.readLetters (← reading.add ⟨rule.key, []⟩) rest

/-- An argument that is no option.  Where no words are wanted it is taken for a misspelt
command, unless there are no commands or it is the name of one that has come too late. -/
def readPlain (rules : ArgumentRules) (afterDashes : Bool) (reading : ArgumentReading)
    (argument : String) : Except UsageError ArgumentReading :=
  match rules.words with
  | some key =>
      if reading.pending.any (·.key = key) then .ok (reading.give argument)
      else reading.await ⟨key, [argument]⟩
  | none =>
      if rules.commands.isEmpty || (afterDashes && rules.commands.contains argument) then
        .error .unknownArgument
      else
        .error .unknownCommand

def readRest (rules : ArgumentRules) (reading : ArgumentReading) :
    List String → Except UsageError ArgumentReading
  | [] => .ok reading
  | argument :: rest => do
      rules.readRest (← rules.readPlain true reading argument) rest

/-- Reads up to the name of a command, which is handed on with all that follows it. -/
def read (rules : ArgumentRules) (reading : ArgumentReading) :
    List String → Except UsageError (ArgumentReading × Option (String × List String))
  | [] => .ok (reading, none)
  | argument :: rest =>
      if !reading.awaitsValue && rules.commands.contains argument then
        .ok (reading, some (argument, rest))
      else
        match ArgumentShape.ofString argument with
        | .dashes => do pure (← rules.readRest reading rest, none)
        | .word name value => do rules.read (← rules.readWord reading name value) rest
        | .letters letters => do rules.read (← rules.readLetters reading letters) rest
        | .plain =>
            if reading.awaitsValue then
              rules.read (reading.give argument) rest
            else do
              rules.read (← rules.readPlain false reading argument) rest

end ArgumentRules

end EndpointTrace
