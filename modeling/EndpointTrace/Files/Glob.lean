import EndpointTrace.Text.Utf8

/-!
# Globs

A glob is a pattern for paths, which it matches as a whole and byte by byte.  A star and
a question mark stay within one name, two stars between slashes span any number of names,
a class in brackets stands for one byte, and braces hold alternatives.
-/

namespace EndpointTrace

inductive GlobPart where
  | literal (c : Char)
  | any
  | stretch
  /-- Two stars at the start, with the slash after them. -/
  | anyPrefix
  /-- Two stars at the end, with the slash before them. -/
  | anySuffix
  /-- Two stars between slashes, with both of them. -/
  | anyBetween
  | oneOf (negated : Bool) (ranges : List (Char × Char))
  | alternatives (branches : List (List GlobPart))
  deriving Repr, Inhabited

namespace Glob

/-!
## Reading
-/

structure OpenGroup where
  before : List GlobPart
  branches : List (List GlobPart)

structure State where
  groups : List OpenGroup
  current : List GlobPart
  previous : Option Char
  skip : Nat
  /-- Whether brackets have turned out not to close. -/
  plainBrackets : Bool

namespace State

def start : State := ⟨[], [], none, 0, false⟩

def push (state : State) (part : GlobPart) : State :=
  { state with current := state.current ++ [part] }

def skipping (state : State) (count : Nat) : State :=
  { state with skip := count }

end State

def twoStars (state : State) : State :=
  ((state.push .stretch).push .stretch).skipping 1

def readStar (state : State) (rest : List Char) : State :=
  match rest with
  | '*' :: rest =>
      if state.current.isEmpty then
        match rest with
        | [] => (state.push .anyPrefix).skipping 1
        | '/' :: _ => (state.push .anyPrefix).skipping 2
        | _ => twoStars state
      else if state.previous ≠ some '/' then
        twoStars state
      else
        let ends :=
          match rest with
          | [] => true
          | c :: _ => !state.groups.isEmpty && (c = ',' || c = '\x7d')
        let before := state.current.dropLast
        let keep (part : GlobPart) : State :=
          match state.current.getLast? with
          | some .anyPrefix => { state with current := before ++ [.anyPrefix] }
          | some .anySuffix => { state with current := before ++ [.anySuffix] }
          | _ => { state with current := before ++ [part] }
        if ends then (keep .anySuffix).skipping 1
        else if rest.head? = some '/' then (keep .anyBetween).skipping 2
        else twoStars state
  | _ => state.push .stretch

/-- The ranges of a class up to its closing bracket, with the number of characters read.
In front a bracket stands for itself; a hyphen between two characters makes a range,
which must not be reversed. -/
def readClass (first inRange : Bool) (ranges : List (Char × Char)) :
    List Char → Option (Except Unit (List (Char × Char) × Nat))
  | [] => none
  | c :: rest =>
      let next (inRange : Bool) (ranges : List (Char × Char)) :=
        (readClass false inRange ranges rest).map fun read =>
          read.map fun (ranges, length) => (ranges, length + 1)
      if c = ']' ∧ !first then
        some (.ok (if inRange then ranges ++ [('-', '-')] else ranges, 1))
      else if c = '-' ∧ !first ∧ !inRange then
        next true ranges
      else if inRange then
        match ranges.getLast? with
        | some (low, _) =>
            if c < low then some (.error ()) else next false (ranges.dropLast ++ [(low, c)])
        | none => next false (ranges ++ [(c, c)])
      else
        next false (ranges ++ [(c, c)])

/-- A bracket, with the characters after it.  A class that does not close is an error,
or else its bracket stands for itself and so do all later ones. -/
def readBracket? (lenient : Bool) (state : State) (rest : List Char) : Option State :=
  let negated := rest.head? = some '!' || rest.head? = some '^'
  match readClass true false [] (if negated then rest.drop 1 else rest) with
  | some (.ok (ranges, length)) =>
      some ((state.push (.oneOf negated ranges)).skipping
        (length + if negated then 1 else 0))
  | some (.error ()) => none
  | none =>
      if lenient then some { state.push (.literal '[') with plainBrackets := true } else none

def readClosing? (state : State) : Option State :=
  match state.groups with
  | [] => none
  | group :: groups =>
      let branches := group.branches ++ [state.current]
      some { state with
        groups := groups
        current := group.before ++ [.alternatives branches] }

def readComma (state : State) : State :=
  match state.groups with
  | [] => state.push (.literal ',')
  | group :: groups =>
      { state with
        groups := { group with branches := group.branches ++ [state.current] } :: groups
        current := [] }

def readChar? (lenient : Bool) (state : State) (c : Char) (rest : List Char) :
    Option State :=
  if c = '?' then some (state.push .any)
  else if c = '*' then some (readStar state rest)
  else if c = '[' ∧ !state.plainBrackets then readBracket? lenient state rest
  else if c = '\x7b' then
    some { state with groups := ⟨state.current, []⟩ :: state.groups, current := [] }
  else if c = '\x7d' then readClosing? state
  else if c = ',' then some (readComma state)
  else if c = '\\' then
    match rest with
    | [] => none
    | d :: _ => some ((state.push (.literal d)).skipping 1)
  else some (state.push (.literal c))

def read? (lenient : Bool) (state : State) : List Char → Option State
  | [] => some state
  | c :: rest =>
      match state.skip with
      | skip + 1 =>
          read? lenient { state with skip := skip, previous := some c } rest
      | 0 =>
          match readChar? lenient state c rest with
          | some state => read? lenient { state with previous := some c } rest
          | none => none

/-- The parts of a glob.  `lenient` lets brackets stand that do not close. -/
def parse? (lenient : Bool) (pattern : List Char) : Option (List GlobPart) :=
  match read? lenient .start pattern with
  | some state => if state.groups.isEmpty then some state.current else none
  | none => none

/-!
## Matching
-/

inductive Piece where
  | byte (value : UInt8)
  | any
  | stretch
  | anyPrefix
  | anySuffix
  | anyBetween
  | oneOf (negated : Bool) (ranges : List (UInt8 × UInt8))
  deriving DecidableEq, Repr

def bytesOf (c : Char) : List UInt8 :=
  Text.Utf8.encode [c]

/-- The bytes that a range of characters stands for: those of its ends, and all between
the last byte of the lower and the first of the upper end. -/
def byteRanges (range : Char × Char) : List (UInt8 × UInt8) :=
  let low := bytesOf range.1
  let high := bytesOf range.2
  if range.1 = range.2 then
    low.map fun b => (b, b)
  else
    low.dropLast.map (fun b => (b, b))
      ++ (match low.getLast?, high.head? with
          | some a, some b => [(a, b)]
          | _, _ => [])
      ++ high.tail.map fun b => (b, b)

/-- Every choice of one piece list from each list of choices, joined. -/
def combine : List (List (List Piece)) → List (List Piece)
  | [] => [[]]
  | choices :: rest => choices.flatMap fun first => (combine rest).map (first ++ ·)

mutual

/-- What one part can stand for.  Branches that say nothing do not count. -/
def expandPart : GlobPart → List (List Piece)
  | .literal c => [(bytesOf c).map .byte]
  | .any => [[.any]]
  | .stretch => [[.stretch]]
  | .anyPrefix => [[.anyPrefix]]
  | .anySuffix => [[.anySuffix]]
  | .anyBetween => [[.anyBetween]]
  | .oneOf negated ranges => [[.oneOf negated (ranges.flatMap byteRanges)]]
  | .alternatives branches =>
      let choices := (expandBranches branches).filter (· ≠ [[]])
      if choices.isEmpty then [[]] else choices.flatten

def expandParts : List GlobPart → List (List (List Piece))
  | [] => []
  | part :: rest => expandPart part :: expandParts rest

def expandBranches : List (List GlobPart) → List (List (List Piece))
  | [] => []
  | branch :: rest => combine (expandParts branch) :: expandBranches rest

end

def slash : UInt8 := 0x2F

def afterSlashes : List UInt8 → List (List UInt8)
  | [] => []
  | b :: rest => if b = slash then rest :: afterSlashes rest else afterSlashes rest

def suffixes : List UInt8 → List (List UInt8)
  | [] => [[]]
  | b :: rest => (b :: rest) :: suffixes rest

def suffixesWithinName : List UInt8 → List (List UInt8)
  | [] => [[]]
  | b :: rest =>
      if b = slash then [b :: rest] else (b :: rest) :: suffixesWithinName rest

/-- What may be left of a text after one piece. -/
def leftovers (piece : Piece) (text : List UInt8) : List (List UInt8) :=
  match piece, text with
  | .byte value, b :: rest => if b = value then [rest] else []
  | .any, b :: rest => if b = slash then [] else [rest]
  | .stretch, text => suffixesWithinName text
  | .anyPrefix, text => text :: afterSlashes text
  | .anySuffix, b :: rest => if b = slash then suffixes rest else []
  | .anyBetween, b :: rest => if b = slash then rest :: afterSlashes rest else []
  | .oneOf negated ranges, b :: rest =>
      if (ranges.any fun (low, high) => low ≤ b && b ≤ high) != negated then [rest] else []
  | _, [] => []

def matchPieces : List Piece → List UInt8 → Bool
  | [], text => text.isEmpty
  | piece :: pieces, text => (leftovers piece text).any (matchPieces pieces)

end Glob

structure Glob where
  expansions : List (List Glob.Piece)
  /-- Two stars alone match everything. -/
  matchesAll : Bool

namespace Glob

def ofParts (parts : List GlobPart) : Glob where
  expansions := combine (expandParts parts)
  matchesAll :=
    match parts with
    | [.anyPrefix] => true
    | _ => false

def ofPattern? (lenient : Bool) (pattern : List Char) : Option Glob :=
  (parse? lenient pattern).map ofParts

def accepts (glob : Glob) (names : List String) : Bool :=
  let text := Text.Utf8.encode ("/".intercalate names).toList
  glob.matchesAll || glob.expansions.any fun pieces => matchPieces pieces text

end Glob

end EndpointTrace
