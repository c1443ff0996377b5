import EndpointTrace.Toml.Scalar

/-!
# Reading TOML

A text is read into statements first: headers and keys with their values.  Then the
statements are carried out one after the other.  The keys below a header are collected on
their own and put in their place when the next header comes.
-/

namespace EndpointTrace
namespace Toml

/-!
## Keys
-/

def isBareKeyChar (c : Char) : Bool :=
  c.isAlphanum || c = '_' || c = '-'

def skipBlanks (cs : List Char) : List Char :=
  cs.dropWhile isBlank

def keyPart? (cs : List Char) : Option (String × List Char) :=
  match cs with
  | '"' :: rest => (basicText? 0 rest).map fun read => (String.ofList read.1, read.2)
  | '\'' :: rest => (literalText? rest).map fun read => (String.ofList read.1, read.2)
  | cs =>
      let part := cs.takeWhile isBareKeyChar
      if part.isEmpty then none
      else some (String.ofList part, cs.dropWhile isBareKeyChar)

/-- A key as its parts: the ones before the last, and the last.  The blanks behind the key
are gone; `fuel` bounds the number of parts. -/
def key? : Nat → List Char → Option ((List String × String) × List Char)
  | 0, _ => none
  | fuel + 1, cs => do
      let (part, rest) ← keyPart? (skipBlanks cs)
      match skipBlanks rest with
      | '.' :: rest => do
          let ((path, last), rest) ← key? fuel rest
          pure ((part :: path, last), rest)
      | rest => pure (([], part), rest)

/-!
## Values
-/

def afterComment (cs : List Char) : List Char :=
  cs.dropWhile isPlain

def skipLines : Nat → List Char → List Char
  | 0, cs => cs
  | fuel + 1, cs =>
      match skipBlanks cs with
      | '#' :: rest =>
          match newline? (afterComment rest) with
          | some rest => skipLines fuel rest
          | none => '#' :: rest
      | rest =>
          match newline? rest with
          | some rest => skipLines fuel rest
          | none => rest

mutual

def value? : Nat → List Char → Option (Toml × List Char)
  | 0, _ => none
  | fuel + 1, '[' :: rest => (items? fuel [] rest).map fun read => (list read.1, read.2)
  | fuel + 1, '{' :: rest =>
      match skipBlanks rest with
      | '}' :: rest => some (table .inline [], rest)
      | rest => (pairs? fuel [] rest).map fun read => (table .inline read.1, read.2)
  | _ + 1, cs => scalarValue? cs

def items? : Nat → List Toml → List Char → Option (List Toml × List Char)
  | 0, _, _ => none
  | fuel + 1, items, cs =>
      match skipLines cs.length cs with
      | ']' :: rest => some (items, rest)
      | cs => do
          let (item, rest) ← value? fuel cs
          match skipLines rest.length rest with
          | ',' :: rest => items? fuel (items ++ [item]) rest
          | ']' :: rest => some (items ++ [item], rest)
          | _ => none

def pairs? : Nat → Fields → List Char → Option (Fields × List Char)
  | 0, _, _ => none
  | fuel + 1, fields, cs => do
      let ((path, key), rest) ← key? cs.length cs
      match rest with
      | '=' :: rest => do
          let (value, rest) ← value? fuel (skipBlanks rest)
          let fields ← assign? key value path fields
          match skipBlanks rest with
          | ',' :: rest => pairs? fuel fields rest
          | '}' :: rest => some (fields, rest)
          | _ => none
      | _ => none

end

/-!
## Statements
-/

inductive Statement where
  | header (path : List String) (key : String)
  /-- A header in double brackets opens one more table of a name. -/
  | element (path : List String) (key : String)
  | assign (path : List String) (key : String) (value : Toml)

def statement? (cs : List Char) : Option (Statement × List Char) :=
  match cs with
  | '[' :: '[' :: rest => do
      let ((path, key), rest) ← key? rest.length rest
      match rest with
      | ']' :: ']' :: rest => some (.element path key, rest)
      | _ => none
  | '[' :: rest => do
      let ((path, key), rest) ← key? rest.length rest
      match rest with
      | ']' :: rest => some (.header path key, rest)
      | _ => none
  | cs => do
      let ((path, key), rest) ← key? cs.length cs
      match rest with
      | '=' :: rest => do
          let (value, rest) ← value? rest.length (skipBlanks rest)
          pure (.assign path key value, rest)
      | _ => none

def endLine? (cs : List Char) : Option (List Char) :=
  let rest :=
    match skipBlanks cs with
    | '#' :: rest => afterComment rest
    | rest => rest
  if rest.isEmpty then some [] else newline? rest

def statements? : Nat → List Char → Option (List Statement)
  | 0, _ => none
  | fuel + 1, cs =>
      match endLine? cs with
      | some [] => some []
      | some rest => statements? fuel rest
      | none => do
          let (statement, rest) ← statement? (skipBlanks cs)
          let rest ← endLine? rest
          if rest.isEmpty then
            pure [statement]
          else do
            let statements ← statements? fuel rest
            pure (statement :: statements)

/-!
## Documents
-/

/-- Where the keys that are being collected belong. -/
inductive Place where
  | root
  | table (path : List String) (key : String)
  | element (path : List String) (key : String)

/-- A document under construction. -/
structure Draft where
  root : Fields
  place : Place
  current : Fields

namespace Draft

/-- The document with the collected keys in their place. -/
def close? (draft : Draft) : Option Fields :=
  match draft.place with
  | .root => some draft.current
  | .table path key => within? (addField? key (.table .declared draft.current)) path draft.root
  | .element path key =>
      within?
        (fun fields =>
          match fields.lookup key with
          | none => some (fields ++ [(key, .tables [draft.current])])
          | some (.tables items) =>
              some (replaceField key (.tables (items ++ [draft.current])) fields)
          | some _ => none)
        path draft.root

/-- The fields of a table that its header opens, and the document without it. -/
def takeOut? (root : Fields) (path : List String) (key : String) :
    Option (Fields × Fields) := do
  let parent ← ancestor? path root
  let opened ← open? key parent
  let root ← within? (fun fields => some (fields.filter (·.1 ≠ key))) path root
  pure (opened, root)
where
  ancestor? : List String → Fields → Option Fields
    | [], fields => some fields
    | part :: path, fields =>
        match fields.lookup part with
        | none => some []
        | some (.table .inline _) => none
        | some (.table _ inner) => ancestor? path inner
        | some (.tables items) => items.getLast? >>= ancestor? path
        | some _ => none

def carryOut? (draft : Draft) : Statement → Option Draft
  | .assign path key value => do
      let current ← assign? key value path draft.current
      pure { draft with current := current }
  | .header path key => do
      let root ← draft.close?
      let (opened, root) ← takeOut? root path key
      pure ⟨root, .table path key, opened⟩
  | .element path key => do
      let root ← draft.close?
      let root ← within?
        (fun fields =>
          match fields.lookup key with
          | none => some (fields ++ [(key, .tables [])])
          | some (.tables _) => some fields
          | some _ => none)
        path root
      pure ⟨root, .element path key, []⟩

end Draft

/-- The fields of a document; a byte order mark in front of it does not count. -/
def parse? (cs : List Char) : Option Fields := do
  let cs := if cs.head? = some (Char.ofNat 0xFEFF) then cs.drop 1 else cs
  let statements ← statements? (cs.length + 1) cs
  let draft ← statements.foldlM Draft.carryOut? ⟨[], .root, []⟩
  draft.close?

end Toml
end EndpointTrace
