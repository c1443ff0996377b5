import EndpointTrace.Number.Binary

/-!
# TOML values

A document is a table of tables.  Where a table comes from decides who may add to it: a
table that was written out as a value is closed, one that was opened by a header cannot
be opened again or extended by dotted keys, and one that dotted keys made grows by dotted
keys alone.
-/

namespace EndpointTrace

/-- How a table came about. -/
inductive TableOrigin where
  /-- It lies on the way to a table that has a header. -/
  | implied
  /-- It lies on the way of a dotted key. -/
  | dotted
  /-- It has a header of its own. -/
  | declared
  /-- It was written as a value. -/
  | inline
  deriving DecidableEq, Repr

inductive Toml where
  | text (value : String)
  | integer (value : Int)
  | float (value : Floating)
  | bool (value : Bool)
  /-- A date, a time, or both; which one makes no difference here. -/
  | instant
  | list (items : List Toml)
  | table (origin : TableOrigin) (fields : List (String × Toml))
  /-- Tables under one name, each with a header of its own. -/
  | tables (items : List (List (String × Toml)))
  deriving Repr, Inhabited

namespace Toml

abbrev Fields := List (String × Toml)

def replaceField (key : String) (value : Toml) (fields : Fields) : Fields :=
  fields.map fun field => if field.1 = key then (key, value) else field

def addField? (key : String) (value : Toml) (fields : Fields) : Option Fields :=
  if (fields.lookup key).isSome then none else some (fields ++ [(key, value)])

/-- Fields with a value under a dotted key; `path` holds the parts before the last. -/
def assign? (key : String) (value : Toml) : List String → Fields → Option Fields
  | [], fields => addField? key value fields
  | part :: path, fields =>
      match fields.lookup part with
      | none => do
          let inner ← assign? key value path []
          pure (fields ++ [(part, .table .dotted inner)])
      | some (.table .dotted inner) => do
          let inner ← assign? key value path inner
          pure (replaceField part (.table .dotted inner) fields)
      | some (.table .implied inner) =>
          if path.isEmpty then
            none
          else do
            let inner ← assign? key value path inner
            pure (replaceField part (.table .implied inner) fields)
      | some (.tables items) =>
          match path.isEmpty, items.getLast? with
          | false, some last => do
              let last ← assign? key value path last
              pure (replaceField part (.tables (items.dropLast ++ [last])) fields)
          | _, _ => none
      | some _ => none

/-- Fields changed at the end of a path of headers, where tables are made on the way; of
tables under one name the last is meant. -/
def within? (change : Fields → Option Fields) : List String → Fields → Option Fields
  | [], fields => change fields
  | part :: path, fields =>
      match fields.lookup part with
      | none => do
          let inner ← within? change path []
          pure (fields ++ [(part, .table .implied inner)])
      | some (.table .inline _) => none
      | some (.table origin inner) => do
          let inner ← within? change path inner
          pure (replaceField part (.table origin inner) fields)
      | some (.tables items) =>
          match items.getLast? with
          | none => none
          | some last => do
              let last ← within? change path last
              pure (replaceField part (.tables (items.dropLast ++ [last])) fields)
      | some _ => none

/-- Fields without the table of this name, and what that table held.  Only a table that
was merely implied can be taken out, to be opened by its header. -/
def open? (key : String) (fields : Fields) : Option Fields :=
  match fields.lookup key with
  | none => some []
  | some (.table .implied inner) => some inner
  | some _ => none

def field? (key : String) : Toml → Option Toml
  | table _ fields => fields.lookup key
  | _ => none

end Toml

end EndpointTrace
