import EndpointTrace.Number.Shortest
import EndpointTrace.Text.Character

/-!
# JSON values

An object that is made of fields as they come keeps them in the order of their keys, each
key once.  A written value has no blanks, and a number that is not whole by nature keeps
its point.  Written over several lines, every item and field has a line of its own, two
blanks further in than the brackets around it.
-/

namespace EndpointTrace

inductive JsonNumber where
  | natural (value : Nat)
  | negative (value : Nat)
  | floating (negative : Bool) (magnitude : Binary)
  deriving DecidableEq, Repr

inductive JsonValue where
  | null
  | bool (value : Bool)
  | number (value : JsonNumber)
  | text (value : String)
  | list (items : List JsonValue)
  | object (fields : List (String × JsonValue))
  deriving Repr, Inhabited

namespace JsonValue

/-! ## Fields and items -/

def putField (key : String) (value : JsonValue) :
    List (String × JsonValue) → List (String × JsonValue)
  | [] => [(key, value)]
  | (other, old) :: rest =>
      if key = other then (key, value) :: rest
      else if key < other then (key, value) :: (other, old) :: rest
      else (other, old) :: putField key value rest

/-- An object of fields as they come; the last of several with one key counts. -/
def ofFields (fields : List (String × JsonValue)) : JsonValue :=
  object (fields.foldl (fun known field => putField field.1 field.2 known) [])

def field? (key : String) : JsonValue → Option JsonValue
  | object fields => fields.lookup key
  | _ => none

def item? (index : Nat) : JsonValue → Option JsonValue
  | list items => items[index]?
  | _ => none

def text? : JsonValue → Option String
  | text value => some value
  | _ => none

end JsonValue

/-!
## Written form
-/

namespace JsonNumber

/-- Without exponent between the fifth place after the point and the sixteenth before. -/
def renderMagnitude (magnitude : Binary) : String :=
  let decimal := Decimal.shortest .double magnitude
  let width := (Decimal.width decimal.digits : Int) + decimal.exponent
  if -5 < width ∧ width ≤ 16 then decimal.pointed else decimal.scientific

def render : JsonNumber → String
  | natural value => toString value
  | negative value => "-" ++ toString value
  | floating false magnitude => renderMagnitude magnitude
  | floating true magnitude => "-" ++ renderMagnitude magnitude

end JsonNumber

namespace JsonValue

def escape (c : Char) : List Char :=
  match c with
  | '"' => ['\\', '"']
  | '\\' => ['\\', '\\']
  | '\n' => ['\\', 'n']
  | '\r' => ['\\', 'r']
  | '\t' => ['\\', 't']
  | '\x08' => ['\\', 'b']
  | '\x0c' => ['\\', 'f']
  | c =>
      if c.toNat < 0x20 then
        ['\\', 'u', '0', '0', Text.hexDigit (c.toNat / 16), Text.hexDigit (c.toNat % 16)]
      else
        [c]

def renderText (value : String) : String :=
  String.ofList ('"' :: value.toList.flatMap escape ++ ['"'])

mutual

def render : JsonValue → String
  | null => "null"
  | bool true => "true"
  | bool false => "false"
  | number value => value.render
  | text value => renderText value
  | list items => "[" ++ ",".intercalate (renderItems items) ++ "]"
  | object fields => "\x7b" ++ ",".intercalate (renderFields fields) ++ "\x7d"

def renderItems : List JsonValue → List String
  | [] => []
  | item :: rest => render item :: renderItems rest

def renderFields : List (String × JsonValue) → List String
  | [] => []
  | (key, value) :: rest => (renderText key ++ ":" ++ render value) :: renderFields rest

end

/-!
## Written over several lines
-/

def lineAt (depth : Nat) : String :=
  "\n" ++ String.ofList (List.replicate (2 * depth) ' ')

def bracketed (depth : Nat) (opening closing : String) (parts : List String) : String :=
  if parts.isEmpty then
    opening ++ closing
  else
    opening ++ ",".intercalate (parts.map fun part => lineAt (depth + 1) ++ part)
      ++ lineAt depth ++ closing

mutual

def renderAt (depth : Nat) : JsonValue → String
  | list items => bracketed depth "[" "]" (renderItemsAt (depth + 1) items)
  | object fields => bracketed depth "\x7b" "\x7d" (renderFieldsAt (depth + 1) fields)
  | value => value.render

def renderItemsAt (depth : Nat) : List JsonValue → List String
  | [] => []
  | item :: rest => renderAt depth item :: renderItemsAt depth rest

def renderFieldsAt (depth : Nat) : List (String × JsonValue) → List String
  | [] => []
  | (key, value) :: rest =>
      (renderText key ++ ": " ++ renderAt depth value) :: renderFieldsAt depth rest

end

def renderIndented (value : JsonValue) : String :=
  renderAt 0 value

end JsonValue

end EndpointTrace
