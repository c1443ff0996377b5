import EndpointTrace.Failure
import EndpointTrace.Text.Character
import EndpointTrace.Text.Casing

/-!
# HTTP methods
-/

namespace EndpointTrace

/-- The supported methods, in the order in which they sort. -/
inductive Method where
  | get
  | post
  | put
  | delete
  | patch
  deriving DecidableEq, Repr, Inhabited

namespace Method

def all : List Method := [get, post, put, delete, patch]

def name : Method → String
  | get => "GET"
  | post => "POST"
  | put => "PUT"
  | delete => "DELETE"
  | patch => "PATCH"

def rank : Method → Nat
  | get => 0
  | post => 1
  | put => 2
  | delete => 3
  | patch => 4

theorem rank_injective {a b : Method} (same : a.rank = b.rank) : a = b := by
  cases a <;> cases b <;> simp_all [rank]

/-- The method whose name is spelled, in any ASCII case and with white space around. -/
def ofChars? (cs : List Char) : Option Method :=
  all.find? fun method => Text.equalIgnoringAsciiCase method.name.toList (Text.trim cs)

def ofString? (text : String) : Option Method :=
  ofChars? text.toList

def parse (text : String) : Except Failure Method :=
  match ofString? text with
  | some method => .ok method
  | none => .error (.unsupportedMethod text)

end Method

end EndpointTrace
