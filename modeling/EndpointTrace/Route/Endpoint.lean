import EndpointTrace.Json.Value
import EndpointTrace.Route.Method
import EndpointTrace.Source.Position

/-!
# Endpoints

One route of one handler.  A handler whose annotation lists several paths stands
behind several endpoints, which differ in their path alone.  Endpoints are listed
by path, then method, handler, file and position: for a person one on a line and in
columns, and as JSON for other programs.
-/

namespace EndpointTrace

structure Endpoint where
  method : Method
  path : String
  handler : String
  location : Location
  firstLine : Nat
  lastLine : Nat
  deriving Repr, Inhabited

namespace Endpoint

def route (endpoint : Endpoint) : String :=
  endpoint.method.name ++ " " ++ endpoint.path

def order : Endpoint → Endpoint → Ordering :=
  compareLex (compareOn path) <|
  compareLex (compareOn fun e => e.method.rank) <|
  compareLex (compareOn handler) <|
  compareLex (fun a b => a.location.file.order b.location.file) <|
  compareLex (compareOn fun e => e.location.position.line)
    (compareOn fun e => e.location.position.character)

/-- Endpoints in the order of presentation; equal ones keep their places. -/
def sort (endpoints : List Endpoint) : List Endpoint :=
  endpoints.mergeSort fun a b => (order a b).isLE

theorem sort_perm (endpoints : List Endpoint) : (sort endpoints).Perm endpoints :=
  List.mergeSort_perm _ _

/-!
## Lists of endpoints
-/

def column (width : Nat) (text : String) : String :=
  text ++ String.ofList (List.replicate (width - text.length) ' ')

def tableLine (endpoint : Endpoint) : String :=
  column 7 endpoint.method.name ++ " " ++ column 40 endpoint.path ++ " "
    ++ endpoint.handler ++ " (" ++ endpoint.location.toText ++ ")\n"

def table (endpoints : List Endpoint) : String :=
  String.join (endpoints.map tableLine)

def natural (n : Nat) : JsonValue :=
  .number (.natural n)

def positionJson (position : Position) : JsonValue :=
  .object [("line", natural position.line), ("character", natural position.character)]

def locationJson (location : Location) : JsonValue :=
  .object [("file", .text location.file.text), ("position", positionJson location.position)]

def toJson (endpoint : Endpoint) : JsonValue :=
  .object [("method", .text endpoint.method.name), ("path", .text endpoint.path),
    ("handler_name", .text endpoint.handler), ("location", locationJson endpoint.location),
    ("annotation_span", .list [natural endpoint.firstLine, natural endpoint.lastLine])]

def jsonList (endpoints : List Endpoint) : String :=
  (JsonValue.list (endpoints.map toJson)).renderIndented ++ "\n"

end Endpoint

end EndpointTrace
