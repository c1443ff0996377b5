import EndpointTrace.Route.Endpoint
import EndpointTrace.Route.Mapping
import EndpointTrace.Route.Path
import EndpointTrace.Source.Document
import EndpointTrace.Source.Symbol

/-!
# Extracting endpoints

Each type of a file is judged on the text before its name, and each method of a
controller on the text between the declaration before it and its own name.  The
windows of text that are read this way are values of their own, so one can say of them
that they do not overlap.
-/

namespace EndpointTrace
namespace Extraction

/-- A type declaration, with the window of text that holds its annotations. -/
structure TypeSite where
  symbol : Symbol
  header : Range
  deriving Repr

structure HandlerSite where
  symbol : Symbol
  window : Range
  deriving Repr

/-!
## Windows
-/

/-- The start of the line some lines above a name, or the end of the declaration
before, whichever comes later. -/
def lineWindowStart (windowLines : Nat) (floor : Option Position) (name : Position) :
    Position :=
  let start : Position := ⟨name.line - windowLines, 0⟩
  match floor with
  | some floor => if start < floor ∧ floor ≤ name then floor else start
  | none => start

/-- A declaration starts with its own annotations; one that starts at its name says
nothing about them, and lines above the name are read instead. -/
def headerWindow (windowLines : Nat) (floor : Option Position) (full selection : Range) :
    Range :=
  if full.start < selection.start then
    ⟨full.start, selection.start⟩
  else
    ⟨lineWindowStart windowLines floor selection.start, selection.start⟩

mutual

def sitesOf (windowLines : Nat) (floor : Option Position) : Symbol → List TypeSite
  | ⟨name, kind, full, selection, children⟩ =>
      if kind.isType then
        ⟨⟨name, kind, full, selection, children⟩,
            headerWindow windowLines floor full selection⟩
          :: sitesIn windowLines (some selection.stop) children
      else
        []

/-- The types among siblings; `floor` is where the sibling before the first ends. -/
def sitesIn (windowLines : Nat) (floor : Option Position) : List Symbol → List TypeSite
  | [] => []
  | symbol :: rest =>
      sitesOf windowLines floor symbol
        ++ sitesIn windowLines (some symbol.fullRange.stop) rest

end

/-- The methods among members, where the member before the first ends at `previous`. -/
def handlersFrom (previous : Position) : List Symbol → List HandlerSite
  | [] => []
  | symbol :: rest =>
      let later := handlersFrom symbol.fullRange.stop rest
      if symbol.kind = .method then
        ⟨symbol, ⟨previous, symbol.selectionRange.start⟩⟩ :: later
      else
        later

def handlers (type : Symbol) : List HandlerSite :=
  handlersFrom type.selectionRange.stop type.children

/-!
## Endpoints
-/

/-- The base paths that a header declares; none, unless it is that of a controller. -/
def basePaths? (rules : AnnotationRules) (header : List Char) : Option (List String) :=
  match rules.route? header with
  | some route => some route.paths
  | none => if rules.isController header then some ["/"] else none

def endpointsOf (rules : AnnotationRules) (file : FilePath) (document : Document)
    (bases : List String) (site : HandlerSite) : List Endpoint :=
  match rules.route? (document.textIn site.window) with
  | none => []
  | some route =>
      bases.flatMap fun base =>
        route.paths.map fun path =>
          { method := route.method
            path := RoutePath.combine base path
            handler := site.symbol.name
            location := ⟨file, site.symbol.selectionRange.start⟩
            firstLine := site.window.start.line
            lastLine := site.symbol.fullRange.stop.line }

def endpointsOfType (rules : AnnotationRules) (file : FilePath) (document : Document)
    (site : TypeSite) : List Endpoint :=
  match basePaths? rules (document.textIn site.header) with
  | none => []
  | some bases =>
      (handlers site.symbol).flatMap (endpointsOf rules file document bases)

def endpoints (rules : AnnotationRules) (windowLines : Nat) (file : FilePath)
    (document : Document) (symbols : List Symbol) : List Endpoint :=
  (sitesIn windowLines none symbols).flatMap (endpointsOfType rules file document)

end Extraction
end EndpointTrace
