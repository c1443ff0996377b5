import EndpointTrace.Route.AnnotationName
import EndpointTrace.Route.Attributes

/-!
# Mappings

The annotation that counts is the last one in a block of text whose name is that of
a mapping rule, outside comments and literals.  The rule gives the method or leaves
it to the attributes; the attributes give the paths.
-/

namespace EndpointTrace

/-- An annotation name and the method it stands for; without one, the attributes
name it. -/
structure MappingRule where
  name : String
  method : Option Method
  deriving DecidableEq, Repr

structure RouteMapping where
  method : Method
  paths : List String
  deriving DecidableEq, Repr

/-- Which annotations declare routes, and which mark a type as a controller. -/
structure AnnotationRules where
  mappings : List MappingRule
  markers : List String
  deriving Repr

namespace AnnotationRules

def defaultMappings : List MappingRule :=
  [⟨"GetMapping", some .get⟩, ⟨"PostMapping", some .post⟩, ⟨"PutMapping", some .put⟩,
    ⟨"DeleteMapping", some .delete⟩, ⟨"PatchMapping", some .patch⟩,
    ⟨"RequestMapping", none⟩]

def defaultMarkers : List String := ["RestController", "Controller"]

def standard : AnnotationRules := ⟨defaultMappings, defaultMarkers⟩

/-- Rules are of use only if there is at least one mapping. -/
def ofLists (mappings : List MappingRule) (markers : List String) :
    Except Failure AnnotationRules :=
  if mappings.isEmpty then .error .noMappingRules else .ok ⟨mappings, markers⟩

def mappingNames (rules : AnnotationRules) : List (List Char) :=
  rules.mappings.map fun rule => rule.name.toList

/-- The names of the markers; an empty list stands for the empty name. -/
def markerNames (rules : AnnotationRules) : List (List Char) :=
  match rules.markers with
  | [] => [[]]
  | markers => markers.map String.toList

def route? (rules : AnnotationRules) (block : List Char) : Option RouteMapping := do
  let (name, stop) ← AnnotationName.last? rules.mappingNames (LexicalView.codeOnly block)
  let rule ← rules.mappings.find? fun rule => rule.name.toList == name
  let attributes := Attributes.list? (Text.dropBytes stop (LexicalView.blankComments block))
  let method := rule.method.getD ((attributes.bind Attributes.method?).getD .get)
  let paths ← (attributes.map Attributes.paths?).getD (some [['/']])
  pure ⟨method, paths.map String.ofList⟩

def isController (rules : AnnotationRules) (block : List Char) : Bool :=
  !(AnnotationName.all rules.markerNames (LexicalView.codeOnly block)).isEmpty

end AnnotationRules

end EndpointTrace
