import EndpointTrace.Proofs.Route.NearestAnnotation
import EndpointTrace.Proofs.Route.Windows
import Mathlib

/-!
# The text between two declarations

The window of a handler begins where the declared symbol before it has ended.  Up to the
declaration of the handler there is a gap; what stands there may be a member that is not a
symbol, and its annotations are read with those of the handler.  An annotation of the
declaration itself counts for more, as it comes later.  So a route is that of the
declaration, unless the declaration has none and an annotation begins in the gap.
-/

namespace EndpointTrace

/-!
## Annotations that begin in the gap
-/

namespace AnnotationName

variable {names : List (List Char)} (hnames : ∀ name ∈ names, '@' ∉ name)

include hnames

theorem exists_beginning {front back : List Char} (hback : all names back = [])
    {entry : List Char × List Char} (hentry : entry ∈ all names (front ++ back)) :
    ∃ piece, piece ≠ [] ∧ piece <:+ front ∧
      afterAtSign? names (piece ++ back) = some entry := by
  rcases Text.exists_start_of_mem_occurrences hentry with ⟨start, ⟨before, hbefore⟩, hfound⟩
  rcases List.append_eq_append_iff.mp hbefore with ⟨piece, hfront, hstart⟩ |
    ⟨piece, _, hpiece⟩
  · refine ⟨piece, ?_, ⟨before, hfront.symm⟩, hstart ▸ hfound⟩
    rintro rfl
    rw [hstart] at hfound
    have hmem := mem_all_of_afterAtSign? hfound
    rw [List.nil_append, hback] at hmem
    cases hmem
  · rcases all_append hnames piece start with ⟨earlier, hall⟩
    have hmem := List.mem_append_right earlier (mem_all_of_afterAtSign? hfound)
    rw [← hall, ← hpiece, hback] at hmem
    cases hmem

end AnnotationName

namespace AnnotationRules

open LexicalView (EndsInCode codeOnly)

/-- The last mapping annotation of the two texts begins in the first one. -/
def BeginsIn (rules : AnnotationRules) (gap declaration : List Char) : Prop :=
  ∃ piece entry, piece ≠ [] ∧ piece <:+ codeOnly gap ∧
    AnnotationName.afterAtSign? rules.mappingNames (piece ++ codeOnly declaration) = some entry ∧
    (AnnotationName.all rules.mappingNames (codeOnly (gap ++ declaration))).getLast? = some entry

variable {rules : AnnotationRules}

theorem BeginsIn.at_mem {gap declaration : List Char}
    (hbegins : rules.BeginsIn gap declaration) : '@' ∈ codeOnly gap := by
  rcases hbegins with ⟨piece, entry, hpiece, hsuffix, hfound, _⟩
  rcases AnnotationName.eq_append_of_afterAtSign? hfound with ⟨_, qualifier, hstart⟩
  cases piece with
  | nil =>
      exact absurd rfl hpiece
  | cons c rest =>
      rw [← (List.cons.inj hstart).1]
      exact hsuffix.subset List.mem_cons_self

variable (hnames : ∀ name ∈ rules.mappingNames, '@' ∉ name)

include hnames

theorem beginsIn_of_route? {gap declaration : List Char} (hends : EndsInCode gap)
    (hnone : ¬ rules.Annotates declaration) {route : RouteMapping}
    (hroute : rules.route? (gap ++ declaration) = some route) :
    rules.BeginsIn gap declaration := by
  rw [Annotates, not_not] at hnone
  cases hentry : (AnnotationName.all rules.mappingNames
      (codeOnly (gap ++ declaration))).getLast? with
  | none =>
      rw [route?, AnnotationName.last?, hentry] at hroute
      cases hroute
  | some entry =>
      have hmem := List.mem_of_getLast? hentry
      rw [hends.codeOnly_append] at hmem
      rcases AnnotationName.exists_beginning hnames hnone hmem with
        ⟨piece, hpiece, hsuffix, hfound⟩
      exact ⟨piece, entry, hpiece, hsuffix, hfound, hentry⟩

/-- Where a route is read from, with a gap before a declaration. -/
structure ReadFrom (rules : AnnotationRules) (gap declaration : List Char)
    (route : RouteMapping) : Prop where
  own : rules.Annotates declaration → rules.route? declaration = some route
  before : ¬ rules.Annotates declaration → rules.BeginsIn gap declaration
  clear : '@' ∉ codeOnly gap → rules.Annotates declaration

theorem readFrom_of_route? {gap declaration : List Char} (hends : EndsInCode gap)
    {route : RouteMapping} (hroute : rules.route? (gap ++ declaration) = some route) :
    rules.ReadFrom gap declaration route where
  own := by
    intro hown
    rw [← route?_append hnames hends hown]
    exact hroute
  before := fun hnone => beginsIn_of_route? hnames hends hnone hroute
  clear := by
    intro hclear
    by_contra hnone
    exact hclear (beginsIn_of_route? hnames hends hnone hroute).at_mem

end AnnotationRules

namespace Extraction

open LexicalView (EndsInCode)

/-- Every endpoint belongs to a method of a controller, and what it says is read from the
window of this method.  If the gap ends in code, the last annotation of the declaration
decides, and if the declaration has none, one that begins in the gap; so a declaration behind
a gap without an at sign has an annotation of its own.  A route that the declaration itself
declares gives endpoints, whatever the gap is. -/
theorem endpoints_readFrom {rules : AnnotationRules}
    (hnames : ∀ name ∈ rules.mappingNames, '@' ∉ name) (windowLines : Nat) (file : FilePath)
    (document : Document) {tree : List Java.Node} {start stop : Position}
    (htree : Java.NodesInOrder start stop tree) :
    (∀ endpoint ∈ endpoints rules windowLines file document (Java.symbols tree),
      ∃ site ∈ sitesIn windowLines none (Java.symbols tree),
        ∃ handler ∈ handlers site.symbol, ∃ bases route,
          basePaths? rules (document.textIn site.header) = some bases ∧
          (∃ base ∈ bases, ∃ path ∈ route.paths,
            endpoint = handler.endpoint file route.method base path) ∧
          document.textIn handler.window =
            document.textIn handler.gap ++ document.textIn handler.declaration ∧
          rules.route? (document.textIn handler.window) = some route ∧
          (EndsInCode (document.textIn handler.gap) →
            rules.ReadFrom (document.textIn handler.gap)
              (document.textIn handler.declaration) route)) ∧
      ∀ site ∈ sitesIn windowLines none (Java.symbols tree), ∀ bases,
        basePaths? rules (document.textIn site.header) = some bases →
        ∀ handler ∈ handlers site.symbol, EndsInCode (document.textIn handler.gap) →
          ∀ route, rules.route? (document.textIn handler.declaration) = some route →
            ∀ base ∈ bases, ∀ path ∈ route.paths,
              handler.endpoint file route.method base path ∈
                endpoints rules windowLines file document (Java.symbols tree) := by
  have hsymbols := (Java.siblings_symbols htree).wellFormed
  have htext : ∀ site ∈ sitesIn windowLines none (Java.symbols tree),
      ∀ handler ∈ handlers site.symbol, document.textIn handler.window =
        document.textIn handler.gap ++ document.textIn handler.declaration := by
    intro site hsite handler hhandler
    have htype := wellFormed_of_mem_sitesIn windowLines none _ hsymbols site hsite
    exact (handlers_split htype handler hhandler).2.textIn_window document
  constructor
  · intro endpoint hendpoint
    rcases mem_endpoints.mp hendpoint with
      ⟨site, hsite, bases, hbases, handler, hhandler, hof⟩
    rcases mem_endpointsOf.mp hof with ⟨route, hroute, hpaths⟩
    refine ⟨site, hsite, handler, hhandler, bases, route, hbases, hpaths,
      htext site hsite handler hhandler, hroute, ?_⟩
    intro hends
    rw [htext site hsite handler hhandler] at hroute
    exact AnnotationRules.readFrom_of_route? hnames hends hroute
  · intro site hsite bases hbases handler hhandler hends route hroute base hbase path hpath
    apply mem_endpoints.mpr
    refine ⟨site, hsite, bases, hbases, handler, hhandler, ?_⟩
    apply mem_endpointsOf.mpr
    refine ⟨route, ?_, base, hbase, path, hpath, rfl⟩
    rw [htext site hsite handler hhandler, AnnotationRules.route?_append hnames hends
      (AnnotationRules.annotates_of_route? hroute), hroute]

def initializerTree (method : Java.Node) : List Java.Node :=
  [.typeDecl .classType ⟨⟨0, 0⟩, ⟨4, 1⟩⟩ (some ⟨"A", ⟨⟨1, 6⟩, ⟨1, 7⟩⟩⟩)
    [.other [.typeDecl .classType ⟨⟨2, 4⟩, ⟨2, 49⟩⟩ (some ⟨"L", ⟨⟨2, 10⟩, ⟨2, 11⟩⟩⟩)
      [.callable .method ⟨⟨2, 14⟩, ⟨2, 47⟩⟩ (some ⟨"h", ⟨⟨2, 41⟩, ⟨2, 42⟩⟩⟩) []]], method]]

theorem nodesInOrder_initializerTree {range : Range} {name : Java.Name}
    (hstart : (⟨2, 51⟩ : Position) ≤ range.start) (hbefore : range.start ≤ name.range.start)
    (hname : name.range.start ≤ name.range.stop) (hbehind : name.range.stop ≤ range.stop)
    (hstop : range.stop ≤ ⟨4, 1⟩) :
    Java.NodesInOrder ⟨0, 0⟩ ⟨5, 0⟩
      (initializerTree (.callable .method range (some name) [])) := by
  refine ⟨⟨⟨0, 0⟩, ⟨4, 1⟩⟩, by decide, ⟨rfl, ⟨1, 7⟩, ?_, ?_⟩, ?_⟩
  · exact ⟨by decide, by decide, rfl⟩
  · refine ⟨⟨⟨2, 2⟩, ⟨2, 51⟩⟩, by decide, ?_, ?_⟩
    · refine ⟨⟨⟨2, 4⟩, ⟨2, 49⟩⟩, by decide, ⟨rfl, ⟨2, 11⟩, ?_, ?_⟩, ?_⟩
      · exact ⟨by decide, by decide, rfl⟩
      · refine ⟨⟨⟨2, 14⟩, ⟨2, 47⟩⟩, by decide, ⟨rfl, ⟨2, 42⟩, ?_, ?_⟩, ?_⟩
        · exact ⟨by decide, by decide, rfl⟩
        · exact (by decide : (⟨2, 42⟩ : Position) ≤ ⟨2, 47⟩)
        · exact (by decide : (⟨2, 47⟩ : Position) ≤ ⟨2, 49⟩)
      · exact (by decide : (⟨2, 49⟩ : Position) ≤ ⟨2, 51⟩)
    · exact ⟨range, hstart, ⟨rfl, name.range.stop, ⟨hbefore, hname, rfl⟩, hbehind⟩, hstop⟩
  · exact (by decide : (⟨4, 1⟩ : Position) ≤ ⟨5, 0⟩)

def annotatedController : String :=
  "@RestController\nclass A \x7b\n" ++
    "  \x7b class L \x7b @GetMapping(\"/ghost\") void h() \x7b\x7d \x7d \x7d\n" ++
    "  @GetMapping(\"/g\") void g() \x7b\x7d\n\x7d\n"

def plainController : String :=
  "@RestController\nclass A \x7b\n" ++
    "  \x7b class L \x7b @GetMapping(\"/ghost\") void h() \x7b\x7d \x7d \x7d\n" ++
    "  void g() \x7b\x7d\n\x7d\n"

def annotatedMethod : Java.Node :=
  .callable .method ⟨⟨3, 2⟩, ⟨3, 31⟩⟩ (some ⟨"g", ⟨⟨3, 25⟩, ⟨3, 26⟩⟩⟩) []

def plainMethod : Java.Node :=
  .callable .method ⟨⟨3, 2⟩, ⟨3, 13⟩⟩ (some ⟨"g", ⟨⟨3, 7⟩, ⟨3, 8⟩⟩⟩) []

theorem endpoints_readFrom_annotated :
    Java.NodesInOrder ⟨0, 0⟩ ⟨5, 0⟩ (initializerTree annotatedMethod) ∧
      (⟨.get, "/g", "g", ⟨⟨"A.java"⟩, ⟨3, 25⟩⟩, 1, 3⟩ : Endpoint) ∈
        endpoints .standard 5 ⟨"A.java"⟩ (.ofString annotatedController)
          (Java.symbols (initializerTree annotatedMethod)) ∧
      ∀ endpoint ∈ endpoints .standard 5 ⟨"A.java"⟩ (.ofString annotatedController)
          (Java.symbols (initializerTree annotatedMethod)),
        ∃ route, endpoint.method = route.method ∧ AnnotationRules.standard.ReadFrom
          ((Document.ofString annotatedController).textIn ⟨⟨1, 7⟩, ⟨3, 2⟩⟩)
          ((Document.ofString annotatedController).textIn ⟨⟨3, 2⟩, ⟨3, 25⟩⟩) route := by
  have htree : Java.NodesInOrder ⟨0, 0⟩ ⟨5, 0⟩ (initializerTree annotatedMethod) :=
    nodesInOrder_initializerTree (by decide) (by decide) (by decide) (by decide) (by decide)
  have hbases : basePaths? .standard
      ((Document.ofString annotatedController).textIn ⟨⟨0, 0⟩, ⟨1, 6⟩⟩) = some ["/"] := by
    cbv
  have hends : EndsInCode
      ((Document.ofString annotatedController).textIn ⟨⟨1, 7⟩, ⟨3, 2⟩⟩) := by
    decide +kernel
  have hroute : AnnotationRules.standard.route?
      ((Document.ofString annotatedController).textIn ⟨⟨3, 2⟩, ⟨3, 25⟩⟩) =
        some ⟨.get, ["/g"]⟩ := by
    cbv
  have hnames : ∀ name ∈ AnnotationRules.standard.mappingNames, '@' ∉ name := by decide
  rcases endpoints_readFrom hnames 5 ⟨"A.java"⟩ (.ofString annotatedController) htree with
    ⟨hread, hgiven⟩
  refine ⟨htree, ?_, ?_⟩
  · exact hgiven _ List.mem_cons_self ["/"] hbases _ List.mem_cons_self hends ⟨.get, ["/g"]⟩
      hroute "/" List.mem_cons_self "/g" List.mem_cons_self
  · intro endpoint hendpoint
    rcases hread endpoint hendpoint with
      ⟨site, hsite, handler, hhandler, _, route, _, ⟨_, _, _, _, rfl⟩, _, _, hfrom⟩
    cases List.mem_singleton.mp hsite
    cases List.mem_singleton.mp hhandler
    exact ⟨route, rfl, hfrom hends⟩

/-- The method has no annotation, and is taken for an endpoint with that of the local type
in the initializer before it. -/
theorem not_annotated_behind_initializer :
    Java.NodesInOrder ⟨0, 0⟩ ⟨5, 0⟩ (initializerTree plainMethod) ∧
      endpoints .standard 5 ⟨"A.java"⟩ (.ofString plainController)
          (Java.symbols (initializerTree plainMethod)) =
        [⟨.get, "/ghost", "g", ⟨⟨"A.java"⟩, ⟨3, 7⟩⟩, 1, 3⟩] ∧
      (Document.ofString plainController).textIn ⟨⟨3, 2⟩, ⟨3, 7⟩⟩ = "void ".toList ∧
      ¬ AnnotationRules.standard.Annotates "void ".toList := by
  refine ⟨nodesInOrder_initializerTree (by decide) (by decide) (by decide) (by decide)
    (by decide), ?_, ?_, by decide +kernel⟩
  · cbv
  · cbv

end Extraction
end EndpointTrace
