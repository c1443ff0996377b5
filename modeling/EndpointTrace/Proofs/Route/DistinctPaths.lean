import EndpointTrace.Proofs.Route.NormalPaths
import EndpointTrace.Proofs.Resolution.Matching
import Mathlib

/-!
# Endpoints of one handler

A handler has an endpoint for every base path of its type and every path of its own.  They
agree in all but their path, and different texts can combine to the same path: a text counts
for what is left of it in normal form, and what is missing at the end of a base path can be
made up for at the start of the path below it.  Two endpoints with the same path are copies
of each other, and no request names only one of them.
-/

namespace EndpointTrace

namespace RoutePath

/-- What a text adds to a combined path; the root adds nothing. -/
def share (cs : List Char) : List Char :=
  if normalizeChars cs = ['/'] then [] else normalizeChars cs

/-- Two pairs of texts say the same path: a piece of it is added by the text above in one
pair and by the text below in the other, and the rest is the same. -/
def Coincide (base path other below : List Char) : Prop :=
  ∃ middle,
    share other = share base ++ middle ∧ share path = middle ++ share below ∨
      share base = share other ++ middle ∧ share below = middle ++ share path

/-!
## Pairs of texts with the same path
-/

theorem normalizeChars_ne_nil (cs : List Char) : normalizeChars cs ≠ [] := by
  intro hnil
  have hhead := head?_normalizeChars cs
  rw [hnil] at hhead
  cases hhead

theorem share_ne_root (cs : List Char) : share cs ≠ ['/'] := by
  unfold share
  split
  · exact List.cons_ne_nil _ _ ∘ Eq.symm
  · assumption

theorem shares_ne_root (base path : List Char) : share base ++ share path ≠ ['/'] := by
  intro hroot
  rcases List.append_eq_singleton_iff.mp hroot with ⟨_, hpath⟩ | ⟨hbase, _⟩
  · exact share_ne_root path hpath
  · exact share_ne_root base hbase

theorem combineChars_eq_shares (base path : List Char) :
    combineChars base path =
      if share base ++ share path = [] then ['/'] else share base ++ share path := by
  unfold combineChars share
  by_cases hbase : normalizeChars base = ['/']
  · by_cases hpath : normalizeChars path = ['/']
    · simp [hbase, hpath]
    · simp [hbase, hpath, normalizeChars_ne_nil path]
  · by_cases hpath : normalizeChars path = ['/']
    · simp [hbase, hpath, normalizeChars_ne_nil base]
    · simp [hbase, hpath, normalizeChars_ne_nil base]

theorem combineChars_eq_iff {base path other below : List Char} :
    combineChars base path = combineChars other below ↔
      share base ++ share path = share other ++ share below := by
  rw [combineChars_eq_shares, combineChars_eq_shares]
  constructor
  · intro hsame
    split at hsame
    · split at hsame
      · rename_i hfirst hsecond
        rw [hfirst, hsecond]
      · exact absurd hsame.symm (shares_ne_root other below)
    · split at hsame
      · exact absurd hsame (shares_ne_root base path)
      · exact hsame
  · intro hsame
    rw [hsame]

theorem combine_eq_iff {base path other below : String} :
    combine base path = combine other below ↔
      Coincide base.toList path.toList other.toList below.toList := by
  rw [combine, combine, String.ofList_inj, combineChars_eq_iff, List.append_eq_append_iff]
  exact exists_or.symm

theorem share_eq_iff {cs ds : List Char} :
    share cs = share ds ↔ normalizeChars cs = normalizeChars ds := by
  constructor
  · intro hshare
    unfold share at hshare
    split at hshare
    · rename_i hcs
      split at hshare
      · rename_i hds
        rw [hcs, hds]
      · exact absurd hshare.symm (normalizeChars_ne_nil ds)
    · split at hshare
      · exact absurd hshare (normalizeChars_ne_nil cs)
      · exact hshare
  · intro hnormal
    rw [share, share, hnormal]

theorem combine_right_eq_iff {base path below : String} :
    combine base path = combine base below ↔ normalize path = normalize below := by
  rw [combine, combine, String.ofList_inj, combineChars_eq_iff, List.append_cancel_left_eq,
    share_eq_iff, normalize, normalize, String.ofList_inj]

theorem combine_left_eq_iff {base other path : String} :
    combine base path = combine other path ↔ normalize base = normalize other := by
  rw [combine, combine, String.ofList_inj, combineChars_eq_iff, List.append_cancel_right_eq,
    share_eq_iff, normalize, normalize, String.ofList_inj]

theorem nodup_combined_iff {bases paths : List String} (hbases : bases.Nodup)
    (hpaths : paths.Nodup) :
    (bases.flatMap fun base => paths.map (combine base)).Nodup ↔
      ∀ base ∈ bases, ∀ other ∈ bases, ∀ path ∈ paths, ∀ below ∈ paths,
        Coincide base.toList path.toList other.toList below.toList →
          base = other ∧ path = below := by
  have hproduct : (bases.flatMap fun base => paths.map (combine base)) =
      (bases ×ˢ paths).map fun pair => combine pair.1 pair.2 := by
    change _ = (bases.flatMap fun base => paths.map (Prod.mk base)).map _
    rw [List.map_flatMap]
    simp only [List.map_map, Function.comp_def]
  rw [hproduct, List.nodup_map_iff_inj_on (hbases.product hpaths)]
  constructor
  · intro hinjective base hbase other hother path hpath below hbelow hcoincide
    apply Prod.mk.inj
    apply hinjective (base, path) (List.mem_product.mpr ⟨hbase, hpath⟩) (other, below)
      (List.mem_product.mpr ⟨hother, hbelow⟩)
    exact combine_eq_iff.mpr hcoincide
  · rintro hdifferent ⟨base, path⟩ hfirst ⟨other, below⟩ hsecond hsame
    rcases List.mem_product.mp hfirst with ⟨hbase, hpath⟩
    rcases List.mem_product.mp hsecond with ⟨hother, hbelow⟩
    rcases hdifferent base hbase other hother path hpath below hbelow
      (combine_eq_iff.mp hsame) with ⟨rfl, rfl⟩
    rfl

theorem nodup_map_combine_iff (base : String) (paths : List String) :
    (paths.map (combine base)).Nodup ↔ (paths.map normalize).Nodup := by
  simp only [List.Nodup, List.pairwise_map, ne_eq, combine_right_eq_iff]

theorem nodup_map_combine_left_iff (path : String) (bases : List String) :
    (bases.map fun base => combine base path).Nodup ↔ (bases.map normalize).Nodup := by
  simp only [List.Nodup, List.pairwise_map, ne_eq, combine_left_eq_iff]

end RoutePath

namespace Resolution

theorem not_sole_of_duplicate {property : Endpoint → Prop} {candidates : List Endpoint}
    {endpoint : Endpoint} (hcopies : List.Subperm [endpoint, endpoint] candidates) :
    ¬ Sole property candidates endpoint := by
  rintro ⟨before, after, rfl, hproperty, hothers⟩
  have hrest : List.Subperm [endpoint] (before ++ after) := by
    rw [← List.subperm_cons endpoint]
    exact hcopies.trans List.perm_middle.subperm
  exact hothers endpoint (List.singleton_subperm_iff.mp hrest) hproperty

end Resolution

namespace Extraction

section

variable {rules : AnnotationRules} {file : FilePath} {document : Document}
  {bases : List String} {handler : HandlerSite}

theorem eq_of_path_eq {first second : Endpoint}
    (hfirst : first ∈ endpointsOf rules file document bases handler)
    (hsecond : second ∈ endpointsOf rules file document bases handler)
    (hpath : first.path = second.path) : first = second := by
  rcases mem_endpointsOf.mp hfirst with ⟨route, hroute, base, _, path, _, rfl⟩
  rcases mem_endpointsOf.mp hsecond with ⟨again, hagain, other, _, below, _, rfl⟩
  have hsame : route = again := Option.some.inj (hroute.symm.trans hagain)
  have hcombined : RoutePath.combine base path = RoutePath.combine other below := hpath
  rw [HandlerSite.endpoint, HandlerSite.endpoint, hcombined, hsame]

theorem map_path_endpointsOf {route : RouteMapping}
    (hroute : rules.route? (document.textIn handler.window) = some route) :
    (endpointsOf rules file document bases handler).map Endpoint.path =
      bases.flatMap fun base => route.paths.map (RoutePath.combine base) := by
  simp only [endpointsOf, hroute, List.map_flatMap, List.map_map, Function.comp_def]

theorem exists_duplicate_of_path {path : String}
    (hpath : List.Duplicate path
      ((endpointsOf rules file document bases handler).map Endpoint.path)) :
    ∃ endpoint, endpoint.path = path ∧
      List.Duplicate endpoint (endpointsOf rules file document bases handler) := by
  rcases List.sublist_map_iff.mp (List.duplicate_iff_sublist.mp hpath) with
    ⟨copies, hcopies, hpaths⟩
  obtain ⟨first, second, rfl⟩ : ∃ first second, copies = [first, second] := by
    rw [← List.length_eq_two, ← List.length_map Endpoint.path, ← hpaths]
    rfl
  rcases List.cons.inj hpaths with ⟨hfirst, hothers⟩
  have hsecond : path = second.path := (List.cons.inj hothers).1
  have hsame : first = second :=
    eq_of_path_eq (hcopies.subset List.mem_cons_self)
      (hcopies.subset (List.mem_cons_of_mem _ List.mem_cons_self))
      (hfirst.symm.trans hsecond)
  rw [← hsame] at hcopies
  exact ⟨first, hfirst.symm, List.duplicate_iff_sublist.mpr hcopies⟩

end

theorem endpointsOf_contiguous {rules : AnnotationRules} {windowLines : Nat} {file : FilePath}
    {document : Document} {symbols : List Symbol} {site : TypeSite} {handler : HandlerSite}
    {bases : List String} (hsite : site ∈ sitesIn windowLines none symbols)
    (hbases : basePaths? rules (document.textIn site.header) = some bases)
    (hhandler : handler ∈ handlers site.symbol) :
    endpointsOf rules file document bases handler <:+:
      endpoints rules windowLines file document symbols := by
  have hoftype : endpointsOfType rules file document site =
      (handlers site.symbol).flatMap (endpointsOf rules file document bases) := by
    rw [endpointsOfType, hbases]
  have hinner : endpointsOf rules file document bases handler <:+:
      endpointsOfType rules file document site := by
    rw [hoftype, List.flatMap_def]
    exact List.infix_of_mem_flatten (List.mem_map_of_mem hhandler)
  apply hinner.trans
  rw [endpoints, List.flatMap_def]
  exact List.infix_of_mem_flatten (List.mem_map_of_mem hsite)

/-- The endpoints of one handler have different paths if no two pairs of a base path and a
path coincide; a single base path, or a single path, leaves it to the normal forms.  Where a
path occurs twice, so does its endpoint, and no request has it for its only match. -/
theorem paths_nodup_iff {rules : AnnotationRules} {windowLines : Nat} {file : FilePath}
    {document : Document} {symbols : List Symbol} {site : TypeSite} {handler : HandlerSite}
    {bases : List String} {route : RouteMapping}
    (hsite : site ∈ sitesIn windowLines none symbols)
    (hbases : basePaths? rules (document.textIn site.header) = some bases)
    (hhandler : handler ∈ handlers site.symbol)
    (hroute : rules.route? (document.textIn handler.window) = some route)
    (hdistinctBases : bases.Nodup) (hdistinctPaths : route.paths.Nodup) :
    endpointsOf rules file document bases handler <:+:
        endpoints rules windowLines file document symbols ∧
      (((endpointsOf rules file document bases handler).map Endpoint.path).Nodup ↔
        ∀ base ∈ bases, ∀ other ∈ bases, ∀ path ∈ route.paths, ∀ below ∈ route.paths,
          RoutePath.Coincide base.toList path.toList other.toList below.toList →
            base = other ∧ path = below) ∧
      (∀ base, bases = [base] →
        (((endpointsOf rules file document bases handler).map Endpoint.path).Nodup ↔
          (route.paths.map RoutePath.normalize).Nodup)) ∧
      (∀ path, route.paths = [path] →
        (((endpointsOf rules file document bases handler).map Endpoint.path).Nodup ↔
          (bases.map RoutePath.normalize).Nodup)) ∧
      ∀ path,
        List.Duplicate path
            ((endpointsOf rules file document bases handler).map Endpoint.path) →
          ∃ endpoint, endpoint.path = path ∧
            List.Duplicate endpoint (endpointsOf rules file document bases handler) ∧
            ∀ candidates,
              List.Subperm (endpointsOf rules file document bases handler) candidates →
                ∀ request,
                  Resolution.sole? (Resolution.directMatches request candidates) ≠
                    some endpoint := by
  refine ⟨endpointsOf_contiguous hsite hbases hhandler, ?_, ?_, ?_, ?_⟩
  · rw [map_path_endpointsOf hroute]
    exact RoutePath.nodup_combined_iff hdistinctBases hdistinctPaths
  · rintro base rfl
    rw [map_path_endpointsOf hroute, List.flatMap_singleton]
    exact RoutePath.nodup_map_combine_iff base route.paths
  · intro path hpath
    rw [map_path_endpointsOf hroute, hpath]
    simp only [List.map_cons, List.map_nil]
    rw [← List.map_eq_flatMap]
    exact RoutePath.nodup_map_combine_left_iff path bases
  · intro path htwice
    rcases exists_duplicate_of_path htwice with ⟨endpoint, hpath, hcopies⟩
    refine ⟨endpoint, hpath, hcopies, ?_⟩
    intro candidates hcandidates request hsole
    have htwo := (List.duplicate_iff_sublist.mp hcopies).subperm.trans hcandidates
    exact Resolution.not_sole_of_duplicate htwo (Resolution.sole?_directMatches.mp hsole)

/-- A type and a handler with two texts each; what one base path lacks, a path adds. -/
def overlappingController : String :=
  "@RequestMapping(\x7b\"/a\", \"/a/b\"\x7d)\nclass A \x7b\n" ++
    "  @GetMapping(\x7b\"/b/c\", \"/c\"\x7d) void f() \x7b\x7d\n\x7d\n"

def overlappingTree : List Java.Node :=
  [.typeDecl .classType ⟨⟨0, 0⟩, ⟨3, 1⟩⟩ (some ⟨"A", ⟨⟨1, 6⟩, ⟨1, 7⟩⟩⟩)
    [.callable .method ⟨⟨2, 2⟩, ⟨2, 41⟩⟩ (some ⟨"f", ⟨⟨2, 35⟩, ⟨2, 36⟩⟩⟩) []]]

theorem paths_nodup_iff_overlapping :
    ∃ handler, ["/a", "/a/b"].Nodup ∧ ["/b/c", "/c"].Nodup ∧
      RoutePath.Coincide "/a".toList "/b/c".toList "/a/b".toList "/c".toList ∧
      endpointsOf .standard ⟨"A.java"⟩ (.ofString overlappingController) ["/a", "/a/b"]
          handler <:+:
        endpoints .standard 5 ⟨"A.java"⟩ (.ofString overlappingController)
          (Java.symbols overlappingTree) ∧
      ¬ ((endpointsOf .standard ⟨"A.java"⟩ (.ofString overlappingController) ["/a", "/a/b"]
        handler).map Endpoint.path).Nodup := by
  have hsite : ⟨⟨"A", .classType, ⟨⟨0, 0⟩, ⟨3, 1⟩⟩, ⟨⟨1, 6⟩, ⟨1, 7⟩⟩,
      [⟨"f", .method, ⟨⟨2, 2⟩, ⟨2, 41⟩⟩, ⟨⟨2, 35⟩, ⟨2, 36⟩⟩, []⟩]⟩, ⟨⟨0, 0⟩, ⟨1, 6⟩⟩⟩ ∈
        sitesIn 5 none (Java.symbols overlappingTree) := by
    apply List.mem_of_getElem? (i := 0)
    cbv
  have hbases : basePaths? .standard
      ((Document.ofString overlappingController).textIn ⟨⟨0, 0⟩, ⟨1, 6⟩⟩) =
        some ["/a", "/a/b"] := by
    cbv
  have hroute : AnnotationRules.standard.route?
      ((Document.ofString overlappingController).textIn ⟨⟨1, 7⟩, ⟨2, 35⟩⟩) =
        some ⟨.get, ["/b/c", "/c"]⟩ := by
    cbv
  have hcoincide :
      RoutePath.Coincide "/a".toList "/b/c".toList "/a/b".toList "/c".toList :=
    ⟨"/b".toList, Or.inl (by decide)⟩
  rcases paths_nodup_iff hsite hbases List.mem_cons_self hroute (by decide) (by decide) with
    ⟨hpiece, hdistinct, _⟩
  refine ⟨_, by decide, by decide, hcoincide, hpiece, ?_⟩
  rw [hdistinct]
  intro hdifferent
  have hsame := hdifferent "/a" (by decide) "/a/b" (by decide) "/b/c" (by decide) "/c"
    (by decide) hcoincide
  exact absurd hsame.1 (by decide)

def twofoldController : String :=
  "@RestController\nclass A \x7b\n" ++
    "  @GetMapping(\x7b\"/a\", \"a/\"\x7d) void f() \x7b\x7d\n\x7d\n"

def twofoldTree : List Java.Node :=
  [.typeDecl .classType ⟨⟨0, 0⟩, ⟨3, 1⟩⟩ (some ⟨"A", ⟨⟨1, 6⟩, ⟨1, 7⟩⟩⟩)
    [.callable .method ⟨⟨2, 2⟩, ⟨2, 39⟩⟩ (some ⟨"f", ⟨⟨2, 33⟩, ⟨2, 34⟩⟩⟩) []]]

theorem not_distinct_twofold :
    basePaths? .standard ((Document.ofString twofoldController).textIn ⟨⟨0, 0⟩, ⟨1, 6⟩⟩) =
        some ["/"] ∧
      AnnotationRules.standard.route?
          ((Document.ofString twofoldController).textIn ⟨⟨1, 7⟩, ⟨2, 33⟩⟩) =
        some ⟨.get, ["/a", "a/"]⟩ ∧
      ["/a", "a/"].Nodup ∧
      ∃ endpoint, endpoint.path = "/a" ∧
        endpoints .standard 5 ⟨"A.java"⟩ (.ofString twofoldController)
          (Java.symbols twofoldTree) = [endpoint, endpoint] := by
  refine ⟨by cbv, by cbv, by decide,
    ⟨.get, "/a", "f", ⟨⟨"A.java"⟩, ⟨2, 33⟩⟩, 1, 2⟩, rfl, ?_⟩
  cbv

end Extraction
end EndpointTrace
