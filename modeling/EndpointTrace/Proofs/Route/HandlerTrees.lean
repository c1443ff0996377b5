import EndpointTrace.Proofs.CallTree.Soundness
import EndpointTrace.Proofs.Java.Lookup
import EndpointTrace.Proofs.Route.Windows
import Mathlib

/-!
# From an endpoint to its call tree

The endpoints of a file are found on its symbols, and the index is filled from its syntax
tree.  Still every endpoint stands where the name of a method begins that the index knows,
and this method is the root of the call tree below the endpoint.  Only an endpoint in a
file without a path is refused.
-/

namespace EndpointTrace

/-!
## Handlers are declared callables
-/

namespace Symbol

theorem mem_callablesIn {owner : Option String} {symbols : List Symbol} {symbol : Symbol}
    (hmem : symbol ∈ symbols) (hkind : symbol.kind.isCallable = true) :
    (owner, symbol) ∈ callablesIn owner symbols := by
  induction symbols with
  | nil =>
      cases hmem
  | cons first rest ih =>
      rw [callablesIn]
      rcases List.mem_cons.mp hmem with rfl | htail
      · apply List.mem_append_left
        cases symbol with
        | mk name kind full selection children =>
            rw [callablesOf, if_pos hkind]
            exact List.mem_cons_self
      · exact List.mem_append_right _ (ih htail)

end Symbol

namespace Extraction

mutual

theorem declared_of_mem_sitesOf (windowLines : Nat) (floor : Option Position)
    (owner : Option String) : (symbol : Symbol) →
    ∀ site ∈ sitesOf windowLines floor symbol, ∀ member ∈ site.symbol.children,
      member.kind = .method →
        (some site.symbol.name, member) ∈ Symbol.callablesOf owner symbol
  | ⟨name, kind, full, selection, children⟩ => by
      intro site hsite member hmember hkind
      rw [sitesOf] at hsite
      split at hsite
      · rename_i htype
        have hcallable : kind.isCallable = false := by
          cases kind <;> first | rfl | cases htype
        rw [Symbol.callablesOf, hcallable, htype]
        rcases List.mem_cons.mp hsite with rfl | hinner
        · exact Symbol.mem_callablesIn hmember (by rw [hkind]; rfl)
        · exact declared_of_mem_sitesIn windowLines (some selection.stop) (some name) children
            site hinner member hmember hkind
      · cases hsite

theorem declared_of_mem_sitesIn (windowLines : Nat) (floor : Option Position)
    (owner : Option String) : (symbols : List Symbol) →
    ∀ site ∈ sitesIn windowLines floor symbols, ∀ member ∈ site.symbol.children,
      member.kind = .method →
        (some site.symbol.name, member) ∈ Symbol.callablesIn owner symbols
  | [] => by
      intro site hsite
      cases hsite
  | symbol :: rest => by
      intro site hsite member hmember hkind
      rw [Symbol.callablesIn]
      rcases List.mem_append.mp hsite with hfirst | hlater
      · exact List.mem_append_left _ (declared_of_mem_sitesOf windowLines floor owner symbol
          site hfirst member hmember hkind)
      · exact List.mem_append_right _ (declared_of_mem_sitesIn windowLines
          (some symbol.fullRange.stop) owner rest site hlater member hmember hkind)

end

theorem method_of_mem_handlersFrom {previous : Position} {members : List Symbol}
    {handler : HandlerSite} (hhandler : handler ∈ handlersFrom previous members) :
    handler.symbol ∈ members ∧ handler.symbol.kind = .method := by
  induction members generalizing previous with
  | nil =>
      cases hhandler
  | cons member rest ih =>
      rw [handlersFrom] at hhandler
      split at hhandler
      · rename_i hmethod
        rcases List.mem_cons.mp hhandler with rfl | hlater
        · exact ⟨List.mem_cons_self, hmethod⟩
        · exact ⟨List.mem_cons_of_mem _ (ih hlater).1, (ih hlater).2⟩
      · exact ⟨List.mem_cons_of_mem _ (ih hhandler).1, (ih hhandler).2⟩

theorem endpointsOf_handler {rules : AnnotationRules} {file : FilePath}
    {document : Document} {bases : List String} {handler : HandlerSite} {endpoint : Endpoint}
    (hendpoint : endpoint ∈ endpointsOf rules file document bases handler) :
    endpoint.handler = handler.symbol.name ∧
      endpoint.location = ⟨file, handler.symbol.selectionRange.start⟩ := by
  rcases mem_endpointsOf.mp hendpoint with ⟨_, _, _, _, _, _, rfl⟩
  exact ⟨rfl, rfl⟩

theorem endpoint_declared {rules : AnnotationRules} {windowLines : Nat} {file : FilePath}
    {document : Document} {symbols : List Symbol} {endpoint : Endpoint}
    (hendpoint : endpoint ∈ endpoints rules windowLines file document symbols) :
    ∃ declared ∈ Symbol.callablesIn none symbols, endpoint.handler = declared.2.name ∧
      endpoint.location = ⟨file, declared.2.selectionRange.start⟩ := by
  rcases mem_endpoints.mp hendpoint with ⟨site, hsite, _, _, handler, hhandler, hof⟩
  rcases method_of_mem_handlersFrom hhandler with ⟨hmember, hmethod⟩
  have hdeclared := declared_of_mem_sitesIn windowLines none none symbols site hsite
    handler.symbol hmember hmethod
  exact ⟨_, hdeclared, endpointsOf_handler hof⟩

end Extraction

/-!
## Roots
-/

namespace CallTree

variable {σ : Type} {guard : Guard} {oracle : Oracle σ} {location : Location} {state : σ}
  {moment : Moment}

theorem exists_root_of_prepared (limits : CallLimits) {root : Identity}
    {others : List Identity} (hfile : location.file.isEmpty = false)
    (hlive : moment.cancelled = false)
    (hprepared : (guard.run "prepare_call_hierarchy"
      (oracle.prepare location.file location.position state).1 moment).1
        = .ok (root :: others)) :
    ∃ tree node, (build limits guard oracle location state moment).result = .ok (some tree) ∧
      tree.node? 0 = some node ∧ node.identity = root := by
  have hstart : Resolves guard oracle location state moment
      (.ofRoot root
        (guard.run "prepare_call_hierarchy"
          (oracle.prepare location.file location.position state).1 moment).2
        (oracle.prepare location.file location.position state).2) :=
    ⟨hfile, hlive, root, others, hprepared, rfl⟩
  have hsound : Expansion.Sound limits _ := hstart.sound
  have hgrows := (Expansion.run_finish limits guard oracle _).growsTo hsound
  have hroot : (CallTree.ofRoot root).node? 0 = some ⟨root, 0, none, [], [], none⟩ := rfl
  rcases hgrows.node? hroot with ⟨node, hnode, horigin⟩
  refine ⟨_, node, ?_, hnode, congrArg NodeOrigin.identity horigin⟩
  rw [build_of_resolves hstart]

end CallTree

namespace Extraction

/-- Where an endpoint stands, an index of all files finds its handler and nothing else, and
in a run that is not cancelled the handler is the root of the tree that is built there, if
the file has a path at all. -/
theorem endpoint_leads_to_tree {sources order : List Java.Source}
    (hdistinct : Java.Source.Distinct sources)
    (hnames : ∀ source ∈ sources, source.NamesApart) (horder : order.Perm sources)
    {index : CallIndex} (hindex : index = .ofSources order ∨ index = .merged order)
    {source : Java.Source} (hsource : source ∈ sources) (rules : AnnotationRules)
    (windowLines : Nat) (document : Document) {endpoint : Endpoint}
    (hendpoint : endpoint ∈
      endpoints rules windowLines source.file document (Java.symbols source.tree)) :
    ∃ identity,
      index.prepare endpoint.location.file endpoint.location.position = [identity] ∧
      identity.name = endpoint.handler ∧ identity.location = endpoint.location ∧
      (endpoint.location.file.isEmpty = false →
        ∀ (limits : CallLimits) (guard : Guard) (moment : Moment),
          moment.cancelled = false → ∃ tree root,
            (CallTree.build limits guard index.oracle endpoint.location () moment).result
              = .ok (some tree) ∧
            tree.node? 0 = some root ∧ root.identity = identity) := by
  have hcallables : index.callables.toList = order.flatMap Java.Source.callables := by
    rcases hindex with rfl | rfl
    · exact CallIndex.callables_ofSources order
    · exact CallIndex.callables_merged order
  have hholds : ∀ callable, callable ∈ index.callables.toList ↔
      ∃ source ∈ sources, callable ∈ source.callables := by
    intro callable
    rw [hcallables, List.mem_flatMap]
    simp only [horder.mem_iff]
  rcases endpoint_declared hendpoint with ⟨declared, hdeclared, hhandler, hlocation⟩
  rcases CallIndex.prepare_of_declared hdistinct hnames hholds hsource hdeclared with
    ⟨identity, hprepare, hname, _, hplace⟩
  rw [hhandler, hlocation]
  refine ⟨identity, hprepare, hname, hplace, ?_⟩
  intro hfile limits guard moment hlive
  apply CallTree.exists_root_of_prepared limits hfile hlive
  have hanswer : (index.oracle.prepare source.file declared.2.selectionRange.start ()).1
      = .immediate (.ok [identity]) := by
    rw [← hprepare]
    rfl
  rw [hanswer, guard.run_immediate _ _ hlive]

def twinSources : List Java.Source :=
  [⟨⟨"a/C.java"⟩, nestedTree⟩, ⟨⟨"b/C.java"⟩, nestedTree⟩]

def nestedEndpoint (file : FilePath) : Endpoint :=
  ⟨.get, "/a", "f", ⟨file, ⟨2, 25⟩⟩, 1, 2⟩

theorem namesApart_nestedTree (file : FilePath) :
    Java.Source.NamesApart ⟨file, nestedTree⟩ := by
  have htoken : ∀ met ∈ Symbol.callablesIn none (Java.symbols nestedTree),
      met.2.selectionRange.start ≤ met.2.selectionRange.stop := by
    decide
  have hapart : (Symbol.callablesIn none (Java.symbols nestedTree)).Pairwise
      fun a b => a.2.selectionRange.Apart b.2.selectionRange := by
    decide
  exact ⟨htoken, hapart⟩

theorem nestedEndpoint_mem (file : FilePath) :
    nestedEndpoint file ∈ endpoints .standard 5 file (.ofString nestedControllers)
      (Java.symbols nestedTree) := by
  apply List.mem_of_getElem? (i := 0)
  cbv

theorem endpoint_leads_to_tree_twins :
    Java.Source.Distinct twinSources ∧ (∀ source ∈ twinSources, source.NamesApart) ∧
      twinSources.reverse.Perm twinSources ∧
      nestedEndpoint ⟨"a/C.java"⟩ ∈ endpoints .standard 5 ⟨"a/C.java"⟩
        (.ofString nestedControllers) (Java.symbols nestedTree) ∧
      ∃ identity,
        (CallIndex.merged twinSources.reverse).prepare ⟨"a/C.java"⟩ ⟨2, 25⟩ = [identity] ∧
        identity.name = "f" ∧ identity.location = ⟨⟨"a/C.java"⟩, ⟨2, 25⟩⟩ ∧
        ∃ tree root,
          (CallTree.build ⟨6, 512⟩ ⟨1000, none⟩ (CallIndex.merged twinSources.reverse).oracle
            ⟨⟨"a/C.java"⟩, ⟨2, 25⟩⟩ () .start).result = .ok (some tree) ∧
          tree.node? 0 = some root ∧ root.identity = identity := by
  have hdistinct : Java.Source.Distinct twinSources := by
    unfold Java.Source.Distinct
    decide
  have hnames : ∀ source ∈ twinSources, source.NamesApart := by
    intro source hsource
    simp only [twinSources, List.mem_cons, List.not_mem_nil, or_false] at hsource
    rcases hsource with rfl | rfl
    · exact namesApart_nestedTree _
    · exact namesApart_nestedTree _
  have horder := List.reverse_perm twinSources
  have hendpoint := nestedEndpoint_mem ⟨"a/C.java"⟩
  refine ⟨hdistinct, hnames, horder, hendpoint, ?_⟩
  rcases endpoint_leads_to_tree hdistinct hnames horder (Or.inr rfl) List.mem_cons_self
    .standard 5 _ hendpoint with ⟨identity, hprepare, hname, hlocation, htree⟩
  exact ⟨identity, hprepare, hname, hlocation, htree (by decide) ⟨6, 512⟩ ⟨1000, none⟩ .start rfl⟩

/-- An endpoint in a file without a path is found by the index, and still no tree is built
at its location. -/
theorem no_tree_of_pathless :
    Java.Source.Distinct [⟨⟨""⟩, nestedTree⟩] ∧ Java.Source.NamesApart ⟨⟨""⟩, nestedTree⟩ ∧
      nestedEndpoint ⟨""⟩ ∈ endpoints .standard 5 ⟨""⟩ (.ofString nestedControllers)
        (Java.symbols nestedTree) ∧
      ∀ (limits : CallLimits) (guard : Guard) (moment : Moment) (tree : CallTree),
        (CallTree.build limits guard (CallIndex.ofSources [⟨⟨""⟩, nestedTree⟩]).oracle
          (nestedEndpoint ⟨""⟩).location () moment).result ≠ .ok (some tree) := by
  refine ⟨List.pairwise_singleton _ _, namesApart_nestedTree _, nestedEndpoint_mem _, ?_⟩
  intro limits guard moment tree hbuilt
  have hfile : (nestedEndpoint ⟨""⟩).location.file.isEmpty = true := by
    decide
  rw [CallTree.build, if_pos hfile] at hbuilt
  cases hbuilt

end Extraction
end EndpointTrace
