import EndpointTrace.CallGraph.Index
import EndpointTrace.Proofs.Java.Nesting
import Mathlib.Data.List.Forall2

/-!
# What is declared is what is indexed

Symbols and callables are collected from a syntax tree by separate walks.  They meet the
same methods and constructors in the same order, and each is indexed under the name, the
ranges and the enclosing type that its symbol has.
-/

namespace EndpointTrace

/-!
## Callable symbols
-/

namespace Symbol

mutual

/-- The methods and constructors at and below a symbol, each before those below it, with
the name of the type symbol around it. -/
def callablesOf (owner : Option String) : Symbol → List (Option String × Symbol)
  | ⟨name, kind, full, selection, children⟩ =>
      let below := callablesIn (if kind.isType then some name else owner) children
      if kind.isCallable then (owner, ⟨name, kind, full, selection, children⟩) :: below
      else below

def callablesIn (owner : Option String) : List Symbol → List (Option String × Symbol)
  | [] => []
  | symbol :: rest => callablesOf owner symbol ++ callablesIn owner rest

end

theorem callablesIn_append (owner : Option String) (first second : List Symbol) :
    callablesIn owner (first ++ second) =
      callablesIn owner first ++ callablesIn owner second := by
  induction first with
  | nil =>
      rfl
  | cons symbol rest ih =>
      rw [List.cons_append, callablesIn, callablesIn, ih, List.append_assoc]

theorem callablesIn_type (owner : Option String) (kind : Java.TypeKind) (name : String)
    (full selection : Range) (children : List Symbol) :
    callablesIn owner [⟨name, kind.symbolKind, full, selection, children⟩] =
      callablesIn (some name) children := by
  cases kind <;>
    simp [callablesIn, callablesOf, Java.TypeKind.symbolKind, SymbolKind.isType,
      SymbolKind.isCallable]

theorem callablesIn_callable (owner : Option String) (kind : Java.CallableKind)
    (name : String) (full selection : Range) :
    callablesIn owner [⟨name, kind.symbolKind, full, selection, []⟩] =
      [(owner, ⟨name, kind.symbolKind, full, selection, []⟩)] := by
  cases kind <;>
    simp [callablesIn, callablesOf, Java.CallableKind.symbolKind, SymbolKind.isCallable]

theorem callablesIn_field (owner : Option String) (name : String) (full selection : Range) :
    callablesIn owner [⟨name, .field, full, selection, []⟩] = [] := by
  simp [callablesIn, callablesOf, SymbolKind.isCallable]

/-!
## Names in order

In a well-formed tree of symbols the names of the callables follow one another, so no
declaration is met twice.
-/

structure NamedWithin (outer : Range) (symbol : Symbol) : Prop where
  start : outer.start ≤ symbol.selectionRange.start
  stop : symbol.selectionRange.stop ≤ outer.stop

theorem NamedWithin.widen {inner outer : Range} {symbol : Symbol}
    (hnamed : symbol.NamedWithin inner) (hstart : outer.start ≤ inner.start)
    (hstop : inner.stop ≤ outer.stop) : symbol.NamedWithin outer :=
  ⟨Position.le_trans hstart hnamed.start, Position.le_trans hnamed.stop hstop⟩

def NamesInOrder (met : List (Option String × Symbol)) : Prop :=
  met.Pairwise fun a b => a.2.selectionRange.stop ≤ b.2.selectionRange.start

mutual

theorem namesInOrder_of (owner : Option String) : (symbol : Symbol) → symbol.WellFormed →
    NamesInOrder (callablesOf owner symbol) ∧
      ∀ met ∈ callablesOf owner symbol, met.2.NamedWithin symbol.fullRange
  | ⟨name, kind, full, selection, children⟩, hformed => by
      cases hformed with
      | mk before named behind inside ordered formed =>
          have hbelow := namesInOrder_in (if kind.isType then some name else owner) children
            ⟨ordered, formed⟩
          have hafter : ∀ met ∈ callablesIn (if kind.isType then some name else owner) children,
              met.2.NamedWithin ⟨selection.stop, full.stop⟩ := by
            intro met hmet
            rcases hbelow.2 met hmet with ⟨child, hchild, hwithin⟩
            exact hwithin.widen (inside child hchild).1 (inside child hchild).2
          have hwithin : ∀ met ∈ callablesIn (if kind.isType then some name else owner) children,
              met.2.NamedWithin full := by
            intro met hmet
            exact (hafter met hmet).widen (Position.le_trans before named) (Position.le_refl _)
          rw [callablesOf]
          split
          · constructor
            · exact List.pairwise_cons.mpr ⟨fun met hmet => (hafter met hmet).start, hbelow.1⟩
            · intro met hmet
              rcases List.mem_cons.mp hmet with rfl | hmet
              · exact ⟨before, behind⟩
              · exact hwithin met hmet
          · exact ⟨hbelow.1, hwithin⟩

theorem namesInOrder_in (owner : Option String) : (symbols : List Symbol) →
    Siblings symbols →
    NamesInOrder (callablesIn owner symbols) ∧
      ∀ met ∈ callablesIn owner symbols, ∃ symbol ∈ symbols,
        met.2.NamedWithin symbol.fullRange
  | [], _ => by
      constructor
      · exact List.Pairwise.nil
      · intro met hmet
        cases hmet
  | symbol :: rest, hsiblings => by
      have hformed := hsiblings.wellFormed symbol List.mem_cons_self
      have hordered := List.pairwise_cons.mp hsiblings.ordered
      have hsymbol := namesInOrder_of owner symbol hformed
      have hrest := namesInOrder_in owner rest
        ⟨hordered.2, fun other hother => hsiblings.wellFormed other (List.mem_cons_of_mem _ hother)⟩
      rw [callablesIn]
      constructor
      · apply List.pairwise_append.mpr
        refine ⟨hsymbol.1, hrest.1, ?_⟩
        intro a ha b hb
        rcases hrest.2 b hb with ⟨later, hlater, hwithin⟩
        exact Position.le_trans (hsymbol.2 a ha).stop
          (Position.le_trans (hordered.1 later hlater) hwithin.start)
      · intro met hmet
        rcases List.mem_append.mp hmet with hmem | hmem
        · exact ⟨symbol, List.mem_cons_self, hsymbol.2 met hmem⟩
        · rcases hrest.2 met hmem with ⟨later, hlater, hwithin⟩
          exact ⟨later, List.mem_cons_of_mem _ hlater, hwithin⟩

end

end Symbol

namespace Java

/-- The callable is indexed as its symbol in a type of the file says. -/
structure Callable.Indexes (file : FilePath) (callable : Callable)
    (declared : Option String × Symbol) : Prop where
  name : callable.identity.name = declared.2.name
  context : some callable.identity.context = declared.1
  location : callable.identity.location = ⟨file, declared.2.selectionRange.start⟩
  fullRange : callable.fullRange = declared.2.fullRange
  selectionRange : callable.selectionRange = declared.2.selectionRange

theorem indexes_callableOf (file : FilePath) (owner : String) (kind : CallableKind)
    (range : Range) (name : Name) (body : List Node) :
    (callableOf file owner range name body).Indexes file
      (some owner, ⟨name.text, kind.symbolKind, range, name.range, []⟩) :=
  ⟨rfl, rfl, rfl, rfl, rfl⟩

theorem map_selectionRange_of_indexes {file : FilePath} {callables : List Callable}
    {declared : List (Option String × Symbol)}
    (hindexes : List.Forall₂ (Callable.Indexes file) callables declared) :
    callables.map Callable.selectionRange =
      declared.map fun met => met.2.selectionRange := by
  induction hindexes with
  | nil =>
      rfl
  | cons hfirst hrest ih =>
      rw [List.map_cons, List.map_cons, hfirst.selectionRange, ih]

theorem exists_declared_of_mem {file : FilePath} {callables : List Callable}
    {declared : List (Option String × Symbol)}
    (hindexes : List.Forall₂ (Callable.Indexes file) callables declared)
    {callable : Callable} (hmem : callable ∈ callables) :
    ∃ met ∈ declared, callable.Indexes file met := by
  induction hindexes with
  | nil =>
      cases hmem
  | @cons first met rest later hfirst hrest ih =>
      rcases List.mem_cons.mp hmem with rfl | htail
      · exact ⟨met, List.mem_cons_self, hfirst⟩
      · rcases ih htail with ⟨other, hother, hindexed⟩
        exact ⟨other, List.mem_cons_of_mem _ hother, hindexed⟩

theorem exists_indexed_of_mem {file : FilePath} {callables : List Callable}
    {declared : List (Option String × Symbol)}
    (hindexes : List.Forall₂ (Callable.Indexes file) callables declared)
    {met : Option String × Symbol} (hmem : met ∈ declared) :
    ∃ callable ∈ callables, callable.Indexes file met := by
  induction hindexes with
  | nil =>
      cases hmem
  | @cons callable first rest later hfirst hrest ih =>
      rcases List.mem_cons.mp hmem with rfl | htail
      · exact ⟨callable, List.mem_cons_self, hfirst⟩
      · rcases ih htail with ⟨other, hother, hindexed⟩
        exact ⟨other, List.mem_cons_of_mem _ hother, hindexed⟩

theorem pairwise_of_indexes (relation : Range → Range → Prop) {file : FilePath}
    {callables : List Callable} {declared : List (Option String × Symbol)}
    (hindexes : List.Forall₂ (Callable.Indexes file) callables declared)
    (hdeclared : declared.Pairwise
      fun a b => relation a.2.selectionRange b.2.selectionRange) :
    callables.Pairwise fun a b => relation a.selectionRange b.selectionRange := by
  have hranges : (declared.map fun met => met.2.selectionRange).Pairwise relation :=
    List.pairwise_map.mpr hdeclared
  rw [← map_selectionRange_of_indexes hindexes] at hranges
  exact List.pairwise_map.mp hranges

theorem namesInOrder_of_indexes {file : FilePath} {callables : List Callable}
    {declared : List (Option String × Symbol)}
    (hindexes : List.Forall₂ (Callable.Indexes file) callables declared)
    (hordered : Symbol.NamesInOrder declared) :
    callables.Pairwise fun a b => a.selectionRange.stop ≤ b.selectionRange.start := by
  have hnames : declared.Pairwise
      fun a b => a.2.selectionRange.stop ≤ b.2.selectionRange.start := hordered
  exact pairwise_of_indexes (fun a b => a.stop ≤ b.start) hindexes hnames

/-!
## The two walks
-/

section

variable (file : FilePath)

mutual

theorem callablesOf_indexes : (node : Node) →
    List.Forall₂ (Callable.Indexes file) (callablesOf file node)
      (Symbol.callablesIn none (typesOf node))
  | .typeDecl _ _ none _ => .nil
  | .typeDecl _ _ (some name) body => by
      rw [typesOf, Symbol.callablesIn_type]
      exact memberCallablesIn_indexes name.text body
  | .callable _ _ _ body => callablesIn_indexes body
  | .field _ _ _ values => callablesIn_indexes values
  | .enumMembers members => callablesIn_indexes members
  | .invocation _ _ _ children => callablesIn_indexes children
  | .other children => callablesIn_indexes children

theorem callablesIn_indexes : (nodes : List Node) →
    List.Forall₂ (Callable.Indexes file) (callablesIn file nodes)
      (Symbol.callablesIn none (typesIn nodes))
  | [] => .nil
  | node :: rest => by
      rw [typesIn, Symbol.callablesIn_append]
      exact List.rel_append (callablesOf_indexes node) (callablesIn_indexes rest)

theorem memberCallablesOf_indexes (owner : String) : (node : Node) →
    List.Forall₂ (Callable.Indexes file) (memberCallablesOf file owner node)
      (Symbol.callablesIn (some owner) (membersOf node))
  | .typeDecl _ _ none _ => .nil
  | .typeDecl _ _ (some name) body => by
      rw [membersOf, Symbol.callablesIn_type]
      exact memberCallablesIn_indexes name.text body
  | .callable _ _ none _ => .nil
  | .callable kind range (some name) body => by
      rw [membersOf, Symbol.callablesIn_callable]
      exact .cons (indexes_callableOf file owner kind range name body) .nil
  | .field _ _ [] _ => .nil
  | .field range _ (name :: _) _ => by
      rw [membersOf, Symbol.callablesIn_field]
      exact .nil
  | .enumMembers members => memberCallablesIn_indexes owner members
  | .invocation _ _ _ _ => .nil
  | .other _ => .nil

theorem memberCallablesIn_indexes (owner : String) : (nodes : List Node) →
    List.Forall₂ (Callable.Indexes file) (memberCallablesIn file owner nodes)
      (Symbol.callablesIn (some owner) (membersIn nodes))
  | [] => .nil
  | node :: rest => by
      rw [membersIn, Symbol.callablesIn_append]
      exact List.rel_append (memberCallablesOf_indexes owner node)
        (memberCallablesIn_indexes owner rest)

end

end

end Java

/-!
## The index
-/

namespace CallIndex

theorem callables_push (index : CallIndex) (callable : Java.Callable) :
    (index.push callable).callables.toList = index.callables.toList ++ [callable] :=
  Array.toList_push

theorem callables_foldl_push (added : List Java.Callable) (index : CallIndex) :
    (added.foldl push index).callables.toList = index.callables.toList ++ added := by
  induction added generalizing index with
  | nil =>
      simp
  | cons callable rest ih =>
      rw [List.foldl_cons, ih, callables_push, List.append_assoc, List.singleton_append]

theorem callables_foldl_declareField (fields : List Java.FieldType) (index : CallIndex) :
    (fields.foldl declareField index).callables = index.callables := by
  induction fields generalizing index with
  | nil =>
      rfl
  | cons field rest ih =>
      rw [List.foldl_cons, ih]
      rfl

theorem callables_addTree (index : CallIndex) (file : FilePath) (tree : List Java.Node) :
    (index.addTree file tree).callables.toList =
      index.callables.toList ++ Java.callablesIn file tree := by
  rw [addTree, callables_foldl_declareField, callables_foldl_push]

/-- The callables that a tree adds to an index are the callable symbols of the tree, in
the order of the symbols; in a tree whose nodes nest, their names follow one another in
the text, so none occurs twice. -/
theorem addTree_indexes_symbols (index : CallIndex) (file : FilePath)
    (tree : List Java.Node) :
    ∃ added, (index.addTree file tree).callables.toList = index.callables.toList ++ added ∧
      List.Forall₂ (Java.Callable.Indexes file) added
        (Symbol.callablesIn none (Java.symbols tree)) ∧
      ∀ {start stop : Position}, Java.NodesInOrder start stop tree →
        added.Pairwise fun a b => a.selectionRange.stop ≤ b.selectionRange.start := by
  have hindexes := Java.callablesIn_indexes file tree
  refine ⟨Java.callablesIn file tree, callables_addTree index file tree, hindexes, ?_⟩
  intro start stop hordered
  have hnames := (Symbol.namesInOrder_in none _ (Java.siblings_symbols hordered)).1
  exact Java.namesInOrder_of_indexes hindexes hnames

end CallIndex
end EndpointTrace
