import EndpointTrace.Proofs.CallIndex.Fillings
import EndpointTrace.Proofs.CallIndex.Merging
import EndpointTrace.Proofs.Route.SeparateTypes

/-!
# Sources that have nothing to do with a callable

A further source can change what a callable calls only by a declaration that the callable
looks for: a callable of a name that is invoked in its body, or a field of a type that is
called like its own.  It can change what is found in a file only if it has the path of the
file.  So an index that grows by a source without any of these answers as before.
-/

namespace EndpointTrace

open Java (Callable FieldType Source)

/-!
## Declared names
-/

namespace Symbol

/-- One of some symbols, or of those inside them, is of the kinds and has the name. -/
def Declares (kinds : SymbolKind → Bool) (symbols : List Symbol) (name : String) : Prop :=
  ∃ symbol ∈ preorderIn symbols, kinds symbol.kind = true ∧ symbol.name = name

instance (kinds : SymbolKind → Bool) (symbols : List Symbol) (name : String) :
    Decidable (Declares kinds symbols name) :=
  inferInstanceAs (Decidable (∃ symbol ∈ _, _ ∧ _))

theorem Declares.mono {kinds : SymbolKind → Bool} {symbols more : List Symbol} {name : String}
    (hdeclares : Declares kinds symbols name)
    (hsubset : preorderIn symbols ⊆ preorderIn more) : Declares kinds more name := by
  rcases hdeclares with ⟨symbol, hmem, hsymbol⟩
  exact ⟨symbol, hsubset hmem, hsymbol⟩

section

variable {kinds : SymbolKind → Bool} {name : String} {first second : List Symbol}

theorem Declares.append_left (hdeclares : Declares kinds first name) :
    Declares kinds (first ++ second) name := by
  apply hdeclares.mono
  rw [preorderIn_append]
  exact List.subset_append_left _ _

theorem Declares.append_right (hdeclares : Declares kinds second name) :
    Declares kinds (first ++ second) name := by
  apply hdeclares.mono
  rw [preorderIn_append]
  exact List.subset_append_right _ _

end

mutual

theorem mem_preorderOf_of_callablesOf (owner : Option String) {met : Option String × Symbol} :
    (symbol : Symbol) → met ∈ callablesOf owner symbol →
      met.2 ∈ preorderOf symbol ∧ met.2.kind.isCallable = true
  | ⟨name, kind, full, selection, children⟩, hmem => by
      have hinside : met ∈ callablesIn (if kind.isType then some name else owner) children →
          met.2 ∈ preorderIn children ∧ met.2.kind.isCallable = true :=
        mem_preorderIn_of_callablesIn _ children
      rw [callablesOf] at hmem
      rw [preorderOf]
      split at hmem
      · rename_i hkind
        rcases List.mem_cons.mp hmem with rfl | hbelow
        · exact ⟨List.mem_cons_self, hkind⟩
        · exact ⟨List.mem_cons_of_mem _ (hinside hbelow).1, (hinside hbelow).2⟩
      · exact ⟨List.mem_cons_of_mem _ (hinside hmem).1, (hinside hmem).2⟩

theorem mem_preorderIn_of_callablesIn (owner : Option String) {met : Option String × Symbol} :
    (symbols : List Symbol) → met ∈ callablesIn owner symbols →
      met.2 ∈ preorderIn symbols ∧ met.2.kind.isCallable = true
  | [], hmem => by cases hmem
  | symbol :: rest, hmem => by
      rw [preorderIn]
      rcases List.mem_append.mp hmem with hfirst | hlater
      · have hsymbol := mem_preorderOf_of_callablesOf owner symbol hfirst
        exact ⟨List.mem_append_left _ hsymbol.1, hsymbol.2⟩
      · have hrest := mem_preorderIn_of_callablesIn owner rest hlater
        exact ⟨List.mem_append_right _ hrest.1, hrest.2⟩

end

end Symbol

namespace Java

theorem declares_type {kind : TypeKind} {range : Range} {name : Name} {body : List Node}
    {declared : String}
    (hdeclared : declared = name.text ∨
      Symbol.Declares SymbolKind.isType (membersIn body) declared) :
    Symbol.Declares SymbolKind.isType
      [⟨name.text, kind.symbolKind, range, name.range, membersIn body⟩] declared := by
  have hkind : kind.symbolKind.isType = true := by
    cases kind <;> rfl
  rcases hdeclared with rfl | hinside
  · rw [Symbol.Declares, Symbol.preorderIn_singleton, Symbol.preorderOf]
    exact ⟨_, List.mem_cons_self, hkind, rfl⟩
  · apply hinside.mono
    rw [Symbol.preorderIn_singleton, Symbol.preorderOf]
    exact List.subset_cons_self _ _

mutual

theorem declares_owner_of {field : FieldType} : (node : Node) → field ∈ fieldTypesOf node →
    Symbol.Declares SymbolKind.isType (typesOf node) field.owner
  | .typeDecl _ _ none _, hmem => by cases hmem
  | .typeDecl _ _ (some name) body, hmem =>
      declares_type (declares_member_owner_in name.text body hmem)
  | .callable _ _ _ body, hmem => declares_owner_in body hmem
  | .field _ _ _ values, hmem => declares_owner_in values hmem
  | .enumMembers members, hmem => declares_owner_in members hmem
  | .invocation _ _ _ children, hmem => declares_owner_in children hmem
  | .other children, hmem => declares_owner_in children hmem

theorem declares_owner_in {field : FieldType} : (nodes : List Node) →
    field ∈ fieldTypesIn nodes → Symbol.Declares SymbolKind.isType (typesIn nodes) field.owner
  | [], hmem => by cases hmem
  | node :: rest, hmem => by
      rw [typesIn]
      rcases List.mem_append.mp hmem with hfirst | hlater
      · exact (declares_owner_of node hfirst).append_left
      · exact (declares_owner_in rest hlater).append_right

theorem declares_member_owner_of (owner : String) {field : FieldType} : (node : Node) →
    field ∈ memberFieldTypesOf owner node →
      field.owner = owner ∨ Symbol.Declares SymbolKind.isType (membersOf node) field.owner
  | .typeDecl _ _ none _, hmem => by cases hmem
  | .typeDecl _ _ (some name) body, hmem =>
      Or.inr (declares_type (declares_member_owner_in name.text body hmem))
  | .callable .., hmem => by cases hmem
  | .field _ _ names _, hmem => by
      rcases List.mem_map.mp hmem with ⟨name, _, rfl⟩
      exact Or.inl rfl
  | .enumMembers members, hmem => declares_member_owner_in owner members hmem
  | .invocation .., hmem => by cases hmem
  | .other _, hmem => by cases hmem

theorem declares_member_owner_in (owner : String) {field : FieldType} : (nodes : List Node) →
    field ∈ memberFieldTypesIn owner nodes →
      field.owner = owner ∨ Symbol.Declares SymbolKind.isType (membersIn nodes) field.owner
  | [], hmem => by cases hmem
  | node :: rest, hmem => by
      rw [membersIn]
      rcases List.mem_append.mp hmem with hfirst | hlater
      · exact (declares_member_owner_of owner node hfirst).imp_right .append_left
      · exact (declares_member_owner_in owner rest hlater).imp_right .append_right

end

namespace Source

def DeclaresCallable (source : Source) (name : String) : Prop :=
  Symbol.Declares SymbolKind.isCallable (symbols source.tree) name

def DeclaresType (source : Source) (name : String) : Prop :=
  Symbol.Declares SymbolKind.isType (symbols source.tree) name

instance (source : Source) (name : String) : Decidable (source.DeclaresCallable name) :=
  inferInstanceAs (Decidable (Symbol.Declares _ _ _))

instance (source : Source) (name : String) : Decidable (source.DeclaresType name) :=
  inferInstanceAs (Decidable (Symbol.Declares _ _ _))

theorem declaresCallable_of_mem {source : Source} {callable : Callable}
    (hmem : callable ∈ source.callables) :
    source.DeclaresCallable callable.identity.name := by
  rcases exists_declared_of_mem (callablesIn_indexes source.file source.tree) hmem with
    ⟨met, hmet, hindexes⟩
  have hsymbol := Symbol.mem_preorderIn_of_callablesIn none (symbols source.tree) hmet
  exact ⟨met.2, hsymbol.1, hsymbol.2, hindexes.name.symm⟩

theorem declaredType?_of_not_declaresType {source : Source} {owner : String}
    (htype : ¬ source.DeclaresType owner) (field : String) :
    declaredType? source.fieldTypes (owner, field) = none := by
  have hnone : (source.fieldTypes.filter fun declared => declared.key == (owner, field)) = [] := by
    rw [List.filter_eq_nil_iff]
    intro declared hdeclared hkey
    have howner : declared.owner = owner := congrArg Prod.fst (beq_iff_eq.mp hkey)
    apply htype
    rw [← howner]
    exact declares_owner_in source.tree hdeclared
  rw [declaredType?, hnone]
  rfl

end Source

end Java

/-!
## The index with a further source
-/

namespace CallIndex.Filling

section

variable {filling : Filling} {source : Source}

theorem exists_source_of_mem {callable : Callable}
    (hmem : callable ∈ filling.index.callables.toList) :
    ∃ before ∈ filling.sources, callable.identity.location.file = before.file := by
  rw [filling.callables_index] at hmem
  rcases List.mem_flatMap.mp hmem with ⟨before, hbefore, hcallable⟩
  exact ⟨before, hbefore, Source.file_of_mem hcallable⟩

theorem filter_callables_adding {p : Callable → Bool}
    (hnone : ∀ callable ∈ source.callables, p callable = false) :
    (filling.adding source).index.callables.toList.filter p =
      filling.index.callables.toList.filter p := by
  have hadded : source.callables.filter p = [] := by
    rw [List.filter_eq_nil_iff]
    intro callable hmem
    rw [hnone callable hmem]
    exact Bool.false_ne_true
  have hcallables : (filling.adding source).index.callables.toList =
      filling.index.callables.toList ++ source.callables :=
    callables_addTree filling.index source.file source.tree
  rw [hcallables, List.filter_append, hadded, List.append_nil]

theorem at?_adding {file : FilePath} (hother : source.file.same file = false)
    (position : Position) :
    (filling.adding source).index.at? file position = filling.index.at? file position := by
  apply at?_congr
  apply filter_callables_adding
  intro callable hmem
  rw [Source.file_of_mem hmem, hother]

theorem named_adding {name : String} (hname : ¬ source.DeclaresCallable name) :
    (filling.adding source).index.named name = filling.index.named name := by
  rw [(filling.adding source).consistent_index.named_eq, filling.consistent_index.named_eq]
  apply filter_callables_adding
  intro callable hmem
  rw [beq_eq_false_iff_ne]
  intro heq
  rw [← heq] at hname
  exact hname (Source.declaresCallable_of_mem hmem)

theorem fieldTypes_adding {owner : String} (htype : ¬ source.DeclaresType owner)
    (field : String) :
    (filling.adding source).index.fieldTypes[(owner, field)]? =
      filling.index.fieldTypes[(owner, field)]? := by
  have hadded := fieldTypes_addTree (owner, field) filling.index source.file source.tree
  have hnone := Source.declaredType?_of_not_declaresType htype field
  rw [Source.fieldTypes] at hnone
  rw [hnone, Option.none_or] at hadded
  exact hadded

theorem callsOf_adding {caller : Callable}
    (hnames : ∀ invocation ∈ caller.invocations, ¬ source.DeclaresCallable invocation.name)
    (htype : ¬ source.DeclaresType caller.identity.context) :
    (filling.adding source).index.callsOf caller = filling.index.callsOf caller :=
  callsOf_congr (fun invocation hmem => named_adding (hnames invocation hmem))
    (fieldTypes_adding htype)

theorem not_same_of_other
    (hother : ∀ before ∈ filling.sources, before.file.same source.file = false)
    {caller : Callable} (hcaller : caller ∈ filling.index.callables.toList)
    {identity : Identity} (hsame : caller.identity.same identity = true) :
    ∀ callable ∈ source.callables, callable.identity.same identity = false := by
  intro callable hmem
  rw [Bool.eq_false_iff]
  intro hagain
  -- Both would have the path of the identity, and one of them is in a file from before.
  rcases exists_source_of_mem hcaller with ⟨before, hbefore, hfile⟩
  have hkey := (Identity.same_iff.mp hsame).trans (Identity.same_iff.mp hagain).symm
  have hcomponents : caller.identity.location.file.components =
      callable.identity.location.file.components :=
    congrArg (fun key : Identity.Key => key.2.2.1) hkey
  rw [hfile, Source.file_of_mem hmem] at hcomponents
  have hnot := hother before hbefore
  rw [FilePath.same_iff.mpr hcomponents] at hnot
  cases hnot

end

/-- A source in a file of its own leaves what is found in the files before as it was.  It
leaves the calls of an indexed identity as they were if it declares no callable of a name that
is invoked in the body, and no type that is called like the enclosing one. -/
theorem adding_unrelated (filling : Filling) (source : Source)
    (hother : ∀ before ∈ filling.sources, before.file.same source.file = false) :
    (∀ before ∈ filling.sources, ∀ file, before.file.same file = true → ∀ position,
      (filling.adding source).index.prepare file position =
        filling.index.prepare file position) ∧
    ∀ identity caller,
      (filling.callables.filter fun callable =>
        callable.identity.same identity).getLast? = some caller →
      (∀ invocation ∈ caller.invocations, ¬ source.DeclaresCallable invocation.name) →
      ¬ source.DeclaresType identity.context →
        (filling.adding source).index.outgoing identity =
          filling.index.outgoing identity := by
  constructor
  · intro before hbefore file hfile position
    have hapart : source.file.same file = false := by
      rw [Bool.eq_false_iff]
      intro hsame
      have hnot := hother before hbefore
      rw [FilePath.same_iff.mpr
        ((FilePath.same_iff.mp hfile).trans (FilePath.same_iff.mp hsame).symm)] at hnot
      cases hnot
    rw [prepare, prepare, at?_adding hapart]
  · intro identity caller hlatest hnames htype
    rw [← filling.callables_index] at hlatest
    rcases List.mem_filter.mp (List.mem_of_getLast? hlatest) with ⟨hcaller, hsame⟩
    have hcontext : caller.identity.context = identity.context :=
      congrArg (fun key : Identity.Key => key.2.1) (Identity.same_iff.mp hsame)
    rw [← hcontext] at htype
    rw [(filling.adding source).consistent_index.outgoing_eq,
      filling.consistent_index.outgoing_eq,
      filter_callables_adding (not_same_of_other hother hcaller hsame), hlatest]
    exact congrArg Except.ok (callsOf_adding hnames htype)

def coins : Source :=
  ⟨⟨"shop/Coins.java"⟩,
    [.typeDecl .classType ⟨⟨0, 0⟩, ⟨3, 1⟩⟩ (some ⟨"Coins", ⟨⟨0, 6⟩, ⟨0, 11⟩⟩⟩)
      [.field ⟨⟨1, 2⟩, ⟨1, 12⟩⟩ "Till" [⟨"till", ⟨⟨1, 7⟩, ⟨1, 11⟩⟩⟩] [],
        .callable .method ⟨⟨2, 2⟩, ⟨2, 40⟩⟩ (some ⟨"total", ⟨⟨2, 7⟩, ⟨2, 12⟩⟩⟩)
          [.invocation ⟨⟨2, 17⟩, ⟨2, 29⟩⟩ (some "till") "count" []]]]⟩

theorem adding_unrelated_coins :
    (∀ before ∈ twice.sources, before.file.same coins.file = false) ∧
    (∃ before ∈ twice.sources, before.file.same ⟨"shop/./Till.java"⟩ = true) ∧
    (∃ caller,
      (twice.callables.filter fun callable =>
        callable.identity.same opening).getLast? = some caller ∧
      ∀ invocation ∈ caller.invocations, ¬ coins.DeclaresCallable invocation.name) ∧
    ¬ coins.DeclaresType opening.context ∧
    (∀ position, (twice.adding coins).index.prepare ⟨"shop/./Till.java"⟩ position =
      twice.index.prepare ⟨"shop/./Till.java"⟩ position) ∧
    (twice.adding coins).index.outgoing opening = twice.index.outgoing opening := by
  have hother : ∀ before ∈ twice.sources, before.file.same coins.file = false := by
    decide
  have hknown : ∃ before ∈ twice.sources, before.file.same ⟨"shop/./Till.java"⟩ = true := by
    decide
  have hlatest : (twice.callables.filter fun callable =>
      callable.identity.same opening).getLast? = some till.callables[0] := by
    rfl
  have hnames : ∀ invocation ∈ till.callables[0].invocations,
      ¬ coins.DeclaresCallable invocation.name := by
    decide
  have htype : ¬ coins.DeclaresType opening.context := by
    decide
  rcases adding_unrelated twice coins hother with ⟨hprepare, houtgoing⟩
  rcases hknown with ⟨before, hbefore, hfile⟩
  exact ⟨hother, ⟨before, hbefore, hfile⟩, ⟨_, hlatest, hnames⟩, htype,
    hprepare before hbefore _ hfile, houtgoing opening _ hlatest hnames htype⟩

end CallIndex.Filling
end EndpointTrace
