import EndpointTrace.Proofs.CallIndex.Tables

/-!
# Indexes of the same sources

What an index holds is a matter of the sources whose callables and fields it was filled with,
and of their order.  It makes no difference whether the trees were added one after the other,
or an index of its own was taken over for every file: where names, identities or fields occur
again, within a file or in several, the last one counts both ways.  Indexes that hold the same
give the same answers.
-/

namespace EndpointTrace

open Java (Callable FieldType Invocation Receiver Source)

/-!
## Declared field types
-/

namespace Java

def FieldType.key (field : FieldType) : String × String :=
  (field.owner, field.field)

/-- The type that the last of some declarations gives to a field. -/
def declaredType? (fields : List FieldType) (key : String × String) : Option String :=
  ((fields.filter fun field => field.key == key).getLast?).map FieldType.declared

def Source.fieldTypes (source : Source) : List FieldType :=
  fieldTypesIn source.tree

section

variable (key : String × String)

theorem declaredType?_append (first second : List FieldType) :
    declaredType? (first ++ second) key =
      (declaredType? second key).or (declaredType? first key) := by
  rw [declaredType?, List.filter_append, List.getLast?_append, Option.map_or]
  rfl

theorem declaredType?_singleton (field : FieldType) :
    declaredType? [field] key = if field.key == key then some field.declared else none := by
  rw [declaredType?, List.filter_singleton]
  cases field.key == key with
  | true =>
      rfl
  | false =>
      rfl

end

end Java

namespace CallIndex

section

variable (key : String × String)

theorem fieldTypes_foldl_push (callables : List Callable) (index : CallIndex) :
    (callables.foldl push index).fieldTypes = index.fieldTypes := by
  induction callables generalizing index with
  | nil =>
      rfl
  | cons callable rest ih =>
      rw [List.foldl_cons, ih]
      rfl

theorem fieldTypes_declareField (index : CallIndex) (field : FieldType) :
    (index.declareField field).fieldTypes[key]? =
      (Java.declaredType? [field] key).or index.fieldTypes[key]? := by
  have htable : (index.declareField field).fieldTypes[key]? =
      if field.key == key then some field.declared else index.fieldTypes[key]? :=
    Std.HashMap.getElem?_insert
  rw [htable, Java.declaredType?_singleton]
  cases field.key == key with
  | true =>
      rfl
  | false =>
      rfl

theorem fieldTypes_foldl_declareField (fields : List FieldType) (index : CallIndex) :
    (fields.foldl declareField index).fieldTypes[key]? =
      (Java.declaredType? fields key).or index.fieldTypes[key]? := by
  induction fields generalizing index with
  | nil =>
      rfl
  | cons field rest ih =>
      rw [List.foldl_cons, ih, fieldTypes_declareField, ← Option.or_assoc,
        ← Java.declaredType?_append, List.singleton_append]

theorem fieldTypes_addTree (index : CallIndex) (file : FilePath) (tree : List Java.Node) :
    (index.addTree file tree).fieldTypes[key]? =
      (Java.declaredType? (Java.fieldTypesIn tree) key).or index.fieldTypes[key]? := by
  rw [addTree, fieldTypes_foldl_declareField, fieldTypes_foldl_push]

theorem getElem?_insertMany (table other : Std.HashMap (String × String) String) :
    (table.insertMany other)[key]? = other[key]?.or table[key]? := by
  -- In the list of a table every key occurs once, so the order of its entries is of no account.
  have hlist : table.insertMany other = table.insertMany other.toList := by
    unfold Std.HashMap.insertMany Std.DHashMap.Const.insertMany
      Std.DHashMap.Internal.Raw₀.Const.insertMany
    simp only [Std.HashMap.forIn_eq_forIn_toList]
  rw [hlist]
  cases hentry : other[key]? with
  | some declared =>
      exact Std.HashMap.getElem?_insertMany_list_of_mem BEq.rfl
        Std.HashMap.distinct_keys_toList
        (Std.HashMap.mem_toList_iff_getElem?_eq_some.mpr hentry)
  | none =>
      rw [Std.HashMap.getElem?_insertMany_list_of_contains_eq_false, Option.none_or]
      rw [Std.HashMap.map_fst_toList_eq_keys, Std.HashMap.contains_keys,
        Std.HashMap.contains_eq_isSome_getElem?, hentry, Option.isSome_none]

theorem fieldTypes_absorb (index other : CallIndex) :
    (index.absorb other).fieldTypes[key]? =
      other.fieldTypes[key]?.or index.fieldTypes[key]? := by
  have hknown : (other.callables.foldl push index).fieldTypes = index.fieldTypes := by
    rw [← Array.foldl_toList, fieldTypes_foldl_push]
  rw [absorb, getElem?_insertMany, hknown]

end

/-!
## Entries of the tables
-/

section

variable {wanted : Callable → Bool} {callables : List Callable}

theorem mem_placesOf {place : Nat} :
    place ∈ placesOf wanted callables ↔
      ∃ callable, callables[place]? = some callable ∧ wanted callable = true := by
  rw [placesOf, List.mem_filter, Option.any_eq_true]
  constructor
  · intro hplace
    exact hplace.2
  · intro hplace
    rcases hplace with ⟨callable, hcallable, hwanted⟩
    rcases List.getElem?_eq_some_iff.mp hcallable with ⟨hlt, _⟩
    exact ⟨List.mem_range.mpr hlt, callable, hcallable, hwanted⟩

variable (wanted callables)

theorem pairwise_placesOf : (placesOf wanted callables).Pairwise (· < ·) :=
  List.pairwise_lt_range.filter _

end

theorem getLast?_eq_some_iff_of_pairwise {places : List Nat}
    (hordered : places.Pairwise (· < ·)) {place : Nat} :
    places.getLast? = some place ↔ place ∈ places ∧ ∀ other ∈ places, other ≤ place := by
  constructor
  · intro hlast
    refine ⟨List.mem_of_getLast? hlast, ?_⟩
    intro other hother
    rcases List.getLast?_eq_some_iff.mp hlast with ⟨before, rfl⟩
    rcases List.mem_append.mp hother with hbefore | hsame
    · have hlt := (List.pairwise_append.mp hordered).2.2 other hbefore place
        (List.mem_singleton_self place)
      exact Nat.le_of_lt hlt
    · exact Nat.le_of_eq (List.mem_singleton.mp hsame)
  · intro hlargest
    rcases hlargest with ⟨hmem, hbound⟩
    rcases List.eq_nil_or_concat' places with rfl | ⟨before, last, rfl⟩
    · cases hmem
    · have hle : last ≤ place := hbound last List.mem_concat_self
      rw [List.getLast?_concat]
      rcases List.mem_append.mp hmem with hbefore | hsame
      · have hlt := (List.pairwise_append.mp hordered).2.2 place hbefore last
          (List.mem_singleton_self last)
        omega
      · rw [List.mem_singleton.mp hsame]

/-- A name has an entry only if a callable has the name. -/
def NoEmptyEntry (index : CallIndex) : Prop :=
  ∀ (name : String) (places : Array Nat), index.byName[name]? = some places →
    places.toList ≠ []

theorem noEmptyEntry_empty : empty.NoEmptyEntry := by
  intro name places hentry
  have hnone : empty.byName[name]? = none := Std.HashMap.getElem?_emptyWithCapacity
  rw [hnone] at hentry
  cases hentry

theorem NoEmptyEntry.push {index : CallIndex} (hindex : index.NoEmptyEntry)
    (callable : Callable) : (index.push callable).NoEmptyEntry := by
  intro name places hentry
  have htable : (index.push callable).byName[name]? =
      if callable.identity.name == name then
        some (((index.byName[callable.identity.name]?).getD .empty).push index.size)
      else index.byName[name]? :=
    Std.HashMap.getElem?_alter
  rw [htable] at hentry
  split at hentry
  · cases hentry
    rw [Array.toList_push]
    exact List.concat_ne_nil _ _
  · exact hindex name places hentry

theorem NoEmptyEntry.foldl_push {index : CallIndex} (hindex : index.NoEmptyEntry)
    (callables : List Callable) : (callables.foldl CallIndex.push index).NoEmptyEntry := by
  induction callables generalizing index with
  | nil =>
      exact hindex
  | cons callable rest ih =>
      exact ih (hindex.push callable)

theorem byName_foldl_declareField (fields : List FieldType) (index : CallIndex) :
    (fields.foldl declareField index).byName = index.byName := by
  induction fields generalizing index with
  | nil =>
      rfl
  | cons field rest ih =>
      rw [List.foldl_cons, ih]
      rfl

theorem byName_eq {index : CallIndex} (hindex : index.Consistent)
    (hentries : index.NoEmptyEntry) (name : String) :
    index.byName[name]? =
      match placesOf (fun callable => callable.identity.name == name)
        index.callables.toList with
      | [] => none
      | place :: rest => some (place :: rest).toArray := by
  have hplaces := hindex.byName name
  cases hentry : index.byName[name]? with
  | none =>
      rw [hentry] at hplaces
      rw [← hplaces]
      rfl
  | some places =>
      rw [hentry, Option.getD_some] at hplaces
      have hsome := hentries name places hentry
      rw [hplaces] at hsome
      cases hlist : placesOf (fun callable => callable.identity.name == name)
          index.callables.toList with
      | nil =>
          exact absurd hlist hsome
      | cons place rest =>
          rw [hlist] at hplaces
          show some places = some (place :: rest).toArray
          rw [← hplaces, Array.toArray_toList]

/-- The tables say of every name where its callables are, from the first to the last, and of
every identity where the last callable is that has it. -/
structure Exact (index : CallIndex) : Prop where
  increasing : ∀ {name : String} {places : Array Nat}, index.byName[name]? = some places →
    places.toList.Pairwise (· < ·)
  named : ∀ {name : String} {places : Array Nat}, index.byName[name]? = some places →
    ∀ place, place ∈ places ↔
      ∃ callable, index.callables[place]? = some callable ∧ callable.identity.name = name
  unnamed : ∀ {name : String}, index.byName[name]? = none ↔
    ∀ callable ∈ index.callables, callable.identity.name ≠ name
  latest : ∀ {identity : Identity} {place : Nat},
    index.byIdentity[identity.key]? = some place ↔
      (∃ callable, index.callables[place]? = some callable ∧
        callable.identity.same identity = true) ∧
      ∀ later callable, index.callables[later]? = some callable →
        callable.identity.same identity = true → later ≤ place

theorem named_of_consistent {index : CallIndex} (hindex : index.Consistent) {name : String}
    {places : Array Nat} (hentry : index.byName[name]? = some places) :
    places.toList.Pairwise (· < ·) ∧
      ∀ place, place ∈ places ↔
        ∃ callable, index.callables[place]? = some callable ∧
          callable.identity.name = name := by
  have hplaces := hindex.byName name
  rw [hentry, Option.getD_some] at hplaces
  constructor
  · rw [hplaces]
    exact pairwise_placesOf _ _
  · intro place
    rw [← Array.mem_toList_iff, hplaces, mem_placesOf]
    simp only [Array.getElem?_toList, beq_iff_eq]

theorem unnamed_of_consistent {index : CallIndex} (hindex : index.Consistent)
    (hentries : index.NoEmptyEntry) {name : String} :
    index.byName[name]? = none ↔
      ∀ callable ∈ index.callables, callable.identity.name ≠ name := by
  have hfiltered := filterMap_placesOf (fun callable => callable.identity.name == name)
    index.callables.toList
  rw [byName_eq hindex hentries]
  -- There is no place of the name exactly if no callable passes the filter for it.
  cases hplaces : placesOf (fun callable => callable.identity.name == name)
      index.callables.toList with
  | nil =>
      rw [hplaces] at hfiltered
      refine iff_of_true rfl ?_
      intro callable hmem hname
      exact List.filter_eq_nil_iff.mp hfiltered.symm callable
        (Array.mem_toList_iff.mpr hmem) (beq_iff_eq.mpr hname)
  | cons place rest =>
      have hplace : place ∈ placesOf (fun callable => callable.identity.name == name)
          index.callables.toList := by
        rw [hplaces]
        exact List.mem_cons_self
      rcases mem_placesOf.mp hplace with ⟨callable, hcallable, hname⟩
      refine iff_of_false (Option.some_ne_none _) ?_
      intro hnone
      exact hnone callable (Array.mem_toList_iff.mp (List.mem_of_getElem? hcallable))
        (beq_iff_eq.mp hname)

theorem exact_of_consistent {index : CallIndex} (hindex : index.Consistent)
    (hentries : index.NoEmptyEntry) : index.Exact where
  increasing hentry := (named_of_consistent hindex hentry).1
  named hentry := (named_of_consistent hindex hentry).2
  unnamed := unnamed_of_consistent hindex hentries
  latest := by
    intro identity place
    rw [hindex.byIdentity, getLast?_eq_some_iff_of_pairwise (pairwise_placesOf _ _)]
    simp only [mem_placesOf, Array.getElem?_toList, Identity.same, forall_exists_index, and_imp]

/-!
## What an index holds
-/

/-- The index holds what the sources declare, in their order. -/
structure Holds (index : CallIndex) (sources : List Source) : Prop where
  callables : index.callables.toList = sources.flatMap Source.callables
  consistent : index.Consistent
  entries : index.NoEmptyEntry
  fieldTypes : ∀ key, index.fieldTypes[key]? =
    Java.declaredType? (sources.flatMap Source.fieldTypes) key

namespace Holds

theorem empty : CallIndex.empty.Holds [] where
  callables := rfl
  consistent := consistent_empty
  entries := noEmptyEntry_empty
  fieldTypes := by
    intro key
    exact Std.HashMap.getElem?_emptyWithCapacity

variable {index : CallIndex} {before : List Source} (hindex : index.Holds before)

include hindex

theorem addTree (source : Source) :
    (index.addTree source.file source.tree).Holds (before ++ [source]) where
  callables := by
    rw [callables_addTree, hindex.callables, List.flatMap_append, List.flatMap_singleton]
    rfl
  consistent := hindex.consistent.addTree source.file source.tree
  entries := by
    intro name places hentry
    rw [CallIndex.addTree, byName_foldl_declareField] at hentry
    exact hindex.entries.foldl_push _ name places hentry
  fieldTypes := by
    intro key
    rw [fieldTypes_addTree, hindex.fieldTypes, List.flatMap_append, List.flatMap_singleton,
      Java.declaredType?_append]
    rfl

theorem absorb {other : CallIndex} {others : List Source} (hother : other.Holds others) :
    (index.absorb other).Holds (before ++ others) where
  callables := by
    rw [callables_absorb, hindex.callables, hother.callables, List.flatMap_append]
  consistent := hindex.consistent.absorb other
  entries := by
    have hfilled := hindex.entries.foldl_push other.callables.toList
    rw [Array.foldl_toList] at hfilled
    exact hfilled
  fieldTypes := by
    intro key
    rw [fieldTypes_absorb, hindex.fieldTypes, hother.fieldTypes, List.flatMap_append,
      Java.declaredType?_append]

/-- A fill that adds what each source declares holds what all of them declare in the end. -/
theorem foldl {fill : CallIndex → Source → CallIndex}
    (hfill : ∀ {index : CallIndex} {before : List Source} (source : Source),
      index.Holds before → (fill index source).Holds (before ++ [source]))
    (sources : List Source) : (sources.foldl fill index).Holds (before ++ sources) := by
  induction sources generalizing index before with
  | nil =>
      rw [List.append_nil]
      exact hindex
  | cons source rest ih =>
      have hrest := ih (hfill source hindex)
      rwa [List.append_assoc, List.singleton_append] at hrest

end Holds

theorem holds_ofSources (sources : List Source) : (ofSources sources).Holds sources :=
  Holds.empty.foldl (fun source hindex => hindex.addTree source) sources

theorem holds_merged (sources : List Source) : (merged sources).Holds sources :=
  Holds.empty.foldl (fun source hindex => hindex.absorb (holds_ofSources [source])) sources

/-!
## What an answer depends on
-/

section

variable {a b : CallIndex}

theorem expectations_congr {owner : String}
    (hfields : ∀ field : String, a.fieldTypes[(owner, field)]? = b.fieldTypes[(owner, field)]?)
    (receiver : Receiver) : a.expectations owner receiver = b.expectations owner receiver := by
  cases receiver with
  | implicit =>
      rfl
  | this =>
      rfl
  | named name =>
      rw [expectations, expectations, hfields]
  | unnamed =>
      rfl

theorem resolve?_congr {owner : String} {invocation : Invocation}
    (hnamed : a.named invocation.name = b.named invocation.name)
    (hfields : ∀ field : String, a.fieldTypes[(owner, field)]? = b.fieldTypes[(owner, field)]?) :
    a.resolve? owner invocation = b.resolve? owner invocation := by
  rw [resolve?, resolve?, hnamed, expectations_congr hfields]

theorem callsOf_congr {caller : Callable}
    (hnamed : ∀ invocation ∈ caller.invocations,
      a.named invocation.name = b.named invocation.name)
    (hfields : ∀ field : String, a.fieldTypes[(caller.identity.context, field)]? =
      b.fieldTypes[(caller.identity.context, field)]?) :
    a.callsOf caller = b.callsOf caller := by
  rw [callsOf, callsOf]
  apply List.foldl_ext
  intro calls invocation hinvocation
  rw [resolve?_congr (hnamed invocation hinvocation) hfields]

theorem at?_congr {file : FilePath}
    (hfile : (a.callables.toList.filter fun callable =>
        callable.identity.location.file.same file) =
      b.callables.toList.filter fun callable => callable.identity.location.file.same file)
    (position : Position) : a.at? file position = b.at? file position := by
  rw [at?, at?, hfile]

end

/-- Two indexes have the same callables in the same order, and the same entry for every
name, every identity and every field. -/
structure Agree (a b : CallIndex) : Prop where
  callables : a.callables = b.callables
  byIdentity : ∀ identity : Identity,
    a.byIdentity[identity.key]? = b.byIdentity[identity.key]?
  byName : ∀ name : String, a.byName[name]? = b.byName[name]?
  fieldTypes : ∀ owner field : String,
    a.fieldTypes[(owner, field)]? = b.fieldTypes[(owner, field)]?

theorem Holds.agree {a b : CallIndex} {sources : List Source} (ha : a.Holds sources)
    (hb : b.Holds sources) : a.Agree b := by
  have hcallables : a.callables = b.callables :=
    Array.toList_inj.mp (ha.callables.trans hb.callables.symm)
  constructor
  · exact hcallables
  · intro identity
    rw [ha.consistent.byIdentity, hb.consistent.byIdentity, hcallables]
  · intro name
    rw [byName_eq ha.consistent ha.entries, byName_eq hb.consistent hb.entries, hcallables]
  · intro owner field
    rw [ha.fieldTypes, hb.fieldTypes]

namespace Agree

variable {a b : CallIndex} (hagree : a.Agree b)

include hagree

theorem prepare_eq (file : FilePath) (position : Position) :
    a.prepare file position = b.prepare file position := by
  have hfile := congrArg (fun callables : Array Callable => callables.toList.filter
    fun callable => callable.identity.location.file.same file) hagree.callables
  rw [prepare, prepare, at?_congr hfile]

theorem named_eq (name : String) : a.named name = b.named name := by
  rw [named, named, hagree.byName, hagree.callables]

theorem outgoing_eq (identity : Identity) : a.outgoing identity = b.outgoing identity := by
  have hcalls : ∀ caller, a.callsOf caller = b.callsOf caller := fun caller =>
    callsOf_congr (fun invocation _ => hagree.named_eq invocation.name)
      (hagree.fieldTypes caller.identity.context)
  rw [outgoing, outgoing, hagree.byIdentity, hagree.callables]
  cases (b.byIdentity[identity.key]?).bind (b.callables[·]?) with
  | none =>
      rfl
  | some caller =>
      exact congrArg Except.ok (hcalls caller)

end Agree

/-- Indexes of their own for every file, taken over in order, come to the same as the trees
added in order, for all sources: the callables, the entries of the tables, which are exact
both ways, and so every answer. -/
theorem merged_agrees (sources : List Source) :
    (merged sources).Agree (ofSources sources) ∧
    (merged sources).Exact ∧ (ofSources sources).Exact ∧
    (∀ file position,
      (merged sources).prepare file position = (ofSources sources).prepare file position) ∧
    ∀ identity, (merged sources).outgoing identity = (ofSources sources).outgoing identity := by
  have hmerged := holds_merged sources
  have hadded := holds_ofSources sources
  have hagree := hmerged.agree hadded
  exact ⟨hagree, exact_of_consistent hmerged.consistent hmerged.entries,
    exact_of_consistent hadded.consistent hadded.entries, hagree.prepare_eq,
    hagree.outgoing_eq⟩

end CallIndex
end EndpointTrace
