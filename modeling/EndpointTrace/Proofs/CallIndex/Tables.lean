import EndpointTrace.Proofs.Java.Lookup
import Mathlib.Data.List.Induction

/-!
# The tables of a call index

An index keeps its callables in one list, and beside it a table of identities and one of
names.  The tables are consistent if they say where in the list the callables stand: the
table of names has the places of all callables of a name, in order, and the table of
identities has the last place of an identity.  However an index is filled, its tables are
consistent, so looking something up is the same as going through the list.
-/

namespace EndpointTrace

open Java (Callable Source)

namespace CallIndex

/-!
## Places in a list
-/

def placesOf (wanted : Callable → Bool) (callables : List Callable) : List Nat :=
  (List.range callables.length).filter fun place => (callables[place]?).any wanted

section

variable (wanted : Callable → Bool)

theorem placesOf_concat (callables : List Callable) (callable : Callable) :
    placesOf wanted (callables ++ [callable]) =
      placesOf wanted callables ++ if wanted callable then [callables.length] else [] := by
  have hbefore : (List.range callables.length).filter
      (fun place => ((callables ++ [callable])[place]?).any wanted) =
        placesOf wanted callables := by
    apply List.filter_congr
    intro place hplace
    rw [List.getElem?_append_left (List.mem_range.mp hplace)]
  rw [placesOf, List.length_append, List.length_singleton, List.range_succ, List.filter_append,
    hbefore, List.filter_singleton, List.getElem?_concat_length, Option.any_some,
    Bool.cond_eq_ite]

theorem lt_of_mem_placesOf {callables : List Callable} {place : Nat}
    (hplace : place ∈ placesOf wanted callables) : place < callables.length :=
  List.mem_range.mp (List.mem_filter.mp hplace).1

theorem filterMap_placesOf (callables : List Callable) :
    (placesOf wanted callables).filterMap (callables[·]?) = callables.filter wanted := by
  induction callables using List.reverseRecOn with
  | nil =>
      rfl
  | append_singleton callables callable ih =>
      have hbefore : (placesOf wanted callables).filterMap
          ((callables ++ [callable])[·]?) = callables.filter wanted := by
        rw [← ih]
        apply List.filterMap_congr
        intro place hplace
        exact List.getElem?_append_left (lt_of_mem_placesOf wanted hplace)
      rw [placesOf_concat, List.filterMap_append, hbefore, List.filter_append,
        List.filter_singleton]
      cases wanted callable with
      | true =>
          simp
      | false =>
          rfl

theorem getLast?_placesOf (callables : List Callable) :
    (placesOf wanted callables).getLast?.bind (callables[·]?) =
      (callables.filter wanted).getLast? := by
  induction callables using List.reverseRecOn with
  | nil =>
      rfl
  | append_singleton callables callable ih =>
      rw [placesOf_concat, List.filter_append, List.filter_singleton]
      cases wanted callable with
      | true =>
          simp
      | false =>
          simp only [Bool.false_eq_true, if_false, cond_false, List.append_nil]
          rw [← ih]
          cases hlast : (placesOf wanted callables).getLast? with
          | none =>
              rfl
          | some place =>
              have hlt := lt_of_mem_placesOf wanted (List.mem_of_getLast? hlast)
              exact List.getElem?_append_left hlt

end

/-!
## Consistent tables
-/

structure Consistent (index : CallIndex) : Prop where
  byIdentity : ∀ key, index.byIdentity[key]? =
    (placesOf (fun callable => callable.identity.key == key)
      index.callables.toList).getLast?
  byName : ∀ name, ((index.byName[name]?).getD .empty).toList =
    placesOf (fun callable => callable.identity.name == name) index.callables.toList

theorem consistent_empty : empty.Consistent where
  byIdentity := by
    intro key
    exact Std.HashMap.getElem?_emptyWithCapacity
  byName := by
    intro name
    have hnone : empty.byName[name]? = none := Std.HashMap.getElem?_emptyWithCapacity
    rw [hnone]
    rfl

namespace Consistent

variable {index : CallIndex} (hindex : index.Consistent)

include hindex

theorem push (callable : Callable) : (index.push callable).Consistent where
  byIdentity := by
    intro key
    have htable : (index.push callable).byIdentity[key]? =
        if callable.identity.key == key then some index.size else index.byIdentity[key]? :=
      Std.HashMap.getElem?_insert
    rw [htable, callables_push, placesOf_concat, hindex.byIdentity]
    cases callable.identity.key == key with
    | true =>
        simp only [if_true, List.getLast?_concat]
        rfl
    | false =>
        simp
  byName := by
    intro name
    have htable : (index.push callable).byName[name]? =
        if callable.identity.name == name then
          some (((index.byName[callable.identity.name]?).getD .empty).push index.size)
        else index.byName[name]? :=
      Std.HashMap.getElem?_alter
    rw [htable, callables_push, placesOf_concat, ← hindex.byName]
    cases hname : callable.identity.name == name with
    | true =>
        rw [if_pos rfl, if_pos rfl, ← beq_iff_eq.mp hname, Option.getD_some,
          Array.toList_push]
        rfl
    | false =>
        simp

theorem declareField (field : Java.FieldType) : (index.declareField field).Consistent :=
  ⟨hindex.byIdentity, hindex.byName⟩

theorem foldl_push (callables : List Callable) :
    (callables.foldl CallIndex.push index).Consistent := by
  induction callables generalizing index with
  | nil =>
      exact hindex
  | cons callable rest ih =>
      exact ih (hindex.push callable)

theorem addTree (file : FilePath) (tree : List Java.Node) :
    (index.addTree file tree).Consistent := by
  rw [CallIndex.addTree]
  have hfilled := hindex.foldl_push (Java.callablesIn file tree)
  generalize (Java.callablesIn file tree).foldl CallIndex.push index = filled at hfilled ⊢
  induction Java.fieldTypesIn tree generalizing filled with
  | nil =>
      exact hfilled
  | cons field rest ih =>
      exact ih _ (hfilled.declareField field)

theorem absorb (other : CallIndex) : (index.absorb other).Consistent := by
  have hfilled := hindex.foldl_push other.callables.toList
  rw [Array.foldl_toList] at hfilled
  exact ⟨hfilled.byIdentity, hfilled.byName⟩

theorem named_eq (name : String) :
    index.named name =
      index.callables.toList.filter fun callable => callable.identity.name == name := by
  rw [named, hindex.byName, ← filterMap_placesOf]
  apply List.filterMap_congr
  intro place _
  exact Array.getElem?_toList.symm

/-- The calls of an identity are those of the last callable that has it. -/
theorem outgoing_eq (identity : Identity) :
    index.outgoing identity =
      match (index.callables.toList.filter fun callable =>
        callable.identity.same identity).getLast? with
      | some caller => .ok (index.callsOf caller)
      | none => .error (.collaborator "outgoing_calls"
          ("unknown callable " ++ identity.name ++ " at " ++ identity.location.toText)) := by
  have hholder : (index.byIdentity[identity.key]?).bind (index.callables[·]?) =
      (index.callables.toList.filter fun callable =>
        callable.identity.same identity).getLast? := by
    have hplaces := getLast?_placesOf (fun callable => callable.identity.key == identity.key)
      index.callables.toList
    rw [← hindex.byIdentity] at hplaces
    simp only [Array.getElem?_toList] at hplaces
    exact hplaces
  rw [← hholder]
  rfl

end Consistent

theorem consistent_foldl {fill : CallIndex → Source → CallIndex}
    (hfill : ∀ (source : Source) {index : CallIndex}, index.Consistent →
      (fill index source).Consistent)
    (sources : List Source) {index : CallIndex} (hindex : index.Consistent) :
    (sources.foldl fill index).Consistent := by
  induction sources generalizing index with
  | nil =>
      exact hindex
  | cons source rest ih =>
      exact ih (hfill source hindex)

theorem consistent_ofSources (sources : List Source) : (ofSources sources).Consistent :=
  consistent_foldl (fun source _ hindex => hindex.addTree source.file source.tree) sources
    consistent_empty

theorem consistent_merged (sources : List Source) : (merged sources).Consistent :=
  consistent_foldl (fun source _ hindex => hindex.absorb (ofSources [source])) sources
    consistent_empty

end CallIndex
end EndpointTrace
