import EndpointTrace.Proofs.Java.Indexing
import Mathlib.Data.List.Pairwise

/-!
# Finding a callable by its name

An index is filled from source files, either one tree after the other or from an index of
its own for each file.  Both ways it holds the callables of all files.  If the files have
different paths and the names of the callables of a file lie apart, then the callable that
is found where a name begins is the one that has this name.
-/

namespace EndpointTrace

namespace Range

/-- The ranges neither overlap nor touch. -/
def Apart (a b : Range) : Prop :=
  a.stop < b.start ∨ b.stop < a.start

instance (a b : Range) : Decidable (a.Apart b) :=
  inferInstanceAs (Decidable (_ ∨ _))

theorem contains_iff {range : Range} {position : Position} :
    range.contains position = true ↔
      range.start ≤ position ∧ position ≤ range.stop := by
  simp [contains]

theorem Apart.symm {a b : Range} (hapart : a.Apart b) : b.Apart a :=
  Or.comm.mp hapart

theorem Apart.not_contains {a b : Range} (hapart : a.Apart b) {position : Position}
    (ha : a.contains position = true) : ¬ b.contains position = true := by
  intro hb
  rcases contains_iff.mp ha with ⟨haStart, haStop⟩
  rcases contains_iff.mp hb with ⟨hbStart, hbStop⟩
  cases hapart with
  | inl hbefore =>
      exact Position.not_lt.mpr (Position.le_trans hbStart haStop) hbefore
  | inr hbehind =>
      exact Position.not_lt.mpr (Position.le_trans haStart hbStop) hbehind

end Range

/-!
## Source files
-/

namespace Java

structure Source where
  file : FilePath
  tree : List Node

namespace Source

def callables (source : Source) : List Callable :=
  callablesIn source.file source.tree

/-- Every callable of the file has a name token, and the tokens of different callables
neither overlap nor touch. -/
structure NamesApart (source : Source) : Prop where
  token : ∀ met ∈ Symbol.callablesIn none (symbols source.tree),
    met.2.selectionRange.start ≤ met.2.selectionRange.stop
  apart : (Symbol.callablesIn none (symbols source.tree)).Pairwise
    fun a b => a.2.selectionRange.Apart b.2.selectionRange

def Distinct (sources : List Source) : Prop :=
  sources.Pairwise fun a b => a.file.same b.file = false

theorem file_of_mem {source : Source} {callable : Callable}
    (hmem : callable ∈ source.callables) :
    callable.identity.location.file = source.file := by
  rcases exists_declared_of_mem (callablesIn_indexes source.file source.tree) hmem with
    ⟨declared, _, hindexes⟩
  rw [hindexes.location]

theorem NamesApart.eq_of_contains {source : Source} (hnames : source.NamesApart)
    {position : Position} {a b : Callable} (ha : a ∈ source.callables)
    (hb : b ∈ source.callables) (haThere : a.selectionRange.contains position = true)
    (hbThere : b.selectionRange.contains position = true) : a = b := by
  have hapart : source.callables.Pairwise
      fun a b => a.selectionRange.Apart b.selectionRange :=
    pairwise_of_indexes Range.Apart (callablesIn_indexes source.file source.tree)
      hnames.apart
  have hsymm : Std.Symm fun a b : Callable => a.selectionRange.Apart b.selectionRange :=
    ⟨fun _ _ => Range.Apart.symm⟩
  by_contra hne
  exact (hapart.forall ha hb hne).not_contains haThere hbThere

theorem Distinct.eq_of_same {sources : List Source} (hdistinct : Distinct sources)
    {a b : Source} (ha : a ∈ sources) (hb : b ∈ sources)
    (hsame : a.file.same b.file = true) : a = b := by
  have hsymm : Std.Symm fun a b : Source => a.file.same b.file = false := by
    constructor
    intro a b hother
    rw [Bool.eq_false_iff] at hother ⊢
    intro hback
    exact hother (FilePath.same_iff.mpr (FilePath.same_iff.mp hback).symm)
  by_contra hne
  have hother := hdistinct.forall ha hb hne
  rw [hsame] at hother
  cases hother

end Source

end Java

/-!
## Indexes of several files
-/

namespace CallIndex

open Java (Callable Source)

def ofSources (sources : List Source) : CallIndex :=
  sources.foldl (fun index source => index.addTree source.file source.tree) .empty

def merged (sources : List Source) : CallIndex :=
  sources.foldl (fun index source => index.absorb (ofSources [source])) .empty

theorem callables_absorb (index other : CallIndex) :
    (index.absorb other).callables.toList =
      index.callables.toList ++ other.callables.toList := by
  rw [absorb, ← Array.foldl_toList]
  exact callables_foldl_push other.callables.toList index

theorem callables_foldl {fill : CallIndex → Source → CallIndex}
    (hfill : ∀ index source, (fill index source).callables.toList =
      index.callables.toList ++ source.callables)
    (sources : List Source) (index : CallIndex) :
    (sources.foldl fill index).callables.toList =
      index.callables.toList ++ sources.flatMap Source.callables := by
  induction sources generalizing index with
  | nil =>
      simp
  | cons source rest ih =>
      rw [List.foldl_cons, ih, hfill, List.flatMap_cons, List.append_assoc]

theorem callables_ofSources (sources : List Source) :
    (ofSources sources).callables.toList = sources.flatMap Source.callables := by
  rw [ofSources, callables_foldl fun index source =>
    callables_addTree index source.file source.tree]
  rfl

theorem callables_merged (sources : List Source) :
    (merged sources).callables.toList = sources.flatMap Source.callables := by
  rw [merged, callables_foldl]
  · rfl
  · intro index source
    rw [callables_absorb, callables_ofSources, List.flatMap_singleton]

/-!
## Looking up a name
-/

theorem at?_of_unique {index : CallIndex} {callable : Callable} {file : FilePath}
    {position : Position} (hmem : callable ∈ index.callables.toList)
    (hfile : callable.identity.location.file.same file = true)
    (hthere : callable.selectionRange.contains position = true)
    (hunique : ∀ other ∈ index.callables.toList,
      other.identity.location.file.same file = true →
        other.selectionRange.contains position = true → other = callable) :
    index.at? file position = some callable := by
  cases hfound : (index.callables.toList.filter fun callable =>
      callable.identity.location.file.same file).find? fun callable =>
        callable.selectionRange.contains position with
  | none =>
      have hmissing := List.find?_eq_none.mp hfound callable
        (List.mem_filter.mpr ⟨hmem, hfile⟩)
      exact absurd hthere hmissing
  | some found =>
      have hin := List.mem_filter.mp (List.mem_of_find?_eq_some hfound)
      have hfoundThere : found.selectionRange.contains position = true :=
        (List.find?_eq_some_iff_append.mp hfound).1
      have heq := hunique found hin.1 hin.2 hfoundThere
      simp only [at?, hfound, Option.some_or, heq]

/-- Where the name of a declared callable begins, the index of its file and any others has
exactly this callable. -/
theorem prepare_of_declared {sources : List Source} (hdistinct : Source.Distinct sources)
    (hnames : ∀ source ∈ sources, source.NamesApart) {index : CallIndex}
    (hindex : ∀ callable, callable ∈ index.callables.toList ↔
      ∃ source ∈ sources, callable ∈ source.callables)
    {source : Source} (hsource : source ∈ sources) {declared : Option String × Symbol}
    (hdeclared : declared ∈ Symbol.callablesIn none (Java.symbols source.tree)) :
    ∃ identity, index.prepare source.file declared.2.selectionRange.start = [identity] ∧
      identity.name = declared.2.name ∧ some identity.context = declared.1 ∧
        identity.location = ⟨source.file, declared.2.selectionRange.start⟩ := by
  rcases Java.exists_indexed_of_mem
    (Java.callablesIn_indexes source.file source.tree) hdeclared with
    ⟨callable, hcallable, hindexes⟩
  have hthere : callable.selectionRange.contains declared.2.selectionRange.start = true := by
    rw [hindexes.selectionRange, Range.contains_iff]
    exact ⟨Position.le_refl _, (hnames source hsource).token declared hdeclared⟩
  have hfile : callable.identity.location.file.same source.file = true := by
    rw [Source.file_of_mem hcallable, FilePath.same_iff]
  have hfound : index.at? source.file declared.2.selectionRange.start = some callable := by
    apply at?_of_unique ((hindex callable).mpr ⟨source, hsource, hcallable⟩) hfile hthere
    intro other hother hsame hotherThere
    rcases (hindex other).mp hother with ⟨origin, horigin, hmem⟩
    rw [Source.file_of_mem hmem] at hsame
    rw [hdistinct.eq_of_same horigin hsource hsame] at hmem
    exact (hnames source hsource).eq_of_contains hmem hcallable hotherThere hthere
  refine ⟨callable.identity, ?_, hindexes.name, hindexes.context, hindexes.location⟩
  rw [prepare, hfound]
  rfl

end CallIndex
end EndpointTrace
