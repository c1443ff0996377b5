import EndpointTrace.Route.Endpoint
import Mathlib

/-!
# The order of presentation

Endpoints are sorted by keys that do not tell all endpoints apart, and equal ones keep
their places.  So the sorted list depends on the endpoints and, within each class of equal
ones, on their places.  Equal endpoints stand in one file, so it does not matter in which
order files are put together.
-/

namespace EndpointTrace

/-!
## Sorting by a comparison
-/

section

variable {α : Type} (compare : α → α → Ordering)

def peers (a : α) (xs : List α) : List α :=
  xs.filter fun b => compare a b == .eq

theorem mem_peers {a b : α} {xs : List α} :
    b ∈ peers compare a xs ↔ b ∈ xs ∧ compare a b = .eq := by
  simp [peers]

variable [Std.TransCmp compare]

theorem isLE_total (a b : α) : ((compare a b).isLE || (compare b a).isLE) = true := by
  cases hab : compare a b with
  | lt =>
      rfl
  | eq =>
      rfl
  | gt =>
      rw [Std.OrientedCmp.gt_iff_lt.mp hab]
      rfl

theorem mem_of_peers {xs ys : List α}
    (hpeers : ∀ a, peers compare a xs = peers compare a ys) {x : α} (hmem : x ∈ xs) :
    x ∈ ys := by
  have hself : x ∈ peers compare x xs :=
    (mem_peers compare).mpr ⟨hmem, Std.ReflCmp.compare_self⟩
  rw [hpeers x] at hself
  exact ((mem_peers compare).mp hself).1

theorem eq_of_sorted_of_peers {xs ys : List α}
    (hxs : xs.Pairwise fun a b => (compare a b).isLE)
    (hys : ys.Pairwise fun a b => (compare a b).isLE)
    (hpeers : ∀ a, peers compare a xs = peers compare a ys) : xs = ys := by
  induction xs generalizing ys with
  | nil =>
      cases ys with
      | nil =>
          rfl
      | cons y ys =>
          cases mem_of_peers compare (fun a => (hpeers a).symm) List.mem_cons_self
  | cons x xs ih =>
      cases ys with
      | nil =>
          cases mem_of_peers compare hpeers List.mem_cons_self
      | cons y ys =>
          rcases List.pairwise_cons.mp hxs with ⟨hx, hxsTail⟩
          rcases List.pairwise_cons.mp hys with ⟨hy, hysTail⟩
          have hle : (compare x y).isLE = true := by
            rcases List.mem_cons.mp (mem_of_peers compare (fun a => (hpeers a).symm)
              List.mem_cons_self) with rfl | hlater
            · exact Std.ReflCmp.isLE_rfl
            · exact hx y hlater
          have hge : (compare y x).isLE = true := by
            rcases List.mem_cons.mp (mem_of_peers compare hpeers List.mem_cons_self)
              with rfl | hlater
            · exact Std.ReflCmp.isLE_rfl
            · exact hy x hlater
          have hfirst : x = y := by
            have hequal := Std.OrientedCmp.isLE_antisymm hle hge
            have hclass := hpeers x
            simp only [peers, List.filter_cons, hequal, Std.ReflCmp.compare_self,
              beq_self_eq_true, if_true] at hclass
            exact (List.cons.inj hclass).1
          subst hfirst
          apply congrArg (List.cons x)
          apply ih hxsTail hysTail
          intro a
          have hclass := hpeers a
          simp only [peers, List.filter_cons] at hclass ⊢
          split at hclass
          · exact (List.cons.inj hclass).2
          · exact hclass

theorem peers_mergeSort (a : α) (xs : List α) :
    peers compare a (xs.mergeSort fun a b => (compare a b).isLE) = peers compare a xs := by
  have hsorted : (peers compare a xs).Pairwise fun a b => (compare a b).isLE := by
    apply List.pairwise_of_forall_mem_list
    intro b hb c hc
    have hab := ((mem_peers compare).mp hb).2
    have hac := ((mem_peers compare).mp hc).2
    have hbc := Std.TransCmp.eq_trans (Std.OrientedCmp.eq_symm hab) hac
    rw [hbc]
    rfl
  have hsub : (peers compare a xs).Sublist (xs.mergeSort fun a b => (compare a b).isLE) := by
    apply List.sublist_mergeSort
    · exact fun _ _ _ => Std.TransCmp.isLE_trans
    · exact isLE_total compare
    · exact hsorted
    · exact List.filter_sublist
  have hclass : (peers compare a xs).Sublist
      (peers compare a (xs.mergeSort fun a b => (compare a b).isLE)) := by
    have hfiltered := hsub.filter fun b => compare a b == .eq
    simp only [peers, List.filter_filter, Bool.and_self] at hfiltered
    exact hfiltered
  have hperm : (peers compare a (xs.mergeSort fun a b => (compare a b).isLE)).Perm
      (peers compare a xs) :=
    (List.mergeSort_perm xs _).filter _
  exact (hclass.eq_of_length hperm.length_eq.symm).symm

end

/-!
## Equal endpoints
-/

theorem transCmp_comap {α β : Type} (f : α → β) {compare : β → β → Ordering}
    (hcompare : Std.TransCmp compare) : Std.TransCmp fun a b => compare (f a) (f b) where
  eq_swap := hcompare.eq_swap
  isLE_trans := hcompare.isLE_trans

namespace PathComponent

instance : Std.TransCmp order :=
  transCmp_comap sortKey
    (inferInstance : Std.TransCmp (compareLex (compareOn Prod.fst) (compareOn Prod.snd)))

instance : Std.LawfulEqCmp order where
  compare_self := Std.ReflCmp.compare_self
  eq_of_compare := by
    intro a b hequal
    unfold order at hequal
    rcases compareLex_eq_eq.mp hequal with ⟨hkind, htext⟩
    apply sortKey_injective
    exact Prod.ext (Std.LawfulEqOrd.eq_of_compare hkind)
      (Std.LawfulEqOrd.eq_of_compare htext)

end PathComponent

namespace FilePath

instance : Std.TransCmp order :=
  transCmp_comap components
    (inferInstance : Std.TransCmp (List.compareLex PathComponent.order))

theorem order_eq_iff {a b : FilePath} : a.order b = .eq ↔ a.same b = true := by
  rw [same_iff]
  constructor
  · intro hequal
    exact Std.LawfulEqCmp.eq_of_compare hequal
  · intro hcomponents
    rw [order, hcomponents]
    exact Std.ReflCmp.compare_self

end FilePath

namespace Endpoint

instance : Std.TransCmp order := by
  have hfile : Std.TransCmp fun a b : Endpoint => a.location.file.order b.location.file :=
    transCmp_comap (fun e : Endpoint => e.location.file) inferInstance
  unfold order
  infer_instance

theorem order_eq_iff {a b : Endpoint} :
    order a b = .eq ↔ a.path = b.path ∧ a.method = b.method ∧ a.handler = b.handler ∧
      a.location.file.same b.location.file = true ∧
        a.location.position = b.location.position := by
  have hmethod : compare a.method.rank b.method.rank = .eq ↔ a.method = b.method := by
    rw [Std.LawfulEqOrd.compare_eq_iff_eq]
    exact ⟨Method.rank_injective, congrArg Method.rank⟩
  have hposition : a.location.position = b.location.position ↔
      a.location.position.line = b.location.position.line ∧
        a.location.position.character = b.location.position.character := by
    rw [← Position.mk.injEq]
  simp only [order, compareLex_eq_eq, compareOn, Std.LawfulEqOrd.compare_eq_iff_eq, hmethod,
    FilePath.order_eq_iff, hposition]

theorem pairwise_sort (endpoints : List Endpoint) :
    (sort endpoints).Pairwise fun a b => (order a b).isLE := by
  apply List.pairwise_mergeSort
  · exact fun _ _ _ => Std.TransCmp.isLE_trans
  · exact isLE_total order

theorem sort_eq_of_peers {xs ys : List Endpoint}
    (hpeers : ∀ a, peers order a xs = peers order a ys) : sort xs = sort ys := by
  apply eq_of_sorted_of_peers order (pairwise_sort xs) (pairwise_sort ys)
  intro a
  rw [sort, sort, peers_mergeSort, peers_mergeSort, hpeers a]

/-!
## Endpoints that the order tells apart
-/

/-- Endpoints that are not the same differ in something by which they are sorted. -/
def Distinguished (endpoints : List Endpoint) : Prop :=
  ∀ a ∈ endpoints, ∀ b ∈ endpoints, a ≠ b →
    a.path ≠ b.path ∨ a.method ≠ b.method ∨ a.handler ≠ b.handler ∨
      a.location.file.same b.location.file = false ∨
        a.location.position ≠ b.location.position

theorem Distinguished.eq_of_order_eq {endpoints : List Endpoint}
    (hdistinguished : Distinguished endpoints) {a b : Endpoint} (ha : a ∈ endpoints)
    (hb : b ∈ endpoints) (hequal : order a b = .eq) : a = b := by
  by_contra hne
  rcases order_eq_iff.mp hequal with ⟨hpath, hmethod, hhandler, hfile, hposition⟩
  rcases hdistinguished a ha b hb hne with hother | hother | hother | hother | hother
  · exact hother hpath
  · exact hother hmethod
  · exact hother hhandler
  · rw [hfile] at hother
    cases hother
  · exact hother hposition

/-- Where the order tells all endpoints apart, the sorted list does not depend on the order
in which they were given. -/
theorem sort_eq_of_perm {xs ys : List Endpoint} (hperm : xs.Perm ys)
    (hdistinguished : Distinguished xs) : sort xs = sort ys := by
  apply List.Perm.eq_of_pairwise _ (pairwise_sort xs) (pairwise_sort ys)
  · exact ((sort_perm xs).trans hperm).trans (sort_perm ys).symm
  · intro a b ha hb hle hge
    apply hdistinguished.eq_of_order_eq
    · exact (sort_perm xs).mem_iff.mp ha
    · exact hperm.mem_iff.mpr ((sort_perm ys).mem_iff.mp hb)
    · exact Std.OrientedCmp.isLE_antisymm hle hge

/-!
## Files in any order
-/

theorem flatMap_eq_of_perm {α β : Type} {xs ys : List α} (hperm : xs.Perm ys)
    (f : α → List β) (hone : xs.Pairwise fun x y => f x = [] ∨ f y = []) :
    xs.flatMap f = ys.flatMap f := by
  induction hperm with
  | nil =>
      rfl
  | cons x _ ih =>
      rw [List.flatMap_cons, List.flatMap_cons, ih (List.pairwise_cons.mp hone).2]
  | swap x y rest =>
      have hpair := (List.pairwise_cons.mp hone).1 x List.mem_cons_self
      rcases hpair with hempty | hempty
      · simp [hempty]
      · simp [hempty]
  | @trans first second third hfirst _ ihFirst ihSecond =>
      have hsymm : ∀ {x y : α}, f x = [] ∨ f y = [] → f y = [] ∨ f x = [] := Or.symm
      rw [ihFirst hone, ihSecond ((hfirst.pairwise_iff hsymm).mp hone)]

/-- Endpoints of different files may be put together file by file in any order. -/
theorem sort_flatMap_perm {α : Type} {xs ys : List α} (file : α → FilePath)
    (endpoints : α → List Endpoint)
    (hfile : ∀ x ∈ xs, ∀ endpoint ∈ endpoints x, endpoint.location.file = file x)
    (hdistinct : xs.Pairwise fun x y => (file x).same (file y) = false)
    (hperm : xs.Perm ys) : sort (xs.flatMap endpoints) = sort (ys.flatMap endpoints) := by
  apply sort_eq_of_peers
  intro a
  rw [peers, peers, List.filter_flatMap, List.filter_flatMap]
  apply flatMap_eq_of_perm hperm
  have hclass : ∀ x ∈ xs, peers order a (endpoints x) ≠ [] →
      a.location.file.same (file x) = true := by
    intro x hx hsome
    rcases List.exists_mem_of_ne_nil _ hsome with ⟨endpoint, hmem⟩
    rcases (mem_peers order).mp hmem with ⟨hin, hequal⟩
    rw [← hfile x hx endpoint hin]
    exact (order_eq_iff.mp hequal).2.2.2.1
  apply hdistinct.imp_of_mem
  intro x y hx hy hother
  by_contra hboth
  rw [not_or] at hboth
  have hxFile := FilePath.same_iff.mp (hclass x hx hboth.1)
  have hyFile := FilePath.same_iff.mp (hclass y hy hboth.2)
  have hsame := FilePath.same_iff.mpr (hxFile.symm.trans hyFile)
  rw [hother] at hsame
  cases hsame

end Endpoint

end EndpointTrace
