import EndpointTrace.Resolution.Matching
import Mathlib.Data.List.Infix

/-!
# Matches that are the only one

A match counts if no other candidate is one, not even another copy of the same endpoint.
What it takes to match is said here without reference to how matches are found.
-/

namespace EndpointTrace
namespace Resolution

/-- The endpoint stands in the list, and the property holds at no other place of it. -/
def Sole (property : Endpoint → Prop) (candidates : List Endpoint) (endpoint : Endpoint) :
    Prop :=
  ∃ before after, candidates = before ++ endpoint :: after ∧ property endpoint ∧
    ∀ other ∈ before ++ after, ¬ property other

def Names (request : List Char) (endpoint : Endpoint) : Prop :=
  ∃ method path, Text.words request = [method, path] ∧
    Method.ofChars? method = some endpoint.method ∧
    RoutePath.normalizeChars path = endpoint.path.toList

/-- The request is not empty, and whatever the case of letters, it is a part of the path or
of the handler, or the handler or a path other than the root is a part of it. -/
def Hit (request : List Char) (endpoint : Endpoint) : Prop :=
  request ≠ [] ∧
    (Text.lower request <:+: Text.lower endpoint.path.toList ∨
      Text.lower request <:+: Text.lower endpoint.handler.toList ∨
      Text.lower endpoint.path.toList ≠ ['/'] ∧
        Text.lower endpoint.path.toList <:+: Text.lower request ∨
      Text.lower endpoint.handler.toList <:+: Text.lower request)

instance (request : List Char) : DecidablePred (Hit request) :=
  fun _ => inferInstanceAs (Decidable (_ ∧ _))

theorem names_iff {request : List Char} {endpoint : Endpoint} :
    Names request endpoint ↔
      namedRoute? request = some (endpoint.method, endpoint.path.toList) := by
  unfold Names namedRoute?
  constructor
  · rintro ⟨method, path, hwords, hmethod, hpath⟩
    rw [hwords, ← hpath]
    simp only [hmethod, Option.map_some]
  · intro hnamed
    split at hnamed
    · rename_i method path hwords
      rcases Option.map_eq_some_iff.mp hnamed with ⟨parsed, hmethod, heq⟩
      rw [Prod.mk.injEq] at heq
      rw [heq.1] at hmethod
      exact ⟨method, path, hwords, hmethod, heq.2⟩
    · cases hnamed

instance (request : List Char) : DecidablePred (Names request) :=
  fun _ => decidable_of_iff' _ names_iff

/-!
## Finding matches
-/

theorem filter_eq_singleton_iff {property : Endpoint → Prop} [DecidablePred property]
    {candidates : List Endpoint} {endpoint : Endpoint} :
    candidates.filter (fun candidate => property candidate) = [endpoint] ↔
      Sole property candidates endpoint := by
  rw [List.filter_eq_cons_iff]
  constructor
  · rintro ⟨before, after, hsplit, hbefore, hendpoint, hafter⟩
    refine ⟨before, after, hsplit, of_decide_eq_true hendpoint, ?_⟩
    intro other hother
    rcases List.mem_append.mp hother with hmem | hmem
    · exact of_decide_eq_false (Bool.eq_false_iff.mpr (hbefore other hmem))
    · exact of_decide_eq_false
        (Bool.eq_false_iff.mpr (List.filter_eq_nil_iff.mp hafter other hmem))
  · rintro ⟨before, after, hsplit, hendpoint, hothers⟩
    refine ⟨before, after, hsplit, ?_, decide_eq_true hendpoint, ?_⟩
    · intro other hmem
      rw [decide_eq_true_iff]
      exact hothers other (List.mem_append_left after hmem)
    · apply List.filter_eq_nil_iff.mpr
      intro other hmem
      rw [decide_eq_true_iff]
      exact hothers other (List.mem_append_right before hmem)

theorem Sole.of_perm {property : Endpoint → Prop} {candidates others : List Endpoint}
    (hperm : candidates.Perm others) {endpoint : Endpoint}
    (hsole : Sole property candidates endpoint) : Sole property others endpoint := by
  classical
  have hfiltered := hperm.filter fun candidate => decide (property candidate)
  rw [filter_eq_singleton_iff.mpr hsole] at hfiltered
  exact filter_eq_singleton_iff.mp (List.singleton_perm.mp hfiltered).symm

theorem directMatches_eq (request : List Char) (candidates : List Endpoint) :
    directMatches request candidates =
      candidates.filter fun candidate => Names request candidate := by
  unfold directMatches
  cases hnamed : namedRoute? request with
  | none =>
      symm
      apply List.filter_eq_nil_iff.mpr
      intro candidate _
      rw [decide_eq_true_iff, names_iff, hnamed]
      exact nofun
  | some named =>
      rcases named with ⟨method, path⟩
      apply List.filter_congr
      intro candidate _
      rw [decide_eq_decide, names_iff, hnamed, Option.some.injEq, Prod.mk.injEq]
      exact and_congr eq_comm eq_comm

theorem keywordHits_eq (request : List Char) (candidates : List Endpoint) :
    keywordHits request candidates =
      candidates.filter fun candidate => Hit request candidate := by
  unfold keywordHits
  cases request with
  | nil =>
      symm
      apply List.filter_eq_nil_iff.mpr
      intro candidate _
      rw [decide_eq_true_iff]
      exact fun hhit => hhit.1 rfl
  | cons c rest =>
      apply List.filter_congr
      intro candidate _
      rw [Bool.eq_iff_iff, decide_eq_true_iff]
      simp only [sharesKeyword, Hit, Bool.or_eq_true, Bool.and_eq_true, Text.occursIn_iff,
        bne_iff_ne, ne_eq, reduceCtorEq, not_false_eq_true, true_and, or_assoc]

theorem sole?_directMatches {request : List Char} {candidates : List Endpoint}
    {endpoint : Endpoint} :
    sole? (directMatches request candidates) = some endpoint ↔
      Sole (Names request) candidates endpoint := by
  rw [sole?_eq_some_iff, directMatches_eq, filter_eq_singleton_iff]

theorem sole?_keywordHits {request : List Char} {candidates : List Endpoint}
    {endpoint : Endpoint} :
    sole? (keywordHits request candidates) = some endpoint ↔
      Sole (Hit request) candidates endpoint := by
  rw [sole?_eq_some_iff, keywordHits_eq, filter_eq_singleton_iff]

theorem narrow_eq (request : List Char) (candidates : List Endpoint) :
    narrow request candidates =
      if 2 ≤ (candidates.filter fun candidate => Hit request candidate).length then
        candidates.filter fun candidate => Hit request candidate
      else
        candidates := by
  rw [narrow, keywordHits_eq]
  rfl

end Resolution
end EndpointTrace
