import EndpointTrace.Proofs.Route.Windows
import EndpointTrace.Proofs.Text.Trimming
import Mathlib

/-!
# The form of endpoint paths

The path of an endpoint is put together from two texts, one declared for the type and one
for the handler.  It is always absolute.  As only one slash at the end of a text is dropped,
and white space in front of it is not, the path is in normal form if the texts are tidy: if
there are no two slashes in a row in them and no white space before a slash at the end.
-/

namespace EndpointTrace

namespace RoutePath

open Text (trim isBlank)

def Doubled (path : List Char) : Prop :=
  ['/', '/'] <:+: path

/-- The text that a combined path ends with: that of the base, if the other one stands for
the root. -/
def ending (base path : List Char) : List Char :=
  if normalizeChars path = ['/'] then base else path

/-- How a combined path depends on the two texts. -/
structure FormedFrom (base path formed : List Char) : Prop where
  absolute : formed.head? = some '/'
  /-- Of several slashes at the end all but one are left. -/
  trailing : Trailing formed ↔
    ['/', '/'] <:+ trim (ending base path) ∧ trim (ending base path) ≠ ['/', '/']
  single : ¬ Doubled (trim base) → ¬ Doubled (trim path) → ¬ Doubled formed
  fixed : ¬ Trailing formed →
    (∀ c, [c, '/'] <:+ trim (ending base path) → isBlank c = false) →
      normalizeChars formed = formed

instance (path : List Char) : Decidable (Doubled path) :=
  inferInstanceAs (Decidable (_ <:+: _))

/-!
## Normalizing one text
-/

theorem pair_suffix_concat {before : List Char} {c d : Char} :
    [c, d] <:+ before ++ [d] ↔ before.getLast? = some c := by
  have hpair : [c] ++ [d] <:+ before ++ [d] ↔ [c] <:+ before ∧ [d] = [d] :=
    List.suffix_append_inj_of_length_eq rfl
  rw [List.singleton_append] at hpair
  rw [hpair, List.singleton_suffix_iff_getLast?_eq_some]
  exact and_iff_left rfl

theorem trailing_normalizeChars (cs : List Char) :
    Trailing (normalizeChars cs) ↔ ['/', '/'] <:+ trim cs ∧ trim cs ≠ ['/', '/'] := by
  rcases normalizeChars_cases cs with ⟨rest, hrooted, hnormal⟩ | ⟨hkept, hnormal⟩
  · rw [hnormal]
    have htrailing : Trailing ('/' :: rest) ↔ rest.getLast? = some '/' := by
      cases rest with
      | nil =>
          simp [Trailing]
      | cons c others =>
          simp [Trailing]
    rw [htrailing]
    rcases rooted_cases (trim cs) with ⟨_, hsame⟩ | ⟨hhead, hslash⟩
    · rw [← hsame, hrooted, ← List.cons_append, pair_suffix_concat]
      cases rest with
      | nil =>
          simp
      | cons c others =>
          simp
    · rw [hslash] at hrooted
      have hrest := (List.cons.inj hrooted).2
      rw [hrest] at hhead ⊢
      rw [pair_suffix_concat]
      refine ⟨fun hlast => ⟨hlast, ?_⟩, fun hlast => hlast.1⟩
      intro hboth
      rw [hboth] at hhead
      exact hhead rfl
  · rw [hnormal]
    refine iff_of_false hkept ?_
    rintro ⟨hsuffix, hmore⟩
    apply hkept
    rcases hsuffix with ⟨before, hbefore⟩
    have hlast : (trim cs).getLast? = some '/' := by
      rw [← hbefore, List.getLast?_append]
      rfl
    rcases rooted_cases (trim cs) with ⟨_, hsame⟩ | ⟨_, hslash⟩
    · rw [hsame]
      refine ⟨?_, hlast⟩
      intro hroot
      have hlength := congrArg List.length (hbefore.trans hroot)
      simp at hlength
    · rw [hslash]
      refine ⟨?_, by rw [List.getLast?_cons, hlast]; rfl⟩
      intro hroot
      rw [(List.cons.inj hroot).2] at hlast
      cases hlast

theorem isBlank_getLast?_normalizeChars {cs : List Char}
    (htidy : ∀ c, [c, '/'] <:+ trim cs → isBlank c = false) :
    ∀ c ∈ (normalizeChars cs).getLast?, isBlank c = false := by
  have hslash : isBlank '/' = false := by decide
  intro c hc
  rcases normalizeChars_cases cs with ⟨rest, hrooted, hnormal⟩ | ⟨_, hnormal⟩
  · rw [hnormal] at hc
    rcases rooted_cases (trim cs) with ⟨_, hsame⟩ | ⟨_, hadded⟩
    · apply htidy
      rw [← hsame, hrooted, ← List.cons_append, pair_suffix_concat]
      exact hc
    · rw [hadded] at hrooted
      have hrest := (List.cons.inj hrooted).2
      cases hlast : rest.getLast? with
      | none =>
          rw [List.getLast?_eq_none_iff.mp hlast] at hc
          rw [← Option.some.inj hc]
          exact hslash
      | some last =>
          rw [List.getLast?_cons, hlast] at hc
          apply htidy
          rw [hrest, pair_suffix_concat, hlast]
          exact hc
  · rw [hnormal] at hc
    rcases rooted_cases (trim cs) with ⟨_, hsame⟩ | ⟨_, hadded⟩
    · rw [hsame] at hc
      exact Text.isBlank_of_mem_getLast?_trim cs c hc
    · rw [hadded, List.getLast?_cons] at hc
      cases hlast : (trim cs).getLast? with
      | none =>
          rw [hlast] at hc
          rw [← Option.some.inj hc]
          exact hslash
      | some last =>
          rw [hlast] at hc
          apply Text.isBlank_of_mem_getLast?_trim cs
          rw [hlast]
          exact hc

theorem normalizeChars_eq_self {path : List Char} (habsolute : path.head? = some '/')
    (hbare : ¬ Trailing path) (hend : ∀ c ∈ path.getLast?, isBlank c = false) :
    normalizeChars path = path := by
  rcases List.head?_eq_some_iff.mp habsolute with ⟨rest, rfl⟩
  have htrim : trim ('/' :: rest) = '/' :: rest := by
    rw [Text.trim_cons (by decide)]
    cases hlast : rest.getLast? with
    | none =>
        rw [List.getLast?_eq_none_iff.mp hlast]
        rfl
    | some last =>
        rcases List.getLast?_eq_some_iff.mp hlast with ⟨before, rfl⟩
        rw [Text.trimEnd_concat]
        apply hend
        rw [List.getLast?_cons, hlast]
        rfl
  rw [normalizeChars, htrim, rooted, withoutLastSlash, if_neg]
  rintro ⟨hlong, hlast⟩
  apply hbare
  refine ⟨?_, hlast⟩
  intro hroot
  rw [hroot] at hlong
  exact absurd hlong (Nat.lt_irrefl 1)

/-!
## Slashes in a row
-/

theorem not_doubled_iff {path : List Char} :
    ¬ Doubled path ↔ path.IsChain fun a b => ¬ (a = '/' ∧ b = '/') := by
  rw [List.isChain_iff_forall_rel_of_append_cons_cons]
  constructor
  · rintro hsingle a b before after rfl ⟨rfl, rfl⟩
    exact hsingle ⟨before, after, by simp⟩
  · rintro hchain ⟨before, after, hpath⟩
    have hsplit : path = before ++ '/' :: '/' :: after := by
      rw [← hpath]
      simp
    exact hchain hsplit ⟨rfl, rfl⟩

theorem not_doubled_normalizeChars {cs : List Char} (hsingle : ¬ Doubled (trim cs)) :
    ¬ Doubled (normalizeChars cs) := by
  rw [not_doubled_iff] at hsingle ⊢
  have hrooted : (rooted (trim cs)).IsChain fun a b => ¬ (a = '/' ∧ b = '/') := by
    rcases rooted_cases (trim cs) with ⟨_, hsame⟩ | ⟨hhead, hslash⟩
    · rw [hsame]
      exact hsingle
    · rw [hslash, List.isChain_cons]
      refine ⟨?_, hsingle⟩
      rintro c hc ⟨_, rfl⟩
      exact hhead hc
  rcases normalizeChars_cases cs with ⟨rest, hwhole, hnormal⟩ | ⟨_, hnormal⟩
  · rw [hwhole, ← List.cons_append] at hrooted
    rw [hnormal]
    exact hrooted.left_of_append
  · rw [hnormal]
    exact hrooted

theorem not_trailing_of_not_doubled {cs : List Char} (hsingle : ¬ Doubled (trim cs)) :
    ¬ Trailing (normalizeChars cs) := by
  rw [trailing_normalizeChars]
  rintro ⟨hsuffix, _⟩
  exact hsingle hsuffix.isInfix

/-!
## Combining two texts
-/

theorem ending_cases (base path : List Char) :
    ending base path = base ∨ ending base path = path := by
  unfold ending
  split
  · exact Or.inl rfl
  · exact Or.inr rfl

theorem combineChars_cases (base path : List Char) :
    (ending base path = path ∧ combineChars base path = normalizeChars path) ∨
      (ending base path = base ∧ combineChars base path = normalizeChars base) ∨
      normalizeChars base ≠ ['/'] ∧ normalizeChars path ≠ ['/'] ∧ ending base path = path ∧
        combineChars base path = normalizeChars base ++ normalizeChars path := by
  unfold combineChars ending
  by_cases hbase : normalizeChars base = ['/']
  · by_cases hpath : normalizeChars path = ['/']
    · exact Or.inr (Or.inl (by simp [hbase, hpath]))
    · exact Or.inl (by simp [hbase, hpath])
  · by_cases hpath : normalizeChars path = ['/']
    · exact Or.inr (Or.inl (by simp [hbase, hpath]))
    · exact Or.inr (Or.inr (by simp [hbase, hpath]))

theorem head?_combineChars (base path : List Char) :
    (combineChars base path).head? = some '/' := by
  rcases combineChars_cases base path with ⟨_, hcombined⟩ | ⟨_, hcombined⟩ |
    ⟨_, _, _, hcombined⟩
  · rw [hcombined, head?_normalizeChars]
  · rw [hcombined, head?_normalizeChars]
  · rw [hcombined, List.head?_append, head?_normalizeChars]
    rfl

theorem getLast?_combineChars (base path : List Char) :
    (combineChars base path).getLast? = (normalizeChars (ending base path)).getLast? := by
  rcases combineChars_cases base path with ⟨hending, hcombined⟩ | ⟨hending, hcombined⟩ |
    ⟨_, _, hending, hcombined⟩
  · rw [hending, hcombined]
  · rw [hending, hcombined]
  · rw [hending, hcombined, List.getLast?_append]
    rcases List.head?_eq_some_iff.mp (head?_normalizeChars path) with ⟨rest, hrest⟩
    rw [hrest, List.getLast?_cons]
    rfl

theorem trailing_combineChars (base path : List Char) :
    Trailing (combineChars base path) ↔ Trailing (normalizeChars (ending base path)) := by
  rcases combineChars_cases base path with ⟨hending, hcombined⟩ | ⟨hending, hcombined⟩ |
    ⟨hbase, hpath, hending, hcombined⟩
  · rw [hending, hcombined]
  · rw [hending, hcombined]
  · rw [Trailing, Trailing, getLast?_combineChars, hending, hcombined]
    refine and_congr_left fun _ => iff_of_true ?_ hpath
    intro hroot
    rcases List.head?_eq_some_iff.mp (head?_normalizeChars base) with ⟨rest, hrest⟩
    rcases List.head?_eq_some_iff.mp (head?_normalizeChars path) with ⟨others, hothers⟩
    rw [hrest, hothers] at hroot
    simp at hroot

theorem combineChars_formed (base path : List Char) :
    FormedFrom base path (combineChars base path) where
  absolute := head?_combineChars base path
  trailing := by
    rw [trailing_combineChars, trailing_normalizeChars]
  single := by
    intro hbase hpath
    have hfirst := not_doubled_normalizeChars hbase
    have hsecond := not_doubled_normalizeChars hpath
    rcases combineChars_cases base path with ⟨_, hcombined⟩ | ⟨_, hcombined⟩ |
      ⟨hroot, _, _, hcombined⟩
    · rw [hcombined]
      exact hsecond
    · rw [hcombined]
      exact hfirst
    · rw [hcombined, not_doubled_iff]
      rw [not_doubled_iff] at hfirst hsecond
      apply hfirst.append hsecond
      -- The base has no slash at its end, where that of the path follows.
      rintro last hlast _ _ ⟨rfl, _⟩
      exact not_trailing_of_not_doubled hbase ⟨hroot, hlast⟩
  fixed := by
    intro hbare htidy
    apply normalizeChars_eq_self (head?_combineChars base path) hbare
    rw [getLast?_combineChars]
    exact isBlank_getLast?_normalizeChars htidy

end RoutePath

/-!
## Endpoints
-/

namespace Extraction

def Declares (rules : AnnotationRules) (windowLines : Nat) (document : Document)
    (symbols : List Symbol) (base path : String) : Prop :=
  ∃ site ∈ sitesIn windowLines none symbols, ∃ bases,
    basePaths? rules (document.textIn site.header) = some bases ∧ base ∈ bases ∧
      ∃ handler ∈ handlers site.symbol, ∃ route,
        rules.route? (document.textIn handler.window) = some route ∧ path ∈ route.paths

end Extraction
end EndpointTrace
