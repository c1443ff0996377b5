import EndpointTrace.Proofs.Route.NormalPaths
import Mathlib.Algebra.Group.Defs

/-!
# Combining normal paths

Normalizing changes nothing in an absolute text that ends neither in a slash too many nor in
white space.  Such paths form a monoid: the root is its identity, and two other paths are
written one behind the other.  Texts that are no normal paths are normalized before they are
combined, so the root adds nothing to any text, and two slashes in a row come only from the
texts themselves.
-/

namespace EndpointTrace
namespace RoutePath

open Text (trim isBlank)

/-!
## Paths in normal form
-/

theorem normalizeChars_eq_self_iff {path : List Char} :
    normalizeChars path = path ↔
      path.head? = some '/' ∧ ¬ Trailing path ∧ ∀ c ∈ path.getLast?, isBlank c = false := by
  constructor
  · intro hfixed
    have hhead : path.head? = some '/' := by
      rw [← hfixed, head?_normalizeChars]
    rcases List.head?_eq_some_iff.mp hhead with ⟨rest, rfl⟩
    have htrim : trim ('/' :: rest) = '/' :: Text.trimEnd rest :=
      Text.trim_cons (by decide) rest
    have hrooted : rooted (trim ('/' :: rest)) = trim ('/' :: rest) := by
      rw [htrim]
      rfl
    rcases normalizeChars_cases ('/' :: rest) with ⟨others, hlonger, hnormal⟩ | ⟨hbare, hnormal⟩
    · -- Trimming does not make a text longer, so there is no slash to be dropped.
      have hsame := hnormal.symm.trans hfixed
      rw [hrooted, htrim, (List.cons.inj hsame).1, (List.cons.inj hsame).2] at hlonger
      have hlength : (Text.trimEnd rest).length ≤ rest.length :=
        (List.rdropWhile_prefix isBlank (l := rest)).length_le
      rw [(List.cons.inj hlonger).2, List.length_append, List.length_singleton] at hlength
      exact absurd hlength (Nat.not_succ_le_self _)
    · rw [hrooted] at hbare hnormal
      have htrimmed : trim ('/' :: rest) = '/' :: rest := hnormal.symm.trans hfixed
      refine ⟨rfl, htrimmed ▸ hbare, ?_⟩
      intro c hc
      rw [← htrimmed] at hc
      exact Text.isBlank_of_mem_getLast?_trim _ c hc
  · rintro ⟨hhead, hbare, hend⟩
    exact normalizeChars_eq_self hhead hbare hend

/-- A path that stays as it is when it is normalized. -/
@[ext]
structure Normal where
  chars : List Char
  normal : normalizeChars chars = chars

namespace Normal

def root : Normal :=
  ⟨['/'], by decide⟩

theorem head? (path : Normal) : path.chars.head? = some '/' :=
  (normalizeChars_eq_self_iff.mp path.normal).1

theorem eq_root_iff {path : Normal} : path = root ↔ path.chars = ['/'] :=
  Normal.ext_iff

theorem combineChars_eq (base path : Normal) :
    combineChars base.chars path.chars =
      if base.chars = ['/'] then path.chars
      else if path.chars = ['/'] then base.chars
      else base.chars ++ path.chars := by
  rw [combineChars, base.normal, path.normal]

/-- What a combined path ends with is what one of the two ends with. -/
theorem normal_combineChars (base path : Normal) :
    normalizeChars (combineChars base.chars path.chars) =
      combineChars base.chars path.chars := by
  have hfixed : normalizeChars (ending base.chars path.chars) =
      ending base.chars path.chars := by
    rcases ending_cases base.chars path.chars with hbase | hpath
    · rw [hbase, base.normal]
    · rw [hpath, path.normal]
  rcases normalizeChars_eq_self_iff.mp hfixed with ⟨_, hbare, hend⟩
  apply normalizeChars_eq_self (head?_combineChars _ _)
  · rw [trailing_combineChars, hfixed]
    exact hbare
  · rw [getLast?_combineChars, hfixed]
    exact hend

def below (base path : Normal) : Normal :=
  ⟨combineChars base.chars path.chars, normal_combineChars base path⟩

theorem root_below (path : Normal) : root.below path = path := by
  apply Normal.ext
  exact (combineChars_eq root path).trans (if_pos rfl)

theorem below_root (path : Normal) : path.below root = path := by
  apply Normal.ext
  show combineChars path.chars root.chars = path.chars
  rw [combineChars_eq]
  split
  · rename_i hroot
    exact hroot.symm
  · exact if_pos rfl

theorem chars_below {base path : Normal} (hbase : base ≠ root) (hpath : path ≠ root) :
    (base.below path).chars = base.chars ++ path.chars := by
  show combineChars base.chars path.chars = _
  rw [combineChars_eq, if_neg (mt eq_root_iff.mpr hbase), if_neg (mt eq_root_iff.mpr hpath)]

theorem below_ne_root {base path : Normal} (hbase : base ≠ root) (hpath : path ≠ root) :
    base.below path ≠ root := by
  intro hroot
  have hchars := eq_root_iff.mp hroot
  rw [chars_below hbase hpath] at hchars
  rcases List.head?_eq_some_iff.mp base.head? with ⟨rest, hrest⟩
  rcases List.head?_eq_some_iff.mp path.head? with ⟨others, hothers⟩
  rw [hrest, hothers] at hchars
  simp at hchars

theorem below_assoc (a b c : Normal) : (a.below b).below c = a.below (b.below c) := by
  by_cases ha : a = root
  · rw [ha, root_below, root_below]
  · by_cases hb : b = root
    · rw [hb, below_root, root_below]
    · by_cases hc : c = root
      · rw [hc, below_root, below_root]
      · apply Normal.ext
        rw [chars_below (below_ne_root ha hb) hc, chars_below ha hb,
          chars_below ha (below_ne_root hb hc), chars_below hb hc, List.append_assoc]

instance : Monoid Normal where
  mul := below
  one := root
  mul_assoc := below_assoc
  one_mul := root_below
  mul_one := below_root

def ofString (path : String) (hnormal : normalize path = path) : Normal where
  chars := path.toList
  normal := by
    rw [← toList_normalize, hnormal]

theorem chars_ofString {path : String} (hnormal : normalize path = path) :
    (ofString path hnormal).chars = path.toList :=
  rfl

theorem chars_mul (base path : Normal) :
    (base * path).chars = combineChars base.chars path.chars :=
  rfl

theorem toList_combine_eq {base path : String} (hbase : normalize base = base)
    (hpath : normalize path = path) :
    (combine base path).toList = (ofString base hbase * ofString path hpath).chars := by
  rw [toList_combine, chars_mul, chars_ofString, chars_ofString]

theorem ofString_combine {base path : String} (hbase : normalize base = base)
    (hpath : normalize path = path)
    (hcombined : normalize (combine base path) = combine base path) :
    ofString (combine base path) hcombined = ofString base hbase * ofString path hpath := by
  apply Normal.ext
  rw [chars_ofString, toList_combine_eq hbase hpath]

end Normal

/-!
## Combining any texts
-/

theorem combineChars_root (path : List Char) :
    combineChars ['/'] path = normalizeChars path := by
  have hroot : normalizeChars ['/'] = ['/'] := by decide
  rw [combineChars, hroot]
  exact if_pos rfl

theorem root_combineChars (path : List Char) :
    combineChars path ['/'] = normalizeChars path := by
  have hroot : normalizeChars ['/'] = ['/'] := by decide
  rw [combineChars, hroot]
  show (if normalizeChars path = ['/'] then ['/'] else
    if ['/'] = ['/'] then normalizeChars path else normalizeChars path ++ ['/']) = _
  split
  · rename_i hpath
    exact hpath.symm
  · exact if_pos rfl

/-- Combining makes the normal paths a monoid whose identity is the root.  The root adds
nothing to any text, and any two texts make an absolute path, in which two slashes follow one
another only if they do so in one of the trimmed texts. -/
theorem combine_monoid :
    (∀ path, combine "/" path = normalize path ∧ combine path "/" = normalize path) ∧
    (∀ a b, normalize a = a → normalize b = b → normalize (combine a b) = combine a b) ∧
    (∀ a b c, normalize a = a → normalize b = b → normalize c = c →
      combine (combine a b) c = combine a (combine b c)) ∧
    ∀ a b, (combine a b).toList.head? = some '/' ∧
      (Doubled (combine a b).toList → Doubled (trim a.toList) ∨ Doubled (trim b.toList)) := by
  have hclosed : ∀ a b, normalize a = a → normalize b = b →
      normalize (combine a b) = combine a b := by
    intro a b ha hb
    apply String.toList_injective
    rw [toList_normalize, Normal.toList_combine_eq ha hb]
    exact Normal.normal _
  refine ⟨?_, hclosed, ?_, ?_⟩
  · intro path
    constructor
    · exact congrArg String.ofList (combineChars_root path.toList)
    · exact congrArg String.ofList (root_combineChars path.toList)
  · intro a b c ha hb hc
    apply String.toList_injective
    rw [Normal.toList_combine_eq (hclosed a b ha hb) hc, Normal.ofString_combine ha hb,
      Normal.toList_combine_eq ha (hclosed b c hb hc), Normal.ofString_combine hb hc, mul_assoc]
  · intro a b
    have hformed := combineChars_formed a.toList b.toList
    rw [toList_combine]
    refine ⟨hformed.absolute, ?_⟩
    intro hdoubled
    by_contra hneither
    rcases not_or.mp hneither with ⟨ha, hb⟩
    exact hformed.single ha hb hdoubled

theorem combine_monoid_inner :
    normalize "/ a" = "/ a" ∧ normalize "/" = "/" ∧ normalize "/b\t/c" = "/b\t/c" ∧
      normalize (combine "/ a" "/b\t/c") = combine "/ a" "/b\t/c" ∧
      combine (combine "/ a" "/") "/b\t/c" = combine "/ a" (combine "/" "/b\t/c") ∧
      combine "a// " "b" = "/a//b" ∧
      Doubled (combine "a// " "b").toList ∧
        (Doubled (trim "a// ".toList) ∨ Doubled (trim "b".toList)) := by
  have ha : normalize "/ a" = "/ a" := by decide
  have hroot : normalize "/" = "/" := by decide
  have hc : normalize "/b\t/c" = "/b\t/c" := by decide
  have hdoubled : Doubled (combine "a// " "b").toList := by decide
  rcases combine_monoid with ⟨_, hclosed, hassoc, hany⟩
  exact ⟨ha, hroot, hc, hclosed _ _ ha hc, hassoc _ _ _ ha hroot hc, by decide, hdoubled,
    (hany "a// " "b").2 hdoubled⟩

end RoutePath
end EndpointTrace
