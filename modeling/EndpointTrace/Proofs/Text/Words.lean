import EndpointTrace.Proofs.Text.Trimming
import Mathlib.Data.List.Basic

/-!
# The words of a text

White space parts a text into words.  That the words on both sides of a blank are found
independently of each other is the one equation from which the others follow: white space
around a text is of no account, and a text has two words if it consists of them with white
space between and around them.
-/

namespace EndpointTrace
namespace Text

def IsWord (cs : List Char) : Prop :=
  cs ≠ [] ∧ ∀ c ∈ cs, isBlank c = false

instance (cs : List Char) : Decidable (IsWord cs) :=
  @instDecidableAnd _ _ inferInstance (List.decidableBAll _ cs)

/-- The text consists of two words with white space between them and perhaps around them. -/
def TwoWords (cs first second : List Char) : Prop :=
  ∃ before between after, cs = before ++ (first ++ (between ++ (second ++ after))) ∧
    before.all isBlank = true ∧ between.all isBlank = true ∧ after.all isBlank = true ∧
      between ≠ [] ∧ IsWord first ∧ IsWord second

theorem TwoWords.isWord_first {cs first second : List Char}
    (htwo : TwoWords cs first second) : IsWord first := by
  rcases htwo with ⟨before, between, after, _, _, _, _, _, hfirst, _⟩
  exact hfirst

/-!
## White space between words
-/

theorem words_append_blank {c : Char} (hc : isBlank c = true) (before after : List Char) :
    words (before ++ c :: after) = words before ++ words after := by
  rw [words, List.splitOnP_append_cons before after hc, List.filter_append]
  rfl

theorem words_cons_blank {c : Char} (hc : isBlank c = true) (cs : List Char) :
    words (c :: cs) = words cs :=
  words_append_blank hc [] cs

theorem words_gap_append {gap : List Char} (hgap : gap.all isBlank = true)
    (cs : List Char) : words (gap ++ cs) = words cs := by
  induction gap with
  | nil =>
      rfl
  | cons c rest ih =>
      rw [List.all_cons, Bool.and_eq_true] at hgap
      rw [List.cons_append, words_cons_blank hgap.1, ih hgap.2]

theorem words_gap {gap : List Char} (hgap : gap.all isBlank = true) : words gap = [] := by
  have hnone := words_gap_append hgap []
  rw [List.append_nil] at hnone
  exact hnone

theorem words_append_gap (cs : List Char) {gap : List Char} (hgap : gap.all isBlank = true) :
    words (cs ++ gap) = words cs := by
  cases gap with
  | nil =>
      rw [List.append_nil]
  | cons c rest =>
      rw [List.all_cons, Bool.and_eq_true] at hgap
      rw [words_append_blank hgap.1, words_gap hgap.2, List.append_nil]

theorem IsWord.words_eq {word : List Char} (hword : IsWord word) : words word = [word] := by
  rw [words, List.splitOnP_eq_singleton hword.2]
  simp [hword.1]

theorem IsWord.words_append {word rest : List Char} (hword : IsWord word)
    (hrest : ∀ c ∈ rest.head?, isBlank c = true) :
    words (word ++ rest) = word :: words rest := by
  cases rest with
  | nil =>
      rw [List.append_nil, hword.words_eq]
      rfl
  | cons c rest =>
      have hc := hrest c rfl
      rw [words_append_blank hc, words_cons_blank hc, hword.words_eq]
      rfl

/-!
## The layout of words
-/

theorem blank_or_word (cs : List Char) :
    cs.all isBlank = true ∨ ∃ gap word rest, cs = gap ++ (word ++ rest) ∧
      gap.all isBlank = true ∧ IsWord word ∧ ∀ c ∈ rest.head?, isBlank c = true := by
  have hsplit : cs.takeWhile isBlank ++ cs.dropWhile isBlank = cs :=
    List.takeWhile_append_dropWhile
  have hgap : (cs.takeWhile isBlank).all isBlank = true := List.all_takeWhile
  cases hbody : cs.dropWhile isBlank with
  | nil =>
      left
      rw [hbody, List.append_nil] at hsplit
      rw [← hsplit]
      exact hgap
  | cons first more =>
      right
      have hfirst : isBlank first = false := by
        have hhead := List.head?_dropWhile_not isBlank cs
        rw [hbody] at hhead
        simpa using hhead
      have hparts : more.takeWhile (!isBlank ·) ++ more.dropWhile (!isBlank ·) = more :=
        List.takeWhile_append_dropWhile
      refine ⟨cs.takeWhile isBlank, first :: more.takeWhile (!isBlank ·),
        more.dropWhile (!isBlank ·), ?_, hgap, ⟨List.cons_ne_nil _ _, ?_⟩, ?_⟩
      · rw [List.cons_append, hparts, ← hbody, hsplit]
      · intro c hc
        rcases List.mem_cons.mp hc with rfl | hlater
        · exact hfirst
        · simpa using List.all_eq_true.mp List.all_takeWhile c hlater
      · intro c hc
        have hhead := List.head?_dropWhile_not (!isBlank ·) more
        rw [Option.mem_def.mp hc] at hhead
        simpa using hhead

theorem words_eq_nil_iff {cs : List Char} : words cs = [] ↔ cs.all isBlank = true := by
  constructor
  · intro hnone
    rcases blank_or_word cs with hblank | ⟨gap, word, rest, rfl, hgap, hword, hrest⟩
    · exact hblank
    · rw [words_gap_append hgap, hword.words_append hrest] at hnone
      cases hnone
  · exact words_gap

theorem words_eq_cons_iff {cs first : List Char} {others : List (List Char)} :
    words cs = first :: others ↔ ∃ gap rest, cs = gap ++ (first ++ rest) ∧
      gap.all isBlank = true ∧ IsWord first ∧ (∀ c ∈ rest.head?, isBlank c = true) ∧
        words rest = others := by
  constructor
  · intro hwords
    rcases blank_or_word cs with hblank | ⟨gap, word, rest, rfl, hgap, hword, hrest⟩
    · rw [words_gap hblank] at hwords
      cases hwords
    · rw [words_gap_append hgap, hword.words_append hrest] at hwords
      cases hwords
      exact ⟨gap, rest, rfl, hgap, hword, hrest, rfl⟩
  · rintro ⟨gap, rest, rfl, hgap, hword, hrest, rfl⟩
    rw [words_gap_append hgap, hword.words_append hrest]

theorem words_eq_pair_iff {cs first second : List Char} :
    words cs = [first, second] ↔ TwoWords cs first second := by
  constructor
  · intro hwords
    rcases words_eq_cons_iff.mp hwords with ⟨before, rest, rfl, hbefore, hfirst, hrest, hmore⟩
    rcases words_eq_cons_iff.mp hmore with ⟨between, after, rfl, hbetween, hsecond, _, hnone⟩
    refine ⟨before, between, after, rfl, hbefore, hbetween, words_eq_nil_iff.mp hnone, ?_,
      hfirst, hsecond⟩
    -- Without white space between them the two words would be one.
    rintro rfl
    cases second with
    | nil =>
        exact hsecond.1 rfl
    | cons c more =>
        have hblank := hrest c rfl
        rw [hsecond.2 c List.mem_cons_self] at hblank
        cases hblank
  · rintro ⟨before, between, after, rfl, hbefore, hbetween, hafter, hne, hfirst, hsecond⟩
    have hhead : ∀ c ∈ (between ++ (second ++ after)).head?, isBlank c = true := by
      cases between with
      | nil =>
          exact absurd rfl hne
      | cons c rest =>
          intro d hd
          rw [← Option.mem_some.mp hd]
          exact (Bool.and_eq_true_iff.mp hbetween).1
    rw [words_gap_append hbefore, hfirst.words_append hhead, words_gap_append hbetween,
      words_append_gap second hafter, hsecond.words_eq]

/-!
## Trimming
-/

theorem exists_trimmed (cs : List Char) :
    ∃ before after, cs = before ++ (trim cs ++ after) ∧ before.all isBlank = true ∧
      after.all isBlank = true := by
  have hback : trimStart cs =
      trim cs ++ ((trimStart cs).reverse.takeWhile isBlank).reverse := by
    rw [trim, trimEnd, ← List.reverse_append, List.takeWhile_append_dropWhile,
      List.reverse_reverse]
  refine ⟨cs.takeWhile isBlank, ((trimStart cs).reverse.takeWhile isBlank).reverse, ?_,
    List.all_takeWhile, ?_⟩
  · rw [← hback, trimStart, List.takeWhile_append_dropWhile]
  · rw [List.all_reverse]
    exact List.all_takeWhile

theorem words_trim (cs : List Char) : words (trim cs) = words cs := by
  rcases exists_trimmed cs with ⟨before, after, hcs, hbefore, hafter⟩
  rw [hcs, words_gap_append hbefore, words_append_gap _ hafter, ← hcs]

theorem IsWord.trim_eq {word : List Char} (hword : IsWord word) : trim word = word := by
  have hlast := hword.2 _ (List.getLast_mem hword.1)
  have hhead : ∀ c ∈ (word.dropLast ++ [word.getLast hword.1]).head?, isBlank c = false := by
    rw [List.dropLast_append_getLast]
    exact fun c hc => hword.2 c (List.mem_of_head? hc)
  have hframed := @trim_framed [] word.dropLast [] _ rfl rfl hhead hlast
  rwa [List.nil_append, List.append_nil, List.dropLast_append_getLast] at hframed

end Text
end EndpointTrace
