import EndpointTrace.Proofs.Text.Characters

/-!
# Matching piece by piece

The matches in a text that is put together from pieces: pieces at which nothing is
recognised are passed over, a match is taken as a whole, and where no match reaches across
a place, the matches behind that place are those of the text from there on.

A word is recognised at the start of a text only as a whole: what is recognised there is
part of the word itself.
-/

namespace EndpointTrace
namespace Text

/-!
## One text at the start of another
-/

theorem append_of_after? {part chars rest left : List Char}
    (hpart : part.all isWordChar = true) (hrest : rest.head?.any isWordChar = false)
    (hafter : after? part (chars ++ rest) = some left) :
    ∃ more, chars = part ++ more ∧ left = more ++ rest := by
  rcases List.append_eq_append_iff.mp (eq_append_of_after? hafter) with
    ⟨more, hmore, hleft⟩ | ⟨more, hmore, hleft⟩
  · cases more with
    | nil =>
        rw [List.append_nil] at hmore
        refine ⟨[], ?_, ?_⟩
        · rw [hmore, List.append_nil]
        · exact hleft.symm
    | cons c tail =>
        have hc : isWordChar c = true := by
          apply List.all_eq_true.mp hpart
          rw [hmore]
          exact List.mem_append_right chars List.mem_cons_self
        rw [hleft, List.cons_append, List.head?_cons, Option.any_some, hc] at hrest
        cases hrest
  · exact ⟨more, hmore, hleft⟩

theorem findSome?_eq_ite {α : Type} {f : List Char → Option α} {wanted : List Char}
    {answer : Option α} {entries : List (List Char)}
    (hf : ∀ entry ∈ entries, f entry = if entry = wanted then answer else none) :
    entries.findSome? f = if wanted ∈ entries then answer else none := by
  induction entries with
  | nil =>
      rfl
  | cons entry rest ih =>
      have hrest := ih fun other hother => hf other (List.mem_cons_of_mem _ hother)
      rw [List.findSome?_cons, hf entry List.mem_cons_self, hrest]
      by_cases hentry : entry = wanted
      · rw [if_pos hentry, if_pos (List.mem_cons.mpr (Or.inl hentry.symm))]
        cases answer with
        | none =>
            exact ite_self none
        | some answer =>
            rfl
      · have hmem : wanted ∈ entry :: rest ↔ wanted ∈ rest := by
          rw [List.mem_cons]
          exact or_iff_right fun heq => hentry heq.symm
        rw [if_neg hentry]
        simp only [hmem]

/-!
## Matches
-/

variable {α : Type} {recognise : List Char → Option (α × List Char)}

theorem matchesAfter_append (piece rest : List Char) :
    matchesAfter recognise piece.length (piece ++ rest) = occurrences recognise rest := by
  induction piece with
  | nil =>
      rfl
  | cons c tail ih =>
      exact ih

theorem occurrences_match {piece rest : List Char} {found : α} (hpiece : piece ≠ [])
    (hmatch : recognise (piece ++ rest) = some (found, rest)) :
    occurrences recognise (piece ++ rest) = (found, rest) :: occurrences recognise rest := by
  cases piece with
  | nil =>
      exact absurd rfl hpiece
  | cons c tail =>
      have hsize : (tail ++ rest).length - rest.length = tail.length := by
        rw [List.length_append, Nat.add_sub_cancel]
      rw [List.cons_append] at hmatch ⊢
      rw [occurrences, matchesAfter, hmatch]
      simp only [hsize, matchesAfter_append]

theorem occurrences_pass {piece : List Char} (rest : List Char)
    (hpiece : ∀ c ∈ piece, ∀ after, recognise (c :: after) = none) :
    occurrences recognise (piece ++ rest) = occurrences recognise rest := by
  induction piece with
  | nil =>
      rfl
  | cons c tail ih =>
      have htail := ih fun d hd => hpiece d (List.mem_cons_of_mem _ hd)
      rw [List.cons_append, occurrences, matchesAfter, hpiece c List.mem_cons_self]
      exact htail

/-- Matches that do not depend on what is put behind a text. -/
theorem occurrences_append {tail : List Char} (hbehind : ∀ c rest, recognise (c :: rest ++ tail) =
      (recognise (c :: rest)).map fun entry => (entry.1, entry.2 ++ tail)) (cs : List Char) :
    occurrences recognise (cs ++ tail) =
      (occurrences recognise cs).map (fun entry => (entry.1, entry.2 ++ tail)) ++
        occurrences recognise tail := by
  have hskip : ∀ skip, skip ≤ cs.length → matchesAfter recognise skip (cs ++ tail) =
      (matchesAfter recognise skip cs).map (fun entry => (entry.1, entry.2 ++ tail)) ++
        occurrences recognise tail := by
    induction cs with
    | nil =>
        intro skip hle
        rw [Nat.le_zero.mp hle]
        rfl
    | cons c rest ih =>
        intro skip hle
        cases skip with
        | succ skip =>
            exact ih skip (Nat.le_of_succ_le_succ hle)
        | zero =>
            rw [List.cons_append, matchesAfter, matchesAfter, ← List.cons_append, hbehind]
            cases recognise (c :: rest) with
            | none =>
                exact ih 0 (Nat.zero_le _)
            | some entry =>
                have hsize : (rest ++ tail).length - (entry.2 ++ tail).length =
                    rest.length - entry.2.length := by
                  rw [List.length_append, List.length_append, Nat.add_sub_add_right]
                simp only [Option.map_some, hsize, List.map_cons, List.cons_append]
                rw [ih _ (Nat.sub_le _ _)]
  exact hskip 0 (Nat.zero_le _)

/-- The matches behind a place that no match reaches across. -/
theorem occurrences_suffix {tail : List Char}
    (hkeep : ∀ c rest found left, recognise (c :: rest) = some (found, left) →
      tail <:+ rest → tail <:+ left) {cs : List Char} (hcs : tail <:+ cs) :
    ∃ earlier, occurrences recognise cs = earlier ++ occurrences recognise tail := by
  -- The rest of a match is skipped before the search goes on, but never into the tail.
  have hskip : ∀ skip, skip ≤ cs.length - tail.length →
      ∃ earlier, matchesAfter recognise skip cs = earlier ++ occurrences recognise tail := by
    induction cs with
    | nil =>
        intro skip _
        rw [List.suffix_nil.mp hcs]
        exact ⟨[], by cases skip <;> rfl⟩
    | cons c rest ih =>
        intro skip hle
        rcases List.suffix_cons_iff.mp hcs with htail | htail
        · have hzero : skip = 0 := by
            rw [htail, Nat.sub_self] at hle
            exact Nat.le_zero.mp hle
          rw [htail, hzero]
          exact ⟨[], rfl⟩
        · have hlength := htail.length_le
          cases skip with
          | succ skip =>
              have hskip : skip ≤ rest.length - tail.length := by
                rw [List.length_cons] at hle
                omega
              exact ih htail skip hskip
          | zero =>
              cases hmatch : recognise (c :: rest) with
              | none =>
                  rw [matchesAfter, hmatch]
                  exact ih htail 0 (Nat.zero_le _)
              | some answer =>
                  rcases answer with ⟨found, left⟩
                  have hleft := (hkeep c rest found left hmatch htail).length_le
                  rcases ih htail (rest.length - left.length)
                    (Nat.sub_le_sub_left hleft rest.length) with ⟨earlier, hearlier⟩
                  refine ⟨(found, left) :: earlier, ?_⟩
                  rw [matchesAfter, hmatch]
                  exact congrArg ((found, left) :: ·) hearlier
  exact hskip 0 (Nat.zero_le _)

theorem occurrences_congr {other : List Char → Option (α × List Char)} {cs : List Char}
    (hsame : ∀ place, place <:+ cs → recognise place = other place) :
    occurrences recognise cs = occurrences other cs := by
  have hskip : ∀ skip, matchesAfter recognise skip cs = matchesAfter other skip cs := by
    induction cs with
    | nil =>
        intro skip
        cases skip <;> rfl
    | cons c rest ih =>
        have hrest := ih fun place hplace => hsame place (hplace.trans (List.suffix_cons c rest))
        intro skip
        cases skip with
        | succ skip =>
            exact hrest skip
        | zero =>
            rw [matchesAfter, matchesAfter, hsame _ List.suffix_rfl]
            cases other (c :: rest) with
            | none =>
                exact hrest 0
            | some entry =>
                exact congrArg (entry :: ·) (hrest _)
  exact hskip 0

/-!
## The first occurrence of a separator
-/

def cut? (separator : List Char) : List Char → Option (List Char × List Char)
  | [] => (after? separator []).map fun rest => ([], rest)
  | c :: cs =>
      match after? separator (c :: cs) with
      | some rest => some ([], rest)
      | none => (cut? separator cs).map fun parts => (c :: parts.1, parts.2)

theorem cut?_append {first : Char} {separator before : List Char}
    (hbefore : first ∉ before) (rest : List Char) :
    cut? (first :: separator) (before ++ (first :: separator ++ rest)) =
      some (before, rest) := by
  induction before with
  | nil =>
      have hfound := after?_append (first :: separator) rest
      rw [List.cons_append] at hfound
      rw [List.nil_append, List.cons_append, cut?, hfound]
  | cons c others ih =>
      rcases not_or.mp (fun hmem => hbefore (List.mem_cons.mpr hmem)) with ⟨hc, hothers⟩
      rw [List.cons_append, cut?, after?, if_neg hc, ih hothers]
      rfl

end Text
end EndpointTrace
