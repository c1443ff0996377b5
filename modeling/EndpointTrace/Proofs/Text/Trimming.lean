import EndpointTrace.Text.Character
import Mathlib.Data.List.DropRight

/-!
# Trimming

What is left of a text when the white space around it is taken away: what is between the
first and the last character that is not white space.
-/

namespace EndpointTrace
namespace Text

theorem head_of_cons {c : Char} (hc : isBlank c = false) (rest : List Char) :
    ∀ first ∈ (c :: rest).head?, isBlank first = false := by
  intro first hfirst
  rw [← Option.mem_some.mp hfirst]
  exact hc

theorem trimStart_of_head {cs : List Char} (hhead : ∀ c ∈ cs.head?, isBlank c = false) :
    trimStart cs = cs := by
  cases cs with
  | nil =>
      rfl
  | cons c rest =>
      rw [trimStart, List.dropWhile_cons_of_neg]
      rw [hhead c rfl]
      exact Bool.false_ne_true

theorem isBlank_of_mem_head?_trimStart (cs : List Char) :
    ∀ c ∈ (trimStart cs).head?, isBlank c = false := by
  intro c hc
  have hnot := List.head?_dropWhile_not isBlank cs
  rw [show (cs.dropWhile isBlank).head? = some c from hc] at hnot
  exact hnot

theorem trimEnd_append_blank {cs gap : List Char} (hgap : gap.all isBlank = true) :
    trimEnd (cs ++ gap) = trimEnd cs := by
  have hback : ∀ c ∈ gap.reverse, isBlank c = true := fun c hc =>
    List.all_eq_true.mp hgap c (List.mem_reverse.mp hc)
  rw [trimEnd, List.reverse_append, List.dropWhile_append_of_pos hback, trimEnd]

theorem trimEnd_concat (cs : List Char) {c : Char} (hc : isBlank c = false) :
    trimEnd (cs ++ [c]) = cs ++ [c] := by
  rw [trimEnd, List.reverse_append, List.reverse_singleton, List.singleton_append,
    List.dropWhile_cons_of_neg (by rw [hc]; exact Bool.false_ne_true), List.reverse_cons,
    List.reverse_reverse]

theorem trim_blank {cs : List Char} (hblank : cs.all isBlank = true) : trim cs = [] := by
  rw [trim, trimStart, List.dropWhile_eq_nil_iff.mpr (List.all_eq_true.mp hblank)]
  rfl

/-- White space in front of a character that is none, and behind another one. -/
theorem trim_framed {before core after : List Char} {last : Char}
    (hbefore : before.all isBlank = true) (hafter : after.all isBlank = true)
    (hhead : ∀ c ∈ (core ++ [last]).head?, isBlank c = false) (hlast : isBlank last = false) :
    trim (before ++ (core ++ [last]) ++ after) = core ++ [last] := by
  have hstart : ∀ c ∈ ((core ++ [last]) ++ after).head?, isBlank c = false := by
    cases core with
    | nil =>
        exact hhead
    | cons first rest =>
        exact hhead
  rw [trim, List.append_assoc, trimStart_append_blank hbefore, trimStart_of_head hstart,
    trimEnd_append_blank hafter, trimEnd_concat core hlast]

theorem trim_cons {c : Char} (hc : isBlank c = false) (rest : List Char) :
    trim (c :: rest) = c :: trimEnd rest := by
  have hstart : trimStart (c :: rest) = c :: rest :=
    trimStart_of_head (head_of_cons hc rest)
  have hall : (rest.reverse ++ [c]).dropWhile isBlank =
      rest.reverse.dropWhile isBlank ++ [c] := by
    induction rest.reverse with
    | nil =>
        simp [hc]
    | cons other others ih =>
        simp only [List.cons_append, List.dropWhile_cons]
        split
        · exact ih
        · rfl
  rw [trim, hstart, trimEnd, List.reverse_cons, hall, List.reverse_append]
  rfl

theorem trimEnd_eq_self_iff {cs : List Char} :
    trimEnd cs = cs ↔ ∀ c ∈ cs.getLast?, isBlank c = false := by
  have hdrop : trimEnd cs = cs.rdropWhile isBlank := rfl
  rw [hdrop, List.rdropWhile_eq_self_iff]
  constructor
  · intro hlast c hc
    rcases List.mem_getLast?_eq_getLast hc with ⟨hsome, rfl⟩
    exact Bool.eq_false_iff.mpr (hlast hsome)
  · intro hlast hsome
    rw [hlast _ (List.getLast_mem_getLast? hsome)]
    exact Bool.false_ne_true

theorem isBlank_of_mem_getLast?_trim (cs : List Char) :
    ∀ c ∈ (trim cs).getLast?, isBlank c = false :=
  trimEnd_eq_self_iff.mp (List.rdropWhile_idempotent isBlank (trimStart cs))

theorem trim_eq_nil_iff {cs : List Char} : trim cs = [] ↔ cs.all isBlank = true := by
  refine ⟨?_, trim_blank⟩
  intro hnil
  have hstart : ∀ c ∈ trimStart cs, isBlank c = true := List.rdropWhile_eq_nil_iff.mp hnil
  rw [List.all_eq_true]
  intro c hc
  rw [← List.takeWhile_append_dropWhile (p := isBlank) (l := cs)] at hc
  rcases List.mem_append.mp hc with hfront | hrest
  · exact List.mem_takeWhile_imp hfront
  · exact hstart c hrest

theorem mem_of_mem_trim {c : Char} {cs : List Char} (hmem : c ∈ trim cs) : c ∈ cs := by
  rw [trim, trimEnd, List.mem_reverse] at hmem
  have hstart := List.mem_reverse.mp ((List.dropWhile_sublist isBlank).subset hmem)
  exact (List.dropWhile_sublist isBlank).subset hstart

end Text
end EndpointTrace
