import EndpointTrace.Proofs.Text.Matching
import EndpointTrace.Proofs.Text.Trimming

/-!
# Seams

A seam is the white space between a text and what stands behind it.  A search that does not
look at white space finds the same before and behind a seam, however long the seam is, and
what it leaves begins either before the seam or behind it.
-/

namespace EndpointTrace
namespace Text

theorem ne_of_isBlank {c d : Char} (hc : isBlank c = true) (hd : isBlank d = false) :
    c ≠ d := by
  rintro rfl
  rw [hd] at hc
  cases hc

/-- White space in front of a text.  There is some, unless there is no text. -/
structure Seam (back gap : List Char) : Prop where
  blank : gap.all isBlank = true
  apart : gap = [] → back = []

namespace Seam

theorem space (back : List Char) : Seam back [' '] where
  blank := by decide
  apart := by
    intro hnil
    cases hnil

variable {back gap : List Char} (hseam : Seam back gap)

include hseam

theorem isBlank_of_mem {c : Char} (hc : c ∈ gap) : isBlank c = true :=
  List.all_eq_true.mp hseam.blank c hc

theorem of_back {other : List Char} (hother : back = [] → other = []) : Seam other gap :=
  ⟨hseam.blank, fun hnil => hother (hseam.apart hnil)⟩

theorem head?_append {p : Char → Bool} (hp : ∀ c, isBlank c = true → p c = false) :
    (gap ++ back).head?.any p = false := by
  cases hgap : gap with
  | nil =>
      rw [hseam.apart hgap]
      rfl
  | cons c rest =>
      have hc : c ∈ gap := by
        rw [hgap]
        exact List.mem_cons_self
      exact hp c (hseam.isBlank_of_mem hc)

theorem not_namePart : (gap ++ back).head?.any AnnotationName.isNamePart = false :=
  hseam.head?_append fun _ => isNamePart_of_isBlank

theorem not_word : (gap ++ back).head?.any isWordChar = false :=
  hseam.head?_append fun _ hc => isWordChar_of_not_namePart (isNamePart_of_isBlank hc)

theorem trimStart_append : trimStart (gap ++ back) = trimStart back :=
  trimStart_append_blank hseam.blank

end Seam

/-- Either there is nothing but white space, or the first other character stays the first
one, whatever is put behind. -/
theorem trimStart_cases (cs : List Char) :
    cs.all isBlank = true ∨ ∃ c rest, isBlank c = false ∧ c :: rest <:+ cs ∧
      ∀ behind, trimStart (cs ++ behind) = c :: (rest ++ behind) := by
  induction cs with
  | nil =>
      exact Or.inl rfl
  | cons d others ih =>
      cases hd : isBlank d with
      | false =>
          refine Or.inr ⟨d, others, hd, List.suffix_rfl, ?_⟩
          intro behind
          exact trimStart_of_head (head_of_cons hd _)
      | true =>
          rcases ih with hblank | ⟨c, rest, hc, hsuffix, htrim⟩
          · left
            rw [List.all_cons, hd, hblank]
            rfl
          · refine Or.inr ⟨c, rest, hc, hsuffix.trans (List.suffix_cons d others), ?_⟩
            intro behind
            rw [← htrim behind]
            have hblank : [d].all isBlank = true := by
              rw [List.all_cons, hd]
              rfl
            exact trimStart_append_blank hblank

theorem trimStart_suffix (cs : List Char) : trimStart cs <:+ cs :=
  List.dropWhile_suffix isBlank

theorem after?_append_of_break {part rest : List Char} (hpart : part.all isWordChar = true)
    (hrest : rest.head?.any isWordChar = false) (cs : List Char) :
    after? part (cs ++ rest) = (after? part cs).map (· ++ rest) := by
  induction part generalizing cs with
  | nil =>
      cases cs <;> cases rest <;> rfl
  | cons p ps ih =>
      rw [List.all_cons, Bool.and_eq_true] at hpart
      cases cs with
      | nil =>
          cases rest with
          | nil =>
              rfl
          | cons c tail =>
              have hne : p ≠ c := by
                rintro rfl
                rw [List.head?_cons, Option.any_some, hpart.1] at hrest
                cases hrest
              exact if_neg hne
      | cons c tail =>
          rw [List.cons_append, after?, after?, ih hpart.2]
          split <;> rfl

/-!
## Readings
-/

/-- The answer does not depend on the seam. -/
def Fixed {α : Type} (back : List Char) (answer : List Char → α) : Prop :=
  ∃ value, ∀ gap, Seam back gap → answer gap = value

/-- A part of a text with a seam: either it ends before the seam, or the seam belongs to it
with a part of what stands behind. -/
inductive Cut (front back : List Char) (answer : List Char → List Char) : Prop where
  | before (piece : List Char) (hpiece : ∀ gap, Seam back gap → answer gap = piece)
  | across (left : List Char) (hleft : back = [] → left = [])
      (hacross : ∀ gap, Seam back gap → answer gap = front ++ (gap ++ left))

section Readings

variable {α : Type} {front back : List Char}

theorem Fixed.const (value : α) : Fixed back fun _ => value :=
  ⟨value, fun _ _ => rfl⟩

theorem Fixed.congr {answer other : List Char → α} (hfixed : Fixed back answer)
    (hsame : ∀ gap, Seam back gap → other gap = answer gap) : Fixed back other := by
  rcases hfixed with ⟨value, hvalue⟩
  exact ⟨value, fun gap hseam => (hsame gap hseam).trans (hvalue gap hseam)⟩

theorem Fixed.map {β : Type} (read : α → β) {answer : List Char → α}
    (hfixed : Fixed back answer) : Fixed back fun gap => read (answer gap) := by
  rcases hfixed with ⟨value, hvalue⟩
  exact ⟨read value, fun gap hseam => congrArg read (hvalue gap hseam)⟩

theorem Fixed.of_back {other : List Char} {answer : List Char → α} (hfixed : Fixed other answer)
    (hother : back = [] → other = []) : Fixed back answer := by
  rcases hfixed with ⟨value, hvalue⟩
  exact ⟨value, fun gap hseam => hvalue gap (hseam.of_back hother)⟩

theorem Cut.fixed {answer : List Char → List Char} (read : List Char → α)
    (hcut : Cut front back answer)
    (hread : ∀ left, Fixed left fun gap => read (front ++ (gap ++ left))) :
    Fixed back fun gap => read (answer gap) := by
  cases hcut with
  | before piece hpiece =>
      apply (Fixed.const (read piece)).congr
      intro gap hseam
      rw [hpiece gap hseam]
  | across left hleft hacross =>
      apply ((hread left).of_back hleft).congr
      intro gap hseam
      rw [hacross gap hseam]

theorem Fixed.trimStart (read : List Char → α)
    (hread : ∀ c rest, isBlank c = false → Text.trimStart front = c :: rest →
      Fixed back fun gap => read (c :: (rest ++ (gap ++ back)))) :
    Fixed back fun gap => read (Text.trimStart (front ++ (gap ++ back))) := by
  rcases trimStart_cases front with hblank | ⟨c, rest, hc, _, htrim⟩
  · apply (Fixed.const (read (Text.trimStart back))).congr
    intro gap hseam
    rw [trimStart_append_blank hblank, hseam.trimStart_append]
  · have hfront := htrim []
    rw [List.append_nil, List.append_nil] at hfront
    apply (hread c rest hc hfront).congr
    intro gap _
    rw [htrim]

theorem takeWhile_cut {p : Char → Bool} (hp : ∀ c, isBlank c = true → p c = true)
    (front back : List Char) : Cut front back fun gap => (front ++ (gap ++ back)).takeWhile p := by
  by_cases hall : ∀ c ∈ front, p c = true
  · apply Cut.across (back.takeWhile p)
    · rintro rfl
      rfl
    · intro gap hseam
      have hgap : ∀ c ∈ gap, p c = true := fun c hc => hp c (hseam.isBlank_of_mem hc)
      rw [List.takeWhile_append_of_pos hall, List.takeWhile_append_of_pos hgap]
  · apply Cut.before (front.takeWhile p)
    intro gap _
    have hless : (front.takeWhile p).length ≠ front.length := by
      intro hlength
      exact hall (List.takeWhile_eq_self_iff.mp
        (List.IsPrefix.eq_of_length (List.takeWhile_prefix p) hlength))
    rw [List.takeWhile_append, if_neg hless]

end Readings

/-!
## Searches
-/

/-- What a search answers, whatever the seam is: nothing, or the same find with the rest of
the text from a place before the seam or behind it. -/
inductive Steady {α : Type} (back : List Char)
    (answer : List Char → Option (α × List Char)) : Prop where
  | nothing (hnone : ∀ gap, Seam back gap → answer gap = none)
  | before (found : α) (left : List Char)
      (hfound : ∀ gap, Seam back gap → answer gap = some (found, left ++ (gap ++ back)))
  | behind (found : α) (left : List Char) (hleft : left <:+ back)
      (hfound : ∀ gap, Seam back gap → answer gap = some (found, left))

namespace Steady

variable {α : Type} {back : List Char} {answer other : List Char → Option (α × List Char)}

theorem congr (hsteady : Steady back answer)
    (hsame : ∀ gap, Seam back gap → other gap = answer gap) : Steady back other := by
  cases hsteady with
  | nothing hnone =>
      exact .nothing fun gap hseam => (hsame gap hseam).trans (hnone gap hseam)
  | before found left hfound =>
      exact .before found left fun gap hseam => (hsame gap hseam).trans (hfound gap hseam)
  | behind found left hleft hfound =>
      exact .behind found left hleft fun gap hseam =>
        (hsame gap hseam).trans (hfound gap hseam)

theorem or (hfirst : Steady back answer) (hsecond : Steady back other) :
    Steady back fun gap => (answer gap).or (other gap) := by
  cases hfirst with
  | nothing hnone =>
      apply hsecond.congr
      intro gap hseam
      rw [hnone gap hseam, Option.none_or]
  | before found left hfound =>
      apply Steady.before found left
      intro gap hseam
      rw [hfound gap hseam, Option.some_or]
  | behind found left hleft hfound =>
      apply Steady.behind found left hleft
      intro gap hseam
      rw [hfound gap hseam, Option.some_or]

theorem ofFront (found : Option (α × List Char)) :
    Steady back fun gap => found.map fun entry => (entry.1, entry.2 ++ (gap ++ back)) := by
  cases found with
  | none =>
      exact .nothing fun _ _ => rfl
  | some entry =>
      exact .before entry.1 entry.2 fun _ _ => rfl

theorem ofBack {found : Option (α × List Char)}
    (hfound : ∀ entry ∈ found, entry.2 <:+ back) : Steady back fun _ => found := by
  cases found with
  | none =>
      exact .nothing fun _ _ => rfl
  | some entry =>
      exact .behind entry.1 entry.2 (hfound entry rfl) fun _ _ => rfl

end Steady

/-!
## Matches
-/

section Matches

variable {α : Type} {recognise : List Char → Option (α × List Char)}

theorem matchesAfter_suffix {left rest : List Char} (hleft : left <:+ rest) :
    matchesAfter recognise (rest.length - left.length) rest = occurrences recognise left := by
  rcases hleft with ⟨piece, rfl⟩
  rw [List.length_append, Nat.add_sub_cancel]
  exact matchesAfter_append piece left

theorem occurrences_of_none {c : Char} {rest : List Char} (hnone : recognise (c :: rest) = none) :
    occurrences recognise (c :: rest) = occurrences recognise rest := by
  rw [occurrences, matchesAfter, hnone]
  rfl

theorem exists_start_of_mem_occurrences {cs : List Char} {entry : α × List Char}
    (hentry : entry ∈ occurrences recognise cs) :
    ∃ start, start <:+ cs ∧ recognise start = some entry := by
  have hskip : ∀ (cs : List Char) (skip : Nat), entry ∈ matchesAfter recognise skip cs →
      ∃ start, start <:+ cs ∧ recognise start = some entry := by
    intro cs
    induction cs with
    | nil =>
        intro skip hmem
        cases skip <;> cases hmem
    | cons c rest ih =>
        have hlater : ∀ skip, entry ∈ matchesAfter recognise skip rest →
            ∃ start, start <:+ c :: rest ∧ recognise start = some entry := by
          intro skip hmem
          rcases ih skip hmem with ⟨start, hstart, hfound⟩
          exact ⟨start, hstart.trans (List.suffix_cons c rest), hfound⟩
        intro skip hmem
        cases skip with
        | succ skip =>
            exact hlater skip hmem
        | zero =>
            rw [matchesAfter] at hmem
            split at hmem
            · rename_i found left hfound
              rcases List.mem_cons.mp hmem with rfl | hrest
              · exact ⟨c :: rest, List.suffix_rfl, hfound⟩
              · exact hlater _ hrest
            · exact hlater 0 hmem
  exact hskip cs 0 hentry

variable (hconsume : ∀ cs found left, recognise cs = some (found, left) → left <:+ cs.tail)

include hconsume

theorem suffix_of_mem_occurrences {cs : List Char} {entry : α × List Char}
    (hentry : entry ∈ occurrences recognise cs) : entry.2 <:+ cs := by
  rcases exists_start_of_mem_occurrences hentry with ⟨start, hstart, hfound⟩
  exact ((hconsume _ _ _ hfound).trans (List.tail_suffix start)).trans hstart

theorem occurrences_of_some {c : Char} {rest : List Char} {found : α} {left : List Char}
    (hfound : recognise (c :: rest) = some (found, left)) :
    occurrences recognise (c :: rest) = (found, left) :: occurrences recognise left := by
  have hleft : left <:+ rest := hconsume _ _ _ hfound
  rw [occurrences, matchesAfter, hfound]
  exact congrArg ((found, left) :: ·) (matchesAfter_suffix hleft)

/-- The matches in a text with a seam: those that end before the seam, each with the rest of
the text, and those that end behind it. -/
theorem occurrences_seam (hblank : ∀ c rest, isBlank c = true → recognise (c :: rest) = none)
    {back : List Char} (front : List Char)
    (hsteady : ∀ part, part <:+ front →
      Steady back fun gap => recognise (part ++ (gap ++ back))) :
    ∃ early late : List (α × List Char), (∀ entry ∈ late, entry.2 <:+ back) ∧
      ∀ gap, Seam back gap → occurrences recognise (front ++ (gap ++ back)) =
        early.map (fun entry => (entry.1, entry.2 ++ (gap ++ back))) ++ late := by
  -- A match may take any part of the text, so the induction is on its length.
  induction hsize : front.length using Nat.strongRecOn generalizing front with
  | ind size ih =>
      cases front with
      | nil =>
          refine ⟨[], occurrences recognise back,
            fun entry hentry => suffix_of_mem_occurrences hconsume hentry, ?_⟩
          intro gap hseam
          have hpass : ∀ c ∈ gap, ∀ after, recognise (c :: after) = none :=
            fun c hc after => hblank c after (hseam.isBlank_of_mem hc)
          exact occurrences_pass back hpass
      | cons c rest =>
          have hbelow : ∀ part, part <:+ rest →
              ∃ early late : List (α × List Char), (∀ entry ∈ late, entry.2 <:+ back) ∧
                ∀ gap, Seam back gap → occurrences recognise (part ++ (gap ++ back)) =
                  early.map (fun entry => (entry.1, entry.2 ++ (gap ++ back))) ++ late := by
            intro part hpart
            have hless : part.length < size := by
              have hle := hpart.length_le
              rw [List.length_cons] at hsize
              omega
            apply ih part.length hless part _ rfl
            intro inner hinner
            exact hsteady inner ((hinner.trans hpart).trans (List.suffix_cons c rest))
          cases hsteady (c :: rest) List.suffix_rfl with
          | nothing hnone =>
              rcases hbelow rest List.suffix_rfl with ⟨early, late, hlate, hmatches⟩
              refine ⟨early, late, hlate, ?_⟩
              intro gap hseam
              rw [← hmatches gap hseam]
              exact occurrences_of_none (hnone gap hseam)
          | before found left hfound =>
              have hleft : left <:+ rest := by
                have hall : left ++ ([' '] ++ back) <:+ rest ++ ([' '] ++ back) :=
                  hconsume _ _ _ (hfound [' '] (Seam.space back))
                exact ((List.suffix_append_inj_of_length_eq rfl).mp hall).1
              rcases hbelow left hleft with ⟨early, late, hlate, hmatches⟩
              refine ⟨(found, left) :: early, late, hlate, ?_⟩
              intro gap hseam
              have hfirst := occurrences_of_some hconsume (hfound gap hseam)
              rw [hmatches gap hseam] at hfirst
              exact hfirst
          | behind found left hleft hfound =>
              refine ⟨[], (found, left) :: occurrences recognise left, ?_, ?_⟩
              · intro entry hentry
                rcases List.mem_cons.mp hentry with rfl | hlater
                · exact hleft
                · exact (suffix_of_mem_occurrences hconsume hlater).trans hleft
              · intro gap hseam
                exact occurrences_of_some hconsume (hfound gap hseam)

end Matches

end Text
end EndpointTrace
