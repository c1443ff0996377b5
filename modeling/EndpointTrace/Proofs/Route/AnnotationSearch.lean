import EndpointTrace.Proofs.Route.KeySearch

/-!
# Searching for annotations

Nothing that is recognised as an annotation reaches across a second at sign, so whatever
stands before a written annotation does not keep it from being found.  Its name is found
behind any qualifier, and what follows the name holds no at sign that is live.
-/

namespace EndpointTrace
namespace Written

open AnnotationName

/-!
## No annotation reaches across an at sign
-/

section AtSign

variable {tail : List Char}

theorem suffix_of_cons {c : Char} {cs : List Char} (hc : c ≠ '@')
    (hcs : '@' :: tail <:+ c :: cs) : '@' :: tail <:+ cs := by
  rcases List.suffix_cons_iff.mp hcs with heq | hsuffix
  · exact absurd (List.cons.inj heq).1.symm hc
  · exact hsuffix

theorem suffix_of_append {part left : List Char} (hpart : '@' ∉ part)
    (hcs : '@' :: tail <:+ part ++ left) : '@' :: tail <:+ left := by
  induction part with
  | nil =>
      exact hcs
  | cons c rest ih =>
      rw [List.mem_cons, not_or] at hpart
      exact ih hpart.2 (suffix_of_cons (Ne.symm hpart.1) hcs)

theorem suffix_dropWhile {p : Char → Bool} (hp : p '@' = false) {cs : List Char}
    (hcs : '@' :: tail <:+ cs) : '@' :: tail <:+ cs.dropWhile p := by
  induction cs with
  | nil =>
      exact hcs
  | cons c rest ih =>
      rw [List.dropWhile_cons]
      split
      · rename_i hc
        apply ih
        apply suffix_of_cons _ hcs
        rintro rfl
        rw [hp] at hc
        cases hc
      · exact hcs

theorem suffix_afterSegment? {cs left : List Char} (hcs : '@' :: tail <:+ cs)
    (hfound : afterSegment? cs = some left) : '@' :: tail <:+ left := by
  unfold afterSegment? at hfound
  split at hfound
  · cases hfound
  · rename_i c rest
    split at hfound
    · rename_i hstart
      have hc : c ≠ '@' := by
        rintro rfl
        cases hstart
      have hrest := suffix_of_cons hc hcs
      have hblank : '@' :: tail <:+ Text.trimStart (rest.dropWhile isNamePart) :=
        suffix_dropWhile rfl (suffix_dropWhile rfl hrest)
      split at hfound
      · rename_i behind hdot
        cases hfound
        rw [hdot] at hblank
        exact suffix_of_cons (by decide) hblank
      · cases hfound
    · cases hfound

theorem suffix_blankEnds {cs rest : List Char} (hcs : '@' :: tail <:+ cs)
    (hrest : rest ∈ blankEnds cs) : '@' :: tail <:+ rest := by
  induction cs with
  | nil =>
      cases List.suffix_nil.mp hcs
  | cons c others ih =>
      rw [blankEnds] at hrest
      split at hrest
      · rename_i hblank
        rcases List.mem_append.mp hrest with hrest | hrest
        · apply ih _ hrest
          apply suffix_of_cons _ hcs
          rintro rfl
          cases hblank
        · rw [List.mem_singleton.mp hrest]
          exact hcs
      · rw [List.mem_singleton.mp hrest]
        exact hcs

-- The induction follows the segments; none of them holds an at sign.
theorem suffix_starts {cs start : List Char} (hcs : '@' :: tail <:+ cs)
    (hstart : start ∈ starts cs) : '@' :: tail <:+ start := by
  fun_induction starts cs with
  | case1 cs hnone =>
      rw [List.mem_singleton.mp hstart]
      exact hcs
  | case2 cs left hsome ih =>
      have hleft := suffix_afterSegment? hcs hsome
      rcases List.mem_append.mp hstart with hstart | hstart
      · rcases List.mem_append.mp hstart with hstart | hstart
        · exact ih (suffix_dropWhile rfl hleft) hstart
        · exact suffix_blankEnds hleft (List.mem_of_mem_drop hstart)
      · rw [List.mem_singleton.mp hstart]
        exact hcs

theorem suffix_startingAt? {names : List (List Char)} (hnames : ∀ name ∈ names, '@' ∉ name)
    {cs name left : List Char} (hcs : '@' :: tail <:+ cs)
    (hfound : startingAt? names cs = some (name, left)) : '@' :: tail <:+ left := by
  rcases List.exists_of_findSome?_eq_some hfound with ⟨wanted, hwanted, hmatch⟩
  split at hmatch
  · rename_i rest hafter
    split at hmatch
    · cases hmatch
      rw [Text.eq_append_of_after? hafter] at hcs
      exact suffix_of_append (hnames name hwanted) hcs
    · cases hmatch
  · cases hmatch

theorem suffix_afterAtSign? {names : List (List Char)} (hnames : ∀ name ∈ names, '@' ∉ name)
    (c : Char) (rest : List Char) (found left : List Char)
    (hfound : afterAtSign? names (c :: rest) = some (found, left))
    (hrest : '@' :: tail <:+ rest) : '@' :: tail <:+ left := by
  unfold afterAtSign? at hfound
  split at hfound
  · rename_i behind heq
    rw [← (List.cons.inj heq).2] at hfound
    rcases List.exists_of_findSome?_eq_some hfound with ⟨start, hstart, hmatch⟩
    exact suffix_startingAt? hnames (suffix_starts hrest hstart) hmatch
  · cases hfound

end AtSign

theorem afterAtSign?_of_ne {names : List (List Char)} {c : Char} (hc : c ≠ '@')
    (rest : List Char) : afterAtSign? names (c :: rest) = none := by
  unfold afterAtSign?
  split
  · rename_i heq
    exact absurd (List.cons.inj heq).1 hc
  · rfl

/-- An annotation is the last one of a text, whatever precedes it, if there is none behind
it. -/
theorem last?_of_match {names : List (List Char)} (hnames : ∀ name ∈ names, '@' ∉ name)
    {name head rest : List Char}
    (hmatch : afterAtSign? names ('@' :: head ++ rest) = some (name, rest))
    (hrest : all names rest = []) (before : List Char) :
    last? names (before ++ ('@' :: head ++ rest)) =
      some (name, Text.byteSize (before ++ '@' :: head)) := by
  have hsuffix : '@' :: (head ++ rest) <:+ before ++ ('@' :: head ++ rest) :=
    List.suffix_append before _
  rcases Text.occurrences_suffix (suffix_afterAtSign? hnames) hsuffix with
    ⟨earlier, hearlier⟩
  have hall : all names (before ++ ('@' :: head ++ rest)) = earlier ++ [(name, rest)] := by
    have hfirst := Text.occurrences_match (List.cons_ne_nil '@' head) hmatch
    rw [all] at hrest
    rw [hrest] at hfirst
    rw [all, hearlier]
    exact congrArg (earlier ++ ·) hfirst
  have hsize : Text.byteSize (before ++ ('@' :: head ++ rest)) - Text.byteSize rest =
      Text.byteSize (before ++ '@' :: head) := by
    rw [← List.append_assoc, Text.byteSize_append, Nat.add_sub_cancel]
  rw [last?, hall, List.getLast?_concat]
  exact congrArg (fun size => some (name, size)) hsize

/-!
## Qualified names
-/

namespace Segment

def text (segment : Segment) : List Char :=
  segment.first :: (segment.rest ++ (segment.before.spaces ++ '.' :: segment.after.spaces))

theorem live_labelled (segment : Segment) :
    LexicalView.Labelled.live segment.labelled = segment.text := by
  rw [labelled, LexicalView.Labelled.live_append, LexicalView.Labelled.live_append,
    LexicalView.Labelled.live_append, LexicalView.Labelled.live_ofCode,
    LexicalView.Labelled.live_ofCode, Gap.live_labelled, Gap.live_labelled, text]
  simp only [List.append_assoc, List.cons_append, List.nil_append]

theorem sound (segment : Segment) : LexicalView.Labelled.Sound segment.labelled := by
  have hpart : ∀ c ∈ segment.first :: segment.rest, isNamePart c = true := by
    intro c hc
    rcases List.mem_cons.mp hc with rfl | hc
    · exact Text.isNamePart_of_isNameStart segment.initial
    · exact List.all_eq_true.mp segment.parts c hc
  have hname : LexicalView.Labelled.Sound (.ofCode (segment.first :: segment.rest)) :=
    LexicalView.Labelled.sound_ofCode
      (List.all_eq_true.mpr fun c hc => isPlain_of_isNamePart (hpart c hc))
  have hdot : LexicalView.Labelled.Sound (.ofCode ['.']) :=
    LexicalView.Labelled.sound_ofCode rfl
  exact ((hname.append segment.before.sound).append hdot).append segment.after.sound

end Segment

theorem dropWhile_name {chars rest : List Char} (hchars : chars.all isNamePart = true)
    (hrest : Breaks rest) : (chars ++ rest).dropWhile isNamePart = rest := by
  rw [List.dropWhile_append_of_pos (List.all_eq_true.mp hchars)]
  cases rest with
  | nil =>
      rfl
  | cons c tail =>
      apply List.dropWhile_cons_of_neg
      have hc : isNamePart c = false := hrest
      rw [hc]
      exact Bool.false_ne_true

theorem afterSegment?_segment (segment : Segment) (rest : List Char) :
    afterSegment? (segment.text ++ rest) = some (segment.after.spaces ++ rest) := by
  have hbreaks : Breaks (segment.before.spaces ++ '.' :: (segment.after.spaces ++ rest)) :=
    breaks_spaces segment.before rfl
  have htext : segment.text ++ rest = segment.first ::
      (segment.rest ++ (segment.before.spaces ++ '.' :: (segment.after.spaces ++ rest))) := by
    rw [Segment.text]
    simp only [List.append_assoc, List.cons_append]
  rw [htext, afterSegment?, if_pos segment.initial, dropWhile_name segment.parts hbreaks,
    Gap.trimStart_spaces]
  rfl

theorem afterSegment?_name (identifier : Identifier) (gap : Gap) (rest : List Char) :
    afterSegment? (identifier.chars ++ (gap.spaces ++ '(' :: rest)) = none := by
  have hbreaks : Breaks (gap.spaces ++ '(' :: rest) := breaks_spaces gap rfl
  have hparts := identifier.parts
  rcases identifier.exists_cons with ⟨c, tail, hchars, _⟩
  rw [hchars, List.all_cons, Bool.and_eq_true] at hparts
  rw [hchars, List.cons_append, afterSegment?, dropWhile_name hparts.2 hbreaks,
    Gap.trimStart_spaces]
  exact ite_self none

theorem trimStart_qualified (qualifier : List Segment) (identifier : Identifier)
    (rest : List Char) :
    Text.trimStart (qualifier.flatMap Segment.text ++ (identifier.chars ++ rest)) =
      qualifier.flatMap Segment.text ++ (identifier.chars ++ rest) := by
  cases qualifier with
  | nil =>
      exact identifier.trimStart_chars rest
  | cons segment more =>
      apply List.dropWhile_cons_of_neg
      rw [Text.isBlank_of_isNamePart (Text.isNamePart_of_isNameStart segment.initial)]
      exact Bool.false_ne_true

theorem starts_qualified {identifier : Identifier} {rest : List Char}
    (hnone : afterSegment? (identifier.chars ++ rest) = none) (qualifier : List Segment) :
    ∃ others, starts (qualifier.flatMap Segment.text ++ (identifier.chars ++ rest)) =
      (identifier.chars ++ rest) :: others := by
  induction qualifier with
  | nil =>
      refine ⟨[], ?_⟩
      unfold starts
      split
      · rfl
      · rename_i left heq
        rw [List.flatMap_nil, List.nil_append, hnone] at heq
        cases heq
  | cons segment more ih =>
      rcases ih with ⟨others, hothers⟩
      have hfound : afterSegment? ((segment :: more).flatMap Segment.text ++
          (identifier.chars ++ rest)) = some (segment.after.spaces ++
            (more.flatMap Segment.text ++ (identifier.chars ++ rest))) := by
        rw [List.flatMap_cons, List.append_assoc, afterSegment?_segment]
      rw [starts]
      split
      · rename_i heq
        rw [hfound] at heq
        cases heq
      · rename_i left heq
        rw [hfound] at heq
        cases heq
        rw [Gap.trimStart_spaces, trimStart_qualified, hothers]
        exact ⟨_, rfl⟩

theorem isWordChar_getLast? {names : List (List Char)} (hnames : AreWords names)
    {name : List Char} (hname : name ∈ names) :
    name.getLast?.any Text.isWordChar = true := by
  rcases hnames name hname with ⟨hnonempty, hword⟩
  rw [List.getLast?_eq_some_getLast hnonempty]
  exact List.all_eq_true.mp hword _ (List.getLast_mem hnonempty)

theorem startingAt?_word {names : List (List Char)} (hnames : AreWords names)
    {chars rest : List Char} (hchars : chars ∈ names)
    (hrest : rest.head?.any Text.isWordChar = false) :
    startingAt? names (chars ++ rest) = some (chars, rest) := by
  have hsearch : startingAt? names (chars ++ rest) =
      if chars ∈ names then some (chars, rest) else none := by
    apply Text.findSome?_eq_ite
    intro name hname
    have hlast := isWordChar_getLast? hnames hname
    cases hafter : Text.after? name (chars ++ rest) with
    | none =>
        have hne : name ≠ chars := by
          rintro rfl
          rw [Text.after?_append] at hafter
          cases hafter
        rw [if_neg hne]
    | some left =>
        rcases Text.append_of_after? (hnames name hname).2 hrest hafter with ⟨more, rfl, rfl⟩
        cases more with
        | nil =>
            have hboundary : Text.isWordBoundary name.getLast? rest.head? = true := by
              rw [Text.isWordBoundary, hlast, hrest]
              rfl
            rw [List.append_nil, if_pos rfl]
            exact if_pos hboundary
        | cons c tail =>
            have hc : Text.isWordChar c = true := by
              apply List.all_eq_true.mp (hnames _ hchars).2
              exact List.mem_append_right name List.mem_cons_self
            have hboundary : ¬ Text.isWordBoundary name.getLast? (some c) = true := by
              rw [Text.isWordBoundary, hlast, Option.any_some, hc]
              exact Bool.false_ne_true
            have hne : name ≠ name ++ c :: tail := by
              intro heq
              cases List.append_right_eq_self.mp heq.symm
            rw [if_neg hne]
            exact if_neg hboundary
  rw [hsearch, if_pos hchars]

/-- The annotation is recognised, whatever its qualifier, and its name is found. -/
theorem afterAtSign?_qualified {names : List (List Char)} (hnames : AreWords names)
    {identifier : Identifier} (hmem : identifier.chars ∈ names) (qualifier : List Segment)
    (gap : Gap) (rest : List Char) :
    afterAtSign? names ('@' :: (qualifier.flatMap Segment.text ++
        (identifier.chars ++ (gap.spaces ++ '(' :: rest)))) =
      some (identifier.chars, gap.spaces ++ '(' :: rest) := by
  have hbreaks : Breaks (gap.spaces ++ '(' :: rest) := breaks_spaces gap rfl
  rcases starts_qualified (afterSegment?_name identifier gap rest) qualifier with
    ⟨others, hothers⟩
  rw [afterAtSign?, hothers, List.findSome?_cons, startingAt?_word hnames hmem hbreaks.not_word]

end Written
end EndpointTrace
