import EndpointTrace.Proofs.Route.AnnotationSearch
import EndpointTrace.Proofs.Text.Seams

/-!
# Annotations across a seam

White space may stand around every dot of a qualified name, and it ends every word.  So where
an annotation is found in a text with a seam does not depend on the seam.
-/

namespace EndpointTrace

namespace AnnotationName

open Text (Seam Steady)

/-- Names of word characters; the empty name counts as one. -/
def OfWordChars (names : List (List Char)) : Prop :=
  ∀ name ∈ names, name.all Text.isWordChar = true

/-!
## Candidates
-/

theorem isNameStart_of_isBlank {c : Char} (hblank : Text.isBlank c = true) :
    isNameStart c = false := by
  cases hstart : isNameStart c with
  | false =>
      rfl
  | true =>
      have hpart := Text.isNamePart_of_isNameStart hstart
      rw [Text.isNamePart_of_isBlank hblank] at hpart
      cases hpart

theorem head?_append_any {p : Char → Bool} {rest : List Char}
    (hrest : rest.head?.any p = false) (cs : List Char) :
    (cs ++ rest).head?.any p = cs.head?.any p := by
  cases cs with
  | nil =>
      exact hrest
  | cons c tail =>
      rfl

theorem dropWhile_append_of_head {p : Char → Bool} {rest : List Char}
    (hrest : rest.head?.any p = false) (cs : List Char) :
    (cs ++ rest).dropWhile p = cs.dropWhile p ++ rest := by
  induction cs with
  | nil =>
      cases rest with
      | nil =>
          rfl
      | cons c tail =>
          have hc : p c = false := hrest
          exact List.dropWhile_cons_of_neg (by rw [hc]; exact Bool.false_ne_true)
  | cons c tail ih =>
      rw [List.cons_append, List.dropWhile_cons, List.dropWhile_cons, ih]
      split <;> rfl

section

variable {names : List (List Char)}

theorem eq_append_of_startingAt? {cs name left : List Char}
    (hfound : startingAt? names cs = some (name, left)) : name ∈ names ∧ cs = name ++ left := by
  rcases List.exists_of_findSome?_eq_some hfound with ⟨wanted, hwanted, hmatch⟩
  split at hmatch
  · rename_i rest hafter
    split at hmatch
    · cases hmatch
      exact ⟨hwanted, Text.eq_append_of_after? hafter⟩
    · cases hmatch
  · cases hmatch

theorem isWordBoundary_of_startingAt? {cs name left : List Char}
    (hfound : startingAt? names cs = some (name, left)) :
    Text.isWordBoundary name.getLast? left.head? = true := by
  rcases List.exists_of_findSome?_eq_some hfound with ⟨wanted, _, hmatch⟩
  split at hmatch
  · split at hmatch
    · rename_i hboundary
      cases hmatch
      exact hboundary
    · cases hmatch
  · cases hmatch

/-- A name ends where a word ends. -/
theorem startingAt?_append (hnames : OfWordChars names) {rest : List Char}
    (hrest : rest.head?.any Text.isWordChar = false) (cs : List Char) :
    startingAt? names (cs ++ rest) =
      (startingAt? names cs).map fun entry => (entry.1, entry.2 ++ rest) := by
  unfold startingAt?
  induction names with
  | nil =>
      rfl
  | cons name others ih =>
      have hothers := ih fun other hother => hnames other (List.mem_cons_of_mem name hother)
      have hname := hnames name List.mem_cons_self
      rw [List.findSome?_cons, List.findSome?_cons, hothers,
        Text.after?_append_of_break hname hrest]
      cases Text.after? name cs with
      | none =>
          rfl
      | some left =>
          have hboundary : Text.isWordBoundary name.getLast? (left ++ rest).head? =
              Text.isWordBoundary name.getLast? left.head? := by
            rw [Text.isWordBoundary, Text.isWordBoundary, head?_append_any hrest]
          simp only [Option.map_some, hboundary]
          by_cases hends : Text.isWordBoundary name.getLast? left.head? = true
          · simp only [if_pos hends, Option.map_some]
          · simp only [if_neg hends]

theorem startingAt?_nil : startingAt? names [] = none := by
  apply List.findSome?_eq_none_iff.mpr
  intro name _
  cases name <;> rfl

theorem startingAt?_of_isBlank (hnames : OfWordChars names) {c : Char}
    (hc : Text.isBlank c = true) (rest : List Char) :
    startingAt? names (c :: rest) = none := by
  have hbreak : (c :: rest).head?.any Text.isWordChar = false :=
    Text.isWordChar_of_not_namePart (Text.isNamePart_of_isBlank hc)
  have hall := startingAt?_append hnames hbreak []
  rw [startingAt?_nil] at hall
  exact hall

end

theorem blankEnds_ne_nil (cs : List Char) : blankEnds cs ≠ [] := by
  cases cs with
  | nil =>
      exact List.cons_ne_nil _ _
  | cons c rest =>
      rw [blankEnds]
      split
      · exact List.append_ne_nil_of_right_ne_nil _ (List.cons_ne_nil _ _)
      · exact List.cons_ne_nil _ _

theorem suffix_of_mem_blankEnds {cs start : List Char} (hstart : start ∈ blankEnds cs) :
    start <:+ cs := by
  induction cs with
  | nil =>
      exact List.mem_singleton.mp hstart ▸ List.suffix_rfl
  | cons c rest ih =>
      rw [blankEnds] at hstart
      split at hstart
      · rcases List.mem_append.mp hstart with hlater | hwhole
        · exact (ih hlater).trans (List.suffix_cons c rest)
        · exact List.mem_singleton.mp hwhole ▸ List.suffix_rfl
      · exact List.mem_singleton.mp hstart ▸ List.suffix_rfl

theorem isBlank_of_mem_blankEnds {cs start : List Char}
    (hstart : start ∈ (blankEnds cs).drop 1) :
    ∃ c rest, start = c :: rest ∧ Text.isBlank c = true := by
  induction cs with
  | nil =>
      cases hstart
  | cons c rest ih =>
      rw [blankEnds] at hstart
      split at hstart
      · rename_i hblank
        have hsome : 1 ≤ (blankEnds rest).length :=
          List.length_pos_iff.mpr (blankEnds_ne_nil rest)
        rw [List.drop_append_of_le_length hsome] at hstart
        rcases List.mem_append.mp hstart with hlater | hwhole
        · exact ih hlater
        · exact ⟨c, rest, List.mem_singleton.mp hwhole, hblank⟩
      · cases hstart

theorem suffix_of_afterSegment? {cs left : List Char} (hfound : afterSegment? cs = some left) :
    left <:+ cs := by
  unfold afterSegment? at hfound
  split at hfound
  · cases hfound
  · rename_i c rest
    split at hfound
    · split at hfound
      · rename_i behind hdot
        cases hfound
        have htrimmed := Text.trimStart_suffix (rest.dropWhile isNamePart)
        rw [hdot] at htrimmed
        exact ((List.suffix_cons '.' left).trans htrimmed).trans
          ((List.dropWhile_suffix isNamePart).trans (List.suffix_cons c rest))
      · cases hfound
    · cases hfound

theorem suffix_of_mem_starts {cs start : List Char} (hstart : start ∈ starts cs) :
    start <:+ cs := by
  fun_induction starts cs with
  | case1 cs hnone =>
      exact List.mem_singleton.mp hstart ▸ List.suffix_rfl
  | case2 cs left hsome ih =>
      have hleft := suffix_of_afterSegment? hsome
      rcases List.mem_append.mp hstart with hstart | hwhole
      · rcases List.mem_append.mp hstart with hinner | hblank
        · exact ((ih hinner).trans (Text.trimStart_suffix left)).trans hleft
        · exact (suffix_of_mem_blankEnds (List.mem_of_mem_drop hblank)).trans hleft
      · exact List.mem_singleton.mp hwhole ▸ List.suffix_rfl

/-!
## Qualified names
-/

/-- A name behind any qualifier, the longest first. -/
def search (names : List (List Char)) (cs : List Char) : Option (List Char × List Char) :=
  (starts cs).findSome? (startingAt? names)

section

variable {names : List (List Char)}

theorem afterAtSign?_eq (rest : List Char) :
    afterAtSign? names ('@' :: rest) = search names rest :=
  rfl

theorem eq_append_of_search {cs name left : List Char}
    (hfound : search names cs = some (name, left)) :
    name ∈ names ∧ ∃ qualifier, cs = qualifier ++ (name ++ left) := by
  rcases List.exists_of_findSome?_eq_some hfound with ⟨start, hstart, hmatch⟩
  rcases eq_append_of_startingAt? hmatch with ⟨hname, rfl⟩
  rcases suffix_of_mem_starts hstart with ⟨qualifier, hqualifier⟩
  exact ⟨hname, qualifier, hqualifier.symm⟩

theorem eq_append_of_afterAtSign? {cs name left : List Char}
    (hfound : afterAtSign? names cs = some (name, left)) :
    name ∈ names ∧ ∃ qualifier, cs = '@' :: (qualifier ++ (name ++ left)) := by
  cases cs with
  | nil =>
      cases hfound
  | cons c rest =>
      by_cases hc : c = '@'
      · rw [hc, afterAtSign?_eq] at hfound
        rcases eq_append_of_search hfound with ⟨hname, qualifier, rfl⟩
        exact ⟨hname, qualifier, by rw [hc]⟩
      · rw [Written.afterAtSign?_of_ne hc] at hfound
        cases hfound

theorem exists_start_of_mem_all {live : List Char} {entry : List Char × List Char}
    (hentry : entry ∈ all names live) :
    ∃ start, start <:+ live ∧ startingAt? names start = some entry := by
  rcases Text.exists_start_of_mem_occurrences hentry with ⟨cs, hcs, hmatch⟩
  unfold afterAtSign? at hmatch
  split at hmatch
  · rename_i behind
    rcases List.exists_of_findSome?_eq_some hmatch with ⟨start, hstart, hfound⟩
    exact ⟨start, (suffix_of_mem_starts hstart).trans ((List.suffix_cons '@' behind).trans hcs),
      hfound⟩
  · cases hmatch

theorem suffix_of_afterAtSign? (cs name left : List Char)
    (hfound : afterAtSign? names cs = some (name, left)) : left <:+ cs.tail := by
  rcases eq_append_of_afterAtSign? hfound with ⟨_, qualifier, rfl⟩
  exact (List.suffix_append name left).trans (List.suffix_append qualifier _)

theorem search_eq (hnames : OfWordChars names) (cs : List Char) :
    search names cs =
      match afterSegment? cs with
      | none => startingAt? names cs
      | some left => (search names (Text.trimStart left)).or (startingAt? names cs) := by
  rw [search, starts]
  split
  · rename_i hnone
    rw [hnone, List.findSome?_singleton]
  · rename_i left hsome
    have hblanks : ((blankEnds left).drop 1).findSome? (startingAt? names) = none := by
      apply List.findSome?_eq_none_iff.mpr
      intro start hstart
      rcases isBlank_of_mem_blankEnds hstart with ⟨c, rest, rfl, hc⟩
      exact startingAt?_of_isBlank hnames hc rest
    rw [hsome, List.findSome?_append, List.findSome?_append, hblanks, Option.or_none,
      List.findSome?_singleton]
    rfl

end

/-!
## Names across a seam
-/

section Seams

variable {back : List Char}

def behindDot? : List Char → Option (List Char)
  | '.' :: left => some left
  | _ => none

theorem behindDot?_of_ne {c : Char} (hc : c ≠ '.') (rest : List Char) :
    behindDot? (c :: rest) = none := by
  unfold behindDot?
  split
  · rename_i heq
    exact absurd (List.cons.inj heq).1 hc
  · rfl

theorem afterSegment?_cons (c : Char) (rest : List Char) :
    afterSegment? (c :: rest) =
      if isNameStart c then behindDot? (Text.trimStart (rest.dropWhile isNamePart))
      else none := by
  rw [afterSegment?]
  rfl

theorem suffix_of_behindDot? {cs left : List Char} (hfound : behindDot? cs = some left) :
    left <:+ cs := by
  unfold behindDot? at hfound
  split at hfound
  · cases hfound
    exact List.suffix_cons '.' left
  · cases hfound

theorem afterSegment?_seam (front back : List Char) :
    (∀ gap, Seam back gap → afterSegment? (front ++ (gap ++ back)) = none) ∨
      (∃ left, left.length < front.length ∧
        ∀ gap, Seam back gap → afterSegment? (front ++ (gap ++ back)) =
          some (left ++ (gap ++ back))) ∨
      ∃ left, left <:+ back ∧
        ∀ gap, Seam back gap → afterSegment? (front ++ (gap ++ back)) = some left := by
  cases front with
  | nil =>
      left
      intro gap hseam
      have hhead := hseam.head?_append fun _ => isNameStart_of_isBlank
      rw [List.nil_append]
      cases hall : gap ++ back with
      | nil =>
          rfl
      | cons c rest =>
          rw [hall, List.head?_cons, Option.any_some] at hhead
          rw [afterSegment?_cons, hhead]
          rfl
  | cons c rest =>
      cases hstart : isNameStart c with
      | false =>
          left
          intro gap _
          rw [List.cons_append, afterSegment?_cons, hstart]
          rfl
      | true =>
          have hsegment : ∀ gap, Seam back gap → afterSegment? (c :: rest ++ (gap ++ back)) =
              behindDot? (Text.trimStart (rest.dropWhile isNamePart ++ (gap ++ back))) := by
            intro gap hseam
            rw [List.cons_append, afterSegment?_cons, if_pos hstart,
              dropWhile_append_of_head hseam.not_namePart]
          rcases Text.trimStart_cases (rest.dropWhile isNamePart) with
            hblank | ⟨d, left, _, hsuffix, htrim⟩
          · have hbehind : ∀ gap, Seam back gap →
                afterSegment? (c :: rest ++ (gap ++ back)) = behindDot? (Text.trimStart back) := by
              intro gap hseam
              rw [hsegment gap hseam, Text.trimStart_append_blank hblank,
                hseam.trimStart_append]
            cases hdot : behindDot? (Text.trimStart back) with
            | none =>
                rw [hdot] at hbehind
                exact Or.inl hbehind
            | some left =>
                rw [hdot] at hbehind
                have hleft := suffix_of_behindDot? hdot
                exact Or.inr (Or.inr ⟨left, hleft.trans (Text.trimStart_suffix back), hbehind⟩)
          · by_cases hd : d = '.'
            · right
              left
              refine ⟨left, ?_, ?_⟩
              · have hle := (hsuffix.trans (List.dropWhile_suffix isNamePart)).length_le
                rw [List.length_cons] at hle ⊢
                omega
              · intro gap hseam
                rw [hsegment gap hseam, htrim, hd]
                rfl
            · left
              intro gap hseam
              rw [hsegment gap hseam, htrim, behindDot?_of_ne hd]

variable {names : List (List Char)} (hnames : OfWordChars names)

include hnames

theorem steady_startingAt? (front : List Char) :
    Steady back fun gap => startingAt? names (front ++ (gap ++ back)) := by
  apply (Steady.ofFront (startingAt? names front)).congr
  intro gap hseam
  exact startingAt?_append hnames hseam.not_word front

theorem steady_search (front : List Char) :
    Steady back fun gap => search names (front ++ (gap ++ back)) := by
  -- The search goes on behind a segment, so the induction is on the length.
  induction hsize : front.length using Nat.strongRecOn generalizing front with
  | ind size ih =>
      have hhere : Steady back fun gap => startingAt? names (front ++ (gap ++ back)) :=
        steady_startingAt? hnames front
      have hbehind : ∀ start, start <:+ back → Steady back fun _ => search names start := by
        intro start hstart
        apply Steady.ofBack
        intro entry hentry
        rcases (eq_append_of_search (Option.mem_def.mp hentry)).2 with ⟨qualifier, hall⟩
        have hleft : entry.2 <:+ start := by
          rw [hall]
          exact (List.suffix_append entry.1 entry.2).trans (List.suffix_append qualifier _)
        exact hleft.trans hstart
      rcases afterSegment?_seam front back with hnone | ⟨left, hless, hleft⟩ |
        ⟨left, hsuffix, hleft⟩
      · apply hhere.congr
        intro gap hseam
        rw [search_eq hnames, hnone gap hseam]
      · have hinner : Steady back fun gap =>
            search names (Text.trimStart (left ++ (gap ++ back))) := by
          rcases Text.trimStart_cases left with hblank | ⟨c, rest, _, hsuffix, htrim⟩
          · apply (hbehind _ (Text.trimStart_suffix back)).congr
            intro gap hseam
            rw [Text.trimStart_append_blank hblank, hseam.trimStart_append]
          · have hle := hsuffix.length_le
            apply (ih (c :: rest).length (by omega) (c :: rest) rfl).congr
            intro gap _
            rw [htrim, List.cons_append]
        apply (hinner.or hhere).congr
        intro gap hseam
        rw [search_eq hnames, hleft gap hseam]
      · have hstart := (Text.trimStart_suffix left).trans hsuffix
        apply ((hbehind _ hstart).or hhere).congr
        intro gap hseam
        rw [search_eq hnames, hleft gap hseam]

theorem steady_afterAtSign? (front : List Char) :
    Steady back fun gap => afterAtSign? names (front ++ (gap ++ back)) := by
  cases front with
  | nil =>
      apply Steady.nothing
      intro gap hseam
      have hsign : ∀ c, Text.isBlank c = true → (c == '@') = false := by
        intro c hc
        exact beq_eq_false_iff_ne.mpr (Text.ne_of_isBlank hc rfl)
      have hhead := hseam.head?_append hsign
      rw [List.nil_append]
      cases hall : gap ++ back with
      | nil =>
          rfl
      | cons c rest =>
          rw [hall, List.head?_cons, Option.any_some, beq_eq_false_iff_ne] at hhead
          exact Written.afterAtSign?_of_ne hhead rest
  | cons c rest =>
      by_cases hc : c = '@'
      · rw [hc]
        exact steady_search hnames rest
      · exact .nothing fun gap _ => Written.afterAtSign?_of_ne hc _

/-- The annotations of a text with a seam. -/
theorem all_seam (front back : List Char) :
    ∃ early late : List (List Char × List Char), (∀ entry ∈ late, entry.2 <:+ back) ∧
      ∀ gap, Seam back gap → all names (front ++ (gap ++ back)) =
        early.map (fun entry => (entry.1, entry.2 ++ (gap ++ back))) ++ late := by
  apply Text.occurrences_seam suffix_of_afterAtSign?
  · exact fun c rest hc => Written.afterAtSign?_of_ne (Text.ne_of_isBlank hc rfl) rest
  · exact fun part _ => steady_afterAtSign? hnames part

theorem steady_getLast?_all (front : List Char) :
    Steady back fun gap => (all names (front ++ (gap ++ back))).getLast? := by
  rcases all_seam hnames front back with ⟨early, late, hlate, hall⟩
  have hbehind : Steady back fun _ => late.getLast? := by
    apply Steady.ofBack
    exact fun entry hentry => hlate entry (List.mem_of_getLast? (Option.mem_def.mp hentry))
  apply (hbehind.or (Steady.ofFront early.getLast?)).congr
  intro gap hseam
  rw [hall gap hseam, List.getLast?_append, List.getLast?_map]

end Seams

end AnnotationName

end EndpointTrace
