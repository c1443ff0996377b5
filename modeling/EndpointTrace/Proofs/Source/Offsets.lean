import EndpointTrace.Source.Document

/-!
# Offsets grow with positions

Every line of a document starts between two characters, and later lines start later.  A
position is clamped to the end of its line and rounded down to the start of a character,
and neither moves it before the start of its line; so the order of positions is the order
of the offsets they name.
-/

namespace EndpointTrace

/-!
## Boundaries
-/

namespace Text

theorem floorBoundary_le (n : Nat) (cs : List Char) : floorBoundary n cs ≤ n :=
  byteSize_takeBytes_le n cs

theorem floorBoundary_le_byteSize (n : Nat) (cs : List Char) :
    floorBoundary n cs ≤ byteSize cs := by
  have hsplit := byteSize_append (takeBytes n cs) (dropBytes n cs)
  rw [takeBytes_append_dropBytes] at hsplit
  rw [floorBoundary]
  omega

theorem floorBoundary_mono {m n : Nat} (hle : m ≤ n) (cs : List Char) :
    floorBoundary m cs ≤ floorBoundary n cs := by
  unfold floorBoundary
  induction cs generalizing m n with
  | nil =>
      exact Nat.le_refl _
  | cons c rest ih =>
      by_cases hm : c.utf8Size ≤ m
      · have hn : c.utf8Size ≤ n := Nat.le_trans hm hle
        rw [takeBytes, takeBytes, if_pos hm, if_pos hn, byteSize, byteSize]
        exact Nat.add_le_add_left (ih (Nat.sub_le_sub_right hle _)) _
      · rw [takeBytes, if_neg hm, byteSize]
        exact Nat.zero_le _

theorem floorBoundary_append (cs ds : List Char) :
    floorBoundary (byteSize cs) (cs ++ ds) = byteSize cs := by
  rw [floorBoundary, takeBytes_byteSize_append]

theorem exists_piece {cs ds es fs : List Char} (hsame : cs ++ ds = es ++ fs)
    (hle : byteSize cs ≤ byteSize es) : ∃ piece, es = cs ++ piece ∧ ds = piece ++ fs := by
  rcases List.append_eq_append_iff.mp hsame with hpiece | ⟨piece, rfl, rfl⟩
  · exact hpiece
  · rw [byteSize_append] at hle
    cases piece with
    | nil =>
        exact ⟨[], by simp only [List.append_nil], rfl⟩
    | cons c rest =>
        have hpos := c.utf8Size_pos
        rw [byteSize] at hle
        omega

end Text

/-!
## Lines
-/

theorem exists_of_mem_lineStartsAfter {offset start : Nat} {cs : List Char}
    (hstart : start ∈ lineStartsAfter offset cs) :
    ∃ before after, cs = before ++ after ∧ before ≠ [] ∧
      start = offset + Text.byteSize before := by
  induction cs generalizing offset with
  | nil =>
      cases hstart
  | cons c rest ih =>
      have hlater : start ∈ lineStartsAfter (offset + c.utf8Size) rest →
          ∃ before after, c :: rest = before ++ after ∧ before ≠ [] ∧
            start = offset + Text.byteSize before := by
        intro hmem
        rcases ih hmem with ⟨before, after, rfl, _, rfl⟩
        exact ⟨c :: before, after, rfl, List.cons_ne_nil c before, by
          rw [Text.byteSize, Nat.add_assoc]⟩
      rw [lineStartsAfter] at hstart
      split at hstart
      · rcases List.mem_cons.mp hstart with rfl | hmem
        · exact ⟨[c], rest, rfl, List.cons_ne_nil c [], rfl⟩
        · exact hlater hmem
      · exact hlater hstart

theorem lt_of_mem_lineStartsAfter {offset start : Nat} {cs : List Char}
    (hstart : start ∈ lineStartsAfter offset cs) : offset < start := by
  rcases exists_of_mem_lineStartsAfter hstart with ⟨before, after, _, hne, rfl⟩
  cases before with
  | nil =>
      exact absurd rfl hne
  | cons c rest =>
      have hpos := c.utf8Size_pos
      rw [Text.byteSize]
      omega

theorem pairwise_lineStartsAfter (offset : Nat) (cs : List Char) :
    (lineStartsAfter offset cs).Pairwise (· < ·) := by
  induction cs generalizing offset with
  | nil =>
      exact List.Pairwise.nil
  | cons c rest ih =>
      rw [lineStartsAfter]
      split
      · apply List.pairwise_cons.mpr
        exact ⟨fun start hstart => lt_of_mem_lineStartsAfter hstart, ih _⟩
      · exact ih _

namespace Document

variable (document : Document)

theorem pairwise_lineStarts : document.lineStarts.Pairwise (· < ·) := by
  rw [document.lineStarts_eq]
  apply List.pairwise_cons.mpr
  exact ⟨fun start hstart => lt_of_mem_lineStartsAfter hstart, pairwise_lineStartsAfter _ _⟩

theorem lineStart_lt {i j start later : Nat} (hij : i < j)
    (hstart : document.lineStarts[i]? = some start)
    (hlater : document.lineStarts[j]? = some later) : start < later := by
  rcases List.getElem?_eq_some_iff.mp hstart with ⟨hi, rfl⟩
  rcases List.getElem?_eq_some_iff.mp hlater with ⟨hj, rfl⟩
  exact List.pairwise_iff_getElem.mp document.pairwise_lineStarts i j hi hj hij

theorem exists_lineStart {line start : Nat} (hstart : document.lineStarts[line]? = some start) :
    ∃ before after, document.chars = before ++ after ∧ start = Text.byteSize before := by
  have hmem := List.mem_of_getElem? hstart
  rw [document.lineStarts_eq] at hmem
  rcases List.mem_cons.mp hmem with rfl | hmem
  · exact ⟨[], document.chars, rfl, rfl⟩
  · rcases exists_of_mem_lineStartsAfter hmem with ⟨before, after, hchars, _, hsize⟩
    exact ⟨before, after, hchars, by rw [hsize, Nat.zero_add]⟩

theorem floorBoundary_lineStart {line start : Nat}
    (hstart : document.lineStarts[line]? = some start) :
    Text.floorBoundary start document.chars = start := by
  rcases document.exists_lineStart hstart with ⟨before, after, hchars, rfl⟩
  rw [hchars, Text.floorBoundary_append]

theorem lineStart_le_size {line start : Nat}
    (hstart : document.lineStarts[line]? = some start) : start ≤ document.size := by
  rcases document.exists_lineStart hstart with ⟨before, after, hchars, rfl⟩
  rw [document.size_eq, hchars, Text.byteSize_append]
  omega

/-- Where the text of a line ends, its line feed left out. -/
def lineEnd (line : Nat) : Nat :=
  match document.lineStarts[line + 1]? with
  | some next => next - 1
  | none => document.size

theorem lineStart_le_lineEnd {line start : Nat}
    (hstart : document.lineStarts[line]? = some start) : start ≤ document.lineEnd line := by
  rw [lineEnd]
  cases hnext : document.lineStarts[line + 1]? with
  | none =>
      exact document.lineStart_le_size hstart
  | some next =>
      have hlt := document.lineStart_lt (Nat.lt_succ_self line) hstart hnext
      exact Nat.le_sub_one_of_lt hlt

/-!
## Offsets
-/

theorem offsetOf_of_line {position : Position} {start : Nat}
    (hstart : document.lineStarts[position.line]? = some start) :
    document.offsetOf position =
      Text.floorBoundary (min (start + position.character) (document.lineEnd position.line))
        document.chars := by
  rw [offsetOf, hstart]
  rfl

theorem offsetOf_of_no_line {position : Position}
    (hstart : document.lineStarts[position.line]? = none) :
    document.offsetOf position = document.size := by
  rw [offsetOf, hstart]

theorem offsetOf_le_size (position : Position) :
    document.offsetOf position ≤ document.size := by
  cases hstart : document.lineStarts[position.line]? with
  | none =>
      exact Nat.le_of_eq (document.offsetOf_of_no_line hstart)
  | some start =>
      rw [document.offsetOf_of_line hstart, document.size_eq]
      exact Text.floorBoundary_le_byteSize _ _

theorem offsetOf_le_lineEnd {position : Position} {start : Nat}
    (hstart : document.lineStarts[position.line]? = some start) :
    document.offsetOf position ≤ document.lineEnd position.line := by
  rw [document.offsetOf_of_line hstart]
  exact Nat.le_trans (Text.floorBoundary_le _ _) (Nat.min_le_right _ _)

theorem lineStart_le_offsetOf {position : Position} {start : Nat}
    (hstart : document.lineStarts[position.line]? = some start) :
    start ≤ document.offsetOf position := by
  have hle : start ≤ min (start + position.character) (document.lineEnd position.line) :=
    Nat.le_min.mpr ⟨Nat.le_add_right _ _, document.lineStart_le_lineEnd hstart⟩
  rw [document.offsetOf_of_line hstart]
  calc start = Text.floorBoundary start document.chars :=
        (document.floorBoundary_lineStart hstart).symm
    _ ≤ _ := Text.floorBoundary_mono hle document.chars

theorem lineEnd_le_lineStart {line later start : Nat} (hline : line < later)
    (hstart : document.lineStarts[later]? = some start) : document.lineEnd line ≤ start := by
  have hlength := (List.getElem?_eq_some_iff.mp hstart).1
  have hnext : line + 1 < document.lineStarts.length := Nat.lt_of_le_of_lt hline hlength
  rw [lineEnd, List.getElem?_eq_getElem hnext]
  rcases Nat.lt_or_eq_of_le (Nat.succ_le_of_lt hline) with hlt | heq
  · have hle := document.lineStart_lt hlt (List.getElem?_eq_getElem hnext) hstart
    exact Nat.le_trans (Nat.sub_le _ _) (Nat.le_of_lt hle)
  · have hsame : some document.lineStarts[line + 1] = some start := by
      rw [← hstart, ← heq, List.getElem?_eq_getElem hnext]
    rw [← Option.some.inj hsame]
    exact Nat.sub_le _ _

theorem offsetOf_mono {a b : Position} (hle : a ≤ b) :
    document.offsetOf a ≤ document.offsetOf b := by
  cases hb : document.lineStarts[b.line]? with
  | none =>
      rw [document.offsetOf_of_no_line hb]
      exact document.offsetOf_le_size a
  | some start =>
      rcases Position.le_def.mp hle with hline | ⟨hline, hcharacter⟩
      · have hlength := (List.getElem?_eq_some_iff.mp hb).1
        have ha := List.getElem?_eq_getElem (Nat.lt_trans hline hlength)
        calc document.offsetOf a ≤ document.lineEnd a.line := document.offsetOf_le_lineEnd ha
          _ ≤ start := document.lineEnd_le_lineStart hline hb
          _ ≤ document.offsetOf b := document.lineStart_le_offsetOf hb
      · have ha : document.lineStarts[a.line]? = some start := by
          rw [hline]
          exact hb
        rw [document.offsetOf_of_line ha, document.offsetOf_of_line hb, hline]
        apply Text.floorBoundary_mono
        omega

/-!
## Pieces of text
-/

theorem exists_offsetOf (position : Position) :
    ∃ before after, document.chars = before ++ after ∧
      document.offsetOf position = Text.byteSize before := by
  cases hstart : document.lineStarts[position.line]? with
  | none =>
      refine ⟨document.chars, [], (List.append_nil _).symm, ?_⟩
      rw [document.offsetOf_of_no_line hstart, document.size_eq]
  | some start =>
      have hcut := Text.takeBytes_append_dropBytes
        (min (start + position.character) (document.lineEnd position.line)) document.chars
      exact ⟨_, _, hcut.symm, document.offsetOf_of_line hstart⟩

theorem textIn_of_cut {range : Range} {before piece after : List Char}
    (hchars : document.chars = before ++ (piece ++ after))
    (hstart : document.offsetOf range.start = Text.byteSize before)
    (hstop : document.offsetOf range.stop = Text.byteSize before + Text.byteSize piece) :
    document.textIn range = piece := by
  rw [textIn, Text.slice, hchars, hstart, hstop, Nat.add_sub_cancel_left,
    Text.dropBytes_byteSize_append, Text.takeBytes_byteSize_append]

/-- The text between two positions is put together from the text up to a position between
them and the text from there on. -/
theorem textIn_append {a b c : Position} (hab : a ≤ b) (hbc : b ≤ c) :
    document.textIn ⟨a, b⟩ ++ document.textIn ⟨b, c⟩ = document.textIn ⟨a, c⟩ := by
  rcases document.exists_offsetOf a with ⟨first, behindFirst, hfirst, ha⟩
  rcases document.exists_offsetOf b with ⟨second, behindSecond, hsecond, hb⟩
  rcases document.exists_offsetOf c with ⟨third, behindThird, hthird, hc⟩
  have hstart := document.offsetOf_mono hab
  have hstop := document.offsetOf_mono hbc
  rw [ha, hb] at hstart
  rw [hb, hc] at hstop
  rcases Text.exists_piece (hfirst.symm.trans hsecond) hstart with ⟨left, rfl, hleft⟩
  rcases Text.exists_piece (hsecond.symm.trans hthird) hstop with ⟨right, rfl, hright⟩
  rw [Text.byteSize_append] at hb hc
  have hwhole : document.chars = first ++ ((left ++ right) ++ behindThird) := by
    rw [hthird]
    simp only [List.append_assoc]
  have hsize : document.offsetOf c =
      Text.byteSize first + Text.byteSize (left ++ right) := by
    rw [hc, Text.byteSize_append, Text.byteSize_append, Nat.add_assoc]
  rw [document.textIn_of_cut (hleft ▸ hfirst) ha hb,
    document.textIn_of_cut (hright ▸ hsecond) (hb.trans (Text.byteSize_append _ _).symm) hc,
    document.textIn_of_cut hwhole ha hsize]

end Document
end EndpointTrace
